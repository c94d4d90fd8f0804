import TemplateSync.Hex

set_option autoImplicit false

namespace TemplateSync.Toml

inductive Token where
  | blank (text : List Char)
  | newline
  | comment
  | equals
  | period
  | comma
  | colon
  | plus
  | openBrace
  | closeBrace
  | openBracket
  | closeBracket
  | bare (text : List Char)
  | text (value : List Char) (multiline : Bool)
  deriving DecidableEq

def foldLines : List Char → List Char → List Char
  | '\r' :: '\n' :: rest, done => foldLines rest ('\n' :: done)
  | c :: rest, done => foldLines rest (c :: done)
  | [], done => done.reverse

def withoutMark : List Char → List Char
  | '\uFEFF' :: rest => rest
  | chars => chars

def isBlank (c : Char) : Bool := c == ' ' || c == '\t'

def isBare (c : Char) : Bool := c.isAlphanum || c == '-' || c == '_'

def mayStandInComment (c : Char) : Bool := c == '\t' || 0x20 ≤ c.toNat

def mayStandInText (c : Char) : Bool := c == '\t' || (0x20 ≤ c.toNat && c.toNat != 0x7F)

def isScalar (code : Nat) : Bool := code < 0xD800 || (0xE000 ≤ code && code < 0x110000)

def numbered? (count : Nat) (chars : List Char) : Option (Char × List Char) :=
  if chars.length < count then none
  else match (chars.take count).mapM Hex.digit? with
    | some digits =>
      let code := Hex.value digits
      if isScalar code then some (Char.ofNat code, chars.drop count) else none
    | none => none

-- After a backslash, blanks up to the end of a line, and all blanks of the next lines.
def continuation? (c : Char) (rest : List Char) : Option (List Char) :=
  let skip (chars : List Char) : List Char := chars.dropWhile fun c => isBlank c || c == '\n'
  if c = '\n' then some (skip rest)
  else match rest.dropWhile isBlank with
    | [] => some []
    | '\n' :: rest => some (skip rest)
    | _ => none

def escape? (multiline : Bool) : List Char → Option (List Char × List Char)
  | '"' :: rest => some (['"'], rest)
  | '\\' :: rest => some (['\\'], rest)
  | 'b' :: rest => some (['\x08'], rest)
  | 'f' :: rest => some (['\x0c'], rest)
  | 'n' :: rest => some (['\n'], rest)
  | 'r' :: rest => some (['\r'], rest)
  | 't' :: rest => some (['\t'], rest)
  | 'u' :: rest => (numbered? 4 rest).map fun (c, rest) => ([c], rest)
  | 'U' :: rest => (numbered? 8 rest).map fun (c, rest) => ([c], rest)
  | c :: rest =>
    if multiline && (isBlank c || c = '\n') then (continuation? c rest).map fun rest => ([], rest)
    else none
  | [] => none

-- Two more quotes may stand before the three that end a text of several lines.
def closing? (quote : Char) (chars : List Char) : Option (List Char × List Char) :=
  match chars with
  | a :: b :: c :: rest =>
    if a = quote && b = quote && c = quote then
      match rest with
      | d :: e :: after =>
        if d = quote && e = quote then some ([quote, quote], after)
        else if d = quote then some ([quote], e :: after)
        else some ([], rest)
      | [d] => if d = quote then some ([quote], []) else some ([], [d])
      | [] => some ([], [])
    else none
  | _ => none

-- The value of a text after its opening quotes; `escapes` tells the basic kind from the literal one.
def textOf? (quote : Char) (escapes multiline : Bool) :
    Nat → List Char → List Char → Option (List Char × List Char)
  | 0, _, _ => none
  | _ + 1, [], _ => none
  | fuel + 1, c :: rest, done =>
    if c = '\n' then
      if multiline then textOf? quote escapes multiline fuel rest ('\n' :: done) else none
    else if c = quote then
      if multiline then
        match closing? quote (c :: rest) with
        | some (quotes, rest) => some ((quotes ++ done).reverse, rest)
        | none => textOf? quote escapes multiline fuel rest (c :: done)
      else some (done.reverse, rest)
    else if escapes && c = '\\' then
      match escape? multiline rest with
      | some (chars, rest) => textOf? quote escapes multiline fuel rest (chars.reverse ++ done)
      | none => none
    else if mayStandInText c then textOf? quote escapes multiline fuel rest (c :: done)
    else none

def quoted? (quote : Char) (escapes : Bool) (chars : List Char) : Option (Token × List Char) :=
  let read (multiline : Bool) (chars : List Char) : Option (Token × List Char) :=
    (textOf? quote escapes multiline (chars.length + 1) chars []).map
      fun (value, rest) => (.text value multiline, rest)
  match chars with
  | a :: b :: rest =>
    if a = quote && b = quote then
      match rest with
      -- The end of the first line is no part of the text.
      | '\n' :: rest => read true rest
      | rest => read true rest
    else if a = quote then some (.text [] false, b :: rest)
    else read false chars
  | [a] => if a = quote then some (.text [] false, []) else none
  | [] => none

def mark? (c : Char) : Option Token :=
  match c with
  | '\n' => some .newline
  | '=' => some .equals
  | '.' => some .period
  | ',' => some .comma
  | ':' => some .colon
  | '+' => some .plus
  | '\x7b' => some .openBrace
  | '\x7d' => some .closeBrace
  | '[' => some .openBracket
  | ']' => some .closeBracket
  | _ => none

def lexOnto? : Nat → List Char → List Token → Option (List Token)
  | _, [], done => some done.reverse
  | 0, _ :: _, _ => none
  | fuel + 1, c :: rest, done =>
    match mark? c with
    | some token => lexOnto? fuel rest (token :: done)
    | none =>
      if isBlank c then
        lexOnto? fuel (rest.dropWhile isBlank) (.blank (c :: rest.takeWhile isBlank) :: done)
      else if c = '#' then lexOnto? fuel (rest.dropWhile mayStandInComment) (.comment :: done)
      else if isBare c then
        lexOnto? fuel (rest.dropWhile isBare) (.bare (c :: rest.takeWhile isBare) :: done)
      else if c = '"' || c = '\'' then
        match quoted? c (c = '"') rest with
        | some (token, rest) => lexOnto? fuel rest (token :: done)
        | none => none
      else none

-- Each token takes a character at least, so their number suffices.
def lex? (text : String) : Option (List Token) :=
  let chars := withoutMark (foldLines text.toList [])
  lexOnto? chars.length chars []

end TemplateSync.Toml
