import TemplateSync.Toml.Number
import TemplateSync.Toml.Token

set_option autoImplicit false

namespace TemplateSync.Toml

abbrev Key := String

-- A table that comes from dotted keys can grow, one in braces cannot.
inductive Value where
  | text (value : String)
  | integer (value : Int)
  | boolean (value : Bool)
  | float
  | date
  | array (items : List Value)
  | table (dotted : Bool) (members : List (Key × Value))

abbrev Members := List (Key × Value)

abbrev Read (α : Type) := Option (α × List Token)

def skipBlanks : List Token → List Token
  | .blank _ :: rest => rest
  | tokens => tokens

def endOfLine? : List Token → Option (List Token)
  | [] => some []
  | .newline :: rest => some rest
  | .comment :: .newline :: rest => some rest
  | [.comment] => some []
  | _ => none

def key? : List Token → Read Key
  | .bare text :: rest => some (String.ofList text, rest)
  | .text value false :: rest => some (String.ofList value, rest)
  | _ => none

def dottedKey? : Nat → List Token → Read (List Key)
  | 0, _ => none
  | fuel + 1, tokens =>
    match key? tokens with
    | none => none
    | some (key, rest) =>
      match skipBlanks rest with
      | .period :: rest =>
        (dottedKey? fuel (skipBlanks rest)).map fun (keys, rest) => (key :: keys, rest)
      | rest => some ([key], rest)

def replaceFirst (key : Key) (value : Value) : Members → Members
  | [] => []
  | member :: members =>
    if member.1 = key then (key, value) :: members else member :: replaceFirst key value members

-- Adds a value under a dotted key; a table in braces or a value of another kind stands in the way.
def addDotted? : List Key → Value → Members → Option Members
  | [], _, members => some members
  | [key], value, members => some (members ++ [(key, value)])
  | key :: keys, value, members =>
    match members.lookup key with
    -- A table that dotted keys have made goes on growing.
    | some (.table true inner) =>
      (addDotted? keys value inner).map fun inner => replaceFirst key (.table true inner) members
    | some _ => none
    | none => (addDotted? keys value []).map fun inner => members ++ [(key, .table true inner)]

def bareAfter? (mark : Token) : List Token → Option (List Token)
  | next :: rest =>
    if next = mark then
      match rest with
      | .bare _ :: rest => some rest
      | _ => none
    else some (next :: rest)
  | [] => some []

-- A date and time by its shape alone.
def date? (colonRead : Bool) (tokens : List Token) : Option (Value × List Token) := do
  let tokens := match tokens with
    | .blank [' '] :: .bare _ :: rest => rest
    | tokens => tokens
  let minutes? := if colonRead then some tokens else
    match tokens with
    | .colon :: rest => some rest
    | _ => none
  match minutes? with
  | none => return (.date, tokens)
  | some (.bare _ :: .colon :: .bare _ :: rest) =>
    let rest ← bareAfter? .period rest
    let rest ← bareAfter? .plus rest
    let rest ← bareAfter? .colon rest
    return (.date, rest)
  | some _ => none

def exponentOf (digits : Digits) : Int :=
  if digits.negative then -(valueIn 10 digits.digits) else valueIn 10 digits.digits

-- The exponent after its letter, which may stand in the next token.
def exponent? (suffix : List Char) (tokens : List Token) : Read Int :=
  let whole (digits : Option Digits) (tokens : List Token) : Read Int :=
    match digits with
    | some digits => if digits.rest = [] then some (exponentOf digits, tokens) else none
    | none => none
  match suffix with
  | [] =>
    match tokens with
    -- A plus sign is a token of its own, so the digits stand in the next one.
    | .plus :: .bare text :: rest | .bare text :: rest => whole (digits? 10 false true text) rest
    | _ => none
  | suffix => whole (digits? 10 true true suffix) tokens

def float? (integral : List Char) (fraction : Option (List Char)) (tokens : List Token) :
    Option (Value × List Token) := do
  let whole ← digits? 10 true false integral
  let (digits, suffix, places) ← match fraction with
    | none => some (whole.digits, whole.rest, 0)
    | some fraction =>
      if whole.rest = [] then
        (digits? 10 false true fraction).map fun part =>
          (whole.digits ++ part.digits, part.rest, part.digits.length)
      else none
  let (exponent, rest) ← match suffix with
    | [] => some ((0 : Int), tokens)
    | c :: suffix => if c = 'e' || c = 'E' then exponent? suffix tokens else none
  if isFinite digits (exponent - places) then some (.float, rest) else none

def number? (text : List Char) (tokens : List Token) : Read Value :=
  let whole (value : Option Int) : Read Value := value.map fun value => (.integer value, tokens)
  match text with
  | '0' :: 'x' :: rest => whole (integer? 16 rest)
  | '0' :: 'o' :: rest => whole (integer? 8 rest)
  | '0' :: 'b' :: rest => whole (integer? 2 rest)
  | text =>
    if text.contains 'e' || text.contains 'E' then float? text none tokens
    else match tokens with
      | .period :: .bare fraction :: rest => float? text (some fraction) rest
      | .period :: _ => none
      | tokens =>
        if ["inf", "-inf", "nan", "-nan"].contains (String.ofList text) then some (.float, tokens)
        else whole (integer? 10 text)

def hasInfix (pattern : List Char) : List Char → Bool
  | [] => pattern = []
  | c :: rest => pattern.isPrefixOf (c :: rest) || hasInfix pattern rest

def looksLikeDate (text : List Char) : Bool :=
  text.contains 'T' || text.contains 't' ||
    ((text.drop 1).contains '-' && !hasInfix ['e', '-'] text && !hasInfix ['E', '-'] text)

def numberOrDate? (text : List Char) (tokens : List Token) : Read Value :=
  if looksLikeDate text then date? false tokens
  else match tokens with
    | .colon :: rest => date? true rest
    | tokens => number? text tokens

def bareValue? (text : List Char) (tokens : List Token) : Read Value :=
  if text = ['t', 'r', 'u', 'e'] then some (.boolean true, tokens)
  else if text = ['f', 'a', 'l', 's', 'e'] then some (.boolean false, tokens)
  else if text = ['i', 'n', 'f'] || text = ['n', 'a', 'n'] then numberOrDate? text tokens
  else match text with
    | c :: _ => if c = '-' || c.isDigit then numberOrDate? text tokens else none
    | [] => none

def skipLines? : Nat → List Token → Option (List Token)
  | 0, tokens => some tokens
  | fuel + 1, tokens =>
    match skipBlanks tokens with
    | .newline :: rest => skipLines? fuel rest
    | .comment :: rest => (endOfLine? rest).bind (skipLines? fuel)
    | rest => some rest

mutual

def value? : Nat → List Token → Read Value
  | 0, _ => none
  | fuel + 1, tokens =>
    match tokens with
    | .text value _ :: rest => some (.text (String.ofList value), rest)
    | .bare text :: rest => bareValue? text rest
    | .plus :: .bare text :: rest => number? text rest
    | .openBracket :: rest => (items? fuel rest []).map fun (items, rest) => (.array items, rest)
    | .openBrace :: rest =>
      match skipBlanks rest with
      | .closeBrace :: rest => some (.table false [], rest)
      | rest => (members? fuel rest []).map fun (members, rest) => (.table false members, rest)
    | _ => none

-- The items of an array up to its end; a comma may follow the last one.
def items? : Nat → List Token → List Value → Read (List Value)
  | 0, _, _ => none
  | fuel + 1, tokens, done =>
    match skipLines? tokens.length tokens with
    | none => none
    | some (.closeBracket :: rest) => some (done.reverse, rest)
    | some tokens =>
      match value? fuel tokens with
      | none => none
      | some (value, rest) =>
        match skipLines? rest.length rest with
        | some (.comma :: rest) => items? fuel rest (value :: done)
        | some (.closeBracket :: rest) => some ((value :: done).reverse, rest)
        | _ => none

-- The members of a table in braces, on one line and without a comma after the last one.
def members? : Nat → List Token → Members → Read Members
  | 0, _, _ => none
  | fuel + 1, tokens, done =>
    match dottedKey? tokens.length tokens with
    | some (keys, .equals :: rest) =>
      match value? fuel (skipBlanks rest) with
      | none => none
      | some (value, rest) =>
        match addDotted? keys value done, skipBlanks rest with
        | some done, .closeBrace :: rest => some (done, rest)
        | some done, .comma :: rest => members? fuel (skipBlanks rest) done
        | _, _ => none
    | _ => none

end

inductive Line where
  | header (keys : List Key) (array : Bool)
  | member (keys : List Key) (value : Value)

def header? (tokens : List Token) : Read Line :=
  let (array, tokens) := match tokens with
    | .openBracket :: rest => (true, rest)
    | tokens => (false, tokens)
  match dottedKey? (tokens.length + 1) (skipBlanks tokens) with
  | none => none
  | some (keys, rest) =>
    let rest? := match array, rest with
      | true, .closeBracket :: .closeBracket :: rest => some rest
      | false, .closeBracket :: rest => some rest
      | _, _ => none
    (rest?.bind fun rest => endOfLine? (skipBlanks rest)).map fun rest => (.header keys array, rest)

def member? (tokens : List Token) : Read Line :=
  match dottedKey? (tokens.length + 1) tokens with
  | some (keys, .equals :: rest) =>
    match value? (2 * rest.length + 2) (skipBlanks rest) with
    | some (value, rest) => (endOfLine? (skipBlanks rest)).map fun rest => (.member keys value, rest)
    | none => none
  | _ => none

def linesOnto? : Nat → List Token → List Line → Option (List Line)
  | 0, _, _ => none
  | fuel + 1, tokens, done =>
    match skipLines? tokens.length tokens with
    | none => none
    | some [] => some done.reverse
    | some (.openBracket :: rest) =>
      match header? rest with
      | some (line, rest) => linesOnto? fuel rest (line :: done)
      | none => none
    | some tokens =>
      match member? tokens with
      | some (line, rest) => linesOnto? fuel rest (line :: done)
      | none => none

-- Each line takes a token at least, so their number suffices.
def lines? (tokens : List Token) : Option (List Line) :=
  linesOnto? (tokens.length + 1) tokens []

end TemplateSync.Toml
