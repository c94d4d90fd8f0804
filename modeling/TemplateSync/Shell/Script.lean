set_option autoImplicit false

namespace TemplateSync.Shell

abbrev Octets := List Char

inductive Choice where
  | default
  | replacement
  deriving DecidableEq

inductive Fragment where
  | text (octets : Octets) (quoted : Bool)
  | value (name : Octets) (quoted : Bool)
  | choice (name : Octets) (choice : Choice) (emptyToo : Bool) (word : List Fragment) (quoted : Bool)
  | output (script : Octets) (quoted : Bool)

abbrev Word := List Fragment

inductive Target where
  | read
  | write
  | append
  | same
  deriving DecidableEq

structure Redirect where
  descriptor : Nat
  target : Target
  word : Word

inductive Script where
  | skip
  | simple (words : List Word) (redirects : List Redirect)
  | sequence (first second : Script)
  | both (first second : Script)
  | either (first second : Script)
  | opposite (script : Script)
  | pipe (first second : Script)
  | group (script : Script) (redirects : List Redirect)
  | subshell (script : Script) (redirects : List Redirect)
  | condition (test yes no : Script)
  | each (name : Octets) (words : List Word) (script : Script)

inductive Lexeme where
  | word (word : Word)
  | operator (octets : Octets)
  | redirect (descriptor : Nat) (target : Target)

def isSpace (c : Char) : Bool := c == ' ' || c == '\t'

def isMeta (c : Char) : Bool :=
  isSpace c || c == '\n' || c == ';' || c == '&' || c == '|' || c == '<' || c == '>' || c == '(' ||
    c == ')'

def isNameStart (c : Char) : Bool := c.isAlpha || c == '_'

def isName (c : Char) : Bool := c.isAlphanum || c == '_'

def isSpecial (c : Char) : Bool :=
  c == '@' || c == '*' || c == '#' || c == '?' || c == '$' || c == '!' || c == '-' || c.isDigit

def parameterName? : Octets → Option (Octets × Octets)
  | c :: rest =>
    if isNameStart c then some (c :: rest.takeWhile isName, rest.dropWhile isName)
    else if isSpecial c then some ([c], rest)
    else none
  | [] => none

def longName? : Octets → Option (Octets × Octets)
  | c :: rest =>
    if c.isDigit then some (c :: rest.takeWhile Char.isDigit, rest.dropWhile Char.isDigit)
    else parameterName? (c :: rest)
  | [] => none

def toClose : Nat → Octets → Octets → Option (Octets × Octets)
  | _, [], _ => none
  | depth, c :: rest, done =>
    if c = '(' then toClose (depth + 1) rest (c :: done)
    else if c = ')' then
      match depth with
      | 0 => some (done.reverse, rest)
      | depth + 1 => toClose depth rest (c :: done)
    else toClose depth rest (c :: done)

def choice? : Octets → Option (Choice × Bool × Octets)
  | ':' :: '-' :: rest => some (.default, true, rest)
  | ':' :: '+' :: rest => some (.replacement, true, rest)
  | '-' :: rest => some (.default, false, rest)
  | '+' :: rest => some (.replacement, false, rest)
  | _ => none

inductive Until where
  | blank
  | quote
  | brace
  deriving DecidableEq

mutual

def expansion? : Nat → Bool → Octets → Option (Fragment × Octets)
  | 0, _, _ => none
  | fuel + 1, quoted, chars =>
    match chars with
    | '(' :: rest => (toClose 0 rest []).map fun (script, rest) => (.output script quoted, rest)
    | '\x7b' :: rest =>
      match longName? rest with
      | none => none
      | some (name, '\x7d' :: rest) => some (.value name quoted, rest)
      | some (name, rest) =>
        match choice? rest with
        | none => none
        | some (choice, emptyToo, rest) =>
          (word? fuel .brace quoted rest []).map fun (word, rest) =>
            (.choice name choice emptyToo word quoted, rest)
    | _ =>
      match parameterName? chars with
      | some (name, rest) => some (.value name quoted, rest)
      | none => some (.text ['$'] quoted, chars)

def word? : Nat → Until → Bool → Octets → Word → Option (Word × Octets)
  | 0, _, _, _, _ => none
  | fuel + 1, stop, quoted, chars, done =>
    match chars with
    | [] => if stop = .blank then some (done.reverse, []) else none
    | c :: rest =>
      if stop = .blank && isMeta c then some (done.reverse, chars)
      else if stop = .quote && c = '"' then some (done.reverse, rest)
      -- Only the brace that no quote hides ends an alternative.
      else if stop = .brace && c = '\x7d' then some (done.reverse, rest)
      else if c = '$' then
        match expansion? fuel quoted rest with
        | some (fragment, rest) => word? fuel stop quoted rest (fragment :: done)
        | none => none
      else if c = '"' then
        match word? fuel .quote true rest [] with
        | some (inner, rest) =>
          word? fuel stop quoted rest (inner.reverse ++ .text [] true :: done)
        | none => none
      else if c = '\'' && !quoted then
        match rest.dropWhile (· != '\'') with
        | [] => none
        | _ :: after =>
          word? fuel stop quoted after (.text (rest.takeWhile (· != '\'')) true :: done)
      else if c = '\\' then
        match rest with
        | [] => word? fuel stop quoted [] (.text ['\\'] true :: done)
        | '\n' :: rest => word? fuel stop quoted rest done
        | next :: rest =>
          -- Inside quotes a backslash stands for itself before most characters.
          if quoted && !(next = '$' || next = '"' || next = '\\') then
            word? fuel stop quoted rest (.text ['\\', next] true :: done)
          else word? fuel stop quoted rest (.text [next] true :: done)
      else word? fuel stop quoted rest (.text [c] quoted :: done)

end

def redirect? : Octets → Option (Option Nat × Target × Octets)
  | '>' :: '>' :: rest => some (some 1, .append, rest)
  | '>' :: '&' :: rest => some (some 1, .same, rest)
  | '>' :: '|' :: rest => some (some 1, .write, rest)
  | '>' :: rest => some (some 1, .write, rest)
  | '<' :: '&' :: rest => some (some 0, .same, rest)
  | '<' :: rest => some (some 0, .read, rest)
  | _ => none

-- A descriptor's number stands right before its redirection.
def numbered? : Octets → Option (Nat × Target × Octets)
  | chars =>
    match redirect? chars with
    | some (some descriptor, target, rest) => some (descriptor, target, rest)
    | some (none, _, _) => none
    | none =>
      match chars with
      | c :: rest =>
        if c.isDigit then
          (redirect? rest).map fun (_, target, rest) => (c.toNat - 48, target, rest)
        else none
      | [] => none

def lex? : Nat → Octets → List Lexeme → Option (List Lexeme)
  | 0, _, _ => none
  | fuel + 1, chars, done =>
    match numbered? chars with
    | some (descriptor, target, rest) => lex? fuel rest (.redirect descriptor target :: done)
    | none =>
      match chars with
      | [] => some done.reverse
      | '&' :: '&' :: rest => lex? fuel rest (.operator ['&', '&'] :: done)
      | '|' :: '|' :: rest => lex? fuel rest (.operator ['|', '|'] :: done)
      | '\\' :: '\n' :: rest => lex? fuel rest done
      | c :: rest =>
        if isSpace c then lex? fuel rest done
        else if c = '#' then lex? fuel (rest.dropWhile (· != '\n')) done
        else if isMeta c then lex? fuel rest (.operator [c] :: done)
        else
          match word? fuel .blank false chars [] with
          | some (word, rest) => lex? fuel rest (.word word :: done)
          | none => none

def plain? : Word → Option Octets
  | [] => some []
  | .text octets false :: word => (plain? word).map (octets ++ ·)
  | _ => none

def isWord (lexeme : Lexeme) (octets : String) : Bool :=
  match lexeme with
  | .word word => plain? word = some octets.toList
  | _ => false

def isOperator (lexeme : Lexeme) (octets : String) : Bool :=
  match lexeme with
  | .operator found => found = octets.toList
  | _ => false

def isSeparator (lexeme : Lexeme) : Bool :=
  isOperator lexeme ";" || isOperator lexeme "\n" || isOperator lexeme "&"

def isEnd (lexeme : Lexeme) : Bool :=
  isOperator lexeme ")" || isWord lexeme "\x7d" || isWord lexeme "then" || isWord lexeme "else" ||
    isWord lexeme "elif" || isWord lexeme "fi" || isWord lexeme "do" || isWord lexeme "done"

def skipLines : List Lexeme → List Lexeme :=
  List.dropWhile (isOperator · "\n")

def redirects? : Nat → List Lexeme → List Redirect → List Redirect × List Lexeme
  | fuel + 1, .redirect descriptor target :: .word word :: rest, done =>
    redirects? fuel rest (⟨descriptor, target, word⟩ :: done)
  | _, rest, done => (done.reverse, rest)

def simple? : Nat → List Lexeme → List Word → List Redirect → Option (Script × List Lexeme)
  | fuel + 1, .word word :: rest, words, redirects => simple? fuel rest (word :: words) redirects
  | fuel + 1, .redirect descriptor target :: .word word :: rest, words, redirects =>
    simple? fuel rest words (⟨descriptor, target, word⟩ :: redirects)
  | _, .redirect _ _ :: _, _, _ => none
  | _, rest, words, redirects =>
    if words.isEmpty && redirects.isEmpty then none
    else some (.simple words.reverse redirects.reverse, rest)

-- The words after a name to go through; where none are given, the script's own arguments.
def wordsOf (lexemes : List Lexeme) : List Word × List Lexeme :=
  match lexemes with
  | first :: rest =>
    if isWord first "in" then
      leadingWords rest
    else ([[.value ['@'] true]], first :: rest)
  | [] => ([], [])
where
  leadingWords : List Lexeme → List Word × List Lexeme
    | .word word :: rest =>
      let (words, rest) := leadingWords rest
      (word :: words, rest)
    | rest => ([], rest)

mutual

def list? : Nat → List Lexeme → Option (Script × List Lexeme)
  | 0, _ => none
  | fuel + 1, lexemes =>
    match lexemes.dropWhile (isOperator · "\n") with
    | [] => some (.skip, [])
    | lexeme :: rest =>
      if isEnd lexeme then some (.skip, lexeme :: rest)
      else
        match andOr? fuel (lexeme :: rest) with
        | none => none
        | some (first, next :: rest) =>
          if isSeparator next then
            (list? fuel rest).map fun (second, rest) => (.sequence first second, rest)
          else some (first, next :: rest)
        | some (first, []) => some (first, [])

def andOr? : Nat → List Lexeme → Option (Script × List Lexeme)
  | 0, _ => none
  | fuel + 1, lexemes => (pipeline? fuel lexemes).bind fun (first, rest) => andOrRest? fuel first rest

def andOrRest? : Nat → Script → List Lexeme → Option (Script × List Lexeme)
  | 0, _, _ => none
  | fuel + 1, first, next :: rest =>
    if isOperator next "&&" then
      (pipeline? fuel (skipLines rest)).bind fun (second, rest) =>
        andOrRest? fuel (.both first second) rest
    else if isOperator next "||" then
      (pipeline? fuel (skipLines rest)).bind fun (second, rest) =>
        andOrRest? fuel (.either first second) rest
    else some (first, next :: rest)
  | _ + 1, first, [] => some (first, [])

def pipeline? : Nat → List Lexeme → Option (Script × List Lexeme)
  | 0, _ => none
  | fuel + 1, lexemes =>
    match lexemes with
    | [] => none
    | lexeme :: rest =>
      if isWord lexeme "!" then
        (pipeline? fuel rest).map fun (script, rest) => (.opposite script, rest)
      else (command? fuel (lexeme :: rest)).bind fun (first, rest) => pipes? fuel first rest

def pipes? : Nat → Script → List Lexeme → Option (Script × List Lexeme)
  | 0, _, _ => none
  | fuel + 1, first, next :: rest =>
    if isOperator next "|" then
      (command? fuel (skipLines rest)).bind fun (second, rest) => pipes? fuel (.pipe first second) rest
    else some (first, next :: rest)
  | _ + 1, first, [] => some (first, [])

def command? : Nat → List Lexeme → Option (Script × List Lexeme)
  | 0, _ => none
  | _, [] => none
  | fuel + 1, lexeme :: rest =>
    if isOperator lexeme "(" then
      match list? fuel rest with
      | some (script, close :: rest) =>
        if isOperator close ")" then
          let (redirects, rest) := redirects? fuel rest []
          some (.subshell script redirects, rest)
        else none
      | _ => none
    else if isWord lexeme "\x7b" then
      match list? fuel rest with
      | some (script, close :: rest) =>
        if isWord close "\x7d" then
          let (redirects, rest) := redirects? fuel rest []
          some (.group script redirects, rest)
        else none
      | _ => none
    else if isWord lexeme "if" then condition? fuel rest
    else if isWord lexeme "for" then each? fuel rest
    else if isEnd lexeme then none
    else simple? (rest.length + 1) (lexeme :: rest) [] []

def each? : Nat → List Lexeme → Option (Script × List Lexeme)
  | fuel + 1, .word name :: rest => (plain? name).bind fun name => eachNamed? fuel name rest
  | _, _ => none

def eachNamed? : Nat → Octets → List Lexeme → Option (Script × List Lexeme)
  | 0, _, _ => none
  | fuel + 1, name, lexemes =>
    let (words, rest) := wordsOf lexemes
    match rest.dropWhile isSeparator with
    | next :: rest =>
      if isWord next "do" then
        match list? fuel rest with
        | some (script, next :: rest) =>
          if isWord next "done" then some (.each name words script, rest) else none
        | _ => none
      else none
    | [] => none

def condition? : Nat → List Lexeme → Option (Script × List Lexeme)
  | 0, _ => none
  | fuel + 1, lexemes =>
    match list? fuel lexemes with
    | some (test, next :: rest) =>
      if isWord next "then" then
        match list? fuel rest with
        | some (yes, next :: rest) =>
          if isWord next "fi" then some (.condition test yes .skip, rest)
          else if isWord next "elif" then
            (condition? fuel rest).map fun (no, rest) => (.condition test yes no, rest)
          else if isWord next "else" then
            match list? fuel rest with
            | some (no, next :: rest) =>
              if isWord next "fi" then some (.condition test yes no, rest) else none
            | _ => none
          else none
        | _ => none
      else none
    | _ => none

end

inductive SyntaxError where
  | openQuote
  | unexpected
  deriving DecidableEq

def SyntaxError.text : SyntaxError → String
  | openQuote => "Syntax error: Unterminated quoted string"
  | unexpected => "Syntax error: end of file unexpected (expecting \")\")"

-- The script that a text spells; each part takes an octet at least, so the count suffices.
def Script.parse (octets : Octets) : Except SyntaxError Script :=
  match lex? (2 * octets.length + 2) octets [] with
  | none => .error .openQuote
  | some lexemes =>
    match list? (8 * lexemes.length + 8) lexemes with
    | some (script, []) => .ok script
    | _ => .error .unexpected

end TemplateSync.Shell
