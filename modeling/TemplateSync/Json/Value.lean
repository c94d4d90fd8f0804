import TemplateSync.Json.Lexeme

set_option autoImplicit false

namespace TemplateSync

inductive Json where
  | null
  | bool (value : Bool)
  | number (literal : List Char)
  | text (raw : List Char)
  | array (items : List Json)
  | object (members : List (List Char × Json))

namespace Json

abbrev Member := List Char × Json

def ofWord : Word → Json
  | .null => null
  | .true => bool true
  | .false => bool false

/-- A value whose end is still to come, its parts last first. -/
inductive Open where
  | array (items : List Json)
  | object (members : List Member) (key : List Char)

inductive Phase where
  | value
  | firstItem
  | firstKey
  | key (members : List Member)
  | colon (members : List Member) (key : List Char)
  | after (value : Json)

def begin? (stack : List Open) : Lexeme → Option (List Open × Phase)
  | .mark .openBracket => some (.array [] :: stack, .firstItem)
  | .mark .openBrace => some (stack, .firstKey)
  | .mark _ => none
  | .word word => some (stack, .after (ofWord word))
  | .number literal => some (stack, .after (.number literal))
  | .text raw => some (stack, .after (.text raw))

def continue? (value : Json) : List Open → Lexeme → Option (List Open × Phase)
  | .array items :: stack, .mark .comma => some (.array (value :: items) :: stack, .value)
  | .array items :: stack, .mark .closeBracket =>
    some (stack, .after (.array (value :: items).reverse))
  | .object members key :: stack, .mark .comma => some (stack, .key ((key, value) :: members))
  | .object members key :: stack, .mark .closeBrace =>
    some (stack, .after (.object ((key, value) :: members).reverse))
  | _, _ => none

def step? (stack : List Open) : Phase → Lexeme → Option (List Open × Phase)
  | .value, lexeme => begin? stack lexeme
  | .firstItem, lexeme =>
    match stack, lexeme with
    | .array [] :: stack, .mark .closeBracket => some (stack, .after (.array []))
    | stack, lexeme => begin? stack lexeme
  | .firstKey, .mark .closeBrace => some (stack, .after (.object []))
  | .firstKey, .text raw => some (stack, .colon [] raw)
  | .key members, .text raw => some (stack, .colon members raw)
  | .colon members key, .mark .colon => some (.object members key :: stack, .value)
  | .after value, lexeme => continue? value stack lexeme
  | _, _ => none

def takeOnto? : List Open → Phase → List Token → List Token →
    Option (Json × List Token × List Token)
  -- Nothing is open and a value is complete.
  | [], .after value, rest, taken => some (value, taken.reverse, rest)
  | _, _, [], _ => none
  | stack, phase, token :: rest, taken =>
    match step? stack phase token.lexeme with
    | some (stack, phase) => takeOnto? stack phase rest (token :: taken)
    | none => none

-- The value at the front, the tokens that spell it, and the tokens that follow.
def take? (tokens : List Token) : Option (Json × List Token × List Token) :=
  takeOnto? [] .value tokens []

mutual

def emit : Json → List Lexeme → List Lexeme
  | null, rest => .word .null :: rest
  | bool value, rest => .word (if value then .true else .false) :: rest
  | number literal, rest => .number literal :: rest
  | text raw, rest => .text raw :: rest
  | array [], rest => .mark .openBracket :: .mark .closeBracket :: rest
  | array (item :: items), rest =>
    .mark .openBracket :: item.emit (emitItems items (.mark .closeBracket :: rest))
  | object [], rest => .mark .openBrace :: .mark .closeBrace :: rest
  | object ((key, value) :: members), rest =>
    .mark .openBrace :: .text key :: .mark .colon ::
      value.emit (emitMembers members (.mark .closeBrace :: rest))

def emitItems : List Json → List Lexeme → List Lexeme
  | [], rest => rest
  | item :: items, rest => .mark .comma :: item.emit (emitItems items rest)

def emitMembers : List (List Char × Json) → List Lexeme → List Lexeme
  | [], rest => rest
  | (key, value) :: members, rest =>
    .mark .comma :: .text key :: .mark .colon :: value.emit (emitMembers members rest)

end

def lexemes (value : Json) : List Lexeme :=
  value.emit []

def render (value : Json) : List Char :=
  value.lexemes.flatMap Lexeme.spelling

end Json

end TemplateSync
