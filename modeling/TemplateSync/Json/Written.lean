import TemplateSync.Json.Text

set_option autoImplicit false

namespace TemplateSync.Json

structure Written where
  tokens : List Token
  value : Json

namespace Written

def chars (written : Written) : List Char :=
  match written.tokens with
  | [] => []
  | first :: rest => first.lexeme.spelling ++ rest.flatMap Token.spelling

def text (written : Written) : String :=
  String.ofList written.chars

def isObject (written : Written) : Bool :=
  match written.value with
  | .object _ => true
  | _ => false

def take? (tokens : List Token) : Option (Written × List Token) :=
  (Json.take? tokens).map fun (value, taken, rest) => (⟨taken, value⟩, rest)

def ofTokens? (tokens : List Token) : Option Written :=
  match take? tokens with
  | some (written, []) => some written
  | _ => none

def ofText? (text : String) : Option Written :=
  (lex? text.toList).bind ofTokens?

end Written

def ofText? (text : String) : Option Json :=
  (Written.ofText? text).map Written.value

def membersOnto? : Nat → List Token → List (String × Written) →
    Option (List (String × Written) × List Token)
  | fuel + 1, ⟨_, .text raw⟩ :: ⟨_, .mark .colon⟩ :: rest, done =>
    match unescape? raw, Written.take? rest with
    | some key, some (written, ⟨_, .mark .comma⟩ :: rest) =>
      membersOnto? fuel rest ((String.ofList key, written) :: done)
    | some key, some (written, ⟨_, .mark .closeBrace⟩ :: rest) =>
      some ((String.ofList key, written) :: done, rest)
    | _, _ => none
  | _, _, _ => none

-- The members of a text that is one object, the last one first. A name must be readable.
def members? (text : String) : Option (List (String × Written)) :=
  match lex? text.toList with
  | some [⟨_, .mark .openBrace⟩, ⟨_, .mark .closeBrace⟩] => some []
  | some (⟨_, .mark .openBrace⟩ :: rest) =>
    match membersOnto? rest.length rest [] with
    | some (members, []) => some members
    | _ => none
  | _ => none

end TemplateSync.Json
