import TemplateSync.Json.Text

set_option autoImplicit false

namespace TemplateSync.Json

-- A field may go by several names.
abbrev Names := List String

def place? (fields : List Names) (name : String) : Option Nat :=
  fields.findIdx? fun names => names.contains name

def fill? (fields : List Names) : List Member → List (Option Json) → Option (List (Option Json))
  | [], slots => some slots
  | (raw, value) :: members, slots =>
    match unescape? raw with
    | none => none
    | some name =>
      match place? fields (String.ofList name) with
      | none => fill? fields members slots
      | some place =>
        match slots[place]? with
        | some none => fill? fields members (slots.set place (some value))
        | _ => none

def record? (fields : List Names) : Json → Option (List (Option Json))
  | .object members => fill? fields members (fields.map fun _ => none)
  | .array items =>
    if items.length ≤ fields.length then
      some (items.map some ++ List.replicate (fields.length - items.length) none)
    else none
  | _ => none

def list? {α : Type} (item? : Json → Option α) : Json → Option (List α)
  | .array items => items.mapM item?
  | _ => none

def bool? : Json → Option Bool
  | .bool value => some value
  | _ => none

def digitsValue (digits : List Char) : Nat :=
  digits.foldl (fun sum c => sum * 10 + (c.toNat - 48)) 0

def int? : Json → Option Int
  | .number ['-', '0'] => none
  | .number ('-' :: digits) => if digits.all Char.isDigit then some (-(digitsValue digits)) else none
  | .number digits => if digits.all Char.isDigit then some (digitsValue digits) else none
  | _ => none

def ofInt (n : Int) : Json :=
  .number (toString n).toList

def optional? {α : Type} (absent : α) (read? : Json → Option α) : Option Json → Option α
  | none => some absent
  | some value => read? value

def nullable? {α : Type} (absent : α) (read? : Json → Option α) : Option Json → Option α
  | none | some .null => some absent
  | some value => read? value

def strings (texts : List String) : Json :=
  .array (texts.map ofString)

def member (name : String) (value : Json) : Member :=
  (escape name.toList, value)

end TemplateSync.Json
