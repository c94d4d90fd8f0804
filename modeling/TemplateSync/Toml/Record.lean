import TemplateSync.Toml.Document

set_option autoImplicit false

namespace TemplateSync.Toml

def fill? (fields : List Key) : Members → List (Option Value) → Option (List (Option Value))
  | [], slots => some slots
  | (key, value) :: members, slots =>
    match fields.findIdx? (· == key) with
    | none => fill? fields members slots
    | some place =>
      match slots[place]? with
      | some none => fill? fields members (slots.set place (some value))
      | _ => none

def record? (fields : List Key) (members : Members) : Option (List (Option Value)) :=
  fill? fields members (fields.map fun _ => none)

namespace Value

def text? : Value → Option String
  | text value => some value
  | _ => none

def integerIn? (low high : Int) : Value → Option Int
  | integer value => if low ≤ value && value ≤ high then some value else none
  | _ => none

def natural? (high : Nat) (value : Value) : Option Nat :=
  (value.integerIn? 0 high).map Int.toNat

def list? {α : Type} (item? : Value → Option α) : Value → Option (List α)
  | array items => items.mapM item?
  | _ => none

def texts? : Value → Option (List String) :=
  list? text?

end Value

def optional? {α : Type} (absent : α) (read? : Value → Option α) : Option Value → Option α
  | none => some absent
  | some value => read? value

end TemplateSync.Toml
