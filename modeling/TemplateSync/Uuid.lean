import TemplateSync.Hex

set_option autoImplicit false

namespace TemplateSync

structure Uuid where
  digits : List (Fin 16)
  size : digits.length = 32
  deriving DecidableEq

namespace Uuid

def ofNat (n : Nat) : Uuid :=
  ⟨Hex.digitsOf 32 n, Hex.length_digitsOf 32 n⟩

def grouped? : List Nat → List Char → Option (List Char)
  | [], [] => some []
  | [], _ :: _ => none
  | [size], chars => if chars.length = size then some chars else none
  | size :: sizes, chars =>
    match chars.drop size with
    | '-' :: rest => (grouped? sizes rest).map (chars.take size ++ ·)
    | _ => none

def groups : List Nat := [8, 4, 4, 4, 12]

def digitCount : List Nat → Nat
  | [] => 0
  | size :: sizes => size + digitCount sizes

def ofDigits? (chars : List Char) : Option Uuid :=
  match chars.mapM Hex.digit? with
  | some digits => if size : digits.length = 32 then some ⟨digits, size⟩ else none
  | none => none

def urn : List Char := "urn:uuid:".toList

def isUrn (chars : List Char) : Bool :=
  (chars.take urn.length).map Char.toLower == urn

-- The digits of a spelling: plain, hyphenated, hyphenated in braces, or hyphenated after `urn:uuid:`.
def spelled? (chars : List Char) : Option (List Char) :=
  match chars.length with
  | 32 => some chars
  | 36 => grouped? groups chars
  | 38 =>
    if chars.head? = some '\x7b' && chars.getLast? = some '\x7d' then
      grouped? groups (chars.drop 1).dropLast
    else none
  | 45 => if isUrn chars then grouped? groups (chars.drop urn.length) else none
  | _ => none

def parse? (text : String) : Option Uuid :=
  (spelled? text.toList).bind ofDigits?

def hyphenate : List Nat → List Char → List Char
  | [], chars => chars
  | [_], chars => chars
  | size :: sizes, chars => chars.take size ++ '-' :: hyphenate sizes (chars.drop size)

def plain (id : Uuid) : String :=
  String.ofList (id.digits.map Hex.lower)

def print (id : Uuid) : String :=
  String.ofList (hyphenate groups (id.digits.map Hex.lower))

theorem mapM_digit?_lower (digits : List (Fin 16)) :
    (digits.map Hex.lower).mapM Hex.digit? = some digits := by
  induction digits with
  | nil => rfl
  | cons digit digits ih => simp [List.mapM_cons, ih]

theorem ofDigits?_lower (id : Uuid) : ofDigits? (id.digits.map Hex.lower) = some id := by
  simp only [ofDigits?, mapM_digit?_lower, id.size, dite_true]

theorem grouped?_hyphenate (sizes : List Nat) (chars : List Char) (h : sizes ≠ [])
    (total : chars.length = digitCount sizes) :
    grouped? sizes (hyphenate sizes chars) = some chars := by
  induction sizes generalizing chars with
  | nil => exact absurd rfl h
  | cons size sizes ih =>
    cases sizes with
    | nil => simp_all [grouped?, hyphenate, digitCount]
    | cons next sizes =>
      have short : (chars.take size).length = size := by
        simp only [List.length_take, total, digitCount]
        omega
      have rest : (chars.drop size).length = digitCount (next :: sizes) := by
        simp only [List.length_drop, total, digitCount]
        omega
      have split := ih (chars.drop size) (by simp) rest
      simp only [hyphenate] at split ⊢
      simp only [grouped?]
      rw [List.drop_left' short, List.take_left' short]
      simp [split]

theorem length_hyphenate (sizes : List Nat) (chars : List Char) (h : sizes ≠ [])
    (total : chars.length = digitCount sizes) :
    (hyphenate sizes chars).length + 1 = chars.length + sizes.length := by
  induction sizes generalizing chars with
  | nil => exact absurd rfl h
  | cons size sizes ih =>
    cases sizes with
    | nil => simp [hyphenate]
    | cons next sizes =>
      have rest : (chars.drop size).length = digitCount (next :: sizes) := by
        simp only [List.length_drop, total, digitCount]
        omega
      have length := ih (chars.drop size) (by simp) rest
      simp only [hyphenate, List.length_append, List.length_cons, List.length_take] at length ⊢
      simp only [List.length_drop, total, digitCount] at length ⊢
      omega

theorem parse?_print (id : Uuid) : parse? (print id) = some id := by
  have total : (id.digits.map Hex.lower).length = digitCount groups := by
    simp [id.size, groups, digitCount]
  have length : (hyphenate groups (id.digits.map Hex.lower)).length = 36 := by
    have h := length_hyphenate groups (id.digits.map Hex.lower) (by simp [groups]) total
    simp [id.size, groups] at h
    simpa [groups] using h
  simp only [parse?, print, String.toList_ofList, spelled?, length]
  rw [grouped?_hyphenate groups _ (by simp [groups]) total]
  exact ofDigits?_lower id

end Uuid

end TemplateSync
