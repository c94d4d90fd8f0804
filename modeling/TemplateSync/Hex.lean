set_option autoImplicit false

namespace TemplateSync.Hex

def digit? (c : Char) : Option (Fin 16) :=
  match c with
  | '0' => some 0 | '1' => some 1 | '2' => some 2 | '3' => some 3
  | '4' => some 4 | '5' => some 5 | '6' => some 6 | '7' => some 7
  | '8' => some 8 | '9' => some 9
  | 'a' | 'A' => some 10 | 'b' | 'B' => some 11 | 'c' | 'C' => some 12
  | 'd' | 'D' => some 13 | 'e' | 'E' => some 14 | 'f' | 'F' => some 15
  | _ => none

def lower (digit : Fin 16) : Char :=
  Char.ofNat (if digit.val < 10 then 48 + digit.val else 87 + digit.val)

def value (digits : List (Fin 16)) : Nat :=
  digits.foldl (fun sum digit => sum * 16 + digit.val) 0

def digit (n : Nat) : Fin 16 :=
  Fin.ofNat 16 n

def digitsOf : Nat → Nat → List (Fin 16)
  | 0, _ => []
  | count + 1, n => digitsOf count (n / 16) ++ [digit n]

@[simp] theorem digit?_lower (digit : Fin 16) : digit? (lower digit) = some digit := by
  revert digit
  decide

@[simp] theorem length_digitsOf (count n : Nat) : (digitsOf count n).length = count := by
  induction count generalizing n with
  | zero => rfl
  | succ count ih => simp [digitsOf, ih]

end TemplateSync.Hex
