set_option autoImplicit false

namespace TemplateSync.Toml

def digitIn? (radix : Nat) (c : Char) : Option Nat :=
  let digit :=
    if '0' ≤ c && c ≤ '9' then some (c.toNat - 48)
    else if 'a' ≤ c && c ≤ 'z' then some (c.toNat - 87)
    else if 'A' ≤ c && c ≤ 'Z' then some (c.toNat - 55)
    else none
  digit.filter (· < radix)

structure DigitState where
  first : Bool
  zero : Bool
  underscore : Bool

def digitsFrom? (radix : Nat) (leadingZeros : Bool) :
    List Char → DigitState → List Nat → Option (List Nat × List Char)
  | [], state, done => if state.first || state.underscore then none else some (done.reverse, [])
  | c :: rest, state, done =>
    match digitIn? radix c with
    | some digit =>
      if state.first then
        digitsFrom? radix leadingZeros rest ⟨false, c = '0', state.underscore⟩ (digit :: done)
      else if state.zero && !leadingZeros then none
      else digitsFrom? radix leadingZeros rest { state with underscore := false } (digit :: done)
    | none =>
      if c = '_' && state.first then none
      else if c = '_' && !state.underscore then
        digitsFrom? radix leadingZeros rest { state with underscore := true } done
      else if state.first || state.underscore then none
      else some (done.reverse, c :: rest)

structure Digits where
  negative : Bool
  digits : List Nat
  rest : List Char

def digits? (radix : Nat) (sign leadingZeros : Bool) (chars : List Char) : Option Digits :=
  let read (negative : Bool) (chars : List Char) : Option Digits :=
    (digitsFrom? radix leadingZeros chars ⟨true, false, false⟩ []).map
      fun (digits, rest) => ⟨negative, digits, rest⟩
  match chars with
  | '-' :: rest => if sign then read true rest else none
  | '+' :: rest => if sign then read false rest else none
  | chars => read false chars

def valueIn (radix : Nat) (digits : List Nat) : Nat :=
  digits.foldl (fun sum digit => sum * radix + digit) 0

def maxInteger : Int := 9223372036854775807

def minInteger : Int := -9223372036854775808

def integer? (radix : Nat) (chars : List Char) : Option Int :=
  match digits? radix (radix == 10) (radix != 10) chars with
  | some ⟨negative, digits, []⟩ =>
    let magnitude : Int := valueIn radix digits
    let value := if negative then -magnitude else magnitude
    if minInteger ≤ value && value ≤ maxInteger then some value else none
  | _ => none

-- The numbers that round to a double: below halfway between the largest one and the next power.
def finiteBound : Nat := Nat.pow 2 1024 - Nat.pow 2 970

def isFinite (digits : List Nat) (exponent : Int) : Bool :=
  let mantissa := valueIn 10 digits
  if mantissa = 0 then true
  else if 400 < (digits.dropWhile (· == 0)).length + exponent then false
  else match exponent with
    | .ofNat n => mantissa * Nat.pow 10 n < finiteBound
    | .negSucc n => if 400 + digits.length ≤ n then true else mantissa < finiteBound * Nat.pow 10 (n + 1)

end TemplateSync.Toml
