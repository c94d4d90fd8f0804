set_option autoImplicit false

namespace TemplateSync.Base64

def letter (digit : Nat) : Char :=
  if digit < 26 then Char.ofNat (65 + digit)
  else if digit < 52 then Char.ofNat (71 + digit)
  else if digit < 62 then Char.ofNat (digit - 4)
  else if digit = 62 then '+' else '/'

def digit? (c : Char) : Option Nat :=
  if 'A' ≤ c && c ≤ 'Z' then some (c.toNat - 65)
  else if 'a' ≤ c && c ≤ 'z' then some (c.toNat - 71)
  else if '0' ≤ c && c ≤ '9' then some (c.toNat + 4)
  else if c = '+' then some 62
  else if c = '/' then some 63
  else none

def quad (a b c : UInt8) : List Char :=
  [letter (a.toNat / 4), letter (a.toNat % 4 * 16 + b.toNat / 16),
    letter (b.toNat % 16 * 4 + c.toNat / 64), letter (c.toNat % 64)]

-- Adds the letters to those already there, which come last first.
def encodeOnto : List UInt8 → List Char → List Char
  | a :: b :: c :: rest, done => encodeOnto rest ((quad a b c).reverse ++ done)
  | [a, b], done => '=' :: ((quad a b 0).take 3).reverse ++ done
  | [a], done => '=' :: '=' :: ((quad a 0 0).take 2).reverse ++ done
  | [], done => done

def encode (bytes : List UInt8) : String :=
  String.ofList (encodeOnto bytes []).reverse

def octets (w x y z : Nat) : List UInt8 :=
  [UInt8.ofNat (w * 4 + x / 16), UInt8.ofNat (x % 16 * 16 + y / 4), UInt8.ofNat (y % 4 * 64 + z)]

-- The last group, which may be padded; its unused bits are zero.
def lastOctets? (a b c d : Char) : Option (List UInt8) :=
  match digit? a, digit? b, digit? c, digit? d with
  | some w, some x, some y, some z => some (octets w x y z)
  -- One pad stands for an octet that is missing, two for two.
  | some w, some x, some y, none => if d = '=' && y % 4 == 0 then some ((octets w x y 0).take 2) else none
  | some w, some x, none, none =>
    if c = '=' && d = '=' && x % 16 == 0 then some ((octets w x 0 0).take 1) else none
  | _, _, _, _ => none

def decodeOnto? : List Char → List UInt8 → Option (List UInt8)
  | [], done => some done.reverse
  | [a, b, c, d], done => (lastOctets? a b c d).map fun last => done.reverse ++ last
  | a :: b :: c :: d :: rest, done =>
    match digit? a, digit? b, digit? c, digit? d with
    | some w, some x, some y, some z => decodeOnto? rest ((octets w x y z).reverse ++ done)
    | _, _, _, _ => none
  | _, _ => none

def decode? (text : String) : Option (List UInt8) :=
  decodeOnto? text.toList []

theorem digit?_letter (digit : Nat) (h : digit < 64) : digit? (letter digit) = some digit := by
  have all : ∀ n : Fin 64, digit? (letter n.val) = some n.val := by decide
  exact all ⟨digit, h⟩

@[simp] theorem digit?_pad : digit? '=' = none := by decide

theorem octets_quad (a b c : UInt8) :
    octets (a.toNat / 4) (a.toNat % 4 * 16 + b.toNat / 16) (b.toNat % 16 * 4 + c.toNat / 64)
      (c.toNat % 64) = [a, b, c] := by
  have ha := a.toNat_lt
  have hb := b.toNat_lt
  have hc := c.toNat_lt
  have first : a.toNat / 4 * 4 + (a.toNat % 4 * 16 + b.toNat / 16) / 16 = a.toNat := by omega
  have second : (a.toNat % 4 * 16 + b.toNat / 16) % 16 * 16 +
      (b.toNat % 16 * 4 + c.toNat / 64) / 4 = b.toNat := by omega
  have third : (b.toNat % 16 * 4 + c.toNat / 64) % 4 * 64 + c.toNat % 64 = c.toNat := by omega
  rw [octets, first, second, third]
  simp only [UInt8.ofNat_toNat]

def letters (bytes : List UInt8) : List Char :=
  (encodeOnto bytes []).reverse

theorem reverse_encodeOnto : (bytes : List UInt8) → (done : List Char) →
    (encodeOnto bytes done).reverse = done.reverse ++ letters bytes
  | [], done => by simp [letters, encodeOnto]
  | [a], done => by simp [letters, encodeOnto]
  | [a, b], done => by simp [letters, encodeOnto]
  | a :: b :: c :: rest, done => by
    rw [letters, encodeOnto, encodeOnto, reverse_encodeOnto rest, reverse_encodeOnto rest]
    simp

theorem letters_cons (a b c : UInt8) (rest : List UInt8) :
    letters (a :: b :: c :: rest) = quad a b c ++ letters rest := by
  rw [letters, encodeOnto, reverse_encodeOnto]
  simp

theorem decodeOnto?_letter (w x y z : Nat) (hw : w < 64) (hx : x < 64) (hy : y < 64) (hz : z < 64)
    (rest : List Char) (done : List UInt8) :
    decodeOnto? (letter w :: letter x :: letter y :: letter z :: rest) done =
      decodeOnto? rest ((octets w x y z).reverse ++ done) := by
  cases rest with
  | nil => simp [decodeOnto?, lastOctets?, digit?_letter, hw, hx, hy, hz]
  | cons c rest => simp [decodeOnto?, digit?_letter, hw, hx, hy, hz]

theorem decodeOnto?_quad (a b c : UInt8) (rest : List Char) (done : List UInt8) :
    decodeOnto? (quad a b c ++ rest) done = decodeOnto? rest (c :: b :: a :: done) := by
  have ha := a.toNat_lt
  have hb := b.toNat_lt
  have hc := c.toNat_lt
  have group := decodeOnto?_letter (a.toNat / 4) (a.toNat % 4 * 16 + b.toNat / 16)
    (b.toNat % 16 * 4 + c.toNat / 64) (c.toNat % 64) (by omega) (by omega) (by omega) (by omega)
    rest done
  rw [octets_quad] at group
  simpa [quad] using group

theorem decodeOnto?_letters : (bytes : List UInt8) → (done : List UInt8) →
    decodeOnto? (letters bytes) done = some (done.reverse ++ bytes)
  | [], done => by simp [letters, encodeOnto, decodeOnto?]
  | [a], done => by
    have ha := a.toNat_lt
    have one := octets_quad a 0 0
    simp only [UInt8.toNat_zero, Nat.zero_div, Nat.zero_mod, Nat.zero_mul, Nat.add_zero] at one
    have high : a.toNat / 4 < 64 := by omega
    have low : a.toNat % 4 * 16 < 64 := by omega
    have unused : a.toNat % 4 * 16 % 16 = 0 := by omega
    simp [letters, encodeOnto, quad, decodeOnto?, lastOctets?, digit?_letter, high, low, unused, one]
  | [a, b], done => by
    have ha := a.toNat_lt
    have hb := b.toNat_lt
    have two := octets_quad a b 0
    simp only [UInt8.toNat_zero, Nat.zero_div, Nat.zero_mod, Nat.add_zero] at two
    have high : a.toNat / 4 < 64 := by omega
    have middle : a.toNat % 4 * 16 + b.toNat / 16 < 64 := by omega
    have low : b.toNat % 16 * 4 < 64 := by omega
    have unused : b.toNat % 16 * 4 % 4 = 0 := by omega
    simp [letters, encodeOnto, quad, decodeOnto?, lastOctets?, digit?_letter, high, middle, low,
      unused, two]
  | a :: b :: c :: rest, done => by
    rw [letters_cons, decodeOnto?_quad, decodeOnto?_letters rest]
    simp

@[simp] theorem decode?_encode (bytes : List UInt8) : decode? (encode bytes) = some bytes := by
  have read := decodeOnto?_letters bytes []
  simpa [decode?, encode, letters] using read

end TemplateSync.Base64
