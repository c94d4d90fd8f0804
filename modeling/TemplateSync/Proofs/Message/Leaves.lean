import Mathlib.Data.List.Forall2
import TemplateSync.Base64
import TemplateSync.Uuid

set_option autoImplicit false

namespace TemplateSync

theorem mapM_iff {α β : Type} {read? : α → Option β} {Is : α → β → Prop} {items : List α}
    {found : List β} (reads : ∀ item ∈ items, ∀ value, read? item = some value ↔ Is item value) :
    items.mapM read? = some found ↔ List.Forall₂ Is items found := by
  induction items generalizing found with
  | nil => simp [eq_comm]
  | cons item items ih =>
    obtain ⟨own, others⟩ := List.forall_mem_cons.mp reads
    simp only [List.mapM_cons, Option.bind_eq_bind, Option.bind_eq_some_iff, Option.pure_def,
      Option.some.injEq, List.forall₂_cons_left_iff, own, ih others]
    constructor
    next => exact fun ⟨value, first, rest, later, same⟩ => ⟨value, rest, first, later, same.symm⟩
    next => exact fun ⟨value, rest, first, later, same⟩ => ⟨value, first, rest, later, same.symm⟩

namespace Base64

theorem small_of_digit {c : Char} {digit : Nat} (h : digit? c = some digit) : c.toNat < 128 := by
  have bound (high : Char) (inside : c ≤ high) : c.toNat ≤ high.toNat := inside
  unfold digit? at h
  split at h
  next upper => exact Nat.lt_of_le_of_lt (bound 'Z' (by simp_all)) (by decide)
  split at h
  next lower => exact Nat.lt_of_le_of_lt (bound 'z' (by simp_all)) (by decide)
  split at h
  next decimal => exact Nat.lt_of_le_of_lt (bound '9' (by simp_all)) (by decide)
  split at h
  next plus => simp [plus]
  split at h
  next slash => simp [slash]
  next => cases h

theorem letter_digit {c : Char} {digit : Nat} (h : digit? c = some digit) :
    digit < 64 ∧ letter digit = c := by
  have all : ∀ n : Fin 128, ∀ digit ∈ digit? (Char.ofNat n), digit < 64 ∧ letter digit = Char.ofNat n := by
    decide +kernel
  have own := all ⟨c.toNat, small_of_digit h⟩
  simp only [Char.ofNat_toNat] at own
  exact own digit h

theorem toNat_ofNat {n : Nat} (small : n < 256) : (UInt8.ofNat n).toNat = n :=
  UInt8.toNat_ofNat_of_lt' small

theorem quad_octets {w x y z : Nat} (hw : w < 64) (hx : x < 64) (hy : y < 64) (hz : z < 64) :
    quad (UInt8.ofNat (w * 4 + x / 16)) (UInt8.ofNat (x % 16 * 16 + y / 4))
      (UInt8.ofNat (y % 4 * 64 + z)) = [letter w, letter x, letter y, letter z] := by
  have first := toNat_ofNat (show w * 4 + x / 16 < 256 by omega)
  have second := toNat_ofNat (show x % 16 * 16 + y / 4 < 256 by omega)
  have third := toNat_ofNat (show y % 4 * 64 + z < 256 by omega)
  have one : (w * 4 + x / 16) / 4 = w := by omega
  have two : (w * 4 + x / 16) % 4 * 16 + (x % 16 * 16 + y / 4) / 16 = x := by omega
  have three : (x % 16 * 16 + y / 4) % 16 * 4 + (y % 4 * 64 + z) / 64 = y := by omega
  have four : (y % 4 * 64 + z) % 64 = z := by omega
  rw [quad, first, second, third, one, two, three, four]

theorem letters_two (a b : UInt8) : letters [a, b] = (quad a b 0).take 3 ++ ['='] := by
  simp [letters, encodeOnto]

theorem letters_one (a : UInt8) : letters [a] = (quad a 0 0).take 2 ++ ['=', '='] := by
  simp [letters, encodeOnto]

theorem lastOctets?_sound {a b c d : Char} {last : List UInt8}
    (read : lastOctets? a b c d = some last) : letters last = [a, b, c, d] := by
  unfold lastOctets? at read
  split at read
  next w x y z ha hb hc hd =>
    cases read
    obtain ⟨hw, rfl⟩ := letter_digit ha
    obtain ⟨hx, rfl⟩ := letter_digit hb
    obtain ⟨hy, rfl⟩ := letter_digit hc
    obtain ⟨hz, rfl⟩ := letter_digit hd
    rw [octets, letters_cons, quad_octets hw hx hy hz]
    rfl
  next w x y ha hb hc _ =>
    split at read
    next padded =>
      cases read
      obtain ⟨hw, rfl⟩ := letter_digit ha
      obtain ⟨hx, rfl⟩ := letter_digit hb
      obtain ⟨hy, rfl⟩ := letter_digit hc
      obtain ⟨rfl, unused⟩ : d = '=' ∧ y % 4 = 0 := by simpa using padded
      have group := quad_octets hw hx hy (show 0 < 64 by decide)
      rw [unused] at group
      simp only [octets, List.take_succ_cons, List.take_zero, letters_two]
      simpa using congrArg (fun chars => chars.take 3 ++ ['=']) group
    next => cases read
  next w x ha hb _ _ =>
    split at read
    next padded =>
      cases read
      obtain ⟨hw, rfl⟩ := letter_digit ha
      obtain ⟨hx, rfl⟩ := letter_digit hb
      obtain ⟨⟨rfl, rfl⟩, unused⟩ : (c = '=' ∧ d = '=') ∧ x % 16 = 0 := by simpa using padded
      have group := quad_octets hw hx (show 0 < 64 by decide) (show 0 < 64 by decide)
      rw [unused] at group
      simp only [octets, List.take_succ_cons, List.take_zero, letters_one]
      simpa using congrArg (fun chars => chars.take 2 ++ ['=', '=']) group
    next => cases read
  next => cases read

theorem decodeOnto?_sound {chars : List Char} {done bytes : List UInt8}
    (read : decodeOnto? chars done = some bytes) :
    ∃ rest, bytes = done.reverse ++ rest ∧ letters rest = chars := by
  fun_induction decodeOnto? chars done with
  | case1 done =>
    cases read
    exact ⟨[], by simp, rfl⟩
  | case2 a b c d done =>
    obtain ⟨last, own, rfl⟩ := Option.map_eq_some_iff.mp read
    exact ⟨last, rfl, lastOctets?_sound own⟩
  | case3 a b c d rest done _ w x y z hd hc hb ha ih =>
    obtain ⟨later, rfl, same⟩ := ih read
    obtain ⟨hw, rfl⟩ := letter_digit ha
    obtain ⟨hx, rfl⟩ := letter_digit hb
    obtain ⟨hy, rfl⟩ := letter_digit hc
    obtain ⟨hz, rfl⟩ := letter_digit hd
    refine ⟨octets w x y z ++ later, by simp, ?_⟩
    rw [octets, List.cons_append, List.cons_append, List.cons_append, List.nil_append, letters_cons,
      quad_octets hw hx hy hz, same]
    rfl
  | case4 => cases read
  | case5 => cases read

theorem decode?_iff {text : String} {bytes : List UInt8} :
    decode? text = some bytes ↔ text = encode bytes := by
  constructor
  next =>
    intro read
    obtain ⟨rest, whole, same⟩ := decodeOnto?_sound read
    have written : encode rest = String.ofList (letters rest) := rfl
    rw [whole, List.reverse_nil, List.nil_append, written, same, String.ofList_toList]
  next =>
    rintro rfl
    exact decode?_encode bytes

end Base64

namespace Uuid

inductive Spelling (digits : List Char) : List Char → Prop where
  | plain : Spelling digits digits
  | hyphenated : Spelling digits (hyphenate groups digits)
  | braced : Spelling digits ('\x7b' :: (hyphenate groups digits ++ ['\x7d']))
  | urn {mark : List Char} (named : mark.map Char.toLower = urn) :
      Spelling digits (mark ++ hyphenate groups digits)

def Spelled (id : Uuid) (chars : List Char) : Prop :=
  ∃ digits, List.Forall₂ (fun c digit => Hex.digit? c = some digit) digits id.digits ∧
    Spelling digits chars

theorem ofDigits?_iff {chars : List Char} {id : Uuid} :
    ofDigits? chars = some id ↔
      List.Forall₂ (fun c digit => Hex.digit? c = some digit) chars id.digits := by
  rw [← mapM_iff fun _ _ _ => Iff.rfl, ofDigits?]
  constructor
  next =>
    intro read
    split at read
    next digits known =>
      split at read
      next size =>
        cases read
        exact known
      next => cases read
    next => cases read
  next =>
    intro known
    simp only [known, id.size, dite_true]

theorem grouped?_sound {sizes : List Nat} {chars digits : List Char} (some_group : sizes ≠ [])
    (read : grouped? sizes chars = some digits) :
    hyphenate sizes digits = chars ∧ digits.length = digitCount sizes := by
  induction sizes generalizing chars digits with
  | nil => exact absurd rfl some_group
  | cons size sizes ih =>
    cases sizes with
    | nil =>
      simp only [grouped?] at read
      split at read
      next length =>
        cases read
        exact ⟨rfl, by simpa [digitCount] using length⟩
      next => cases read
    | cons next sizes =>
      simp only [grouped?] at read
      split at read
      next rest hyphen =>
        obtain ⟨tail, others, rfl⟩ := Option.map_eq_some_iff.mp read
        obtain ⟨same, length⟩ := ih (by simp) others
        have enough : (chars.take size).length = size := by
          have left := congrArg List.length hyphen
          simp only [List.length_drop, List.length_cons] at left
          rw [List.length_take]
          omega
        constructor
        next =>
          rw [hyphenate, List.take_left' enough, List.drop_left' enough, same, ← hyphen,
            List.take_append_drop]
          simp
        next => simp [enough, length, digitCount]
      next => cases read

theorem spelled?_sound {chars digits : List Char} (read : spelled? chars = some digits) :
    Spelling digits chars := by
  unfold spelled? at read
  split at read
  next =>
    cases read
    exact .plain
  next =>
    obtain ⟨rfl, -⟩ := grouped?_sound (by decide) read
    exact .hyphenated
  next =>
    split at read
    next ends =>
      obtain ⟨first, last⟩ : chars.head? = some '\x7b' ∧ chars.getLast? = some '\x7d' := by
        simpa using ends
      obtain ⟨rest, rfl⟩ := List.head?_eq_some_iff.mp first
      obtain ⟨same, -⟩ := grouped?_sound (by decide) read
      have others : rest.getLast? = some '\x7d' := by
        cases rest with
        | nil => simp at last
        | cons c rest => simpa using last
      obtain ⟨inner, rfl⟩ := List.getLast?_eq_some_iff.mp others
      have whole : inner = hyphenate groups digits := by simpa using same.symm
      rw [whole]
      exact .braced
    next => cases read
  next =>
    split at read
    next named =>
      obtain ⟨same, -⟩ := grouped?_sound (by decide) read
      have split := List.take_append_drop urn.length chars
      rw [← same] at split
      rw [← split]
      exact .urn (beq_iff_eq.mp named)
    next => cases read
  next => cases read

theorem length_groups {digits : List Char} (size : digits.length = 32) :
    (hyphenate groups digits).length = 36 ∧ grouped? groups (hyphenate groups digits) = some digits := by
  have total : digits.length = digitCount groups := by simp [size, groups, digitCount]
  have length := length_hyphenate groups digits (by simp [groups]) total
  refine ⟨?_, grouped?_hyphenate groups digits (by simp [groups]) total⟩
  rw [size] at length
  simpa [groups] using length

theorem urn_length : urn.length = 9 := rfl

theorem spelled?_complete {chars digits : List Char} (size : digits.length = 32)
    (spelling : Spelling digits chars) : spelled? chars = some digits := by
  obtain ⟨length, grouped⟩ := length_groups size
  cases spelling with
  | plain => simp [spelled?, size]
  | hyphenated => simp [spelled?, length, grouped]
  | braced =>
    have last : ('\x7b' :: (hyphenate groups digits ++ ['\x7d'])).getLast? = some '\x7d' :=
      @List.getLast?_concat _ ('\x7b' :: hyphenate groups digits) '\x7d'
    simp [spelled?, length, last, grouped]
  | @urn mark named =>
    have nine : mark.length = urn.length := by rw [← named, List.length_map]
    have total : (mark ++ hyphenate groups digits).length = 45 := by
      rw [List.length_append, nine, urn_length, length]
    have front : (mark ++ hyphenate groups digits).take urn.length = mark := List.take_left' nine
    have marked : isUrn (mark ++ hyphenate groups digits) = true :=
      beq_iff_eq.mpr ((congrArg (List.map Char.toLower) front).trans named)
    simp [spelled?, total, marked, List.drop_left' nine, grouped]

theorem parse?_iff {text : String} {id : Uuid} : parse? text = some id ↔ id.Spelled text.toList := by
  constructor
  next =>
    intro read
    obtain ⟨digits, known, own⟩ := Option.bind_eq_some_iff.mp read
    exact ⟨digits, ofDigits?_iff.mp own, spelled?_sound known⟩
  next =>
    rintro ⟨digits, own, spelling⟩
    have size : digits.length = 32 := own.length_eq.trans id.size
    rw [parse?, spelled?_complete size spelling]
    exact ofDigits?_iff.mpr own

end Uuid

end TemplateSync
