import TemplateSync.Proofs.Json.Grammar

set_option autoImplicit false

namespace TemplateSync.Json

open Grammar

theorem digit_value {c : Char} (digit : c.isDigit) :
    c.toNat - 48 < 10 ∧ (c.toNat - 48).digitChar = c := by
  have all : decimals.all (fun c => decide (c.toNat - 48 < 10 ∧ (c.toNat - 48).digitChar = c)) = true := by
    decide
  simpa using List.all_eq_true.mp all c (mem_decimals digit)

theorem digitsValue_snoc (digits : List Char) (c : Char) :
    digitsValue (digits ++ [c]) = digitsValue digits * 10 + (c.toNat - 48) := by
  simp [digitsValue]

theorem toDigits_positive {c : Char} {rest : List Char} (first : c.isDigit) (large : c ≠ '0')
    (others : Digits rest) :
    0 < digitsValue (c :: rest) ∧ Nat.toDigits 10 (digitsValue (c :: rest)) = c :: rest := by
  induction rest using List.reverseRecOn with
  | nil =>
    obtain ⟨small, same⟩ := digit_value first
    have value : digitsValue [c] = c.toNat - 48 := by simp [digitsValue]
    rw [value, Nat.toDigits_eq_if (by decide), if_pos small, same]
    refine ⟨Nat.pos_of_ne_zero fun zero => large ?_, rfl⟩
    rw [← same, zero]
    rfl
  | append_singleton rest d ih =>
    obtain ⟨positive, front⟩ := ih fun e member => others e (by simp [member])
    obtain ⟨small, same⟩ := digit_value (others d (by simp))
    have quotient : (digitsValue (c :: rest) * 10 + (d.toNat - 48)) / 10 = digitsValue (c :: rest) := by
      omega
    have remainder : (digitsValue (c :: rest) * 10 + (d.toNat - 48)) % 10 = d.toNat - 48 := by
      omega
    rw [← List.cons_append, digitsValue_snoc, Nat.toDigits_eq_if (by decide), if_neg (by omega),
      quotient, remainder, front, same]
    exact ⟨by omega, rfl⟩

theorem Grammar.Whole.toDigits {digits : List Char} (whole : Whole digits) :
    Nat.toDigits 10 (digitsValue digits) = digits := by
  cases whole with
  | zero => rfl
  | positive first large others => exact (toDigits_positive first large others).2

theorem whole_of_digits {whole fraction exponent : List Char} (small : Fraction fraction)
    (scale : Exponent exponent) (digits : Digits (whole ++ (fraction ++ exponent))) :
    whole ++ (fraction ++ exponent) = whole := by
  have noFraction : fraction = [] := by
    cases small with
    | absent => rfl
    | present => exact absurd (digits '.' (by simp)) (by decide)
  have noExponent : exponent = [] := by
    cases scale with
    | absent => rfl
    | @present mark _ _ marked =>
      have digit := digits mark (by simp)
      simp only [List.mem_cons, List.not_mem_nil, or_false] at marked
      rcases marked with rfl | rfl <;> exact absurd digit (by decide)
  simp [noFraction, noExponent]

theorem Grammar.Number.whole {literal : List Char} (number : Number literal) (digits : Digits literal) :
    Whole literal := by
  obtain ⟨signed, large, small, scale⟩ := number
  simp only [List.mem_cons, List.not_mem_nil, or_false] at signed
  rcases signed with rfl | rfl
  next =>
    rw [List.nil_append] at digits ⊢
    rwa [whole_of_digits small scale digits]
  next => exact absurd (digits '-' (by simp)) (by decide)

theorem Grammar.Number.magnitude {rest : List Char} (number : Number ('-' :: rest)) (digits : Digits rest) :
    Whole rest := by
  generalize literal : '-' :: rest = chars at number
  obtain ⟨signed, large, small, scale⟩ := number
  simp only [List.mem_cons, List.not_mem_nil, or_false] at signed
  rcases signed with rfl | rfl
  next =>
    cases large with
    | zero => cases literal
    | positive first =>
      obtain ⟨rfl, -⟩ := List.cons.inj literal
      exact absurd first (by decide)
  next =>
    rw [List.singleton_append, List.cons.injEq] at literal
    obtain ⟨-, rfl⟩ := literal
    rwa [whole_of_digits small scale digits]

theorem toString_natCast (n : Nat) : (toString (n : Int)).toList = Nat.toDigits 10 n :=
  toList_toString_ofNat n

theorem toString_neg {n : Nat} (positive : 0 < n) :
    (toString (-(n : Int))).toList = '-' :: Nat.toDigits 10 n := by
  obtain ⟨less, rfl⟩ := Nat.exists_eq_succ_of_ne_zero (Nat.ne_of_gt positive)
  exact toList_toString_negSucc less

theorem int?_number {literal : List Char} {n : Int} (number : Number literal)
    (read : int? (.number literal) = some n) : (toString n).toList = literal := by
  rw [int?.eq_def] at read
  split at read
  next => cases read
  next digits notZero same =>
    cases same
    split at read
    next all =>
      cases read
      have whole := number.magnitude (List.all_eq_true.mp all)
      cases whole with
      | zero => exact absurd rfl notZero
      | positive first large others =>
        obtain ⟨positive, spelled⟩ := toDigits_positive first large others
        rw [toString_neg positive, spelled]
    next => cases read
  next digits _ _ same =>
    cases same
    split at read
    next all =>
      cases read
      rw [toString_natCast, (number.whole (List.all_eq_true.mp all)).toDigits]
    next => cases read
  next => cases read

theorem int?_iff {value : Json} {n : Int} (spelled : ∀ literal, value = .number literal → Number literal) :
    value.int? = some n ↔ value = ofInt n := by
  constructor
  next =>
    intro read
    cases value with
    | number literal => rw [ofInt, int?_number (spelled literal rfl) read]
    | null | bool | text | array | object => cases read
  next =>
    rintro rfl
    exact int?_ofInt n

end TemplateSync.Json
