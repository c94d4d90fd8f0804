import TemplateSync.Json.Record
import TemplateSync.Proofs.Json.Lexing

set_option autoImplicit false

namespace TemplateSync.Json

theorem run?_escapeChar (c : Char) (rest : List Char) :
    EscapePhase.run? .plain (escapeChar c ++ rest) = EscapePhase.run? .plain rest := by
  unfold escapeChar
  split
  next => simp [EscapePhase.run?, EscapePhase.next?, isEscapable]
  split
  next => simp [EscapePhase.run?, EscapePhase.next?, isEscapable]
  split
  next => simp [EscapePhase.run?, EscapePhase.next?, isEscapable]
  split
  next => simp [EscapePhase.run?, EscapePhase.next?, isEscapable]
  split
  next => simp [EscapePhase.run?, EscapePhase.next?, isEscapable]
  split
  next => simp [EscapePhase.run?, EscapePhase.next?, isEscapable]
  split
  next => simp [EscapePhase.run?, EscapePhase.next?, isEscapable]
  split
  next =>
    have zero : Hex.digit? '0' = some 0 := rfl
    simp [EscapePhase.run?, EscapePhase.next?, isEscapable, zero]
  next quote slash _ _ _ _ _ high =>
    have printable : ¬ c.toNat < 0x20 := high
    simp [EscapePhase.run?, EscapePhase.next?, quote, slash, printable]

theorem run?_escape (chars : List Char) : EscapePhase.run? .plain (escape chars) = some .plain := by
  induction chars with
  | nil => rfl
  | cons c chars ih =>
    have split : escape (c :: chars) = escapeChar c ++ escape chars := by simp [escape]
    rw [split, run?_escapeChar, ih]

theorem escape_readable (chars : List Char) : (Lexeme.text (escape chars)).Readable :=
  run?_escape chars

theorem numberPhase_run?_append (phase : NumberPhase) (first second : List Char) :
    phase.run? (first ++ second) = (phase.run? first).bind fun phase => phase.run? second := by
  induction first generalizing phase with
  | nil => rfl
  | cons c first ih =>
    simp only [List.cons_append, NumberPhase.run?, Option.bind_assoc]
    cases phase.next? c with
    | none => rfl
    | some phase => exact ih phase

theorem digitChar_next? {n : Nat} (h : n < 10) :
    NumberPhase.sign.next? n.digitChar = some (if n = 0 then .zero else .whole) ∧
      NumberPhase.whole.next? n.digitChar = some .whole := by
  have all : ∀ n, n < 10 → NumberPhase.sign.next? n.digitChar = some (if n = 0 then .zero else .whole) ∧
      NumberPhase.whole.next? n.digitChar = some .whole := by decide
  exact all n h

theorem run?_toDigits (n : Nat) :
    NumberPhase.sign.run? (Nat.toDigits 10 n) = some (if n = 0 then .zero else .whole) := by
  induction n using Nat.strongRecOn with
  | ind n ih =>
    rw [Nat.toDigits_eq_if (by decide)]
    split
    next small => simp [NumberPhase.run?, (digitChar_next? small).1]
    next large =>
      have front := ih (n / 10) (by omega)
      have more : n / 10 ≠ 0 := by omega
      have positive : n ≠ 0 := by omega
      have last := (digitChar_next? (Nat.mod_lt n (show 0 < 10 by decide))).2
      simp [numberPhase_run?_append, front, more, positive, NumberPhase.run?, last]

theorem toDigits_cons (n : Nat) :
    ∃ c rest, Nat.toDigits 10 n = c :: rest ∧ c.isDigit := by
  obtain ⟨c, rest, digits⟩ := List.exists_cons_of_ne_nil (Nat.toDigits_ne_nil (n := n) (b := 10))
  have digit : c.isDigit := Nat.isDigit_of_mem_toDigits (b := 10) (n := n) (by decide) (by decide)
    (by simp [digits])
  exact ⟨c, rest, digits, digit⟩

theorem start?_of_isDigit {c : Char} (h : c.isDigit) :
    NumberPhase.start? c = NumberPhase.sign.next? c := by
  have all : decimals.all
      (fun c => decide (NumberPhase.start? c = NumberPhase.sign.next? c)) = true := by decide
  simpa using List.all_eq_true.mp all c (mem_decimals h)

theorem toList_toString_ofNat (n : Nat) : (toString (Int.ofNat n)).toList = Nat.toDigits 10 n :=
  Nat.toList_repr

theorem toList_toString_negSucc (n : Nat) :
    (toString (Int.negSucc n)).toList = '-' :: Nat.toDigits 10 (n + 1) := by
  have printed : toString (Int.negSucc n) = "-" ++ Nat.repr (n + 1) := rfl
  simp [printed, Nat.toList_repr]

theorem ofInt_readable (n : Int) : (Lexeme.number (toString n).toList).Readable := by
  cases n with
  | ofNat n =>
    rw [toList_toString_ofNat]
    obtain ⟨c, rest, digits, digit⟩ := toDigits_cons n
    have run := run?_toDigits n
    refine ⟨if n = 0 then .zero else .whole, ?_, by split <;> rfl⟩
    rw [digits] at run ⊢
    simpa [NumberPhase.ofLiteral?, start?_of_isDigit digit, NumberPhase.run?] using run
  | negSucc n =>
    rw [toList_toString_negSucc]
    refine ⟨.whole, ?_, rfl⟩
    have start : NumberPhase.start? '-' = some .sign := rfl
    simp [NumberPhase.ofLiteral?, start, run?_toDigits]

theorem all_isDigit_toDigits (n : Nat) : (Nat.toDigits 10 n).all Char.isDigit = true :=
  List.all_eq_true.mpr fun _ member => Nat.isDigit_of_mem_toDigits (by decide) (by decide) member

theorem digitsValue_toDigits (n : Nat) : digitsValue (Nat.toDigits 10 n) = n := by
  have same : digitsValue (Nat.toDigits 10 n) = Nat.ofDigitChars 10 (Nat.toDigits 10 n) 0 := by
    simp only [digitsValue, Nat.ofDigitChars_eq_foldl, Nat.mul_comm 10]
    rfl
  rw [same, Nat.ofDigitChars_ten_toDigits]

theorem int?_unsigned {c : Char} {rest : List Char} (digits : (c :: rest).all Char.isDigit) :
    int? (.number (c :: rest)) = some (digitsValue (c :: rest)) := by
  have plain : c ≠ '-' := by
    rintro rfl
    simp at digits
  rw [int?.eq_def]
  split
  next heq => simp [plain] at heq
  next heq => simp [plain] at heq
  next heq =>
    cases heq
    rw [if_pos digits]
    rfl
  next other => exact absurd rfl (other _)

theorem int?_negative {digits : List Char} (notZero : digits ≠ ['0'])
    (all : digits.all Char.isDigit) :
    int? (.number ('-' :: digits)) = some (-(digitsValue digits : Int)) := by
  rw [int?.eq_def]
  split
  next heq => simp_all
  next heq =>
    cases heq
    rw [if_pos all]
  next other heq =>
    cases heq
    exact (other _ rfl).elim
  next other _ => exact absurd rfl (other _)

@[simp] theorem int?_ofInt (n : Int) : int? (ofInt n) = some n := by
  cases n with
  | ofNat n =>
    have all := all_isDigit_toDigits n
    have value := digitsValue_toDigits n
    obtain ⟨c, rest, digits, -⟩ := toDigits_cons n
    rw [ofInt, toList_toString_ofNat]
    rw [digits] at all value ⊢
    rw [int?_unsigned all, value]
    rfl
  | negSucc n =>
    have notZero : Nat.toDigits 10 (n + 1) ≠ ['0'] := by
      intro zero
      have run := run?_toDigits (n + 1)
      rw [zero] at run
      exact absurd run (by simp [NumberPhase.run?, NumberPhase.next?])
    rw [ofInt, toList_toString_negSucc, int?_negative notZero (all_isDigit_toDigits _),
      digitsValue_toDigits, Int.negSucc_eq]
    rfl

end TemplateSync.Json
