import TemplateSync.Proofs.Json.Spelling

set_option autoImplicit false

namespace TemplateSync.Json.Grammar

def Blanks (chars : List Char) : Prop :=
  ∀ c ∈ chars, c ∈ [' ', '\t', '\n', '\r']

def Padded (text chars : List Char) : Prop :=
  ∃ before after, Blanks before ∧ Blanks after ∧ chars = before ++ text ++ after

def Digits (chars : List Char) : Prop :=
  ∀ c ∈ chars, c.isDigit

inductive Whole : List Char → Prop where
  | zero : Whole ['0']
  | positive {c : Char} {rest : List Char} (first : c.isDigit) (large : c ≠ '0')
      (others : Digits rest) : Whole (c :: rest)

inductive Fraction : List Char → Prop where
  | absent : Fraction []
  | present {digits : List Char} (more : digits ≠ []) (digit : Digits digits) : Fraction ('.' :: digits)

inductive Exponent : List Char → Prop where
  | absent : Exponent []
  | present {mark : Char} {sign digits : List Char} (marked : mark ∈ ['e', 'E'])
      (signed : sign ∈ [[], ['+'], ['-']]) (more : digits ≠ []) (digit : Digits digits) :
      Exponent (mark :: (sign ++ digits))

inductive Number : List Char → Prop where
  | parts {sign whole fraction exponent : List Char} (signed : sign ∈ [[], ['-']])
      (large : Whole whole) (small : Fraction fraction) (scale : Exponent exponent) :
      Number (sign ++ (whole ++ (fraction ++ exponent)))

inductive Unit : List Char → Nat → Prop where
  | digits {a b c d : Char} {w x y z : Fin 16} (first : Hex.digit? a = some w)
      (second : Hex.digit? b = some x) (third : Hex.digit? c = some y)
      (fourth : Hex.digit? d = some z) : Unit [a, b, c, d] (Hex.value [w, x, y, z])

structure Plain (c : Char) : Prop where
  printable : 0x20 ≤ c.toNat
  notQuote : c ≠ '"'
  notSlash : c ≠ '\\'

inductive Text : List Char → Prop where
  | nil : Text []
  | plain {c : Char} {rest : List Char} (plain : Plain c) (others : Text rest) : Text (c :: rest)
  | short {c meaning : Char} {rest : List Char} (known : short? c = some meaning)
      (others : Text rest) : Text ('\\' :: c :: rest)
  | unit {digits rest : List Char} {n : Nat} (four : Unit digits n) (others : Text rest) :
      Text ('\\' :: 'u' :: (digits ++ rest))

/-- What the spelling between the quotes says, where each escape names a character or is half of a pair. -/
inductive Means : List Char → List Char → Prop where
  | nil : Means [] []
  | plain {c : Char} {rest chars : List Char} (plain : Plain c) (others : Means rest chars) :
      Means (c :: rest) (c :: chars)
  | short {c meaning : Char} {rest chars : List Char} (known : short? c = some meaning)
      (others : Means rest chars) : Means ('\\' :: c :: rest) (meaning :: chars)
  | unit {digits rest chars : List Char} {n : Nat} (four : Unit digits n)
      (notLead : isLead n = false) (notTrail : isTrail n = false) (others : Means rest chars) :
      Means ('\\' :: 'u' :: (digits ++ rest)) (Char.ofNat n :: chars)
  | pair {first second rest chars : List Char} {lead trail : Nat} (leads : Unit first lead)
      (trails : Unit second trail) (isLead : isLead lead = true) (isTrail : isTrail trail = true)
      (others : Means rest chars) :
      Means ('\\' :: 'u' :: (first ++ '\\' :: 'u' :: (second ++ rest))) (pair lead trail :: chars)

/-- A member of an object as it is written: its name as it is spelled, its value, and the value's text. -/
structure Entry where
  name : List Char
  value : Json
  text : List Char

def Entry.member (entry : Entry) : Member :=
  (entry.name, entry.value)

mutual

inductive Spells : Json → List Char → Prop where
  | null : Spells .null ['n', 'u', 'l', 'l']
  | true : Spells (.bool .true) ['t', 'r', 'u', 'e']
  | false : Spells (.bool .false) ['f', 'a', 'l', 's', 'e']
  | number {literal : List Char} (number : Number literal) : Spells (.number literal) literal
  | text {raw : List Char} (text : Text raw) : Spells (.text raw) ('"' :: (raw ++ ['"']))
  | emptyArray {blanks : List Char} (blank : Blanks blanks) :
      Spells (.array []) ('[' :: (blanks ++ [']']))
  | array {items : List Json} {inside : List Char} (listed : Items items inside) :
      Spells (.array items) ('[' :: (inside ++ [']']))
  | object {entries : List Entry} {text : List Char} (braced : Braced entries text) :
      Spells (.object (entries.map Entry.member)) text

inductive Items : List Json → List Char → Prop where
  | last {item : Json} {text chars : List Char} (spelled : Spells item text)
      (padded : Padded text chars) : Items [item] chars
  | cons {item : Json} {items : List Json} {text chars rest : List Char} (spelled : Spells item text)
      (padded : Padded text chars) (others : Items items rest) :
      Items (item :: items) (chars ++ ',' :: rest)

inductive Braced : List Entry → List Char → Prop where
  | empty {blanks : List Char} (blank : Blanks blanks) : Braced [] ('\x7b' :: (blanks ++ ['\x7d']))
  | full {entries : List Entry} {inside : List Char} (listed : Entries entries inside) :
      Braced entries ('\x7b' :: (inside ++ ['\x7d']))

inductive Entries : List Entry → List Char → Prop where
  | last {entry : Entry} {label content : List Char} (named : Text entry.name)
      (labelled : Padded ('"' :: (entry.name ++ ['"'])) label)
      (spelled : Spells entry.value entry.text) (padded : Padded entry.text content) :
      Entries [entry] (label ++ ':' :: content)
  | cons {entry : Entry} {entries : List Entry} {label content rest : List Char}
      (named : Text entry.name) (labelled : Padded ('"' :: (entry.name ++ ['"'])) label)
      (spelled : Spells entry.value entry.text) (padded : Padded entry.text content)
      (others : Entries entries rest) :
      Entries (entry :: entries) (label ++ ':' :: (content ++ ',' :: rest))

end

def Named {α : Type} (spelling : α → List Char) (members : List (String × α)) : Prop :=
  ∀ member ∈ members, Means (spelling member.2) member.1.toList

def IsObject (text : String) (members : List (String × Entry)) : Prop :=
  Named Entry.name members ∧ ∃ core, Braced (members.map Prod.snd) core ∧ Padded core text.toList

theorem isBlank_iff {c : Char} : isBlank c = true ↔ c ∈ [' ', '\t', '\n', '\r'] := by
  simp only [isBlank, Bool.or_eq_true, beq_iff_eq, List.mem_cons, List.not_mem_nil, or_false]
  tauto

theorem blanks_iff {chars : List Char} : Blanks chars ↔ ∀ c ∈ chars, isBlank c := by
  simp only [Blanks, isBlank_iff]

section Number

def Ends (chars : List Char) : Prop :=
  ∃ fraction exponent, Fraction fraction ∧ Exponent exponent ∧ chars = fraction ++ exponent

-- What may follow, up to the end of the number, in each phase.
def Ahead : NumberPhase → List Char → Prop
  | .sign, chars => ∃ whole rest, Whole whole ∧ Ends rest ∧ chars = whole ++ rest
  | .zero, chars => Ends chars
  | .whole, chars => ∃ digits rest, Digits digits ∧ Ends rest ∧ chars = digits ++ rest
  | .point, chars =>
    ∃ digits exponent, digits ≠ [] ∧ Digits digits ∧ Exponent exponent ∧ chars = digits ++ exponent
  | .fraction, chars =>
    ∃ digits exponent, Digits digits ∧ Exponent exponent ∧ chars = digits ++ exponent
  | .exponent, chars =>
    ∃ sign digits, sign ∈ [[], ['+'], ['-']] ∧ digits ≠ [] ∧ Digits digits ∧ chars = sign ++ digits
  | .exponentSign, chars => chars ≠ [] ∧ Digits chars
  | .power, chars => Digits chars

theorem Digits.nil : Digits [] := by
  simp [Digits]

theorem Digits.cons {c : Char} {chars : List Char} (first : c.isDigit) (others : Digits chars) :
    Digits (c :: chars) := by
  simpa [Digits] using ⟨first, others⟩

theorem ahead_nil {phase : NumberPhase} (complete : phase.complete = true) : Ahead phase [] := by
  have ends : Ends [] := ⟨[], [], .absent, .absent, rfl⟩
  cases phase with
  | sign | point | exponent | exponentSign => cases complete
  | zero => exact ends
  | whole => exact ⟨[], [], .nil, ends, rfl⟩
  | fraction => exact ⟨[], [], .nil, .absent, rfl⟩
  | power => exact .nil

theorem ends_next {c : Char} {next : NumberPhase} {chars : List Char}
    (step : NumberPhase.fractionOrExponent? c = some next) (later : Ahead next chars) :
    Ends (c :: chars) := by
  unfold NumberPhase.fractionOrExponent? at step
  split at step
  next point =>
    cases step
    obtain ⟨digits, exponent, more, digit, scale, rfl⟩ := later
    exact ⟨'.' :: digits, exponent, .present more digit, scale, by simp [point]⟩
  split at step
  next marked =>
    cases step
    obtain ⟨sign, digits, signed, more, digit, rfl⟩ := later
    exact ⟨[], c :: (sign ++ digits), .absent, .present (by simpa using marked) signed more digit, rfl⟩
  next => cases step

theorem ahead_next {phase next : NumberPhase} {c : Char} {chars : List Char}
    (step : phase.next? c = some next) (later : Ahead next chars) : Ahead phase (c :: chars) := by
  unfold NumberPhase.next? at step
  split at step
  next =>
    split at step
    next zero =>
      cases step
      exact ⟨['0'], chars, .zero, later, by simp [zero]⟩
    split at step
    next notZero digit =>
      cases step
      obtain ⟨digits, rest, others, ends, rfl⟩ := later
      exact ⟨c :: digits, rest, .positive digit notZero others, ends, rfl⟩
    next => cases step
  next => exact ends_next step later
  next =>
    split at step
    next digit =>
      cases step
      obtain ⟨digits, rest, others, ends, rfl⟩ := later
      exact ⟨c :: digits, rest, .cons digit others, ends, rfl⟩
    next => exact ⟨[], c :: chars, .nil, ends_next step later, rfl⟩
  next =>
    split at step
    next digit =>
      cases step
      obtain ⟨digits, exponent, others, scale, rfl⟩ := later
      exact ⟨c :: digits, exponent, by simp, .cons digit others, scale, rfl⟩
    next => cases step
  next =>
    split at step
    next digit =>
      cases step
      obtain ⟨digits, exponent, others, scale, rfl⟩ := later
      exact ⟨c :: digits, exponent, .cons digit others, scale, rfl⟩
    split at step
    next marked =>
      cases step
      obtain ⟨sign, digits, signed, more, digit, rfl⟩ := later
      exact ⟨[], c :: (sign ++ digits), .nil, .present (by simpa using marked) signed more digit, rfl⟩
    next => cases step
  next =>
    split at step
    next signed =>
      cases step
      exact ⟨[c], chars, by simpa using signed, later.1, later.2, rfl⟩
    split at step
    next digit =>
      cases step
      exact ⟨[], c :: chars, by simp, by simp, .cons digit later, rfl⟩
    next => cases step
  next =>
    split at step
    next digit =>
      cases step
      exact ⟨by simp, .cons digit later⟩
    next => cases step
  next =>
    split at step
    next digit =>
      cases step
      exact .cons digit later
    next => cases step

theorem ahead_of_run? {phase last : NumberPhase} {chars : List Char}
    (run : phase.run? chars = some last) (complete : last.complete = true) : Ahead phase chars := by
  induction chars generalizing phase with
  | nil =>
    cases run
    exact ahead_nil complete
  | cons c chars ih =>
    obtain ⟨next, step, rest⟩ := Option.bind_eq_some_iff.mp run
    exact ahead_next step (ih rest)

theorem start?_sign {c : Char} {phase : NumberPhase} (start : NumberPhase.start? c = some phase) :
    (c = '-' ∧ phase = .sign) ∨ NumberPhase.sign.next? c = some phase := by
  unfold NumberPhase.start? at start
  split at start
  next minus => exact .inl ⟨minus, by simpa using start.symm⟩
  next => exact .inr start

theorem Digits.run? {digits : List Char} (phase : NumberPhase)
    (stays : ∀ c, c.isDigit → phase.next? c = some phase) (digit : Digits digits) :
    phase.run? digits = some phase := by
  induction digits with
  | nil => rfl
  | cons c digits ih =>
    have later := ih fun d member => digit d (by simp [member])
    simp [NumberPhase.run?, stays c (digit c (by simp)), later]

theorem Digits.run?_first {digits : List Char} (phase next : NumberPhase) (more : digits ≠ [])
    (first : ∀ c, c.isDigit → phase.next? c = some next)
    (stays : ∀ c, c.isDigit → next.next? c = some next) (digit : Digits digits) :
    phase.run? digits = some next := by
  cases digits with
  | nil => exact absurd rfl more
  | cons c digits =>
    have others : Digits digits := fun d member => digit d (by simp [member])
    simp [NumberPhase.run?, first c (digit c (by simp)), others.run? next stays]

theorem Whole.run? {whole : List Char} (large : Whole whole) :
    ∃ next, NumberPhase.sign.run? whole = some next ∧ (next = .zero ∨ next = .whole) := by
  cases large with
  | zero => exact ⟨.zero, rfl, .inl rfl⟩
  | positive first large others =>
    have later := others.run? .whole fun c digit => by simp [NumberPhase.next?, digit]
    exact ⟨.whole, by simp [NumberPhase.run?, NumberPhase.next?, large, first, later], .inr rfl⟩

theorem Fraction.run? {fraction : List Char} (small : Fraction fraction) {phase : NumberPhase}
    (before : phase = .zero ∨ phase = .whole) :
    ∃ next, phase.run? fraction = some next ∧
      (next = .zero ∨ next = .whole ∨ next = .fraction) := by
  cases small with
  | absent => exact ⟨phase, rfl, before.imp_right .inl⟩
  | present more digit =>
    have later := digit.run?_first .point .fraction more
      (fun c digit => by simp [NumberPhase.next?, digit])
      (fun c digit => by simp [NumberPhase.next?, digit])
    have point : phase.next? '.' = some .point := by
      rcases before with rfl | rfl <;> rfl
    exact ⟨.fraction, by simp [NumberPhase.run?, point, later], .inr (.inr rfl)⟩

theorem Exponent.run? {exponent : List Char} (scale : Exponent exponent) {phase : NumberPhase}
    (before : phase = .zero ∨ phase = .whole ∨ phase = .fraction) :
    ∃ last, phase.run? exponent = some last ∧ last.complete = true := by
  cases scale with
  | absent => exact ⟨phase, rfl, by rcases before with rfl | rfl | rfl <;> rfl⟩
  | @present mark sign digits marked signed more digit =>
    have power (c : Char) (digit : c.isDigit) : NumberPhase.power.next? c = some .power := by
      simp [NumberPhase.next?, digit]
    have marks : phase.next? mark = some .exponent := by
      simp only [List.mem_cons, List.not_mem_nil, or_false] at marked
      rcases marked with rfl | rfl <;> rcases before with rfl | rfl | rfl <;> rfl
    have signs : NumberPhase.exponent.run? (sign ++ digits) = some .power := by
      simp only [List.mem_cons, List.not_mem_nil, or_false] at signed
      rcases signed with rfl | rfl | rfl
      next =>
        refine digit.run?_first .exponent .power more (fun c digit => ?_) power
        have unsigned : c ≠ '+' ∧ c ≠ '-' := by
          constructor <;> rintro rfl <;> cases digit
        simp [NumberPhase.next?, unsigned, digit]
      all_goals
        exact digit.run?_first .exponentSign .power more
          (fun c digit => by simp [NumberPhase.next?, digit]) power
    exact ⟨.power, by simp [NumberPhase.run?, marks, signs], rfl⟩

theorem run?_parts {whole fraction exponent : List Char} (large : Whole whole)
    (small : Fraction fraction) (scale : Exponent exponent) :
    ∃ last, NumberPhase.sign.run? (whole ++ (fraction ++ exponent)) = some last ∧
      last.complete = true := by
  obtain ⟨one, first, known⟩ := large.run?
  obtain ⟨two, second, known⟩ := small.run? known
  obtain ⟨last, third, complete⟩ := scale.run? known
  exact ⟨last, by simp [numberPhase_run?_append, first, second, third], complete⟩

theorem Whole.start? {c : Char} {rest : List Char} (large : Whole (c :: rest)) :
    NumberPhase.start? c = NumberPhase.sign.next? c := by
  cases large with
  | zero => rfl
  | positive first => exact start?_of_isDigit first

theorem number_iff {literal : List Char} : Number literal ↔ (Lexeme.number literal).Readable := by
  constructor
  next =>
    rintro (@⟨sign, whole, fraction, exponent, signed, large, small, scale⟩)
    obtain ⟨last, run, complete⟩ := run?_parts large small scale
    refine ⟨last, ?_, complete⟩
    simp only [List.mem_cons, List.not_mem_nil, or_false] at signed
    rcases signed with rfl | rfl
    next =>
      cases whole with
      | nil => cases large
      | cons c whole => simpa [NumberPhase.ofLiteral?, large.start?, NumberPhase.run?] using run
    next => simpa [NumberPhase.ofLiteral?, NumberPhase.start?] using run
  next =>
    rintro ⟨last, run, complete⟩
    cases literal with
    | nil => cases run
    | cons c literal =>
      obtain ⟨phase, start, rest⟩ := Option.bind_eq_some_iff.mp run
      have later := ahead_of_run? rest complete
      rcases start?_sign start with ⟨rfl, rfl⟩ | first
      next =>
        obtain ⟨whole, _, large, ⟨fraction, exponent, small, scale, rfl⟩, rfl⟩ := later
        exact @Number.parts ['-'] _ _ _ (by simp) large small scale
      next =>
        obtain ⟨whole, _, large, ⟨fraction, exponent, small, scale, rfl⟩, same⟩ :=
          ahead_next first later
        rw [same]
        exact @Number.parts [] _ _ _ (by simp) large small scale

end Number

section Text

theorem isEscapable_eq (c : Char) : isEscapable c = (short? c).isSome := by
  unfold short?
  split
  case h_9 =>
    simp_all [isEscapable]
  all_goals rfl

theorem run?_plain {c : Char} (plain : Plain c) (rest : List Char) :
    EscapePhase.run? .plain (c :: rest) = EscapePhase.run? .plain rest := by
  have printable : ¬ c.toNat < 0x20 := Nat.not_lt.mpr plain.printable
  simp [EscapePhase.run?, EscapePhase.next?, plain.notQuote, plain.notSlash, printable]

theorem run?_short {c meaning : Char} (known : short? c = some meaning) (rest : List Char) :
    EscapePhase.run? .plain ('\\' :: c :: rest) = EscapePhase.run? .plain rest := by
  have escapable : isEscapable c = true := by simp [isEscapable_eq, known]
  simp [EscapePhase.run?, EscapePhase.next?, escapable]

theorem run?_unit {digits : List Char} {n : Nat} (four : Unit digits n) (rest : List Char) :
    EscapePhase.run? .plain ('\\' :: 'u' :: (digits ++ rest)) = EscapePhase.run? .plain rest := by
  have unescapable : isEscapable 'u' = false := rfl
  obtain ⟨first, second, third, fourth⟩ := four
  simp [EscapePhase.run?, EscapePhase.next?, unescapable, first, second, third, fourth]

theorem Text.run? {raw : List Char} (text : Text raw) : EscapePhase.run? .plain raw = some .plain := by
  induction text with
  | nil => rfl
  | plain plain _ ih => rw [run?_plain plain, ih]
  | short known _ ih => rw [run?_short known, ih]
  | unit four _ ih => rw [run?_unit four, ih]

theorem run?_hex (missing : Nat) {rest : List Char}
    (run : EscapePhase.run? (.hex missing) rest = some .plain) :
    ∃ digits others, rest = digits ++ others ∧ digits.length = missing + 1 ∧
      (∀ c ∈ digits, ∃ digit, Hex.digit? c = some digit) ∧
      EscapePhase.run? .plain others = some .plain := by
  induction missing generalizing rest with
  | zero =>
    cases rest with
    | nil => cases run
    | cons c rest =>
      cases hex : Hex.digit? c with
      | none => simp [EscapePhase.run?, EscapePhase.next?, hex] at run
      | some digit =>
        refine ⟨[c], rest, rfl, rfl, by simpa using ⟨digit, hex⟩, ?_⟩
        simpa [EscapePhase.run?, EscapePhase.next?, hex] using run
  | succ missing ih =>
    cases rest with
    | nil => cases run
    | cons c rest =>
      cases hex : Hex.digit? c with
      | none => simp [EscapePhase.run?, EscapePhase.next?, hex] at run
      | some digit =>
        obtain ⟨digits, others, rfl, length, all, later⟩ :=
          ih (by simpa [EscapePhase.run?, EscapePhase.next?, hex] using run)
        exact ⟨c :: digits, others, rfl, by simp [length], by simpa using ⟨⟨digit, hex⟩, all⟩, later⟩

theorem unit_of_length {digits : List Char} (length : digits.length = 4)
    (all : ∀ c ∈ digits, ∃ digit, Hex.digit? c = some digit) : ∃ n, Unit digits n := by
  obtain ⟨a, b, c, d, rfl⟩ := List.length_eq_four.mp length
  simp only [List.mem_cons, List.not_mem_nil, or_false, forall_eq_or_imp, forall_eq] at all
  obtain ⟨⟨w, first⟩, ⟨x, second⟩, ⟨y, third⟩, ⟨z, fourth⟩⟩ := all
  exact ⟨_, .digits first second third fourth⟩

theorem run?_slash {rest : List Char} (run : EscapePhase.run? .slash rest = some .plain) :
    (∃ c meaning others, rest = c :: others ∧ short? c = some meaning ∧
      EscapePhase.run? .plain others = some .plain) ∨
    ∃ digits n others, rest = 'u' :: (digits ++ others) ∧ Unit digits n ∧
      EscapePhase.run? .plain others = some .plain := by
  cases rest with
  | nil => cases run
  | cons c rest =>
    cases known : short? c with
    | some meaning =>
      refine .inl ⟨c, meaning, rest, rfl, known, ?_⟩
      simpa [EscapePhase.run?, EscapePhase.next?, isEscapable_eq, known] using run
    | none =>
      by_cases escaped : c = 'u'
      next =>
        subst escaped
        obtain ⟨digits, others, rfl, length, all, later⟩ := run?_hex 3
          (by simpa [EscapePhase.run?, EscapePhase.next?, isEscapable_eq, known] using run)
        obtain ⟨n, four⟩ := unit_of_length length all
        exact .inr ⟨digits, n, others, rfl, four, later⟩
      next => simp [EscapePhase.run?, EscapePhase.next?, isEscapable_eq, known, escaped] at run

theorem text_of_run? {raw : List Char} (run : EscapePhase.run? .plain raw = some .plain) :
    Text raw := by
  induction length : raw.length using Nat.strongRecOn generalizing raw with
  | ind _ ih =>
    subst length
    cases raw with
    | nil => exact .nil
    | cons c raw =>
      by_cases slash : c = '\\'
      next =>
        subst slash
        have after : EscapePhase.run? .slash raw = some .plain := by
          simpa [EscapePhase.run?, EscapePhase.next?] using run
        rcases run?_slash after with ⟨c, meaning, others, rfl, known, later⟩ |
          ⟨digits, n, others, rfl, four, later⟩
        next => exact .short known (ih _ (by simp only [List.length_cons]; omega) later rfl)
        next =>
          have shorter : others.length < ('\\' :: 'u' :: (digits ++ others)).length := by
            simp only [List.length_cons, List.length_append]
            omega
          exact .unit four (ih _ shorter later rfl)
      next =>
        have plain : Plain c := by
          constructor
          next =>
            by_contra control
            simp [EscapePhase.run?, EscapePhase.next?, slash, Nat.not_le.mp control] at run
          next =>
            rintro rfl
            simp [EscapePhase.run?] at run
          next => exact slash
        exact .plain plain (ih _ (by simp) (by rwa [run?_plain plain] at run) rfl)

theorem text_iff {raw : List Char} : Text raw ↔ (Lexeme.text raw).Readable :=
  ⟨Text.run?, text_of_run?⟩

theorem Means.text {raw chars : List Char} (means : Means raw chars) : Text raw := by
  induction means with
  | nil => exact .nil
  | plain plain _ ih => exact .plain plain ih
  | short known _ ih => exact .short known ih
  | unit four _ _ _ ih => exact .unit four ih
  | pair leads trails _ _ _ ih => exact .unit leads (.unit trails ih)

theorem unescapeOnto?_plain {c : Char} (plain : Plain c) (rest done : List Char) :
    unescapeOnto? .plain (c :: rest) done = unescapeOnto? .plain rest (c :: done) := by
  simp [unescapeOnto?, Unescape.feed?, plain.notSlash]

theorem unescapeOnto?_short {c meaning : Char} (known : short? c = some meaning)
    (rest done : List Char) :
    unescapeOnto? .plain ('\\' :: c :: rest) done = unescapeOnto? .plain rest (meaning :: done) := by
  have short : c ≠ 'u' := by
    rintro rfl
    cases known
  simp [unescapeOnto?, Unescape.feed?, short, known]

theorem unescapeOnto?_unit {digits : List Char} {n : Nat} (four : Unit digits n)
    (first : Option Nat) (rest done : List Char) :
    unescapeOnto? (.digits first []) (digits ++ rest) done =
      (Unescape.complete? n done first).bind fun next => unescapeOnto? next.1 rest next.2 := by
  obtain ⟨one, two, three, four⟩ := four
  simp only [unescapeOnto?, Unescape.feed?, List.cons_append, List.nil_append, one, two, three, four,
    Option.map_some, Option.bind_some]
  cases Unescape.complete? _ done first <;> rfl

theorem isTrail_of_isLead {n : Nat} (lead : isLead n = true) : isTrail n = false := by
  simp only [isLead, Bool.and_eq_true, decide_eq_true_eq] at lead
  simp only [isTrail, Bool.and_eq_false_iff, decide_eq_false_iff_not]
  omega

theorem Means.unescapeOnto? {raw chars : List Char} (means : Means raw chars) (done : List Char) :
    unescapeOnto? .plain raw done = some (done.reverse ++ chars) := by
  induction means generalizing done with
  | nil => simp [Json.unescapeOnto?]
  | plain plain _ ih => simp [unescapeOnto?_plain plain, ih]
  | short known _ ih => simp [unescapeOnto?_short known, ih]
  | unit four notLead notTrail _ ih =>
    simp [Json.unescapeOnto?, Unescape.feed?, unescapeOnto?_unit four, Unescape.complete?, notLead,
      notTrail, ih]
  | pair leads trails lead trail _ ih =>
    simp [Json.unescapeOnto?, Unescape.feed?, unescapeOnto?_unit leads, unescapeOnto?_unit trails,
      Unescape.complete?, lead, trail, isTrail_of_isLead lead, ih]

-- A lead is read before its other half, so both places of a reader are followed at once.
theorem means_of_unescapeOnto? {raw : List Char} (text : Text raw) :
    (∀ done result, unescapeOnto? .plain raw done = some result →
      ∃ chars, Means raw chars ∧ result = done.reverse ++ chars) ∧
    ∀ lead done result, unescapeOnto? (.half lead) raw done = some result →
      ∃ second trail rest chars, raw = '\\' :: 'u' :: (second ++ rest) ∧ Unit second trail ∧
        isTrail trail = true ∧ Means rest chars ∧
        result = done.reverse ++ pair lead trail :: chars := by
  induction text with
  | nil =>
    refine ⟨fun done result read => ⟨[], .nil, ?_⟩, fun lead done result read => by cases read⟩
    simpa [unescapeOnto?] using read.symm
  | @plain c rest plain _ ih =>
    refine ⟨fun done result read => ?_, fun lead done result read => ?_⟩
    next =>
      rw [unescapeOnto?_plain plain] at read
      obtain ⟨chars, means, rfl⟩ := ih.1 _ _ read
      exact ⟨c :: chars, .plain plain means, by simp⟩
    next => simp [unescapeOnto?, Unescape.feed?, plain.notSlash] at read
  | @short c meaning rest known _ ih =>
    refine ⟨fun done result read => ?_, fun lead done result read => ?_⟩
    next =>
      rw [unescapeOnto?_short known] at read
      obtain ⟨chars, means, rfl⟩ := ih.1 _ _ read
      exact ⟨meaning :: chars, .short known means, by simp⟩
    next =>
      have short : c ≠ 'u' := by
        rintro rfl
        cases known
      simp [unescapeOnto?, Unescape.feed?, short] at read
  | @unit digits rest n four _ ih =>
    refine ⟨fun done result read => ?_, fun lead done result read => ?_⟩
    next =>
      replace read : unescapeOnto? (.digits none []) (digits ++ rest) done = some result := read
      rw [unescapeOnto?_unit four, Unescape.complete?] at read
      split at read
      next => cases read
      next notTrail =>
        split at read
        next lead =>
          obtain ⟨second, trail, others, chars, rfl, trails, isTrail, means, rfl⟩ := ih.2 _ _ _ read
          exact ⟨_, .pair four trails lead isTrail means, rfl⟩
        next notLead =>
          obtain ⟨chars, means, rfl⟩ := ih.1 _ _ read
          exact ⟨_, .unit four (by simpa using notLead) (by simpa using notTrail) means, by simp⟩
    next =>
      replace read : unescapeOnto? (.digits (some lead) []) (digits ++ rest) done = some result := read
      rw [unescapeOnto?_unit four, Unescape.complete?] at read
      split at read
      next trail =>
        obtain ⟨chars, means, rfl⟩ := ih.1 _ _ read
        exact ⟨digits, n, rest, chars, rfl, four, trail, means, by simp⟩
      next => cases read

theorem means_iff {raw chars : List Char} :
    Means raw chars ↔ Text raw ∧ unescape? raw = some chars := by
  constructor
  next =>
    intro means
    exact ⟨means.text, by simpa [unescape?] using means.unescapeOnto? []⟩
  next =>
    rintro ⟨text, read⟩
    obtain ⟨others, means, same⟩ := (means_of_unescapeOnto? text).1 _ _ read
    simp only [List.reverse_nil, List.nil_append] at same
    rwa [same]

theorem Means.unique {raw chars others : List Char} (one : Means raw chars)
    (other : Means raw others) : chars = others :=
  Option.some.inj ((means_iff.mp one).2.symm.trans (means_iff.mp other).2)

end Text

section Values

theorem Entries.spells {entries : List Entry} {inside : List Char} (listed : Entries entries inside) :
    ∀ entry ∈ entries, Spells entry.value entry.text := by
  induction entries generalizing inside with
  | nil => simp
  | cons entry entries ih =>
    cases listed with
    | last _ _ spelled => simpa using spelled
    | cons _ _ spelled _ others => exact List.forall_mem_cons.mpr ⟨spelled, ih others⟩

theorem Braced.spells {entries : List Entry} {core : List Char} (braced : Braced entries core) :
    ∀ entry ∈ entries, Spells entry.value entry.text := by
  cases braced with
  | empty => simp
  | full listed => exact listed.spells

end Values

end TemplateSync.Json.Grammar
