import Mathlib.Data.List.Chain
import TemplateSync.Json.Lexeme

set_option autoImplicit false

namespace TemplateSync.Json

def EscapePhase.run? : EscapePhase → List Char → Option EscapePhase
  | phase, [] => some phase
  | phase, c :: rest =>
    if phase = .plain && c = '"' then none else (phase.next? c).bind fun phase => phase.run? rest

def NumberPhase.run? : NumberPhase → List Char → Option NumberPhase
  | phase, [] => some phase
  | phase, c :: rest => (phase.next? c).bind fun phase => phase.run? rest

def NumberPhase.ofLiteral? : List Char → Option NumberPhase
  | [] => none
  | c :: rest => (NumberPhase.start? c).bind fun phase => phase.run? rest

def Lexeme.Readable : Lexeme → Prop
  | .mark _ | .word _ => True
  | .number literal => ∃ phase, NumberPhase.ofLiteral? literal = some phase ∧ phase.complete
  | .text raw => EscapePhase.run? .plain raw = some .plain

-- Nothing of its own ends a bare lexeme.
def Lexeme.isBare : Lexeme → Bool
  | .word _ | .number _ => true
  | .mark _ | .text _ => false

structure Token.Readable (token : Token) : Prop where
  blanks : ∀ c ∈ token.blanks, isBlank c
  lexeme : token.lexeme.Readable

-- Two bare lexemes have a blank between them.
def Token.Apart (first second : Token) : Prop :=
  first.lexeme.isBare → second.lexeme.isBare → second.blanks ≠ []

def Breaks (c : Char) : Prop :=
  isBlank c ∨ c = '"' ∨ ∃ mark, Mark.ofChar? c = some mark

theorem mark_ofChar?_char (mark : Mark) : Mark.ofChar? mark.char = some mark := by
  cases mark <;> rfl

theorem mark_char_of_ofChar? {c : Char} {mark : Mark} (h : Mark.ofChar? c = some mark) :
    c = mark.char := by
  unfold Mark.ofChar? at h
  split at h <;> simp_all [Mark.char]
  all_goals subst h; rfl

def breakers : List Char :=
  [' ', '\n', '\t', '\r', '"', '\x7b', '\x7d', '[', ']', ':', ',']

theorem mem_breakers {c : Char} (h : Breaks c) : c ∈ breakers := by
  rcases h with blank | rfl | ⟨mark, known⟩
  next =>
    simp only [isBlank, Bool.or_eq_true, beq_iff_eq] at blank
    rcases blank with ((rfl | rfl) | rfl) | rfl <;> decide
  next => decide
  next =>
    rw [mark_char_of_ofChar? known]
    cases mark <;> decide

theorem breaks_not_alpha {c : Char} (h : Breaks c) : c.isAlpha = false := by
  have all : breakers.all (fun c => !c.isAlpha) = true := by decide
  simpa using List.all_eq_true.mp all c (mem_breakers h)

theorem breaks_not_next {c : Char} (h : Breaks c) (phase : NumberPhase) : phase.next? c = none := by
  have all : breakers.all (fun c => (phase.next? c).isNone) = true := by cases phase <;> decide
  simpa using List.all_eq_true.mp all c (mem_breakers h)

def decimals : List Char := ['0', '1', '2', '3', '4', '5', '6', '7', '8', '9']

theorem mem_decimals {c : Char} (h : c.isDigit) : c ∈ decimals := by
  have range : 48 ≤ c.toNat ∧ c.toNat < 58 := by
    simp only [Char.isDigit, Bool.and_eq_true, decide_eq_true_eq, ge_iff_le,
      UInt32.le_iff_toNat_le] at h
    exact ⟨h.1, Nat.lt_succ_of_le h.2⟩
  have all : ∀ n, n < 58 → 48 ≤ n → Char.ofNat n ∈ decimals := by decide
  simpa using all c.toNat range.2 range.1

namespace Lexer

def between (tokens : List Token) (blanks : List Char) : Lexer :=
  ⟨tokens, blanks, .between⟩

theorem eq_between {lexer : Lexer} {tokens : List Token} {blanks : List Char}
    (closed : lexer.close? = some (between tokens blanks)) (mode : lexer.mode = .between) :
    lexer = between tokens blanks := by
  simpa [close?, mode] using closed

theorem feed?_of_breaks {lexer closed : Lexer} {c : Char} (breaks : Breaks c)
    (h : lexer.close? = some closed) : lexer.feed? c = closed.start? c := by
  rcases lexer with ⟨tokens, blanks, mode⟩
  cases mode with
  | between =>
    cases h
    rfl
  | word reversed => simp [feed?, breaks_not_alpha breaks, h]
  | number phase reversed => simp [feed?, breaks_not_next breaks, h]
  | text phase reversed => simp [close?] at h

theorem feedAll?_of_breaks {lexer closed : Lexer} {c : Char} (rest : List Char) (breaks : Breaks c)
    (h : lexer.close? = some closed) (mode : closed.mode = .between) :
    lexer.feedAll? (c :: rest) = closed.feedAll? (c :: rest) := by
  have own : closed.feed? c = closed.start? c := by simp [feed?, mode]
  simp only [feedAll?, feed?_of_breaks breaks h, own]

theorem feedAll?_blanks (tokens : List Token) (before blanks : List Char)
    (blank : ∀ c ∈ blanks, isBlank c) :
    (between tokens before).feedAll? blanks = some (between tokens (blanks.reverse ++ before)) := by
  induction blanks generalizing before with
  | nil => rfl
  | cons c blanks ih =>
    have first : (between tokens before).feed? c = some (between tokens (c :: before)) := by
      simp [feed?, start?, between, blank c (by simp)]
    rw [feedAll?, first]
    simp [ih (c :: before) fun d member => blank d (by simp [member])]

theorem feedAll?_number (tokens : List Token) (blanks reversed literal : List Char)
    (phase last : NumberPhase) (h : phase.run? literal = some last) :
    feedAll? ⟨tokens, blanks, .number phase reversed⟩ literal =
      some ⟨tokens, blanks, .number last (literal.reverse ++ reversed)⟩ := by
  induction literal generalizing phase reversed with
  | nil => simp_all [NumberPhase.run?, feedAll?]
  | cons c literal ih =>
    obtain ⟨middle, next, rest⟩ := Option.bind_eq_some_iff.mp h
    simp [feedAll?, feed?, next, ih (c :: reversed) middle rest]

theorem feedAll?_text (tokens : List Token) (blanks reversed raw : List Char)
    (phase last : EscapePhase) (h : phase.run? raw = some last) :
    feedAll? ⟨tokens, blanks, .text phase reversed⟩ raw =
      some ⟨tokens, blanks, .text last (raw.reverse ++ reversed)⟩ := by
  induction raw generalizing phase reversed with
  | nil => simp_all [EscapePhase.run?, feedAll?]
  | cons c raw ih =>
    rw [EscapePhase.run?] at h
    split at h
    next => cases h
    next inside =>
      obtain ⟨middle, next, rest⟩ := Option.bind_eq_some_iff.mp h
      simp [feedAll?, feed?, inside, next, ih (c :: reversed) middle rest]

theorem start?_number {c : Char} {phase : NumberPhase} (h : NumberPhase.start? c = some phase) :
    isBlank c = false ∧ c ≠ '"' ∧ c.isAlpha = false ∧ Mark.ofChar? c = none := by
  have first : c = '-' ∨ c.isDigit := by
    unfold NumberPhase.start? at h
    split at h
    next minus => exact .inl minus
    split at h
    next zero => exact .inr (by simp [zero])
    split at h
    next digit => exact .inr digit
    next => cases h
  have all : ('-' :: decimals).all
      (fun c => !isBlank c && c != '"' && !c.isAlpha && (Mark.ofChar? c).isNone) = true := by decide
  have inside : c ∈ '-' :: decimals := by
    rcases first with rfl | digit
    next => exact List.mem_cons_self
    next => exact List.mem_cons_of_mem _ (mem_decimals digit)
  simpa [and_assoc] using List.all_eq_true.mp all c inside

theorem feedAll?_lexeme (tokens : List Token) (blanks : List Char) (lexeme : Lexeme)
    (readable : lexeme.Readable) :
    ∃ lexer, (between tokens blanks).feedAll? lexeme.spelling = some lexer ∧
      lexer.close? = some (between (⟨blanks.reverse, lexeme⟩ :: tokens) []) ∧
      (lexeme.isBare = false → lexer.mode = .between) := by
  cases lexeme with
  | mark mark =>
    refine ⟨between (⟨blanks.reverse, .mark mark⟩ :: tokens) [], ?_, rfl, fun _ => rfl⟩
    cases mark <;> rfl
  | word word =>
    refine ⟨⟨tokens, blanks, .word word.spelling.reverse⟩, ?_, ?_, by simp [Lexeme.isBare]⟩
    next => cases word <;> rfl
    next => cases word <;> rfl
  | number literal =>
    obtain ⟨last, run, complete⟩ := readable
    cases literal with
    | nil => simp [NumberPhase.ofLiteral?] at run
    | cons c literal =>
      obtain ⟨phase, start, rest⟩ := Option.bind_eq_some_iff.mp run
      obtain ⟨notBlank, notQuote, notAlpha, notMark⟩ := start?_number start
      refine ⟨⟨tokens, blanks, .number last (literal.reverse ++ [c])⟩, ?_, ?_, by
        simp [Lexeme.isBare]⟩
      next =>
        have first : (between tokens blanks).feed? c =
            some ⟨tokens, blanks, .number phase [c]⟩ := by
          simp [feed?, start?, between, notBlank, notQuote, notAlpha, notMark, start]
        simp [Lexeme.spelling, feedAll?, first, feedAll?_number _ _ _ _ _ _ rest]
      next => simp [close?, complete, emit, between]
  | text raw =>
    refine ⟨between (⟨blanks.reverse, .text raw⟩ :: tokens) [], ?_, rfl, fun _ => rfl⟩
    have first : (between tokens blanks).feed? '"' = some ⟨tokens, blanks, .text .plain []⟩ := by
      simp [feed?, start?, between, isBlank]
    have inside := feedAll?_text tokens blanks [] raw .plain .plain readable
    simp only [Lexeme.spelling, List.cons_append, feedAll?, first, feedAll_append, inside]
    simp [feed?, emit, between]

theorem token_breaks {token : Token} {c : Char} {rest : List Char} (readable : token.Readable)
    (apart : token.lexeme.isBare → token.blanks ≠ []) (h : token.spelling = c :: rest) :
    Breaks c := by
  rcases token with ⟨blanks, lexeme⟩
  cases blanks with
  | cons blank blanks =>
    cases h
    exact .inl (readable.blanks c (by simp))
  | nil =>
    cases lexeme with
    | mark mark =>
      cases h
      exact .inr (.inr ⟨mark, mark_ofChar?_char mark⟩)
    | text raw =>
      cases h
      exact .inr (.inl rfl)
    | word | number => exact absurd rfl (apart rfl)

theorem spelling_ne_nil {token : Token} (readable : token.Readable) : token.spelling ≠ [] := by
  rcases token with ⟨blanks, lexeme⟩
  cases lexeme with
  | mark | text => simp [Token.spelling, Lexeme.spelling]
  | word word => cases word <;> simp [Token.spelling, Lexeme.spelling, Word.spelling]
  | number literal =>
    cases literal with
    | nil => simpa [Lexeme.Readable, NumberPhase.ofLiteral?] using readable.lexeme
    | cons => simp [Token.spelling, Lexeme.spelling]

theorem feedAll?_token (lexer : Lexer) (done : List Token) (token : Token)
    (readable : token.Readable) (closed : lexer.close? = some (between done []))
    (ready : lexer.mode = .between ∨ (token.lexeme.isBare → token.blanks ≠ [])) :
    ∃ next, lexer.feedAll? token.spelling = some next ∧
      next.close? = some (between (token :: done) []) ∧
      (token.lexeme.isBare = false → next.mode = .between) := by
  have start : lexer.feedAll? token.spelling = (between done []).feedAll? token.spelling := by
    rcases ready with mode | apart
    next => rw [eq_between closed mode]
    next =>
      obtain ⟨c, rest, spelled⟩ := List.exists_cons_of_ne_nil (spelling_ne_nil readable)
      rw [spelled]
      exact feedAll?_of_breaks rest (token_breaks readable apart spelled) closed rfl
  obtain ⟨next, fed, shut, mode⟩ :=
    feedAll?_lexeme done token.blanks.reverse token.lexeme readable.lexeme
  refine ⟨next, ?_, by simpa using shut, mode⟩
  rw [start, Token.spelling, feedAll_append, feedAll?_blanks done [] _ readable.blanks]
  simpa using fed

theorem feedAll?_tokens (tokens : List Token) (lexer : Lexer) (done : List Token)
    (readable : ∀ token ∈ tokens, token.Readable) (apart : tokens.IsChain Token.Apart)
    (closed : lexer.close? = some (between done []))
    (ready : ∀ token ∈ tokens.head?,
      lexer.mode = .between ∨ (token.lexeme.isBare → token.blanks ≠ [])) :
    ∃ last, lexer.feedAll? (tokens.flatMap Token.spelling) = some last ∧
      last.close? = some (between (tokens.reverse ++ done) []) := by
  induction tokens generalizing lexer done with
  | nil => exact ⟨lexer, rfl, closed⟩
  | cons token tokens ih =>
    obtain ⟨next, fed, shut, mode⟩ :=
      feedAll?_token lexer done token (readable token (by simp)) closed (ready token (by simp))
    have later : ∀ other ∈ tokens.head?,
        next.mode = .between ∨ (other.lexeme.isBare → other.blanks ≠ []) := by
      intro other first
      by_cases bare : token.lexeme.isBare
      next => exact .inr ((List.isChain_cons.mp apart).1 other first bare)
      next => exact .inl (mode (by simpa using bare))
    obtain ⟨last, fedAll, shutAll⟩ := ih next (token :: done)
      (fun other member => readable other (by simp [member])) (List.isChain_cons.mp apart).2 shut later
    refine ⟨last, ?_, by simpa using shutAll⟩
    simp [feedAll_append, fed, fedAll]

end Lexer

theorem lex?_spelling (tokens : List Token) (trailing : List Char)
    (readable : ∀ token ∈ tokens, token.Readable) (apart : tokens.IsChain Token.Apart)
    (blank : ∀ c ∈ trailing, isBlank c) :
    lex? (tokens.flatMap Token.spelling ++ trailing) = some tokens := by
  obtain ⟨last, fed, closed⟩ := Lexer.feedAll?_tokens tokens Lexer.initial [] readable apart rfl
    (fun _ _ => .inl rfl)
  rw [List.append_nil] at closed
  simp only [lex?, Lexer.feedAll_append, fed, Option.bind_some]
  cases trailing with
  | nil => simp [Lexer.feedAll?, closed, Lexer.between]
  | cons c trailing =>
    rw [Lexer.feedAll?_of_breaks trailing (.inl (blank c (by simp))) closed rfl,
      Lexer.feedAll?_blanks _ _ _ blank]
    simp [Lexer.close?, Lexer.between]

end TemplateSync.Json
