import TemplateSync.Proofs.Json.Derivations

set_option autoImplicit false

namespace TemplateSync.Json

open Grammar

section Lexing

theorem escapePhase_run?_snoc {phase next : EscapePhase} {raw : List Char} {c : Char}
    {last : EscapePhase} (run : phase.run? raw = some next)
    (inside : (next = .plain && c = '"') = false) (step : next.next? c = some last) :
    phase.run? (raw ++ [c]) = some last := by
  induction raw generalizing phase with
  | nil =>
    cases run
    simp_all [EscapePhase.run?]
  | cons d raw ih =>
    rw [EscapePhase.run?] at run
    rw [List.cons_append, EscapePhase.run?]
    split at run
    next => cases run
    next open_text =>
      obtain ⟨middle, first, rest⟩ := Option.bind_eq_some_iff.mp run
      rw [if_neg open_text, first]
      exact ih rest

theorem ofLiteral?_snoc {literal : List Char} {phase next : NumberPhase} {c : Char}
    (known : NumberPhase.ofLiteral? literal = some phase) (step : phase.next? c = some next) :
    NumberPhase.ofLiteral? (literal ++ [c]) = some next := by
  cases literal with
  | nil => cases known
  | cons d literal =>
    obtain ⟨first, start, rest⟩ := Option.bind_eq_some_iff.mp known
    simp [NumberPhase.ofLiteral?, start, numberPhase_run?_append, rest, NumberPhase.run?, step]

inductive Mode.Spelled : Mode → List Char → Prop where
  | between : Spelled .between []
  | word (reversed : List Char) : Spelled (.word reversed) reversed.reverse
  | number {phase : NumberPhase} (reversed : List Char)
      (known : NumberPhase.ofLiteral? reversed.reverse = some phase) :
      Spelled (.number phase reversed) reversed.reverse
  | text {phase : EscapePhase} (reversed : List Char)
      (run : EscapePhase.run? .plain reversed.reverse = some phase) :
      Spelled (.text phase reversed) ('"' :: reversed.reverse)

namespace Lexer

/-- What the lexer has read: its tokens, its blanks and the lexeme that is open. -/
structure Account (lexer : Lexer) (chars : List Char) : Prop where
  readable : ∀ token ∈ lexer.tokens, token.Readable
  blank : ∀ c ∈ lexer.blanks, isBlank c
  spelled : ∃ open_lexeme, lexer.mode.Spelled open_lexeme ∧
    chars = lexer.tokens.reverse.flatMap Token.spelling ++ lexer.blanks.reverse ++ open_lexeme

theorem emit_account {lexer : Lexer} {chars : List Char} (lexeme : Lexeme)
    (readable : ∀ token ∈ lexer.tokens, token.Readable) (blank : ∀ c ∈ lexer.blanks, isBlank c)
    (own : lexeme.Readable)
    (spelled : chars = lexer.tokens.reverse.flatMap Token.spelling ++ lexer.blanks.reverse ++
      lexeme.spelling) : (lexer.emit lexeme).Account chars := by
  refine ⟨?_, by simp [emit], [], .between, ?_⟩
  next =>
    intro token member
    rcases List.mem_cons.mp member with rfl | inside
    next => exact ⟨by simpa using blank, own⟩
    next => exact readable token inside
  next => simp [spelled, emit, Token.spelling]

theorem word_spelling {chars : List Char} {word : Word} (known : Word.ofSpelling? chars = some word) :
    word.spelling = chars := by
  simpa using List.find?_some known

theorem close?_account {lexer closed : Lexer} {chars : List Char} (account : lexer.Account chars)
    (close : lexer.close? = some closed) : closed.Account chars ∧ closed.mode = .between := by
  rcases lexer with ⟨tokens, blanks, mode⟩
  obtain ⟨readable, blank, _, spelled, rfl⟩ := account
  cases mode with
  | between =>
    cases close
    exact ⟨⟨readable, blank, _, spelled, rfl⟩, rfl⟩
  | word reversed =>
    obtain ⟨word, known, rfl⟩ := Option.map_eq_some_iff.mp close
    cases spelled
    exact ⟨emit_account (.word word) readable blank trivial (by
      rw [Lexeme.spelling, word_spelling known]), rfl⟩
  | number phase reversed =>
    simp only [close?] at close
    split at close
    next complete =>
      cases close
      cases spelled with
      | number _ known => exact
        ⟨emit_account (.number _) readable blank ⟨phase, known, complete⟩ rfl, rfl⟩
    next => cases close
  | text phase reversed => cases close

theorem start?_account {lexer next : Lexer} {chars : List Char} {c : Char}
    (account : lexer.Account chars) (between : lexer.mode = .between)
    (start : lexer.start? c = some next) : next.Account (chars ++ [c]) := by
  rcases lexer with ⟨tokens, blanks, mode⟩
  cases between
  obtain ⟨readable, blank, _, ⟨⟩, rfl⟩ := account
  rw [start?] at start
  split at start
  next own =>
    cases start
    refine ⟨readable, by simpa [own] using blank, [], .between, ?_⟩
    simp
  split at start
  next quote =>
    cases start
    exact ⟨readable, blank, _, .text [] rfl, by simp [quote]⟩
  split at start
  next =>
    cases start
    exact ⟨readable, blank, _, .word [c], by simp⟩
  split at start
  next _ mark known =>
    cases start
    refine emit_account (.mark mark) readable blank trivial ?_
    simp [Lexeme.spelling, mark_char_of_ofChar? known]
  next phase _ known =>
    cases start
    have literal : NumberPhase.ofLiteral? [c] = some phase := by
      simp [NumberPhase.ofLiteral?, known, NumberPhase.run?]
    exact ⟨readable, blank, _, .number [c] literal, by simp⟩
  next => cases start

theorem feed?_account {lexer next : Lexer} {chars : List Char} {c : Char}
    (account : lexer.Account chars) (feed : lexer.feed? c = some next) :
    next.Account (chars ++ [c]) := by
  have ended (h : (lexer.close?.bind fun lexer => lexer.start? c) = some next) :
      next.Account (chars ++ [c]) := by
    obtain ⟨closed, close, start⟩ := Option.bind_eq_some_iff.mp h
    obtain ⟨account, between⟩ := close?_account account close
    exact start?_account account between start
  rcases lexer with ⟨tokens, blanks, mode⟩
  cases mode with
  | between => exact start?_account account rfl feed
  | word reversed =>
    simp only [feed?] at feed
    split at feed
    next =>
      cases feed
      obtain ⟨readable, blank, _, ⟨⟩, rfl⟩ := account
      exact ⟨readable, blank, _, .word (c :: reversed), by simp⟩
    next => exact ended feed
  | number phase reversed =>
    simp only [feed?] at feed
    split at feed
    next step =>
      cases feed
      obtain ⟨readable, blank, _, spelled, rfl⟩ := account
      cases spelled with
      | number _ known =>
        refine ⟨readable, blank, _, .number (c :: reversed) ?_, by simp⟩
        simpa using ofLiteral?_snoc known step
    next => exact ended feed
  | text phase reversed =>
    simp only [feed?] at feed
    obtain ⟨readable, blank, _, spelled, rfl⟩ := account
    cases spelled with
    | text _ run =>
      split at feed
      next quote =>
        cases feed
        obtain ⟨rfl, rfl⟩ : phase = .plain ∧ c = '"' := by simpa using quote
        exact emit_account (.text _) readable blank run (by simp [Lexeme.spelling])
      next inside =>
        obtain ⟨later, step, rfl⟩ := Option.map_eq_some_iff.mp feed
        refine ⟨readable, blank, _, .text (c :: reversed) ?_, by simp⟩
        simpa using escapePhase_run?_snoc run (by simpa using inside) step

theorem feedAll?_account {lexer last : Lexer} {before chars : List Char}
    (account : lexer.Account before) (feed : lexer.feedAll? chars = some last) :
    last.Account (before ++ chars) := by
  induction chars generalizing lexer before with
  | nil =>
    cases feed
    simpa using account
  | cons c chars ih =>
    rw [feedAll?] at feed
    split at feed
    next next first => simpa using ih (feed?_account account first) feed
    next => cases feed

end Lexer

theorem lex?_sound {chars : List Char} {tokens : List Token} (lexed : lex? chars = some tokens) :
    (∀ token ∈ tokens, token.Readable) ∧
      ∃ after, Blanks after ∧ chars = tokens.flatMap Token.spelling ++ after := by
  obtain ⟨last, feed, close⟩ := Option.bind_eq_some_iff.mp lexed
  obtain ⟨closed, shut, rfl⟩ := Option.map_eq_some_iff.mp close
  have start : Lexer.initial.Account [] := ⟨by simp [Lexer.initial], by simp [Lexer.initial], [],
    .between, rfl⟩
  obtain ⟨⟨readable, blank, _, spelled, whole⟩, between⟩ :=
    Lexer.close?_account (Lexer.feedAll?_account start feed) shut
  rw [between] at spelled
  cases spelled
  refine ⟨by simpa using readable, closed.blanks.reverse, ?_, by simpa using whole⟩
  exact blanks_iff.mpr (by simpa using blank)

end Lexing

section Parsing

def itemLexemes (item : Json) : List Lexeme :=
  item.lexemes ++ [.mark .comma]

def memberLexemes (member : Member) : List Lexeme :=
  .text member.1 :: .mark .colon :: (member.2.lexemes ++ [.mark .comma])

def Open.lexemes : Open → List Lexeme
  | .array items => .mark .openBracket :: items.reverse.flatMap itemLexemes
  | .object members name =>
    .mark .openBrace :: (members.reverse.flatMap memberLexemes ++ [.text name, .mark .colon])

def Phase.lexemes : Phase → List Lexeme
  | .value | .firstItem => []
  | .firstKey => [.mark .openBrace]
  | .key members => .mark .openBrace :: members.reverse.flatMap memberLexemes
  | .colon members name =>
    .mark .openBrace :: (members.reverse.flatMap memberLexemes ++ [.text name])
  | .after complete => complete.lexemes

def consumed (stack : List Open) (phase : Phase) : List Lexeme :=
  stack.reverse.flatMap Open.lexemes ++ phase.lexemes

theorem array_snoc (items : List Json) (last : Json) :
    (array (items ++ [last])).lexemes =
      .mark .openBracket :: (items.flatMap itemLexemes ++ last.lexemes ++ [.mark .closeBracket]) := by
  have row : .mark .comma :: (items.flatMap itemLexemes ++ last.lexemes) =
      emitItems (items ++ [last]) [] := by
    induction items with
    | nil => rfl
    | cons item items ih =>
      rw [List.cons_append, emitItems, emit_eq, ← ih]
      simp [itemLexemes]
  exact array_lexemes row

theorem object_snoc (members : List Member) (key : List Char) (last : Json) :
    (object (members ++ [(key, last)])).lexemes =
      .mark .openBrace :: (members.flatMap memberLexemes ++
        .text key :: .mark .colon :: last.lexemes ++ [.mark .closeBrace]) := by
  have row : .mark .comma :: (members.flatMap memberLexemes ++
      .text key :: .mark .colon :: last.lexemes) = emitMembers (members ++ [(key, last)]) [] := by
    induction members with
    | nil => rfl
    | cons member members ih =>
      rw [List.cons_append, emitMembers, emit_eq, ← ih]
      simp [memberLexemes]
  exact object_lexemes row

theorem begin?_consumed {stack next : List Open} {phase : Phase} {lexeme : Lexeme}
    (step : begin? stack lexeme = some (next, phase)) :
    consumed next phase = stack.reverse.flatMap Open.lexemes ++ [lexeme] := by
  unfold begin? at step
  split at step
  case h_4 word =>
    cases word <;> cases step <;> simp [consumed, Phase.lexemes, lexemes, emit, ofWord]
  all_goals cases step
  all_goals simp [consumed, Open.lexemes, Phase.lexemes, lexemes, emit]

theorem continue?_consumed {value : Json} {stack next : List Open} {phase : Phase} {lexeme : Lexeme}
    (step : continue? value stack lexeme = some (next, phase)) :
    consumed next phase = consumed stack (.after value) ++ [lexeme] := by
  unfold continue? at step
  split at step
  case h_5 => cases step
  all_goals cases step
  all_goals
    simp [consumed, Open.lexemes, Phase.lexemes, itemLexemes, memberLexemes, array_snoc, object_snoc]

theorem step?_consumed {stack next : List Open} {phase later : Phase} {lexeme : Lexeme}
    (step : step? stack phase lexeme = some (next, later)) :
    consumed next later = consumed stack phase ++ [lexeme] := by
  unfold step? at step
  split at step
  case h_1 => simpa [consumed, Phase.lexemes] using begin?_consumed step
  case h_2 =>
    split at step
    next => cases step; simp [consumed, Open.lexemes, Phase.lexemes, lexemes, emit]
    next => simpa [consumed, Phase.lexemes] using begin?_consumed step
  case h_7 => exact continue?_consumed step
  case h_8 => cases step
  all_goals cases step
  all_goals simp [consumed, Open.lexemes, Phase.lexemes, lexemes, emit]

theorem takeOnto?_sound {stack : List Open} {phase : Phase} {tokens taken used rest : List Token}
    {value : Json} (account : taken.reverse.map Token.lexeme = consumed stack phase)
    (take : takeOnto? stack phase tokens taken = some (value, used, rest)) :
    used.map Token.lexeme = value.lexemes ∧ used ++ rest = taken.reverse ++ tokens := by
  fun_induction takeOnto? stack phase tokens taken with
  | case1 value tokens taken =>
    cases take
    exact ⟨by simpa [consumed, Phase.lexemes] using account, rfl⟩
  | case2 => cases take
  | case3 stack phase taken token tokens _ next later step ih =>
    obtain ⟨spelled, whole⟩ := ih (by simpa [step?_consumed step] using account) take
    exact ⟨spelled, by simpa using whole⟩
  | case4 => cases take

theorem take?_sound {tokens used rest : List Token} {value : Json}
    (take : take? tokens = some (value, used, rest)) :
    used.map Token.lexeme = value.lexemes ∧ tokens = used ++ rest := by
  obtain ⟨spelled, whole⟩ := takeOnto?_sound rfl take
  exact ⟨spelled, by simpa using whole.symm⟩

end Parsing

section Texts

theorem Written.take?_sound {tokens rest : List Token} {written : Written}
    (take : Written.take? tokens = some (written, rest)) :
    written.tokens.map Token.lexeme = written.value.lexemes ∧ tokens = written.tokens ++ rest := by
  obtain ⟨⟨value, used, left⟩, read, same⟩ := Option.map_eq_some_iff.mp take
  cases same
  exact Json.take?_sound read

theorem Written.ofText?_iff {text : String} {value : Json} {core : List Char} :
    (∃ written, Written.ofText? text = some written ∧ written.content = (value, core)) ↔
      Spells value core ∧ Padded core text.toList := by
  constructor
  next =>
    rintro ⟨written, read, content⟩
    cases content
    obtain ⟨tokens, lexed, parsed⟩ := Option.bind_eq_some_iff.mp read
    simp only [Written.ofTokens?] at parsed
    split at parsed
    next taken =>
      cases parsed
      obtain ⟨spelled, rfl⟩ := Written.take?_sound taken
      rw [List.append_nil] at lexed
      obtain ⟨readable, after, blank, whole⟩ := lex?_sound lexed
      have lawful : written.Lawful := ⟨readable, spelled⟩
      obtain ⟨before, open_gap, padded⟩ := lawful.padded
      exact ⟨lawful.spells, before, after, open_gap, blank, by rw [whole, padded]⟩
    next => cases parsed
  next =>
    rintro ⟨spells, padded⟩
    obtain ⟨written, lawful, rfl, rfl, spelling⟩ := spells.laid
    obtain ⟨before, after, open_gap, blank, whole⟩ := padded
    have indented := lawful.indent open_gap
    have lexed := lex?_lexemes written.value _ after indented.readable indented.spelled
      (blanks_iff.mp blank)
    rw [lawful.indent_spelling, spelling, ← whole] at lexed
    have taken := Written.take?_spelled (written.indent before) [] indented.spelled
    rw [List.append_nil] at taken
    refine ⟨written.indent before, ?_, by simp [Written.content]⟩
    simp [Written.ofText?, lexed, Written.ofTokens?, taken]

theorem membersOnto?_sound {fuel : Nat} {tokens rest : List Token}
    {done members : List (String × Written)}
    (read : membersOnto? fuel tokens done = some (members, rest)) :
    ∃ listed used, MembersSpelled listed used ∧ tokens = used ++ rest ∧
      members = listed.reverse ++ done := by
  fun_induction membersOnto? fuel tokens done with
  | case1 fuel label raw colon after done name written comma tokens taken named ih =>
    obtain ⟨listed, used, spelled, rfl, rfl⟩ := ih read
    obtain ⟨own, rfl⟩ := Written.take?_sound taken
    refine ⟨(String.ofList name, written) :: listed, _,
      .cons label colon comma (by simpa using named) own spelled, by simp, by simp⟩
  | case2 fuel label raw colon after done name written brace tokens taken named =>
    cases read
    obtain ⟨own, rfl⟩ := Written.take?_sound taken
    exact ⟨[(String.ofList name, written)], _,
      .last label colon brace (by simpa using named) own, by simp, by simp⟩
  | case3 => cases read
  | case4 => cases read

theorem MembersSpelled.lexemes {members : List (String × Written)} {tokens : List Token}
    (spelled : MembersSpelled members tokens) :
    ∃ values : List Member, .mark .openBrace :: tokens.map Token.lexeme = (object values).lexemes := by
  have row : ∃ values : List Member, values ≠ [] ∧
      .mark .comma :: tokens.map Token.lexeme = emitMembers values [.mark .closeBrace] := by
    induction spelled with
    | @last name raw written label colon brace named own =>
      exact ⟨[(raw, written.value)], by simp, by simp [emitMembers, emit_eq, own]⟩
    | @cons name raw written label colon comma members tokens named own others ih =>
      obtain ⟨values, -, same⟩ := ih
      exact ⟨(raw, written.value) :: values, by simp, by simp [emitMembers, emit_eq, own, ← same]⟩
  obtain ⟨values, some_value, same⟩ := row
  cases values with
  | nil => exact absurd rfl some_value
  | cons first values =>
    rw [emitMembers, List.cons.injEq] at same
    exact ⟨first :: values, by rw [same.2]; rfl⟩

theorem brace_token {before : List Char} {mark : Mark} {tokens : List Token}
    (readable : ∀ token ∈ ⟨before, .mark mark⟩ :: tokens, token.Readable) :
    Blanks before ∧ ∀ token ∈ tokens, token.Readable := by
  obtain ⟨first, others⟩ := List.forall_mem_cons.mp readable
  exact ⟨blanks_of_readable first, others⟩

theorem members?_sound {text : String} {found : List (String × Written)}
    (read : members? text = some found) :
    ∃ members, IsObject text members ∧
      (members.map (Prod.map id Entry.content)).reverse = found.map (Prod.map id Written.content) := by
  simp only [members?] at read
  split at read
  next before between lexed =>
    cases read
    obtain ⟨readable, after, blank, whole⟩ := lex?_sound lexed
    obtain ⟨open_gap, others⟩ := brace_token readable
    have inside := blanks_of_readable (others _ (List.mem_singleton_self _))
    refine ⟨[], ⟨by simp [Named], _, .empty inside, before, after, open_gap, blank, ?_⟩, rfl⟩
    simp [whole, Token.spelling, Lexeme.spelling, Mark.char]
  next before rest _ lexed =>
    split at read
    next members listing =>
      cases read
      obtain ⟨readable, after, blank, whole⟩ := lex?_sound lexed
      obtain ⟨open_gap, others⟩ := brace_token readable
      obtain ⟨listed, used, spelled, rfl, rfl⟩ := membersOnto?_sound listing
      rw [List.append_nil] at others
      obtain ⟨members, inside, named, entries, spelling, contents⟩ := spelled.entries others
      refine ⟨members, ⟨named, _, .full entries, before, after, open_gap, blank, ?_⟩, ?_⟩
      next => simp [whole, Token.spelling, Lexeme.spelling, Mark.char, spelling]
      next => rw [contents, List.append_nil, List.map_reverse]
    next => cases read
  next => cases read

theorem members?_complete {text : String} {members : List (String × Entry)}
    (whole : IsObject text members) : ∃ found, members? text = some found ∧
      (members.map (Prod.map id Entry.content)).reverse = found.map (Prod.map id Written.content) := by
  obtain ⟨named, core, braced, before, after, open_gap, blank, spelling⟩ := whole
  have opening := mark_readable open_gap .openBrace
  generalize entries : members.map Prod.snd = all at braced
  cases braced with
  | @empty blanks inside =>
    obtain rfl := List.map_eq_nil_iff.mp entries
    have lexed := lex?_lexemes (.object []) [⟨before, .mark .openBrace⟩, ⟨blanks, .mark .closeBrace⟩]
      after (by simpa using ⟨opening, mark_readable inside .closeBrace⟩) rfl (blanks_iff.mp blank)
    have same : [⟨before, .mark .openBrace⟩, ⟨blanks, .mark .closeBrace⟩].flatMap Token.spelling ++
        after = text.toList := by
      simp [spelling, Token.spelling, Lexeme.spelling, Mark.char]
    rw [same] at lexed
    exact ⟨[], by simp [members?, lexed], rfl⟩
  | full listed =>
    rw [← entries] at listed
    obtain ⟨found, tokens, spelled, readable, same, contents⟩ := listed.spelled named
    obtain ⟨values, lexemes⟩ := spelled.lexemes
    have lexed := lex?_lexemes (.object values) (⟨before, .mark .openBrace⟩ :: tokens) after
      (List.forall_mem_cons.mpr ⟨opening, readable⟩) lexemes (blanks_iff.mp blank)
    have same : (⟨before, .mark .openBrace⟩ :: tokens).flatMap Token.spelling ++ after =
        text.toList := by
      simp [spelling, Token.spelling, Lexeme.spelling, Mark.char, same]
    rw [same] at lexed
    exact ⟨found.reverse, members?_spelled spelled lexed, by rw [contents, List.map_reverse]⟩

end Texts

end TemplateSync.Json
