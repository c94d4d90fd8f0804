import TemplateSync.Proofs.Json.Grammar
import TemplateSync.Proofs.Json.Parsing

set_option autoImplicit false

namespace TemplateSync.Json

open Grammar

structure Written.Lawful (written : Written) : Prop where
  readable : ∀ token ∈ written.tokens, token.Readable
  spelled : written.tokens.map Token.lexeme = written.value.lexemes

def indent (blanks : List Char) : List Token → List Token
  | [] => []
  | token :: rest => ⟨blanks ++ token.blanks, token.lexeme⟩ :: rest

namespace Written

def indent (blanks : List Char) (written : Written) : Written :=
  ⟨Json.indent blanks written.tokens, written.value⟩

@[simp] theorem indent_value (blanks : List Char) (written : Written) :
    (written.indent blanks).value = written.value := rfl

@[simp] theorem indent_chars (blanks : List Char) (written : Written) :
    (written.indent blanks).chars = written.chars := by
  rcases written with ⟨_ | ⟨token, rest⟩, value⟩ <;> rfl

theorem Lawful.cons {written : Written} (lawful : written.Lawful) :
    ∃ first rest, written.tokens = first :: rest ∧
      written.chars = first.lexeme.spelling ++ rest.flatMap Token.spelling := by
  obtain ⟨lexeme, others, lexemes, -⟩ := lexemes_cons written.value
  obtain ⟨first, rest, tokens, -, -⟩ :=
    List.map_eq_cons_iff.mp (lawful.spelled.trans lexemes)
  exact ⟨first, rest, tokens, by simp [chars, tokens]⟩

theorem Lawful.indent {written : Written} (lawful : written.Lawful) {blanks : List Char}
    (blank : Blanks blanks) : (written.indent blanks).Lawful := by
  obtain ⟨first, rest, tokens, -⟩ := lawful.cons
  have readable := lawful.readable
  have spelled := lawful.spelled
  rw [tokens] at readable spelled
  refine ⟨?_, by simpa [Written.indent, Json.indent, tokens] using spelled⟩
  intro token member
  simp only [Written.indent, Json.indent, tokens, List.mem_cons] at member
  rcases member with rfl | inside
  next =>
    have own := readable first (by simp)
    refine ⟨fun c member => ?_, own.lexeme⟩
    rcases List.mem_append.mp member with before | after
    next => exact blanks_iff.mp blank c before
    next => exact own.blanks c after
  next => exact readable token (by simp [inside])

theorem Lawful.indent_spelling {written : Written} (lawful : written.Lawful) (blanks : List Char) :
    (written.indent blanks).tokens.flatMap Token.spelling =
      blanks ++ written.tokens.flatMap Token.spelling := by
  obtain ⟨first, rest, tokens, -⟩ := lawful.cons
  simp [Written.indent, Json.indent, tokens, Token.spelling]

theorem Lawful.padded {written : Written} (lawful : written.Lawful) :
    ∃ before, Blanks before ∧ written.tokens.flatMap Token.spelling = before ++ written.chars := by
  obtain ⟨first, rest, tokens, chars⟩ := lawful.cons
  have own := lawful.readable first (by simp [tokens])
  exact ⟨first.blanks, blanks_iff.mpr own.blanks, by simp [tokens, chars, Token.spelling]⟩

end Written

theorem mark_readable {blanks : List Char} (blank : Blanks blanks) (mark : Mark) :
    Token.Readable ⟨blanks, .mark mark⟩ :=
  ⟨blanks_iff.mp blank, trivial⟩

theorem text_readable {blanks raw : List Char} (blank : Blanks blanks) (text : Text raw) :
    Token.Readable ⟨blanks, .text raw⟩ :=
  ⟨blanks_iff.mp blank, text_iff.mp text⟩

theorem Grammar.Blanks.nil : Blanks [] := by
  simp [Blanks]

theorem array_lexemes {items : List Json} {inside : List Lexeme}
    (h : .mark .comma :: inside = emitItems items []) :
    (array items).lexemes = .mark .openBracket :: (inside ++ [.mark .closeBracket]) := by
  cases items with
  | nil => cases h
  | cons item items =>
    rw [emitItems, List.cons.injEq] at h
    rw [lexemes, emit, h.2, ← emit_append, ← emitItems_append]
    rfl

theorem object_lexemes {members : List Member} {inside : List Lexeme}
    (h : .mark .comma :: inside = emitMembers members []) :
    (object members).lexemes = .mark .openBrace :: (inside ++ [.mark .closeBrace]) := by
  cases members with
  | nil => cases h
  | cons member members =>
    rw [emitMembers, List.cons.injEq] at h
    rw [lexemes, emit, h.2, List.cons_append, List.cons_append, ← emit_append, ← emitMembers_append]
    rfl

-- Characters that spell these lexemes, with blanks anywhere between them and after.
def Stretch (lexemes : List Lexeme) (chars : List Char) : Prop :=
  ∃ (tokens : List Token) (after : List Char), (∀ token ∈ tokens, token.Readable) ∧ Blanks after ∧
    tokens.map Token.lexeme = lexemes ∧ chars = tokens.flatMap Token.spelling ++ after

def Laid (value : Json) (text : List Char) : Prop :=
  ∃ written : Written, written.Lawful ∧ written.value = value ∧ written.chars = text ∧
    written.tokens.flatMap Token.spelling = text

theorem Stretch.blanks {blanks : List Char} (blank : Blanks blanks) : Stretch [] blanks :=
  ⟨[], blanks, by simp, blank, rfl, rfl⟩

theorem Stretch.joined {first second : List Lexeme} {chars rest : List Char}
    (one : Stretch first chars) (mark : Mark) (two : Stretch second rest) :
    Stretch (first ++ .mark mark :: second) (chars ++ mark.char :: rest) := by
  obtain ⟨tokens, between, readable, blank, rfl, rfl⟩ := one
  obtain ⟨others, after, others_readable, after_blank, rfl, rfl⟩ := two
  refine ⟨tokens ++ ⟨between, .mark mark⟩ :: others, after, ?_, after_blank, by simp, ?_⟩
  next =>
    intro token member
    simp only [List.mem_append, List.mem_cons] at member
    rcases member with inside | rfl | inside
    next => exact readable token inside
    next => exact mark_readable blank mark
    next => exact others_readable token inside
  next => simp [Token.spelling, Lexeme.spelling]

theorem Laid.padded {value : Json} {text chars : List Char} (laid : Laid value text)
    (padded : Padded text chars) : Stretch value.lexemes chars := by
  obtain ⟨written, lawful, rfl, -, rfl⟩ := laid
  obtain ⟨before, after, before_blank, after_blank, rfl⟩ := padded
  have indented := lawful.indent before_blank
  exact ⟨_, after, indented.readable, after_blank, indented.spelled, by rw [lawful.indent_spelling]⟩

theorem laid_single {value : Json} (lexeme : Lexeme) (readable : lexeme.Readable)
    (single : value.lexemes = [lexeme]) : Laid value lexeme.spelling := by
  have lawful : Written.Lawful ⟨[⟨[], lexeme⟩], value⟩ :=
    ⟨by simpa using (⟨by simp, readable⟩ : Token.Readable ⟨[], lexeme⟩), single.symm⟩
  exact ⟨_, lawful, rfl, by simp [Written.chars], by simp [Token.spelling]⟩

theorem laid_between {value : Json} {inside : List Lexeme} {chars : List Char} (first last : Mark)
    (whole : value.lexemes = .mark first :: (inside ++ [.mark last]))
    (stretch : Stretch inside chars) : Laid value (first.char :: (chars ++ [last.char])) := by
  obtain ⟨tokens, after, readable, blank, rfl, rfl⟩ := stretch
  refine ⟨⟨⟨[], .mark first⟩ :: (tokens ++ [⟨after, .mark last⟩]), value⟩, ⟨?_, ?_⟩, rfl, ?_, ?_⟩
  next =>
    intro token member
    simp only [List.mem_cons, List.mem_append, List.not_mem_nil, or_false] at member
    rcases member with rfl | inside | rfl
    next => exact mark_readable .nil first
    next => exact readable token inside
    next => exact mark_readable blank last
  next => simp [whole]
  next => simp [Written.chars, Token.spelling, Lexeme.spelling]
  next => simp [Token.spelling, Lexeme.spelling]

theorem label_stretch {raw label : List Char} (text : Text raw)
    (padded : Padded ('"' :: (raw ++ ['"'])) label) : Stretch [.text raw] label :=
  have laid : Laid (.text raw) _ := laid_single (.text raw) (text_iff.mp text) rfl
  laid.padded padded

-- One case for each production of the grammar.
mutual

theorem Grammar.Spells.laid {value : Json} {text : List Char} : Spells value text → Laid value text
  | .null => laid_single (.word .null) trivial rfl
  | .true => laid_single (.word .true) trivial rfl
  | .false => laid_single (.word .false) trivial rfl
  | .number own => laid_single (.number _) (number_iff.mp own) rfl
  | .text own => laid_single (.text _) (text_iff.mp own) rfl
  | .emptyArray blank => laid_between .openBracket .closeBracket rfl (.blanks blank)
  | .array listed => by
    obtain ⟨inside, same, stretch⟩ := listed.stretch
    exact laid_between .openBracket .closeBracket (array_lexemes same) stretch
  | .object braced => braced.laid

theorem Grammar.Braced.laid {entries : List Entry} {text : List Char} :
    Braced entries text → Laid (.object (entries.map Entry.member)) text
  | .empty blank => laid_between .openBrace .closeBrace rfl (.blanks blank)
  | .full listed => by
    obtain ⟨inside, same, stretch⟩ := listed.stretch
    exact laid_between .openBrace .closeBrace (object_lexemes same) stretch

theorem Grammar.Items.stretch {items : List Json} {chars : List Char} :
    Items items chars → ∃ inside, .mark .comma :: inside = emitItems items [] ∧ Stretch inside chars
  | .last spelled padded => ⟨_, rfl, spelled.laid.padded padded⟩
  | .cons spelled padded others => by
    obtain ⟨inside, same, stretch⟩ := others.stretch
    refine ⟨_, ?_, (spelled.laid.padded padded).joined .comma stretch⟩
    rw [same, emitItems, emit_eq]

theorem Grammar.Entries.stretch {entries : List Entry} {chars : List Char} :
    Entries entries chars → ∃ inside,
      .mark .comma :: inside = emitMembers (entries.map Entry.member) [] ∧ Stretch inside chars
  | .last named labelled spelled padded =>
    ⟨_, rfl, (label_stretch named labelled).joined .colon (spelled.laid.padded padded)⟩
  | .cons named labelled spelled padded others => by
    obtain ⟨inside, same, stretch⟩ := others.stretch
    refine ⟨_, ?_, (label_stretch named labelled).joined .colon
      ((spelled.laid.padded padded).joined .comma stretch)⟩
    rw [same, List.map_cons, Entry.member, emitMembers, emit_eq]
    rfl

end

theorem blanks_of_readable {token : Token} (readable : token.Readable) : Blanks token.blanks :=
  blanks_iff.mpr readable.blanks

theorem label_padded {token : Token} {raw between : List Char} (readable : token.Readable)
    (named : token.lexeme = .text raw) (blank : Blanks between) :
    Padded ('"' :: (raw ++ ['"'])) (token.spelling ++ between) :=
  ⟨token.blanks, between, blanks_of_readable readable, blank, by
    simp [Token.spelling, named, Lexeme.spelling]⟩

theorem text_of_readable {token : Token} {raw : List Char} (readable : token.Readable)
    (named : token.lexeme = .text raw) : Text raw :=
  text_iff.mpr (named ▸ readable.lexeme)

theorem lawful_of_append {value : Json} {own after : List Token}
    (readable : ∀ token ∈ own ++ after, token.Readable)
    (spelled : own.map Token.lexeme = value.lexemes) : Written.Lawful ⟨own, value⟩ :=
  ⟨fun token inside => readable token (List.mem_append_left _ inside), spelled⟩

theorem chars_single {token : Token} {value : Json} :
    Written.chars ⟨[token], value⟩ = token.lexeme.spelling := by
  simp [Written.chars]

-- The recursion is that of `emit` over a value, its items and its members.
mutual

theorem spells_of_lexemes (value : Json) (tokens : List Token)
    (readable : ∀ token ∈ tokens, token.Readable)
    (h : tokens.map Token.lexeme = value.lexemes) : Spells value (Written.chars ⟨tokens, value⟩) := by
  match value with
  | null =>
    obtain ⟨token, rfl, lexeme⟩ := List.map_eq_singleton_iff.mp h
    simpa [chars_single, lexeme, Lexeme.spelling, Word.spelling] using Spells.null
  | bool .false =>
    obtain ⟨token, rfl, lexeme⟩ := List.map_eq_singleton_iff.mp h
    simpa [chars_single, lexeme, Lexeme.spelling, Word.spelling] using Spells.false
  | bool .true =>
    obtain ⟨token, rfl, lexeme⟩ := List.map_eq_singleton_iff.mp h
    simpa [chars_single, lexeme, Lexeme.spelling, Word.spelling] using Spells.true
  | number literal =>
    obtain ⟨token, rfl, lexeme⟩ := List.map_eq_singleton_iff.mp h
    have own := (readable token (by simp)).lexeme
    rw [lexeme] at own
    simpa [chars_single, lexeme, Lexeme.spelling] using Spells.number (number_iff.mpr own)
  | text raw =>
    obtain ⟨token, rfl, lexeme⟩ := List.map_eq_singleton_iff.mp h
    have own := text_of_readable (readable token (by simp)) lexeme
    simpa [chars_single, lexeme, Lexeme.spelling] using Spells.text own
  | array [] =>
    obtain ⟨first, tail, rfl, opens, others⟩ := List.map_eq_cons_iff.mp h
    obtain ⟨last, rfl, closes⟩ := List.map_eq_singleton_iff.mp others
    have blank := blanks_of_readable (readable last (by simp))
    simpa [Written.chars, opens, Token.spelling, closes, Lexeme.spelling, Mark.char] using
      Spells.emptyArray blank
  | array (item :: items) =>
    rw [lexemes, emit, emit_eq] at h
    obtain ⟨first, tail, rfl, opens, others⟩ := List.map_eq_cons_iff.mp h
    obtain ⟨own, after, rfl, ownLexemes, afterLexemes⟩ := List.map_eq_append_iff.mp others
    have inner := fun token inside => readable token (List.mem_cons_of_mem first inside)
    have lawful := lawful_of_append inner ownLexemes
    have spelled := spells_of_lexemes item own lawful.readable ownLexemes
    obtain ⟨before, blank, padded⟩ := lawful.padded
    obtain ⟨inside, listed, same⟩ := items_of_lexemes items after
      (fun token member => inner token (List.mem_append_right _ member)) afterLexemes spelled blank
    have whole : Written.chars ⟨first :: (own ++ after), array (item :: items)⟩ =
        '[' :: (inside ++ [']']) := by
      simp [Written.chars, opens, Lexeme.spelling, Mark.char, ← same, padded]
    rw [whole]
    exact .array listed
  | object [] =>
    obtain ⟨first, tail, rfl, opens, others⟩ := List.map_eq_cons_iff.mp h
    obtain ⟨last, rfl, closes⟩ := List.map_eq_singleton_iff.mp others
    have blank := blanks_of_readable (readable last (by simp))
    simpa [Written.chars, opens, Token.spelling, closes, Lexeme.spelling, Mark.char] using
      Spells.object (.empty blank)
  | object ((key, value) :: members) =>
    rw [lexemes, emit, emit_eq] at h
    obtain ⟨first, tail, rfl, opens, others⟩ := List.map_eq_cons_iff.mp h
    obtain ⟨name, tail, rfl, named, others⟩ := List.map_eq_cons_iff.mp others
    obtain ⟨mark, tail, rfl, marked, others⟩ := List.map_eq_cons_iff.mp others
    obtain ⟨own, after, rfl, ownLexemes, afterLexemes⟩ := List.map_eq_append_iff.mp others
    have inner := fun token inside =>
      readable token (List.mem_cons_of_mem _ (List.mem_cons_of_mem _ (List.mem_cons_of_mem _ inside)))
    have lawful := lawful_of_append inner ownLexemes
    have spelled := spells_of_lexemes value own lawful.readable ownLexemes
    obtain ⟨before, blank, padded⟩ := lawful.padded
    obtain ⟨entries, inside, rfl, listed, same⟩ := entries_of_lexemes members after
      (fun token member => inner token (List.mem_append_right _ member)) afterLexemes
      ⟨key, value, Written.chars ⟨own, value⟩⟩ (text_of_readable (readable name (by simp)) named)
      (label_padded (readable name (by simp)) named
        (blanks_of_readable (readable mark (by simp)))) spelled blank
    have whole : Written.chars ⟨first :: name :: mark :: (own ++ after),
        object ((key, value) :: entries.map Entry.member)⟩ = '\x7b' :: (inside ++ ['\x7d']) := by
      simp [Written.chars, opens, marked, Token.spelling, Lexeme.spelling, Mark.char, ← same, padded]
    rw [whole]
    exact .object (.full listed)

theorem items_of_lexemes (items : List Json) (tokens : List Token)
    (readable : ∀ token ∈ tokens, token.Readable)
    (h : tokens.map Token.lexeme = emitItems items [.mark .closeBracket])
    {item : Json} {before text : List Char} (spelled : Spells item text) (blank : Blanks before) :
    ∃ inside, Items (item :: items) inside ∧
      before ++ text ++ tokens.flatMap Token.spelling = inside ++ [']'] := by
  match items with
  | [] =>
    obtain ⟨last, rfl, closes⟩ := List.map_eq_singleton_iff.mp h
    have after := blanks_of_readable (readable last (by simp))
    exact ⟨_, .last spelled ⟨before, last.blanks, blank, after, rfl⟩, by
      simp [Token.spelling, closes, Lexeme.spelling, Mark.char]⟩
  | next :: items =>
    rw [emitItems, emit_eq] at h
    obtain ⟨comma, tail, rfl, marked, others⟩ := List.map_eq_cons_iff.mp h
    obtain ⟨own, after, rfl, ownLexemes, afterLexemes⟩ := List.map_eq_append_iff.mp others
    have inner := fun token inside => readable token (List.mem_cons_of_mem comma inside)
    have lawful := lawful_of_append inner ownLexemes
    have later := spells_of_lexemes next own lawful.readable ownLexemes
    obtain ⟨gap, open_gap, padded⟩ := lawful.padded
    obtain ⟨inside, listed, same⟩ := items_of_lexemes items after
      (fun token member => inner token (List.mem_append_right _ member)) afterLexemes later open_gap
    have between := blanks_of_readable (readable comma (by simp))
    refine ⟨_, .cons spelled ⟨before, comma.blanks, blank, between, rfl⟩ listed, ?_⟩
    rw [List.append_assoc _ (',' :: inside), List.cons_append, ← same]
    simp [Token.spelling, marked, Lexeme.spelling, Mark.char, padded]

theorem entries_of_lexemes (members : List (List Char × Json)) (tokens : List Token)
    (readable : ∀ token ∈ tokens, token.Readable)
    (h : tokens.map Token.lexeme = emitMembers members [.mark .closeBrace])
    (entry : Entry) {before label : List Char} (named : Text entry.name)
    (labelled : Padded ('"' :: (entry.name ++ ['"'])) label)
    (spelled : Spells entry.value entry.text) (blank : Blanks before) :
    ∃ entries inside, entries.map Entry.member = members ∧ Entries (entry :: entries) inside ∧
      label ++ ':' :: (before ++ entry.text ++ tokens.flatMap Token.spelling) =
        inside ++ ['\x7d'] := by
  match members with
  | [] =>
    obtain ⟨last, rfl, closes⟩ := List.map_eq_singleton_iff.mp h
    have after := blanks_of_readable (readable last (by simp))
    exact ⟨[], _, rfl, .last named labelled spelled ⟨before, last.blanks, blank, after, rfl⟩, by
      simp [Token.spelling, closes, Lexeme.spelling, Mark.char]⟩
  | (key, value) :: members =>
    rw [emitMembers, emit_eq] at h
    obtain ⟨comma, tail, rfl, separated, others⟩ := List.map_eq_cons_iff.mp h
    obtain ⟨name, tail, rfl, called, others⟩ := List.map_eq_cons_iff.mp others
    obtain ⟨mark, tail, rfl, marked, others⟩ := List.map_eq_cons_iff.mp others
    obtain ⟨own, after, rfl, ownLexemes, afterLexemes⟩ := List.map_eq_append_iff.mp others
    have inner := fun token inside =>
      readable token (List.mem_cons_of_mem _ (List.mem_cons_of_mem _ (List.mem_cons_of_mem _ inside)))
    have lawful := lawful_of_append inner ownLexemes
    have later := spells_of_lexemes value own lawful.readable ownLexemes
    obtain ⟨gap, open_gap, padded⟩ := lawful.padded
    obtain ⟨entries, inside, rfl, listed, same⟩ := entries_of_lexemes members after
      (fun token member => inner token (List.mem_append_right _ member)) afterLexemes
      ⟨key, value, Written.chars ⟨own, value⟩⟩ (text_of_readable (readable name (by simp)) called)
      (label_padded (readable name (by simp)) called
        (blanks_of_readable (readable mark (by simp)))) later open_gap
    have between := blanks_of_readable (readable comma (by simp))
    refine ⟨_, _, rfl,
      .cons named labelled spelled ⟨before, comma.blanks, blank, between, rfl⟩ listed, ?_⟩
    have rest : label ++ ':' :: (before ++ entry.text ++ comma.blanks ++ ',' :: inside) ++ ['\x7d'] =
        label ++ ':' :: (before ++ entry.text ++ comma.blanks ++ ',' :: (inside ++ ['\x7d'])) := by
      simp
    rw [rest, ← same]
    simp [Token.spelling, separated, marked, Lexeme.spelling, Mark.char, padded]

end

theorem Written.Lawful.spells {written : Written} (lawful : written.Lawful) :
    Spells written.value written.chars :=
  spells_of_lexemes written.value written.tokens lawful.readable lawful.spelled

def Written.content (written : Written) : Json × List Char :=
  (written.value, written.chars)

def Grammar.Entry.content (entry : Entry) : Json × List Char :=
  (entry.value, entry.text)

theorem MembersSpelled.entries {members : List (String × Written)} {tokens : List Token}
    (spelled : MembersSpelled members tokens) (readable : ∀ token ∈ tokens, token.Readable) :
    ∃ named inside, Named Entry.name named ∧ Entries (named.map Prod.snd) inside ∧
      tokens.flatMap Token.spelling = inside ++ ['\x7d'] ∧
      named.map (Prod.map id Entry.content) = members.map (Prod.map id Written.content) := by
  induction spelled with
  | @last name raw written label colon brace called own =>
    obtain ⟨name_readable, colon_readable, inner⟩ : Token.Readable ⟨label, .text raw⟩ ∧
        Token.Readable ⟨colon, .mark .colon⟩ ∧
        ∀ token ∈ written.tokens ++ [⟨brace, .mark .closeBrace⟩], token.Readable := by
      simpa using readable
    have lawful := lawful_of_append inner own
    obtain ⟨gap, open_gap, padded⟩ := lawful.padded
    have text := text_of_readable name_readable rfl
    have after := blanks_of_readable (inner ⟨brace, .mark .closeBrace⟩ (by simp))
    refine ⟨[(name, ⟨raw, written.value, written.chars⟩)], _,
      List.forall_mem_singleton.mpr (means_iff.mpr ⟨text, called⟩),
      .last text (label_padded name_readable rfl (blanks_of_readable colon_readable)) lawful.spells
        ⟨gap, brace, open_gap, after, rfl⟩, ?_, rfl⟩
    simp [Token.spelling, Lexeme.spelling, Mark.char, padded]
  | @cons name raw written label colon comma members tokens called own others ih =>
    obtain ⟨name_readable, colon_readable, inner⟩ : Token.Readable ⟨label, .text raw⟩ ∧
        Token.Readable ⟨colon, .mark .colon⟩ ∧
        ∀ token ∈ written.tokens ++ ⟨comma, .mark .comma⟩ :: tokens, token.Readable := by
      simpa using readable
    obtain ⟨named, inside, means, listed, same, contents⟩ :=
      ih fun token member => inner token (by simp [member])
    have lawful := lawful_of_append inner own
    obtain ⟨gap, open_gap, padded⟩ := lawful.padded
    have text := text_of_readable name_readable rfl
    have after := blanks_of_readable (inner ⟨comma, .mark .comma⟩ (by simp))
    refine ⟨(name, ⟨raw, written.value, written.chars⟩) :: named, _,
      List.forall_mem_cons.mpr ⟨means_iff.mpr ⟨text, called⟩, means⟩,
      .cons text (label_padded name_readable rfl (blanks_of_readable colon_readable)) lawful.spells
        ⟨gap, comma, open_gap, after, rfl⟩ listed, ?_, by rw [List.map_cons, contents]; rfl⟩
    simp [Token.spelling, Lexeme.spelling, Mark.char, padded, same]

theorem label_token {raw label : List Char} (text : Text raw)
    (labelled : Padded ('"' :: (raw ++ ['"'])) label) :
    ∃ before between, Token.Readable ⟨before, .text raw⟩ ∧ Token.Readable ⟨between, .mark .colon⟩ ∧
      label = Token.spelling ⟨before, .text raw⟩ ++ between := by
  obtain ⟨before, between, blank, gap, rfl⟩ := labelled
  exact ⟨before, between, text_readable blank text, mark_readable gap .colon, rfl⟩

theorem Grammar.Spells.written {value : Json} {text content : List Char} (spelled : Spells value text)
    (padded : Padded text content) (mark : Mark) :
    ∃ (written : Written) (after : List Char), written.Lawful ∧ written.content = (value, text) ∧
      Token.Readable ⟨after, .mark mark⟩ ∧
      content = written.tokens.flatMap Token.spelling ++ after := by
  obtain ⟨written, lawful, rfl, chars, spelling⟩ := spelled.laid
  obtain ⟨before, after, blank, gap, rfl⟩ := padded
  refine ⟨written.indent before, after, lawful.indent blank, ?_, mark_readable gap mark, ?_⟩
  next => simp [Written.content, chars]
  next => rw [lawful.indent_spelling, spelling]

theorem row_readable {label colon mark : Token} {own rest : List Token} (first : label.Readable)
    (second : colon.Readable) (inside : ∀ token ∈ own, token.Readable) (last : mark.Readable)
    (others : ∀ token ∈ rest, token.Readable) :
    ∀ token ∈ label :: colon :: (own ++ mark :: rest), token.Readable :=
  List.forall_mem_cons.mpr ⟨first, List.forall_mem_cons.mpr ⟨second, List.forall_mem_append.mpr
    ⟨inside, List.forall_mem_cons.mpr ⟨last, others⟩⟩⟩⟩

theorem Grammar.Entries.spelled {named : List (String × Entry)} {inside : List Char}
    (means : Named Entry.name named) (listed : Entries (named.map Prod.snd) inside) :
    ∃ members tokens, MembersSpelled members tokens ∧ (∀ token ∈ tokens, token.Readable) ∧
      tokens.flatMap Token.spelling = inside ++ ['\x7d'] ∧
      named.map (Prod.map id Entry.content) = members.map (Prod.map id Written.content) := by
  induction named generalizing inside with
  | nil => cases listed
  | cons pair named ih =>
    obtain ⟨name, entry⟩ := pair
    obtain ⟨own, others⟩ := List.forall_mem_cons.mp means
    generalize entries : List.map Prod.snd ((name, entry) :: named) = all at listed
    cases listed with
    | last text labelled spelled padded =>
      obtain ⟨rfl, rest⟩ : _ ∧ named = [] := by simpa using entries
      subst rest
      obtain ⟨before, between, label, colon, rfl⟩ := label_token text labelled
      obtain ⟨written, after, lawful, content, closing, rfl⟩ := spelled.written padded .closeBrace
      refine ⟨[(name, written)], _, .last before between after (means_iff.mp own).2 lawful.spelled,
        row_readable label colon lawful.readable closing (by simp), ?_, ?_⟩
      next => simp [Token.spelling, Lexeme.spelling, Mark.char]
      next => simp [content, Entry.content]
    | cons text labelled spelled padded rest =>
      obtain ⟨rfl, rfl⟩ := List.cons.inj entries
      obtain ⟨before, between, label, colon, rfl⟩ := label_token text labelled
      obtain ⟨written, after, lawful, content, comma, rfl⟩ := spelled.written padded .comma
      obtain ⟨members, tokens, listed, readable, same, contents⟩ := ih others rest
      refine ⟨(name, written) :: members, _,
        .cons before between after (means_iff.mp own).2 lawful.spelled listed,
        row_readable label colon lawful.readable comma readable, ?_, ?_⟩
      next => simp [Token.spelling, Lexeme.spelling, Mark.char, same]
      next => simp [content, Entry.content, contents]

end TemplateSync.Json
