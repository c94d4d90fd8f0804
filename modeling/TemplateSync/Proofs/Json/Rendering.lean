import TemplateSync.Proofs.Json.Parsing
import TemplateSync.Proofs.Json.Spelling

set_option autoImplicit false

namespace TemplateSync.Json

def Readable (value : Json) : Prop :=
  ∀ lexeme ∈ value.lexemes, lexeme.Readable

def tokens (value : Json) : List Token :=
  value.lexemes.map fun lexeme => ⟨[], lexeme⟩

@[simp] theorem tokens_lexeme (value : Json) : value.tokens.map Token.lexeme = value.lexemes := by
  simp [tokens, Function.comp_def]

theorem tokens_spelling (value : Json) : value.tokens.flatMap Token.spelling = value.render := by
  simp [tokens, render, List.flatMap_map, Token.spelling]

theorem tokens_readable {value : Json} (readable : value.Readable) :
    ∀ token ∈ value.tokens, token.Readable := by
  intro token member
  obtain ⟨lexeme, inside, rfl⟩ := List.mem_map.mp member
  exact ⟨by simp, readable lexeme inside⟩

theorem emitItems_readable {items : List Json} {rest : List Lexeme}
    (readable : ∀ item ∈ items, item.Readable) (after : ∀ lexeme ∈ rest, lexeme.Readable) :
    ∀ lexeme ∈ emitItems items rest, lexeme.Readable := by
  induction items with
  | nil => exact after
  | cons item items ih =>
    intro lexeme member
    simp only [emitItems, emit_eq, List.mem_cons, List.mem_append] at member
    rcases member with rfl | own | later
    next => trivial
    next => exact readable item (by simp) lexeme own
    next => exact ih (fun other inside => readable other (by simp [inside])) lexeme later

theorem emitMembers_readable {members : List (List Char × Json)} {rest : List Lexeme}
    (readable : ∀ member ∈ members, (Lexeme.text member.1).Readable ∧ member.2.Readable)
    (after : ∀ lexeme ∈ rest, lexeme.Readable) :
    ∀ lexeme ∈ emitMembers members rest, lexeme.Readable := by
  induction members with
  | nil => exact after
  | cons first members ih =>
    obtain ⟨key, value⟩ := first
    intro lexeme member
    have own := readable (key, value) (by simp)
    simp only [emitMembers, emit_eq, List.mem_cons, List.mem_append] at member
    rcases member with rfl | rfl | rfl | inside | later
    next => trivial
    next => exact own.1
    next => trivial
    next => exact own.2 lexeme inside
    next => exact ih (fun other inside => readable other (by simp [inside])) lexeme later

theorem array_readable {items : List Json} (readable : ∀ item ∈ items, item.Readable) :
    (array items).Readable := by
  have closing : ∀ lexeme ∈ [Lexeme.mark .closeBracket], lexeme.Readable := by simp [Lexeme.Readable]
  cases items with
  | nil => simp [Readable, lexemes, emit, Lexeme.Readable]
  | cons item items =>
    have inside := emitItems_readable readable closing
    intro lexeme member
    simp only [lexemes, emit, List.mem_cons] at member
    rcases member with rfl | member
    next => trivial
    next => exact inside lexeme (by simp [emitItems, member])

theorem object_readable {members : List Member}
    (readable : ∀ member ∈ members, (Lexeme.text member.1).Readable ∧ member.2.Readable) :
    (object members).Readable := by
  have closing : ∀ lexeme ∈ [Lexeme.mark .closeBrace], lexeme.Readable := by simp [Lexeme.Readable]
  cases members with
  | nil => simp [Readable, lexemes, emit, Lexeme.Readable]
  | cons first members =>
    have inside := emitMembers_readable readable closing
    intro lexeme member
    simp only [lexemes, emit, List.mem_cons] at member
    rcases member with rfl | member
    next => trivial
    next => exact inside lexeme (by
      simp only [emitMembers, List.mem_cons]
      exact .inr member)

theorem ofString_readable (text : String) : (ofString text).Readable := by
  simpa [Readable, ofString, lexemes, emit] using escape_readable text.toList

theorem number_readable (n : Int) : (ofInt n).Readable := by
  simpa [Readable, ofInt, lexemes, emit] using ofInt_readable n

theorem strings_readable (texts : List String) : (strings texts).Readable :=
  array_readable (by simp [ofString_readable])

theorem ofText?_render {value : Json} (readable : value.Readable) :
    ofText? (String.ofList value.render) = some value := by
  have lexed := lex?_lexemes value value.tokens [] (tokens_readable readable) (tokens_lexeme value)
    (by simp)
  have taken := take?_lexemes value value.tokens [] (tokens_lexeme value)
  simp only [List.append_nil, tokens_spelling] at lexed taken
  simp [ofText?, Written.ofText?, lexed, Written.ofTokens?, Written.take?, taken]

end TemplateSync.Json
