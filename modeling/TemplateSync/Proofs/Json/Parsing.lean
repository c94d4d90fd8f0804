import TemplateSync.Json.Written
import TemplateSync.Proofs.Json.Lexing

set_option autoImplicit false

namespace TemplateSync.Json

mutual

theorem emit_append (value : Json) (first second : List Lexeme) :
    value.emit (first ++ second) = value.emit first ++ second := by
  match value with
  | null | bool _ | number _ | text _ | array [] | object [] => rfl
  | array (item :: items) =>
    simp only [emit, List.cons_append]
    rw [← List.cons_append, emitItems_append items, emit_append item]
  | object ((key, value) :: members) =>
    simp only [emit, List.cons_append]
    rw [← List.cons_append, emitMembers_append members, emit_append value]

theorem emitItems_append (items : List Json) (first second : List Lexeme) :
    emitItems items (first ++ second) = emitItems items first ++ second := by
  match items with
  | [] => rfl
  | item :: items =>
    simp only [emitItems, List.cons_append]
    rw [emitItems_append items, emit_append item]

theorem emitMembers_append (members : List (List Char × Json)) (first second : List Lexeme) :
    emitMembers members (first ++ second) = emitMembers members first ++ second := by
  match members with
  | [] => rfl
  | (key, value) :: members =>
    simp only [emitMembers, List.cons_append]
    rw [emitMembers_append members, emit_append value]

end

theorem emit_eq (value : Json) (rest : List Lexeme) : value.emit rest = value.lexemes ++ rest :=
  emit_append value [] rest

theorem takeOnto?_cons {stack next : List Open} {phase later : Phase} {token : Token}
    (rest taken : List Token) (going : stack ≠ [] ∨ ∀ value, phase ≠ .after value)
    (h : step? stack phase token.lexeme = some (next, later)) :
    takeOnto? stack phase (token :: rest) taken = takeOnto? next later rest (token :: taken) := by
  rw [takeOnto?.eq_def]
  split
  next => simp at going
  next heq => cases heq
  next heq =>
    cases heq
    simp [h]

theorem lexemes_cons (value : Json) :
    ∃ first rest, value.lexemes = first :: rest ∧ first ≠ .mark .closeBracket := by
  match value with
  | null | number _ | text _ => exact ⟨_, _, rfl, by simp⟩
  | bool flag => cases flag <;> exact ⟨_, _, rfl, by simp⟩
  | array [] | array (_ :: _) | object [] | object (_ :: _) => exact ⟨_, _, rfl, by simp⟩

theorem takeOnto?_firstItem {value : Json} {tokens : List Token} (stack : List Open)
    (rest taken : List Token) (h : tokens.map Token.lexeme = value.lexemes) :
    takeOnto? stack .firstItem (tokens ++ rest) taken =
      takeOnto? stack .value (tokens ++ rest) taken := by
  obtain ⟨first, others, lexemes, notClosed⟩ := lexemes_cons value
  rw [lexemes] at h
  obtain ⟨token, tail, rfl, lexeme, -⟩ := List.map_eq_cons_iff.mp h
  have same : step? stack .firstItem token.lexeme = step? stack .value token.lexeme := by
    simp only [step?]
    split
    next closed => exact absurd (lexeme.symm.trans closed) notClosed
    next => rfl
  simp only [List.cons_append, takeOnto?, same]

-- The recursion is that of `emit` over a value, its items and its members.
mutual

theorem takeOnto?_value (value : Json) (tokens : List Token) (stack : List Open)
    (rest taken : List Token) (h : tokens.map Token.lexeme = value.lexemes) :
    takeOnto? stack .value (tokens ++ rest) taken =
      takeOnto? stack (.after value) rest (tokens.reverse ++ taken) := by
  match value with
  | null | number _ | text _ =>
    obtain ⟨token, rfl, lexeme⟩ := List.map_eq_singleton_iff.mp h
    exact takeOnto?_cons rest taken (.inr (by simp)) (by simp [lexeme, step?, begin?, ofWord])
  | bool flag =>
    obtain ⟨token, rfl, lexeme⟩ := List.map_eq_singleton_iff.mp h
    cases flag <;>
      exact takeOnto?_cons rest taken (.inr (by simp)) (by simp [lexeme, step?, begin?, ofWord])
  | array [] =>
    obtain ⟨first, tail, rfl, opens, others⟩ := List.map_eq_cons_iff.mp h
    obtain ⟨last, rfl, closes⟩ := List.map_eq_singleton_iff.mp others
    simp only [List.cons_append, List.nil_append]
    rw [takeOnto?_cons _ _ (.inr (by simp)) (by rw [opens]; rfl),
      takeOnto?_cons _ _ (.inl (by simp)) (by rw [closes]; rfl)]
    rfl
  | array (item :: items) =>
    rw [lexemes, emit, emit_eq] at h
    obtain ⟨first, tail, rfl, opens, others⟩ := List.map_eq_cons_iff.mp h
    obtain ⟨own, after, rfl, ownLexemes, afterLexemes⟩ := List.map_eq_append_iff.mp others
    simp only [List.cons_append, List.append_assoc]
    rw [takeOnto?_cons _ _ (.inr (by simp)) (by rw [opens]; rfl),
      takeOnto?_firstItem _ _ _ ownLexemes, takeOnto?_value item _ _ _ _ ownLexemes,
      takeOnto?_items items _ _ _ _ _ _ afterLexemes]
    simp
  | object [] =>
    obtain ⟨first, tail, rfl, opens, others⟩ := List.map_eq_cons_iff.mp h
    obtain ⟨last, rfl, closes⟩ := List.map_eq_singleton_iff.mp others
    simp only [List.cons_append, List.nil_append]
    rw [takeOnto?_cons _ _ (.inr (by simp)) (by rw [opens]; rfl),
      takeOnto?_cons _ _ (.inr (by simp)) (by rw [closes]; rfl)]
    rfl
  | object ((key, value) :: members) =>
    rw [lexemes, emit, emit_eq] at h
    obtain ⟨first, tail, rfl, opens, others⟩ := List.map_eq_cons_iff.mp h
    obtain ⟨name, tail, rfl, named, others⟩ := List.map_eq_cons_iff.mp others
    obtain ⟨mark, tail, rfl, marked, others⟩ := List.map_eq_cons_iff.mp others
    obtain ⟨own, after, rfl, ownLexemes, afterLexemes⟩ := List.map_eq_append_iff.mp others
    simp only [List.cons_append, List.append_assoc]
    rw [takeOnto?_cons _ _ (.inr (by simp)) (by rw [opens]; rfl),
      takeOnto?_cons _ _ (.inr (by simp)) (by rw [named]; rfl),
      takeOnto?_cons _ _ (.inr (by simp)) (by rw [marked]; rfl),
      takeOnto?_value value _ _ _ _ ownLexemes,
      takeOnto?_members members _ _ _ _ _ _ _ afterLexemes]
    simp

theorem takeOnto?_items (items : List Json) (tokens : List Token) (done : List Json) (last : Json)
    (stack : List Open) (rest taken : List Token)
    (h : tokens.map Token.lexeme = emitItems items [.mark .closeBracket]) :
    takeOnto? (.array done :: stack) (.after last) (tokens ++ rest) taken =
      takeOnto? stack (.after (.array (done.reverse ++ last :: items))) rest
        (tokens.reverse ++ taken) := by
  match items with
  | [] =>
    obtain ⟨token, rfl, closes⟩ := List.map_eq_singleton_iff.mp h
    exact takeOnto?_cons rest taken (.inl (by simp)) (by simp [closes, step?, continue?])
  | item :: items =>
    rw [emitItems, emit_eq] at h
    obtain ⟨first, tail, rfl, comma, others⟩ := List.map_eq_cons_iff.mp h
    obtain ⟨own, after, rfl, ownLexemes, afterLexemes⟩ := List.map_eq_append_iff.mp others
    simp only [List.cons_append, List.append_assoc]
    rw [takeOnto?_cons _ _ (.inl (by simp)) (by rw [comma]; rfl),
      takeOnto?_value item _ _ _ _ ownLexemes, takeOnto?_items items _ _ _ _ _ _ afterLexemes]
    simp

theorem takeOnto?_members (members : List (List Char × Json)) (tokens : List Token)
    (done : List Member) (key : List Char) (last : Json) (stack : List Open)
    (rest taken : List Token)
    (h : tokens.map Token.lexeme = emitMembers members [.mark .closeBrace]) :
    takeOnto? (.object done key :: stack) (.after last) (tokens ++ rest) taken =
      takeOnto? stack (.after (.object (done.reverse ++ (key, last) :: members))) rest
        (tokens.reverse ++ taken) := by
  match members with
  | [] =>
    obtain ⟨token, rfl, closes⟩ := List.map_eq_singleton_iff.mp h
    exact takeOnto?_cons rest taken (.inl (by simp)) (by simp [closes, step?, continue?])
  | (name, value) :: members =>
    rw [emitMembers, emit_eq] at h
    obtain ⟨first, tail, rfl, comma, others⟩ := List.map_eq_cons_iff.mp h
    obtain ⟨label, tail, rfl, named, others⟩ := List.map_eq_cons_iff.mp others
    obtain ⟨mark, tail, rfl, marked, others⟩ := List.map_eq_cons_iff.mp others
    obtain ⟨own, after, rfl, ownLexemes, afterLexemes⟩ := List.map_eq_append_iff.mp others
    simp only [List.cons_append, List.append_assoc]
    rw [takeOnto?_cons _ _ (.inl (by simp)) (by rw [comma]; rfl),
      takeOnto?_cons _ _ (.inr (by simp)) (by rw [named]; rfl),
      takeOnto?_cons _ _ (.inr (by simp)) (by rw [marked]; rfl),
      takeOnto?_value value _ _ _ _ ownLexemes,
      takeOnto?_members members _ _ _ _ _ _ _ afterLexemes]
    simp

end

theorem take?_lexemes (value : Json) (tokens rest : List Token)
    (h : tokens.map Token.lexeme = value.lexemes) :
    take? (tokens ++ rest) = some (value, tokens, rest) := by
  rw [take?, takeOnto?_value value tokens [] rest [] h]
  simp [takeOnto?]

def Lexeme.Apart (first second : Lexeme) : Prop :=
  first.isBare → second.isBare = false

structure Follows (rest : List Lexeme) : Prop where
  chain : rest.IsChain Lexeme.Apart
  first : ∀ lexeme ∈ rest.head?, lexeme.isBare = false

theorem Follows.cons {lexeme : Lexeme} {rest : List Lexeme} (bound : lexeme.isBare = false)
    (chain : rest.IsChain Lexeme.Apart) : Follows (lexeme :: rest) where
  chain := List.isChain_cons.mpr ⟨fun _ _ bare => by simp [bound] at bare, chain⟩
  first := by simpa using bound

theorem Follows.nil : Follows [] where
  chain := .nil
  first := by simp

theorem Follows.after {rest : List Lexeme} (follows : Follows rest) (lexeme : Lexeme) :
    (lexeme :: rest).IsChain Lexeme.Apart :=
  List.isChain_cons.mpr ⟨fun next first _ => follows.first next first, follows.chain⟩

mutual

theorem emit_apart (value : Json) (rest : List Lexeme) (follows : Follows rest) :
    (value.emit rest).IsChain Lexeme.Apart := by
  match value with
  | null | bool _ | number _ | text _ => exact follows.after _
  | array [] => exact (Follows.cons rfl (follows.after _)).chain
  | object [] => exact (Follows.cons rfl (follows.after _)).chain
  | array (item :: items) =>
    have closing : Follows (.mark .closeBracket :: rest) := .cons rfl follows.chain
    exact (Follows.cons rfl (emit_apart item _ (emitItems_follows items _ closing))).chain
  | object ((key, value) :: members) =>
    have closing : Follows (.mark .closeBrace :: rest) := .cons rfl follows.chain
    have inside := emit_apart value _ (emitMembers_follows members _ closing)
    have labelled : Follows (.mark .colon :: value.emit (emitMembers members
        (.mark .closeBrace :: rest))) := .cons rfl inside
    exact (Follows.cons rfl (labelled.after (.text key))).chain

theorem emitItems_follows (items : List Json) (rest : List Lexeme) (follows : Follows rest) :
    Follows (emitItems items rest) := by
  match items with
  | [] => exact follows
  | item :: items => exact .cons rfl (emit_apart item _ (emitItems_follows items rest follows))

theorem emitMembers_follows (members : List (List Char × Json)) (rest : List Lexeme)
    (follows : Follows rest) : Follows (emitMembers members rest) := by
  match members with
  | [] => exact follows
  | (key, value) :: members =>
    have inside := emit_apart value _ (emitMembers_follows members rest follows)
    have labelled : Follows (.mark .colon :: value.emit (emitMembers members rest)) :=
      .cons rfl inside
    exact .cons rfl (labelled.after (.text key))

end

theorem tokens_apart {value : Json} {tokens : List Token}
    (h : tokens.map Token.lexeme = value.lexemes) : tokens.IsChain Token.Apart := by
  have lexemes : (tokens.map Token.lexeme).IsChain Lexeme.Apart := h ▸ emit_apart value [] .nil
  refine ((List.isChain_map Token.lexeme).mp lexemes).imp ?_
  intro first second apart bare
  simp [apart bare]

theorem lex?_lexemes (value : Json) (tokens : List Token) (trailing : List Char)
    (readable : ∀ token ∈ tokens, token.Readable) (h : tokens.map Token.lexeme = value.lexemes)
    (blank : ∀ c ∈ trailing, isBlank c) :
    lex? (tokens.flatMap Token.spelling ++ trailing) = some tokens :=
  lex?_spelling tokens trailing readable (tokens_apart h) blank

inductive MembersSpelled : List (String × Written) → List Token → Prop where
  | last {name : String} {raw : List Char} {written : Written} (label colon brace : List Char)
      (named : unescape? raw = some name.toList)
      (spelled : written.tokens.map Token.lexeme = written.value.lexemes) :
      MembersSpelled [(name, written)]
        (⟨label, .text raw⟩ :: ⟨colon, .mark .colon⟩ ::
          (written.tokens ++ [⟨brace, .mark .closeBrace⟩]))
  | cons {name : String} {raw : List Char} {written : Written} (label colon comma : List Char)
      {members : List (String × Written)} {tokens : List Token}
      (named : unescape? raw = some name.toList)
      (spelled : written.tokens.map Token.lexeme = written.value.lexemes)
      (others : MembersSpelled members tokens) :
      MembersSpelled ((name, written) :: members)
        (⟨label, .text raw⟩ :: ⟨colon, .mark .colon⟩ ::
          (written.tokens ++ ⟨comma, .mark .comma⟩ :: tokens))

theorem Written.take?_spelled (written : Written) (rest : List Token)
    (spelled : written.tokens.map Token.lexeme = written.value.lexemes) :
    Written.take? (written.tokens ++ rest) = some (written, rest) := by
  simp [Written.take?, take?_lexemes written.value written.tokens rest spelled]

theorem membersOnto?_spelled {members : List (String × Written)} {tokens : List Token}
    (spelled : MembersSpelled members tokens) (fuel : Nat) (done : List (String × Written))
    (enough : tokens.length ≤ fuel) :
    membersOnto? fuel tokens done = some (members.reverse ++ done, []) := by
  induction spelled generalizing fuel done with
  | last _ _ _ named own =>
    obtain ⟨fuel, rfl⟩ : ∃ less, fuel = less + 1 :=
      Nat.exists_eq_succ_of_ne_zero (by rintro rfl; simp at enough)
    simp [membersOnto?, named, Written.take?_spelled _ _ own]
  | cons _ _ _ named own others ih =>
    obtain ⟨fuel, rfl⟩ : ∃ less, fuel = less + 1 :=
      Nat.exists_eq_succ_of_ne_zero (by rintro rfl; simp at enough)
    have less := ih fuel
    simp only [List.length_cons, List.length_append] at enough
    simp [membersOnto?, named, Written.take?_spelled _ _ own, less _ (by omega)]

theorem members?_spelled {text : String} {brace : List Char} {members : List (String × Written)}
    {tokens : List Token} (spelled : MembersSpelled members tokens)
    (lexed : lex? text.toList = some (⟨brace, .mark .openBrace⟩ :: tokens)) :
    members? text = some members.reverse := by
  have read := membersOnto?_spelled spelled tokens.length [] (Nat.le_refl _)
  rw [List.append_nil] at read
  cases spelled with
  | last | cons => simp only [members?, lexed, read]

end TemplateSync.Json
