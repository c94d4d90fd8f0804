import Mathlib.Data.List.Forall2
import TemplateSync.Json.Record
import TemplateSync.Proofs.Json.Reading
import TemplateSync.Proofs.Json.Rendering

set_option autoImplicit false

namespace TemplateSync.Json

open Grammar

section Readable

theorem emitItems_mem {items : List Json} {item : Json} {lexeme : Lexeme} (rest : List Lexeme)
    (inside : item ∈ items) (own : lexeme ∈ item.lexemes) : lexeme ∈ emitItems items rest := by
  induction items with
  | nil => cases inside
  | cons first items ih =>
    rw [emitItems, emit_eq]
    rcases List.mem_cons.mp inside with rfl | later
    next => simp [own]
    next => simp [ih later]

theorem emitMembers_mem {members : List (List Char × Json)} {member : List Char × Json}
    {lexeme : Lexeme} (rest : List Lexeme) (inside : member ∈ members)
    (own : lexeme = .text member.1 ∨ lexeme ∈ member.2.lexemes) :
    lexeme ∈ emitMembers members rest := by
  induction members with
  | nil => cases inside
  | cons first members ih =>
    obtain ⟨key, value⟩ := first
    rw [emitMembers, emit_eq]
    rcases List.mem_cons.mp inside with rfl | later
    next => rcases own with rfl | own <;> simp [*]
    next => simp [ih later]

theorem readable_item {items : List Json} (readable : (array items).Readable) :
    ∀ item ∈ items, item.Readable := by
  intro item inside lexeme own
  apply readable
  cases items with
  | nil => cases inside
  | cons first items =>
    rw [lexemes, emit, emit_eq]
    rcases List.mem_cons.mp inside with rfl | later
    next => simp [own]
    next => simp [emitItems_mem _ later own]

theorem readable_member {members : List Member} (readable : (object members).Readable) :
    ∀ member ∈ members, Text member.1 ∧ member.2.Readable := by
  have all {member : Member} (inside : member ∈ members) (lexeme : Lexeme)
      (own : lexeme = .text member.1 ∨ lexeme ∈ member.2.lexemes) : lexeme.Readable := by
    apply readable
    cases members with
    | nil => cases inside
    | cons first members =>
      obtain ⟨key, value⟩ := first
      rw [lexemes, emit, emit_eq]
      rcases List.mem_cons.mp inside with rfl | later
      next => rcases own with rfl | own <;> simp [*]
      next => simp [emitMembers_mem _ later own]
  exact fun member inside => ⟨text_iff.mpr (all inside _ (.inl rfl)), fun lexeme own =>
    all inside lexeme (.inr own)⟩

theorem readable_text {raw : List Char} (readable : (text raw).Readable) : Text raw :=
  text_iff.mpr (readable _ (List.mem_singleton_self _))

theorem readable_number {literal : List Char} (readable : (number literal).Readable) :
    Number literal :=
  number_iff.mpr (readable _ (List.mem_singleton_self _))

def IsText (value : Json) (chars : String) : Prop :=
  ∃ raw, value = .text raw ∧ Means raw chars.toList

theorem string?_iff {value : Json} {chars : String} (readable : value.Readable) :
    value.string? = some chars ↔ IsText value chars := by
  cases value with
  | text raw =>
    have read : (text raw).string? = some chars ↔ unescape? raw = some chars.toList := by
      simp [string?, String.ext_iff]
    simp [IsText, read, means_iff, readable_text readable]
  | null | bool | number | array | object => simp [IsText, string?]

theorem Grammar.Spells.readable {value : Json} {core : List Char} (spells : Spells value core) :
    value.Readable := by
  obtain ⟨written, lawful, rfl, -, -⟩ := spells.laid
  intro lexeme inside
  rw [← lawful.spelled] at inside
  obtain ⟨token, own, rfl⟩ := List.mem_map.mp inside
  exact (lawful.readable token own).lexeme

end Readable

section Given

def Reads (member : Member) (named : String × Json) : Prop :=
  Means member.1 named.1.toList ∧ member.2 = named.2

def IsRecord (value : Json) (members : List (String × Json)) : Prop :=
  ∃ raw, value = .object raw ∧ List.Forall₂ Reads raw members

def valuesOf (names : Names) (members : List (String × Json)) : List Json :=
  (members.filter fun member => names.contains member.1).map Prod.snd

/-- The values given for each field, in the order of the fields. -/
inductive Given (fields : List Names) : Json → List (List Json) → Prop where
  | object {value : Json} {members : List (String × Json)} (record : IsRecord value members) :
      Given fields value (fields.map fun names => valuesOf names members)
  | array {items : List Json} (fits : items.length ≤ fields.length) :
      Given fields (.array items)
        (items.map (fun item => [item]) ++ List.replicate (fields.length - items.length) [])

def Apart (fields : List Names) : Prop :=
  fields.Pairwise List.Disjoint

def joined (fields : List Names) (slots : List (Option Json)) (members : List (String × Json)) :
    List (List Json) :=
  List.zipWith (fun slot names => slot.toList ++ valuesOf names members) slots fields

theorem toList_injective {α : Type} : Function.Injective (Option.toList (α := α)) := by
  intro first second same
  cases first <;> cases second <;> simp_all

theorem joined_nil {fields : List Names} {slots : List (Option Json)}
    (size : slots.length = fields.length) : joined fields slots [] = slots.map Option.toList := by
  apply List.ext_getElem
  next => simp [joined, size]
  next => simp [joined, valuesOf]

theorem valuesOf_cons (names : Names) (name : String) (value : Json)
    (members : List (String × Json)) :
    valuesOf names ((name, value) :: members) =
      if name ∈ names then value :: valuesOf names members else valuesOf names members := by
  simp only [valuesOf, List.filter_cons, List.contains_eq_mem, decide_eq_true_eq]
  split <;> rfl

theorem joined_outside {fields : List Names} {name : String} (outside : place? fields name = none)
    (slots : List (Option Json)) (value : Json) (members : List (String × Json)) :
    joined fields slots ((name, value) :: members) = joined fields slots members := by
  have noField : ∀ names ∈ fields, name ∉ names := by
    simpa [place?, List.findIdx?_eq_none_iff] using outside
  apply List.ext_getElem
  next => simp [joined]
  next =>
    intro place first _
    have small : place < fields.length := by
      simp only [joined, List.length_zipWith, Nat.lt_min] at first
      exact first.2
    simp [joined, valuesOf_cons, noField fields[place] (List.getElem_mem small)]

theorem place?_some {fields : List Names} {name : String} {place : Nat} (apart : Apart fields)
    (found : place? fields name = some place) : place < fields.length ∧
      ∀ (other : Nat) (small : other < fields.length), name ∈ fields[other] ↔ other = place := by
  obtain ⟨inside, own, -⟩ := List.findIdx?_eq_some_iff_getElem.mp found
  simp only [List.contains_eq_mem, decide_eq_true_eq] at own
  refine ⟨inside, fun other small => ⟨fun both => ?_, fun same => by subst same; exact own⟩⟩
  have pairs := List.pairwise_iff_getElem.mp apart
  rcases Nat.lt_trichotomy other place with less | same | more
  next => exact (pairs other place small inside less both own).elim
  next => exact same
  next => exact (pairs place other inside small more own both).elim

theorem joined_set {fields : List Names} {slots : List (Option Json)} {name : String} {place : Nat}
    (apart : Apart fields) (found : place? fields name = some place) (empty : slots[place]? = some none)
    (value : Json) (members : List (String × Json)) :
    joined fields slots ((name, value) :: members) =
      joined fields (slots.set place (some value)) members := by
  obtain ⟨-, names⟩ := place?_some apart found
  apply List.ext_getElem
  next => simp [joined]
  next =>
    intro other first _
    have small : other < fields.length := by
      simp only [joined, List.length_zipWith, Nat.lt_min] at first
      exact first.2
    simp only [joined, List.getElem_zipWith, valuesOf_cons, names other small, List.getElem_set]
    by_cases same : other = place
    next =>
      subst same
      obtain ⟨_, slot⟩ := List.getElem?_eq_some_iff.mp empty
      simp [slot]
    next => simp [same, Ne.symm same]

theorem joined_full {fields : List Names} {slots out : List (Option Json)} {name : String}
    {place : Nat} {value other : Json} {members : List (String × Json)} (apart : Apart fields)
    (found : place? fields name = some place) (full : slots[place]? = some (some other)) :
    out.map Option.toList ≠ joined fields slots ((name, value) :: members) := by
  intro same
  obtain ⟨inside, names⟩ := place?_some apart found
  obtain ⟨small, slot⟩ := List.getElem?_eq_some_iff.mp full
  have at_place := congrArg (fun lists => lists[place]?) same
  have own : (joined fields slots ((name, value) :: members))[place]? =
      some (other :: value :: valuesOf fields[place] members) := by
    simp [joined, List.getElem?_zipWith, inside, full, valuesOf_cons, names place inside]
  simp only [own, List.getElem?_map, Option.map_eq_some_iff] at at_place
  obtain ⟨filled, -, two⟩ := at_place
  cases filled <;> simp at two

theorem reads_cons {spelling chars : List Char} (means : Means spelling chars) (value : Json)
    (raw : List Member) (P : List (String × Json) → Prop) :
    (∃ members, List.Forall₂ Reads ((spelling, value) :: raw) members ∧ P members) ↔
      ∃ members, List.Forall₂ Reads raw members ∧ P ((String.ofList chars, value) :: members) := by
  constructor
  next =>
    rintro ⟨_, reads, holds⟩
    obtain ⟨⟨name, _⟩, members, ⟨own, rfl⟩, others, rfl⟩ := List.forall₂_cons_left_iff.mp reads
    obtain rfl : name = String.ofList chars := by rw [← own.unique means, String.ofList_toList]
    exact ⟨members, others, holds⟩
  next =>
    rintro ⟨members, others, holds⟩
    exact ⟨_, .cons ⟨by simpa using means, rfl⟩ others, holds⟩

theorem fill?_iff {fields : List Names} {raw : List Member} {slots out : List (Option Json)}
    (apart : Apart fields) (size : slots.length = fields.length)
    (readable : ∀ member ∈ raw, Text member.1) :
    fill? fields raw slots = some out ↔
      ∃ members, List.Forall₂ Reads raw members ∧ out.map Option.toList = joined fields slots members := by
  induction raw generalizing slots with
  | nil =>
    have same : slots = out ↔ out.map Option.toList = slots.map Option.toList :=
      ⟨fun h => h ▸ rfl, fun h => ((List.map_injective_iff.mpr toList_injective) h).symm⟩
    simp [fill?, joined_nil size, same]
  | cons member raw ih =>
    obtain ⟨spelling, value⟩ := member
    obtain ⟨text, others⟩ := List.forall_mem_cons.mp readable
    rw [fill?]
    split
    next unread =>
      simp only [List.forall₂_cons_left_iff, reduceCtorEq, false_iff]
      rintro ⟨_, ⟨⟨name, _⟩, members, ⟨means, -⟩, -, rfl⟩, -⟩
      rw [(means_iff.mp means).2] at unread
      cases unread
    next chars read =>
      rw [reads_cons (means_iff.mpr ⟨text, read⟩)]
      split
      next outside =>
        simp only [joined_outside outside]
        exact ih size others
      next place found =>
        split
        next empty =>
          simp only [joined_set apart found empty]
          exact ih (by simpa using size) others
        next taken =>
          have inside : place < slots.length := size ▸ (place?_some apart found).1
          have full : ∃ other, slots[place]? = some (some other) := by
            rw [List.getElem?_eq_getElem inside] at taken ⊢
            cases slot : slots[place] with
            | none => exact (taken (by rw [slot])).elim
            | some other => exact ⟨other, rfl⟩
          obtain ⟨other, full⟩ := full
          simp only [reduceCtorEq, false_iff]
          exact fun ⟨members, _, same⟩ => joined_full apart found full same

theorem record?_iff {fields : List Names} {value : Json} {slots : List (Option Json)}
    (apart : Apart fields) (readable : value.Readable) :
    value.record? fields = some slots ↔ Given fields value (slots.map Option.toList) := by
  have start (members : List (String × Json)) : joined fields (fields.map fun _ => none) members =
      fields.map fun names => valuesOf names members := by
    rw [joined, List.zipWith_map_left, List.zipWith_self]
    rfl
  cases value with
  | object raw =>
    rw [record?, fill?_iff apart (by simp) fun member inside => (readable_member readable member inside).1]
    simp only [start]
    constructor
    next =>
      rintro ⟨members, reads, same⟩
      rw [same]
      exact .object ⟨raw, rfl, reads⟩
    next =>
      intro given
      generalize lists : slots.map Option.toList = all at given
      cases given with
      | object record =>
        obtain ⟨_, ⟨⟩, reads⟩ := record
        exact ⟨_, reads, rfl⟩
  | array items =>
    have filled : (items.map some ++ List.replicate (fields.length - items.length) none).map
        Option.toList = items.map (fun item => [item]) ++
          List.replicate (fields.length - items.length) [] := by
      simp [Function.comp_def]
    rw [record?]
    constructor
    next =>
      intro read
      split at read
      next fits =>
        cases read
        rw [filled]
        exact .array fits
      next => cases read
    next =>
      intro given
      generalize lists : slots.map Option.toList = all at given
      cases given with
      | object record =>
        obtain ⟨_, ⟨⟩, -⟩ := record
      | array fits =>
        rw [if_pos fits, Option.some.injEq]
        exact (List.map_injective_iff.mpr toList_injective) (filled.trans lists.symm)
  | null | bool | number | text =>
    constructor
    next => exact nofun
    next =>
      intro given
      generalize slots.map Option.toList = all at given
      cases given with
      | object record =>
        obtain ⟨_, ⟨⟩, -⟩ := record

theorem reads_readable {raw : List Member} {members : List (String × Json)}
    (reads : List.Forall₂ Reads raw members) (readable : ∀ member ∈ raw, member.2.Readable) :
    ∀ named ∈ members, named.2.Readable := by
  induction reads with
  | nil => simp
  | cons own _ ih =>
    obtain ⟨first, others⟩ := List.forall_mem_cons.mp readable
    rw [own.2] at first
    exact List.forall_mem_cons.mpr ⟨first, ih others⟩

theorem Given.readable {fields : List Names} {value : Json} {lists : List (List Json)}
    (given : Given fields value lists) (readable : value.Readable) :
    ∀ list ∈ lists, ∀ item ∈ list, item.Readable := by
  cases given with
  | object record =>
    obtain ⟨raw, rfl, reads⟩ := record
    intro list listed item inside
    obtain ⟨names, -, rfl⟩ := List.mem_map.mp listed
    obtain ⟨named, member, rfl⟩ := List.mem_map.mp inside
    have all := reads_readable reads fun member own => (readable_member readable member own).2
    exact all named (List.mem_filter.mp member).1
  | array fits =>
    intro list listed item inside
    rcases List.mem_append.mp listed with given | missing
    next =>
      obtain ⟨own, spelled, rfl⟩ := List.mem_map.mp given
      obtain rfl := List.mem_singleton.mp inside
      exact readable_item readable item spelled
    next =>
      rw [List.eq_of_mem_replicate missing] at inside
      cases inside

end Given

section Fields

variable {α : Type} {Is : Json → α → Prop} {read? : Json → Option α} {given : List Json} {a : α}

inductive Required (Is : Json → α → Prop) : List Json → α → Prop where
  | given {value : Json} {a : α} (own : Is value a) : Required Is [value] a

inductive Defaulted (absent : α) (Is : Json → α → Prop) : List Json → α → Prop where
  | missing : Defaulted absent Is [] absent
  | given {value : Json} {a : α} (own : Is value a) : Defaulted absent Is [value] a

inductive Nullable (absent : α) (Is : Json → α → Prop) : List Json → α → Prop where
  | missing : Nullable absent Is [] absent
  | null : Nullable absent Is [.null] absent
  | given {value : Json} {a : α} (own : Is value a) : Nullable absent Is [value] a

theorem required_iff (reads : ∀ value ∈ given, ∀ a, read? value = some a ↔ Is value a) :
    Required Is given a ↔ ∃ value, given = (some value).toList ∧ read? value = some a := by
  constructor
  next =>
    rintro ⟨own⟩
    exact ⟨_, rfl, (reads _ (List.mem_singleton_self _) _).mpr own⟩
  next =>
    rintro ⟨value, rfl, own⟩
    exact .given ((reads value (List.mem_singleton_self _) a).mp own)

theorem defaulted_iff {absent : α} (reads : ∀ value ∈ given, ∀ a, read? value = some a ↔ Is value a) :
    Defaulted absent Is given a ↔
      ∃ slot : Option Json, given = slot.toList ∧ optional? absent read? slot = some a := by
  constructor
  next =>
    rintro (_ | own)
    next => exact ⟨none, rfl, rfl⟩
    next => exact ⟨some _, rfl, (reads _ (List.mem_singleton_self _) _).mpr own⟩
  next =>
    rintro ⟨_ | value, rfl, own⟩
    next =>
      cases own
      exact .missing
    next => exact .given ((reads value (List.mem_singleton_self _) a).mp own)

theorem nullable_iff {absent : α} (reads : ∀ value ∈ given, ∀ a, read? value = some a ↔ Is value a)
    (solid : ∀ a, ¬ Is .null a) : Nullable absent Is given a ↔
      ∃ slot : Option Json, given = slot.toList ∧ nullable? absent read? slot = some a := by
  constructor
  next =>
    rintro (_ | _ | @⟨value, _, own⟩)
    next => exact ⟨none, rfl, rfl⟩
    next => exact ⟨some .null, rfl, rfl⟩
    next =>
      have read := (reads _ (List.mem_singleton_self _) _).mpr own
      refine ⟨some value, rfl, ?_⟩
      cases value with
      | null => exact (solid _ own).elim
      | bool | number | text | array | object => exact read
  next =>
    rintro ⟨_ | value, rfl, own⟩
    next =>
      cases own
      exact .missing
    cases value with
    | null =>
      cases own
      exact .null
    | bool | number | text | array | object =>
      exact .given ((reads _ (List.mem_singleton_self _) a).mp own)

end Fields

end TemplateSync.Json
