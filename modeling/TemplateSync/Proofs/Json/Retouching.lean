import Mathlib.Data.List.Perm.Basic
import TemplateSync.Proofs.Json.Records

set_option autoImplicit false

namespace TemplateSync.Json

open Grammar

structure Shape where
  fields : List Names
  -- What may be left out or null, with the value it has where it is empty.
  hollow : List (String × Json) := []
  -- What may be null where it is missing.
  absent : List String := []
  -- A name, and another one of the same field.
  aliases : List (String × String) := []

def Foreign (shape : Shape) (raw : List Char) : Prop :=
  ∃ name : String, Means raw name.toList ∧ ∀ names ∈ shape.fields, name ∉ names

inductive Retouch (shape : Shape) : List Member → List Member → Prop where
  | permuted {first second : List Member} (perm : first.Perm second) : Retouch shape first second
  | inserted (before after : List Member) (raw : List Char) (value : Json)
      (foreign : Foreign shape raw) :
      Retouch shape (before ++ after) (before ++ (raw, value) :: after)
  | renamed (before after : List Member) (name other : String) (value : Json)
      (same : (name, other) ∈ shape.aliases) :
      Retouch shape (before ++ member name value :: after) (before ++ member other value :: after)
  | dropped (before after : List Member) (name : String) (value : Json)
      (hollow : (name, value) ∈ shape.hollow) :
      Retouch shape (before ++ member name value :: after) (before ++ after)
  | nulled (before after : List Member) (name : String) (value : Json)
      (hollow : (name, value) ∈ shape.hollow) :
      Retouch shape (before ++ member name value :: after) (before ++ member name .null :: after)
  | added (before after : List Member) (name : String) (absent : name ∈ shape.absent)
      (missing : ∀ member ∈ before ++ after, ¬Means member.1 name.toList) :
      Retouch shape (before ++ after) (before ++ member name .null :: after)

inductive Retouched (shape : Shape) : Json → Json → Prop where
  | object {first second : List Member} (retouch : Retouch shape first second) :
      Retouched shape (.object first) (.object second)

inductive Inside (name : String) (Change : Json → Json → Prop) : Json → Json → Prop where
  | member (before after : List Member) {value other : Json} (change : Change value other) :
      Inside name Change (.object (before ++ member name value :: after))
        (.object (before ++ member name other :: after))

inductive Among (Change : Json → Json → Prop) : Json → Json → Prop where
  | item (before after : List Json) {value other : Json} (change : Change value other) :
      Among Change (.array (before ++ value :: after)) (.array (before ++ other :: after))

structure Slot where
  names : Names
  fits : List Json → Prop

def Holds (slots : List Slot) (members : List Member) : Prop :=
  ∃ named, List.Forall₂ Reads members named ∧ ∀ slot ∈ slots, slot.fits (valuesOf slot.names named)

def Singly (slots : List Slot) : Prop :=
  ∀ slot ∈ slots, ∀ given, slot.fits given → given.length ≤ 1

/-- The slots allow for what the shape says of its fields. -/
structure Shape.Suits (shape : Shape) (slots : List Slot) : Prop where
  known : ∀ slot ∈ slots, slot.names ∈ shape.fields
  single : Singly slots
  hollow : ∀ name value, (name, value) ∈ shape.hollow → ∀ slot ∈ slots, name ∈ slot.names →
    slot.fits [value] → slot.fits [] ∧ slot.fits [.null]
  absent : ∀ name ∈ shape.absent, ∀ slot ∈ slots, name ∈ slot.names →
    slot.names = [name] ∧ (slot.fits [] → slot.fits [.null])
  aliases : ∀ name other, (name, other) ∈ shape.aliases → ∀ slot ∈ slots,
    (name ∈ slot.names ↔ other ∈ slot.names)

section Reads

variable {first second : List Member} {named : List (String × Json)} {names : Names}

theorem reads_member (name : String) (value : Json) : Reads (member name value) (name, value) :=
  ⟨means_iff.mpr ⟨text_iff.mpr (escape_readable _), unescape?_escape _⟩, rfl⟩

theorem forall₂_append_iff {α β : Type} {R : α → β → Prop} {left right : List α} {all : List β} :
    List.Forall₂ R (left ++ right) all ↔
      ∃ one two, List.Forall₂ R left one ∧ List.Forall₂ R right two ∧ all = one ++ two := by
  induction left generalizing all with
  | nil => simp
  | cons a left ih =>
    rw [List.cons_append]
    constructor
    next =>
      intro related
      obtain ⟨head, rest, own, others, rfl⟩ := List.forall₂_cons_left_iff.mp related
      obtain ⟨one, two, before, after, rfl⟩ := ih.mp others
      exact ⟨head :: one, two, .cons own before, after, rfl⟩
    next =>
      rintro ⟨one, two, before, after, rfl⟩
      obtain ⟨head, rest, own, others, rfl⟩ := List.forall₂_cons_left_iff.mp before
      exact .cons own (ih.mpr ⟨rest, two, others, after, rfl⟩)

theorem reads_around {before after : List Member} {name : String} {value : Json}
    (reads : List.Forall₂ Reads (before ++ member name value :: after) named) :
    ∃ one two, List.Forall₂ Reads before one ∧ List.Forall₂ Reads after two ∧
      named = one ++ (name, value) :: two := by
  obtain ⟨one, rest, left, right, rfl⟩ := forall₂_append_iff.mp reads
  obtain ⟨⟨other, same⟩, two, ⟨means, own⟩, others, rfl⟩ := List.forall₂_cons_left_iff.mp right
  cases own
  obtain rfl : other = name := String.ext_iff.mpr (means.unique (reads_member name value).1)
  exact ⟨one, two, left, others, rfl⟩

theorem valuesOf_append (names : Names) (one two : List (String × Json)) :
    valuesOf names (one ++ two) = valuesOf names one ++ valuesOf names two := by
  simp [valuesOf]

theorem valuesOf_singleton (names : Names) (name : String) (value : Json) :
    valuesOf names [(name, value)] = if name ∈ names then [value] else [] :=
  valuesOf_cons names name value []

theorem valuesOf_unread {name : String} (reads : List.Forall₂ Reads first named)
    (missing : ∀ member ∈ first, ¬Means member.1 name.toList) : valuesOf [name] named = [] := by
  induction reads with
  | nil => rfl
  | @cons member entry rest others own reads ih =>
    have foreign : entry.1 ∉ [name] := by
      intro same
      rw [List.mem_singleton] at same
      exact missing member (List.mem_cons_self ..) (same ▸ own.1)
    rw [valuesOf_cons, if_neg foreign, ih fun other listed => missing other (List.mem_cons_of_mem _ listed)]

theorem perm_short : {one two : List Json} → one.Perm two → two.length ≤ 1 → one = two
  | _, [], perm, _ => perm.eq_nil
  | _, [_], perm, _ => List.perm_singleton.mp perm

theorem sole_value {x y : List Json} {v : Json} (short : (x ++ [v] ++ y).length ≤ 1) :
    x = [] ∧ y = [] := by
  simp only [List.length_append, List.length_singleton] at short
  exact ⟨List.length_eq_zero_iff.mp (by omega), List.length_eq_zero_iff.mp (by omega)⟩

end Reads

section Holds

variable {slots : List Slot} {before after inside : List Member} {named : List (String × Json)}
  {name : String} {value : Json}

theorem Holds.spliced (single : Singly slots) (holds : Holds slots (before ++ member name value :: after))
    (reads : List.Forall₂ Reads inside named)
    (own : ∀ slot ∈ slots, name ∈ slot.names → slot.fits [value] →
      slot.fits (valuesOf slot.names named))
    (others : ∀ slot ∈ slots, name ∉ slot.names → valuesOf slot.names named = []) :
    Holds slots (before ++ inside ++ after) := by
  obtain ⟨all, whole, fits⟩ := holds
  obtain ⟨one, two, left, right, rfl⟩ := reads_around whole
  have start := forall₂_append_iff.mpr ⟨one, named, left, reads, rfl⟩
  refine ⟨one ++ named ++ two, forall₂_append_iff.mpr ⟨_, two, start, right, rfl⟩, fun slot listed => ?_⟩
  have before := fits slot listed
  rw [← List.singleton_append, ← List.append_assoc, valuesOf_append, valuesOf_append,
    valuesOf_singleton] at before
  rw [valuesOf_append, valuesOf_append]
  by_cases mine : name ∈ slot.names
  next =>
    rw [if_pos mine] at before
    obtain ⟨noneBefore, noneAfter⟩ := sole_value (single slot listed _ before)
    rw [noneBefore, noneAfter] at before ⊢
    simpa using own slot listed mine (by simpa using before)
  next =>
    rw [if_neg mine] at before
    rwa [others slot listed mine]

theorem Holds.replaced {other : Json} (single : Singly slots)
    (holds : Holds slots (before ++ member name value :: after))
    (own : ∀ slot ∈ slots, name ∈ slot.names → slot.fits [value] → slot.fits [other]) :
    Holds slots (before ++ member name other :: after) := by
  have spliced := holds.spliced single (.cons (reads_member name other) .nil) ?_ ?_
  next => simpa using spliced
  next =>
    intro slot listed mine fits
    rw [valuesOf_singleton, if_pos mine]
    exact own slot listed mine fits
  next =>
    intro slot listed foreign
    rw [valuesOf_singleton, if_neg foreign]

theorem Holds.inserted {raw : List Char} (holds : Holds slots (before ++ after))
    (means : Means raw name.toList)
    (own : ∀ slot ∈ slots, name ∈ slot.names → ∀ one two, List.Forall₂ Reads before one →
      List.Forall₂ Reads after two → slot.fits (valuesOf slot.names one ++ valuesOf slot.names two) →
      slot.fits (valuesOf slot.names one ++ value :: valuesOf slot.names two)) :
    Holds slots (before ++ (raw, value) :: after) := by
  obtain ⟨all, whole, fits⟩ := holds
  obtain ⟨one, two, left, right, rfl⟩ := forall₂_append_iff.mp whole
  refine ⟨one ++ (name, value) :: two,
    forall₂_append_iff.mpr ⟨one, _, left, .cons ⟨means, rfl⟩ right, rfl⟩, fun slot listed => ?_⟩
  have before := fits slot listed
  rw [valuesOf_append] at before
  rw [valuesOf_append, valuesOf_cons]
  by_cases mine : name ∈ slot.names
  next =>
    rw [if_pos mine]
    exact own slot listed mine one two left right before
  next => rwa [if_neg mine]

theorem Holds.permuted {first second : List Member} (single : Singly slots) (holds : Holds slots first)
    (perm : first.Perm second) : Holds slots second := by
  obtain ⟨named, reads, fits⟩ := holds
  obtain ⟨others, again, shuffled⟩ := List.perm_comp_forall₂ perm.symm reads
  refine ⟨others, again, fun slot listed => ?_⟩
  have own := fits slot listed
  have short := single slot listed _ own
  have same : (valuesOf slot.names others).Perm (valuesOf slot.names named) :=
    (shuffled.filter _).map _
  rwa [perm_short same short]

theorem Inside.holds {Change : Json → Json → Prop} {first : List Member} {other : Json}
    (change : Inside name Change (.object first) other) (single : Singly slots) (holds : Holds slots first)
    (own : ∀ slot ∈ slots, name ∈ slot.names → ∀ value other, Change value other →
      slot.fits [value] → slot.fits [other]) :
    ∃ second, other = .object second ∧ Holds slots second := by
  cases change with
  | member before after change =>
    exact ⟨_, rfl, holds.replaced single fun slot listed mine => own slot listed mine _ _ change⟩

theorem Retouch.holds {shape : Shape} {first second : List Member} (retouch : Retouch shape first second)
    (suits : shape.Suits slots) (holds : Holds slots first) : Holds slots second := by
  cases retouch with
  | permuted perm => exact holds.permuted suits.single perm
  | inserted before after raw value foreign =>
    obtain ⟨name, means, foreign⟩ := foreign
    exact holds.inserted means fun slot listed mine =>
      absurd mine (foreign slot.names (suits.known slot listed))
  | renamed before after name other value same =>
    have spliced := holds.spliced suits.single (.cons (reads_member other value) .nil) ?_ ?_
    next => simpa using spliced
    next =>
      intro slot listed mine fits
      rwa [valuesOf_singleton, if_pos ((suits.aliases name other same slot listed).mp mine)]
    next =>
      intro slot listed foreign
      rw [valuesOf_singleton, if_neg fun mine => foreign ((suits.aliases name other same slot listed).mpr mine)]
  | dropped before after name value hollow =>
    have spliced := holds.spliced suits.single .nil ?_ fun _ _ _ => rfl
    next => simpa using spliced
    next =>
      intro slot listed mine fits
      exact (suits.hollow name value hollow slot listed mine fits).1
  | nulled before after name value hollow =>
    exact holds.replaced suits.single fun slot listed mine fits =>
      (suits.hollow name value hollow slot listed mine fits).2
  | added before after name absent missing =>
    refine holds.inserted (reads_member name .null).1 fun slot listed mine one two left right fits => ?_
    obtain ⟨alone, fitsNull⟩ := suits.absent name absent slot listed mine
    have none {part : List Member} {named : List (String × Json)} (reads : List.Forall₂ Reads part named)
        (within : ∀ member ∈ part, member ∈ before ++ after) : valuesOf [name] named = [] :=
      valuesOf_unread reads fun member listed => missing member (within member listed)
    rw [alone] at fits ⊢
    rw [none left fun _ listed => List.mem_append_left _ listed,
      none right fun _ listed => List.mem_append_right _ listed] at fits ⊢
    exact fitsNull fits

end Holds

end TemplateSync.Json
