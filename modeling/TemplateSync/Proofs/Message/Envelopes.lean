import TemplateSync.Proofs.Json.Records
import TemplateSync.Proofs.Message.RoundTrip

set_option autoImplicit false

namespace TemplateSync

open Json Json.Grammar

namespace Envelope

def Last (name : String) (members : List (String × Entry)) (entry : Entry) : Prop :=
  ∃ before after, members = before ++ (name, entry) :: after ∧ ∀ member ∈ after, member.1 ≠ name

def TypeIs (members : List (String × Entry)) (tag : String) : Prop :=
  ∃ entry, Last "type" members entry ∧ IsText entry.value tag

-- The text is an object whose last `type` is the tag and whose last `body` is the entry, an object.
def IsEnvelope (text tag : String) (body : Entry) : Prop :=
  ∃ members, IsObject text members ∧ TypeIs members tag ∧ tag ≠ "" ∧ Last "body" members body ∧
    ∃ inner, body.value = .object inner

/-- The first check that fails, each after the ones before it have passed. -/
inductive Refused (text : String) : EnvelopeFault → Prop where
  | notAnObject (other : ∀ members, ¬ IsObject text members) : Refused text .notAnObject
  | typeMissing {members : List (String × Entry)} (object : IsObject text members)
      (missing : ∀ entry, ¬ Last "type" members entry) : Refused text .typeMissing
  | typeNotText {members : List (String × Entry)} {entry : Entry} (object : IsObject text members)
      (last : Last "type" members entry) (other : ∀ tag, ¬ TypeIs members tag) :
      Refused text .typeNotText
  | typeEmpty {members : List (String × Entry)} (object : IsObject text members)
      (typed : TypeIs members "") : Refused text .typeEmpty
  | bodyMissing {members : List (String × Entry)} {tag : String} (object : IsObject text members)
      (typed : TypeIs members tag) (named : tag ≠ "") (missing : ∀ entry, ¬ Last "body" members entry) :
      Refused text .bodyMissing
  | bodyNotObject {members : List (String × Entry)} {tag : String} {entry : Entry}
      (object : IsObject text members) (typed : TypeIs members tag) (named : tag ≠ "")
      (last : Last "body" members entry) (other : ∀ inner, entry.value ≠ .object inner) :
      Refused text .bodyNotObject

theorem lookup_reverse_iff {name : String} {members : List (String × Entry)} {entry : Entry} :
    members.reverse.lookup name = some entry ↔ Last name members entry := by
  rw [List.lookup_eq_some_iff]
  constructor
  next =>
    rintro ⟨after, before, split, others⟩
    refine ⟨before.reverse, after.reverse, by simpa using congrArg List.reverse split, ?_⟩
    intro member inside same
    exact bne_iff_ne.mp (others member (List.mem_reverse.mp inside)) same.symm
  next =>
    rintro ⟨before, after, rfl, others⟩
    refine ⟨after.reverse, before.reverse, by simp, fun member inside => ?_⟩
    exact bne_iff_ne.mpr (others member (List.mem_reverse.mp inside)).symm

theorem lookup_map {α β : Type} (f : α → β) (name : String) (members : List (String × α)) :
    (members.map (Prod.map id f)).lookup name = (members.lookup name).map f := by
  induction members with
  | nil => rfl
  | cons member members ih =>
    obtain ⟨other, value⟩ := member
    simp only [List.map_cons, Prod.map_apply, id_eq, List.lookup_cons, ih]
    split <;> rfl

structure Found (text : String) (members : List (String × Entry)) (found : List (String × Written)) :
    Prop where
  object : IsObject text members
  content : (members.map (Prod.map id Entry.content)).reverse = found.map (Prod.map id Written.content)

namespace Found

variable {text : String} {members : List (String × Entry)} {found : List (String × Written)}

theorem lookup (h : Found text members found) (name : String) :
    (found.lookup name).map Written.content = (members.reverse.lookup name).map Entry.content := by
  rw [← lookup_map, ← lookup_map, ← h.content, List.map_reverse]

theorem lookup_none (h : Found text members found) {name : String}
    (missing : ∀ entry, ¬ Last name members entry) : found.lookup name = none := by
  have none : members.reverse.lookup name = none :=
    Option.eq_none_iff_forall_not_mem.mpr fun entry last => missing entry (lookup_reverse_iff.mp last)
  simpa [none] using h.lookup name

theorem lookup_some (h : Found text members found) {name : String} {entry : Entry}
    (last : Last name members entry) :
    ∃ written, found.lookup name = some written ∧ written.content = entry.content := by
  have content := h.lookup name
  rw [lookup_reverse_iff.mpr last] at content
  exact Option.map_eq_some_iff.mp content

theorem readable (h : Found text members found) {name : String} {entry : Entry}
    (last : Last name members entry) : entry.value.Readable := by
  obtain ⟨before, after, rfl, -⟩ := last
  obtain ⟨-, core, braced, -⟩ := h.object
  exact (braced.spells entry (by simp)).readable

theorem string?_iff (h : Found text members found) {name : String} {entry : Entry} {written : Written}
    (last : Last name members entry) (content : written.content = entry.content) (chars : String) :
    written.value.string? = some chars ↔ IsText entry.value chars := by
  have value : written.value = entry.value := congrArg Prod.fst content
  rw [value, Json.string?_iff (h.readable last)]

theorem type_text (h : Found text members found) {tag : String} (typed : TypeIs members tag) :
    ∃ written, found.lookup "type" = some written ∧ written.value.string? = some tag := by
  obtain ⟨entry, last, own⟩ := typed
  obtain ⟨written, seen, content⟩ := h.lookup_some last
  exact ⟨written, seen, (h.string?_iff last content tag).mpr own⟩

theorem type_other (h : Found text members found) {entry : Entry} (last : Last "type" members entry)
    (other : ∀ tag, ¬ TypeIs members tag) :
    ∃ written, found.lookup "type" = some written ∧ written.value.string? = none := by
  obtain ⟨written, seen, content⟩ := h.lookup_some last
  refine ⟨written, seen, Option.eq_none_iff_forall_not_mem.mpr fun tag read => ?_⟩
  exact other tag ⟨entry, last, (h.string?_iff last content tag).mp read⟩

end Found

theorem found_of_object {text : String} {members : List (String × Entry)}
    (object : IsObject text members) :
    ∃ found, members? text = some found ∧ Found text members found := by
  obtain ⟨found, read, content⟩ := members?_complete object
  exact ⟨found, read, object, content⟩

theorem isObject_iff {written : Written} :
    written.isObject = true ↔ ∃ inner, written.value = .object inner := by
  unfold Written.isObject
  split <;> simp_all

theorem Refused.read {text : String} {fault : EnvelopeFault} (refused : Refused text fault) :
    Envelope.read text = .error fault := by
  cases refused with
  | notAnObject other =>
    have none : members? text = none :=
      Option.eq_none_iff_forall_not_mem.mpr fun found read =>
        (members?_sound read).elim fun members whole => other members whole.1
    simp [Envelope.read, none]
  | typeMissing object missing =>
    obtain ⟨found, read, known⟩ := found_of_object object
    simp [Envelope.read, read, known.lookup_none missing]
  | typeNotText object last other =>
    obtain ⟨found, read, known⟩ := found_of_object object
    obtain ⟨written, seen, unreadable⟩ := known.type_other last other
    simp [Envelope.read, read, seen, unreadable]
  | typeEmpty object typed =>
    obtain ⟨found, read, known⟩ := found_of_object object
    obtain ⟨written, seen, chars⟩ := known.type_text typed
    simp [Envelope.read, read, seen, chars]
  | bodyMissing object typed named missing =>
    obtain ⟨found, read, known⟩ := found_of_object object
    obtain ⟨written, seen, chars⟩ := known.type_text typed
    simp [Envelope.read, read, seen, chars, named, known.lookup_none missing]
  | bodyNotObject object typed named last other =>
    obtain ⟨found, read, known⟩ := found_of_object object
    obtain ⟨written, seen, chars⟩ := known.type_text typed
    obtain ⟨body, inside, content⟩ := known.lookup_some last
    have value : body.value = _ := congrArg Prod.fst content
    have different : body.isObject = false := by
      rw [Bool.eq_false_iff, Ne, isObject_iff, value]
      rintro ⟨inner, same⟩
      exact other inner same
    simp [Envelope.read, read, seen, chars, named, inside, different]

theorem IsEnvelope.read {text tag : String} {body : Entry} (envelope : IsEnvelope text tag body) :
    ∃ written, Envelope.read text = .ok ⟨tag, written⟩ ∧ written.content = body.content := by
  obtain ⟨members, object, typed, named, last, inner, value⟩ := envelope
  obtain ⟨found, read, known⟩ := found_of_object object
  obtain ⟨written, seen, chars⟩ := known.type_text typed
  obtain ⟨body, inside, content⟩ := known.lookup_some last
  have shaped : body.isObject = true :=
    isObject_iff.mpr ⟨inner, (congrArg Prod.fst content).trans value⟩
  exact ⟨body, by simp [Envelope.read, read, seen, chars, named, inside, shaped], content⟩

theorem IsEnvelope.spells {text tag : String} {entry : Entry} (envelope : IsEnvelope text tag entry) :
    tag ≠ "" ∧ ∃ members, Spells (.object members) entry.text := by
  obtain ⟨members, ⟨-, core, braced, -⟩, -, named, ⟨before, after, rfl, -⟩, inner, value⟩ := envelope
  have spells := braced.spells entry (by simp)
  rw [value] at spells
  exact ⟨named, inner, spells⟩

theorem IsEnvelope.readable {text tag : String} {entry : Entry} (envelope : IsEnvelope text tag entry) :
    entry.value.Readable := by
  obtain ⟨members, ⟨-, core, braced, -⟩, -, -, ⟨before, after, rfl, -⟩, -⟩ := envelope
  exact (braced.spells entry (by simp)).readable

theorem refused_or_envelope (text : String) :
    (∃ fault, Refused text fault) ∨ ∃ tag body, IsEnvelope text tag body := by
  by_cases object : ∃ members, IsObject text members
  case neg => exact .inl ⟨_, .notAnObject (not_exists.mp object)⟩
  obtain ⟨members, object⟩ := object
  by_cases present : ∃ entry, Last "type" members entry
  case neg => exact .inl ⟨_, .typeMissing object (not_exists.mp present)⟩
  obtain ⟨entry, last⟩ := present
  by_cases typed : ∃ tag, TypeIs members tag
  case neg => exact .inl ⟨_, .typeNotText object last (not_exists.mp typed)⟩
  obtain ⟨tag, typed⟩ := typed
  by_cases named : tag = ""
  case pos => exact .inl ⟨_, .typeEmpty object (named ▸ typed)⟩
  by_cases present : ∃ entry, Last "body" members entry
  case neg => exact .inl ⟨_, .bodyMissing object typed named (not_exists.mp present)⟩
  obtain ⟨body, last⟩ := present
  by_cases shaped : ∃ inner, body.value = .object inner
  case neg => exact .inl ⟨_, .bodyNotObject object typed named last (not_exists.mp shaped)⟩
  exact .inr ⟨tag, body, members, object, typed, named, last, shaped⟩

theorem read_error_iff {text : String} {fault : EnvelopeFault} :
    Envelope.read text = .error fault ↔ Refused text fault := by
  refine ⟨fun read => ?_, Refused.read⟩
  rcases refused_or_envelope text with ⟨other, refused⟩ | ⟨tag, body, envelope⟩
  next =>
    rw [refused.read] at read
    cases read
    exact refused
  next =>
    obtain ⟨written, ok, -⟩ := envelope.read
    rw [ok] at read
    cases read

theorem read_ok_iff {text tag : String} {content : Json × List Char} :
    (∃ written, Envelope.read text = .ok ⟨tag, written⟩ ∧ written.content = content) ↔
      ∃ body, IsEnvelope text tag body ∧ body.content = content := by
  constructor
  next =>
    rintro ⟨written, read, rfl⟩
    rcases refused_or_envelope text with ⟨fault, refused⟩ | ⟨tag, body, envelope⟩
    next =>
      rw [refused.read] at read
      cases read
    next =>
      obtain ⟨seen, ok, content⟩ := envelope.read
      rw [ok] at read
      cases read
      exact ⟨body, envelope, content.symm⟩
  next =>
    rintro ⟨body, envelope, rfl⟩
    exact envelope.read

theorem isEnvelope_of_parts {text tag : String} {chars : List Char}
    (read : (Envelope.read text).map (fun envelope => (envelope.tag, envelope.body.chars)) =
      .ok (tag, chars)) : ∃ entry, IsEnvelope text tag entry ∧ entry.text = chars := by
  cases ok : Envelope.read text with
  | error fault => simp [ok, Except.map] at read
  | ok envelope =>
    obtain ⟨own, written⟩ := envelope
    obtain ⟨rfl, same⟩ : own = tag ∧ written.chars = chars := by simpa [ok, Except.map] using read
    obtain ⟨entry, isEnvelope, content⟩ := read_ok_iff.mp ⟨written, ok, rfl⟩
    exact ⟨entry, isEnvelope, (congrArg Prod.snd content).trans same⟩

end Envelope

end TemplateSync
