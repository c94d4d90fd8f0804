import Mathlib.Data.List.Nodup
import TemplateSync.Proofs.Message.Schemas
import TemplateSync.Proofs.Message.UnknownKinds

set_option autoImplicit false

namespace TemplateSync

open Envelope Schema

inductive Check where
  | envelope (fault : EnvelopeFault)
  | body (kind : Kind)
  deriving DecidableEq

namespace Check

def detail : Check → String
  | envelope fault => fault.fault.message
  | body kind => s!"bad '{kind.tag}' body: no such shape"

def all : List Check :=
  [envelope .notAnObject, envelope .typeMissing, envelope .typeNotText, envelope .typeEmpty,
    envelope .bodyMissing, envelope .bodyNotObject, body .version, body .solution, body .project,
    body .metadata]

theorem mem_all (check : Check) : check ∈ all := by
  cases check with
  | envelope fault => cases fault <;> decide
  | body kind => cases kind <;> decide

theorem detail_injective : Function.Injective detail := by
  have apart : (all.map detail).Nodup := by decide +kernel
  exact fun one other same => List.inj_on_of_nodup_map apart (mem_all one) (mem_all other) same

end Check

namespace Message

inductive Accepts (text : String) : Message → Prop where
  | known {kind : Kind} {entry : Json.Grammar.Entry} {message : Message}
      (envelope : IsEnvelope text kind.tag entry) (body : IsBody entry.value kind message) :
      Accepts text message
  | unknown {tag : String} {entry : Json.Grammar.Entry} (envelope : IsEnvelope text tag entry)
      (other : tag ∉ knownTags) : Accepts text (.unknown tag (String.ofList entry.text))

/-- The first check that fails. The body is looked at where the text is an envelope. -/
inductive FirstFailed (text : String) : Check → Prop where
  | envelope {fault : EnvelopeFault} (refused : Refused text fault) : FirstFailed text (.envelope fault)
  | body {kind : Kind} {entry : Json.Grammar.Entry} (envelope : IsEnvelope text kind.tag entry)
      (other : ∀ message, ¬ IsBody entry.value kind message) : FirstFailed text (.body kind)

theorem ofTag?_some {tag : String} {kind : Kind} (known : Kind.ofTag? tag = some kind) :
    tag = kind.tag := by
  have found := List.find?_some known
  exact (beq_iff_eq.mp found).symm

theorem Accepts.read {text : String} {message : Message} (accepts : Accepts text message) :
    Message.read text = message := by
  cases accepts with
  | @known kind entry _ envelope body =>
    obtain ⟨written, read, content⟩ := envelope.read
    have value : written.value = entry.value := congrArg Prod.fst content
    have shaped := (ofBody?_iff envelope.readable kind message).mpr body
    rw [← value] at shaped
    simp only [Message.read, read, Envelope.message?, kind_ofTag?_tag, shaped]
  | unknown envelope other => exact read_of_envelope envelope other

theorem FirstFailed.read {text : String} {check : Check} (failed : FirstFailed text check) :
    Message.read text = .error text (some check.detail) := by
  cases failed with
  | envelope refused => simp only [Message.read, refused.read, Check.detail]
  | @body kind entry envelope other =>
    obtain ⟨written, read, content⟩ := envelope.read
    have value : written.value = entry.value := congrArg Prod.fst content
    have shapeless : ofBody? written.value kind = none := by
      rw [value]
      exact Option.eq_none_iff_forall_not_mem.mpr fun message shaped =>
        other message ((ofBody?_iff envelope.readable kind message).mp shaped)
    simp only [Message.read, read, Envelope.message?, kind_ofTag?_tag, shapeless, Check.detail]

theorem accepts_or_failed (text : String) :
    (∃ message, Accepts text message) ∨ ∃ check, FirstFailed text check := by
  rcases refused_or_envelope text with ⟨fault, refused⟩ | ⟨tag, entry, envelope⟩
  case inl => exact .inr ⟨_, .envelope refused⟩
  cases known : Kind.ofTag? tag with
  | none => exact .inl ⟨_, .unknown envelope (ofTag?_none.mp known)⟩
  | some kind =>
    obtain rfl := ofTag?_some known
    by_cases shaped : ∃ message, IsBody entry.value kind message
    next =>
      obtain ⟨message, body⟩ := shaped
      exact .inl ⟨message, .known envelope body⟩
    next => exact .inr ⟨_, .body envelope (not_exists.mp shaped)⟩

theorem Accepts.not_error {text original : String} {detail : Option String}
    (accepts : Accepts text (.error original detail)) : False := by
  cases accepts with
  | known _ body => cases body

theorem read_iff {text : String} {message : Message} :
    Message.read text = message ↔ Accepts text message ∨
      ∃ check, FirstFailed text check ∧ message = .error text (some check.detail) := by
  constructor
  next =>
    rintro rfl
    rcases accepts_or_failed text with ⟨message, accepts⟩ | ⟨check, failed⟩
    next => exact .inl (accepts.read.symm ▸ accepts)
    next => exact .inr ⟨check, failed, failed.read⟩
  next =>
    rintro (accepts | ⟨check, failed, rfl⟩)
    next => exact accepts.read
    next => exact failed.read

theorem FirstFailed.unique {text : String} {check other : Check} (failed : FirstFailed text check)
    (again : FirstFailed text other) : check = other := by
  have same : some check.detail = some other.detail := by
    have both := failed.read.symm.trans again.read
    simpa using both
  exact Check.detail_injective (Option.some.inj same)

theorem accepts_iff {text : String} : (∃ message, Accepts text message) ↔ ∃ tag entry,
    IsEnvelope text tag entry ∧
      ∀ kind : Kind, kind.tag = tag → ∃ message, IsBody entry.value kind message := by
  constructor
  next =>
    rintro ⟨message, accepts⟩
    cases accepts with
    | @known kind entry _ envelope body =>
      refine ⟨kind.tag, entry, envelope, fun other same => ⟨message, ?_⟩⟩
      have kinds : some other = some kind := by
        rw [← kind_ofTag?_tag other, same, kind_ofTag?_tag]
      rwa [Option.some.inj kinds]
    | @unknown tag entry envelope other =>
      refine ⟨tag, entry, envelope, fun kind same => ?_⟩
      have known := kind_ofTag?_tag kind
      rw [same, ofTag?_none.mpr other] at known
      cases known
  next =>
    rintro ⟨tag, entry, envelope, bodies⟩
    cases known : Kind.ofTag? tag with
    | none => exact ⟨_, .unknown envelope (ofTag?_none.mp known)⟩
    | some kind =>
      obtain rfl := ofTag?_some known
      obtain ⟨message, body⟩ := bodies kind rfl
      exact ⟨message, .known envelope body⟩

theorem read_accepts_envelopes (text : String) :
    ((∀ original detail, Message.read text ≠ .error original detail) ↔ ∃ tag entry,
      IsEnvelope text tag entry ∧
        ∀ kind : Kind, kind.tag = tag → ∃ message, IsBody entry.value kind message) ∧
    (∀ message, Message.read text = message ↔ Accepts text message ∨
      ∃ check, FirstFailed text check ∧ message = .error text (some check.detail)) ∧
    (∀ check other, FirstFailed text check → FirstFailed text other → check = other) ∧
    Function.Injective Check.detail := by
  refine ⟨?_, fun message => read_iff, fun _ _ failed again => failed.unique again,
    Check.detail_injective⟩
  rw [← accepts_iff]
  constructor
  next =>
    intro readable
    rcases accepts_or_failed text with accepts | ⟨check, failed⟩
    next => exact accepts
    next => exact absurd failed.read (readable _ _)
  next =>
    rintro ⟨message, accepts⟩ original detail read
    rw [accepts.read] at read
    exact (read ▸ accepts).not_error

-- The tag is looked at before the body is missed, and its last member counts.
example : Message.read "\x7b\"type\":\"version\",\"type\":\"\"\x7d" =
    .error "\x7b\"type\":\"version\",\"type\":\"\"\x7d" (some "malformed frame: 'type' is empty") := by
  decide +kernel

end Message

end TemplateSync
