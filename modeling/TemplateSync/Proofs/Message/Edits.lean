import Mathlib.Logic.Relation
import TemplateSync.Proofs.Json.Retouching
import TemplateSync.Proofs.Message.Acceptance

set_option autoImplicit false

namespace TemplateSync

open Json Json.Grammar Schema

section Shapes

def Envelope.shape : Shape where
  fields := [["type"], ["body"]]

def ProjectDescriptor.shape : Shape where
  fields := ProjectDescriptor.fields
  hollow := [("references", .array [])]

def Kind.shape : Kind → Shape
  | version => { fields := [["version"]] }
  | solution => { fields := [["projects"]], hollow := [("projects", .array [])] }
  | project => { fields := [["id"], ["references"]], hollow := [("references", .array [])] }
  | metadata => {
      fields := Metadata.fields
      hollow := [("bytes", ofString "")]
      absent := ["assemblyName"]
      aliases := [("projectName", "name")] }

/-- One change in an envelope of this kind: of its own members, of those of its body or of those of one
descriptor. -/
inductive Edit : Kind → Json → Json → Prop where
  | envelope {kind : Kind} {value other : Json} (change : Retouched Envelope.shape value other) :
      Edit kind value other
  | body {kind : Kind} {value other : Json} (change : Inside "body" (Retouched kind.shape) value other) :
      Edit kind value other
  | descriptor {value other : Json}
      (change : Inside "body" (Inside "projects" (Among (Retouched ProjectDescriptor.shape))) value other) :
      Edit .solution value other

def Json.LaidOut (value : Json) (text : String) : Prop :=
  ∃ core, Spells value core ∧ Padded core text.toList

theorem Json.laidOut_iff {value : Json} {text : String} :
    Json.ofText? text = some value ↔ value.LaidOut text := by
  constructor
  next =>
    intro read
    obtain ⟨written, whole, rfl⟩ := Option.map_eq_some_iff.mp read
    exact ⟨_, Json.Written.ofText?_iff.mp ⟨written, whole, rfl⟩⟩
  next =>
    rintro ⟨core, spelled⟩
    obtain ⟨written, whole, content⟩ := Json.Written.ofText?_iff.mpr spelled
    exact Option.map_eq_some_iff.mpr ⟨written, whole, congrArg Prod.fst content⟩

def Edited (kind : Kind) (original text : String) : Prop :=
  ∃ value other, value.LaidOut original ∧ Relation.ReflTransGen (Edit kind) value other ∧ other.LaidOut text

end Shapes

section Slots

def ProjectDescriptor.slots (project : ProjectDescriptor) : List Slot :=
  [⟨["id"], (Required IsId · project.id)⟩, ⟨["name"], (Defaulted "" IsText · project.name)⟩,
    ⟨["path"], (Required IsText · project.path)⟩,
    ⟨["references"], (Nullable [] (IsList IsText) · project.references)⟩]

def Metadata.slots (metadata : Metadata) : List Slot :=
  [⟨["id"], (Required IsId · metadata.id)⟩,
    ⟨["projectName", "name"], (Defaulted "" IsText · metadata.projectName)⟩,
    ⟨["assemblyName"],
      (Nullable none (fun value name => ∃ text, IsText value text ∧ name = some text) ·
        metadata.assemblyName)⟩,
    ⟨["bytes"], (Nullable [] IsOctets · metadata.bytes)⟩]

def Message.slots : Message → List Slot
  | version value => [⟨["version"], (Required IsInt32 · value)⟩]
  | solution projects => [⟨["projects"], (Nullable [] (IsList IsDescriptor) · projects)⟩]
  | project id references =>
    [⟨["id"], (Required IsId · id)⟩, ⟨["references"], (Nullable [] (IsList IsText) · references)⟩]
  | metadata content => content.slots
  | error _ _ | unknown _ _ => []

def Message.Fills (value : Json) (message : Message) : Prop :=
  ∃ raw, value = .object raw ∧ Holds message.slots raw

def Envelope.slots (message : Message) : List Slot :=
  [⟨["type"], (Required IsText · message.kind)⟩, ⟨["body"], (Required Message.Fills · message)⟩]

theorem given_object {fields : List Names} {raw : List Member} {lists : List (List Json)} :
    Given fields (.object raw) lists ↔ ∃ named, List.Forall₂ Reads raw named ∧
      lists = fields.map fun names => valuesOf names named := by
  constructor
  next =>
    intro given
    cases given with
    | object record =>
      obtain ⟨raw, ⟨⟩, reads⟩ := record
      exact ⟨_, reads, rfl⟩
  next =>
    rintro ⟨named, reads, rfl⟩
    exact .object ⟨raw, rfl, reads⟩

theorem descriptor_holds {raw : List Member} {project : ProjectDescriptor} :
    IsDescriptor (.object raw) project ↔ Holds project.slots raw := by
  simp only [IsDescriptor, given_object, Holds, ProjectDescriptor.slots, List.forall_mem_cons]
  constructor
  next =>
    rintro ⟨_, _, _, _, ⟨named, reads, ⟨⟩⟩, id, name, path, references⟩
    exact ⟨named, reads, id, name, path, references, List.forall_mem_nil _⟩
  next =>
    rintro ⟨named, reads, id, name, path, references, -⟩
    exact ⟨_, _, _, _, ⟨named, reads, rfl⟩, id, name, path, references⟩

theorem metadata_holds {raw : List Member} {metadata : Metadata} :
    IsMetadata (.object raw) metadata ↔ Holds metadata.slots raw := by
  simp only [IsMetadata, given_object, Holds, Metadata.slots, List.forall_mem_cons]
  constructor
  next =>
    rintro ⟨_, _, _, _, ⟨named, reads, ⟨⟩⟩, id, projectName, assemblyName, bytes⟩
    exact ⟨named, reads, id, projectName, assemblyName, bytes, List.forall_mem_nil _⟩
  next =>
    rintro ⟨named, reads, id, projectName, assemblyName, bytes, -⟩
    exact ⟨_, _, _, _, ⟨named, reads, rfl⟩, id, projectName, assemblyName, bytes⟩

theorem body_holds {message : Message} {kind : Kind} {body : Json} {raw : List Member}
    (h : message.body? = some (kind, body)) :
    IsBody (.object raw) kind message ↔ Holds message.slots raw := by
  cases message with
  | version version =>
    cases h
    constructor
    next =>
      intro shaped
      cases shaped with
      | version given own =>
        obtain ⟨named, reads, same⟩ := given_object.mp given
        cases same
        exact ⟨named, reads, by simpa [Message.slots] using own⟩
    next =>
      rintro ⟨named, reads, fits⟩
      simp only [Message.slots, List.forall_mem_cons] at fits
      exact .version (given_object.mpr ⟨named, reads, rfl⟩) fits.1
  | solution projects =>
    cases h
    constructor
    next =>
      intro shaped
      cases shaped with
      | solution given own =>
        obtain ⟨named, reads, same⟩ := given_object.mp given
        cases same
        exact ⟨named, reads, by simpa [Message.slots] using own⟩
    next =>
      rintro ⟨named, reads, fits⟩
      simp only [Message.slots, List.forall_mem_cons] at fits
      exact .solution (given_object.mpr ⟨named, reads, rfl⟩) fits.1
  | project id references =>
    cases h
    constructor
    next =>
      intro shaped
      cases shaped with
      | project given own listed =>
        obtain ⟨named, reads, same⟩ := given_object.mp given
        cases same
        exact ⟨named, reads, by simpa [Message.slots] using ⟨own, listed⟩⟩
    next =>
      rintro ⟨named, reads, fits⟩
      simp only [Message.slots, List.forall_mem_cons] at fits
      exact .project (given_object.mpr ⟨named, reads, rfl⟩) fits.1 fits.2.1
  | metadata content =>
    cases h
    constructor
    next =>
      intro shaped
      cases shaped with
      | metadata own => exact metadata_holds.mp own
    next => exact fun holds => .metadata (metadata_holds.mpr holds)
  | error | unknown => cases h

end Slots

section Suits

variable {α : Type} {Is : Json → α → Prop} {absent a : α} {given : List Json} {value : Json}

theorem required_short (own : Required Is given a) : given.length ≤ 1 := by
  cases own
  simp

theorem defaulted_short (own : Defaulted absent Is given a) : given.length ≤ 1 := by
  cases own <;> simp

theorem nullable_short (own : Nullable absent Is given a) : given.length ≤ 1 := by
  cases own <;> simp

theorem nullable_hollow (empty : ∀ a, Is value a → a = absent) (own : Nullable absent Is [value] a) :
    Nullable absent Is [] a ∧ Nullable absent Is [.null] a := by
  cases own with
  | null => exact ⟨.missing, .null⟩
  | given own =>
    obtain rfl := empty _ own
    exact ⟨.missing, .null⟩

theorem nullable_absent (own : Nullable absent Is [] a) : Nullable absent Is [.null] a := by
  cases own
  exact .null

theorem isList_empty {found : List α} (own : IsList Is (.array []) found) : found = [] := by
  obtain ⟨items, ⟨⟩, all⟩ := own
  exact List.forall₂_nil_left_iff.mp all

theorem ofString_isText (text : String) : IsText (ofString text) text :=
  (string?_iff (ofString_readable text)).mp (string?_ofString text)

theorem isOctets_empty {bytes : Bytes} (own : IsOctets (ofString "") bytes) : bytes = [] := by
  have read := (octets_iff (ofString_readable "") bytes).mpr own
  have none : bytesOfJson? (ofString "") = some [] := bytesOfJson?_ofString []
  exact Option.some.inj (read.symm.trans none)

theorem descriptor_suits (project : ProjectDescriptor) :
    ProjectDescriptor.shape.Suits project.slots where
  known := by simp [ProjectDescriptor.slots, ProjectDescriptor.shape, ProjectDescriptor.fields]
  single := by
    simp only [Singly, ProjectDescriptor.slots, List.forall_mem_cons]
    exact ⟨fun _ => required_short, fun _ => defaulted_short, fun _ => required_short,
      fun _ => nullable_short, List.forall_mem_nil _⟩
  hollow := by
    simpa [ProjectDescriptor.slots, ProjectDescriptor.shape] using
      fun own => nullable_hollow (fun _ => isList_empty) own
  absent := by simp [ProjectDescriptor.shape]
  aliases := by simp [ProjectDescriptor.shape]

theorem metadata_suits (metadata : Metadata) : Kind.metadata.shape.Suits metadata.slots where
  known := by simp [Metadata.slots, Kind.shape, Metadata.fields]
  single := by
    simp only [Singly, Metadata.slots, List.forall_mem_cons]
    exact ⟨fun _ => required_short, fun _ => defaulted_short, fun _ => nullable_short,
      fun _ => nullable_short, List.forall_mem_nil _⟩
  hollow := by
    simpa [Metadata.slots, Kind.shape] using fun own => nullable_hollow (fun _ => isOctets_empty) own
  absent := by
    simpa [Metadata.slots, Kind.shape] using fun own => nullable_absent own
  aliases := by simp [Metadata.slots, Kind.shape]

theorem body_suits {message : Message} {kind : Kind} {body : Json}
    (h : message.body? = some (kind, body)) : kind.shape.Suits message.slots := by
  cases message with
  | version version =>
    cases h
    exact {
      known := by simp [Message.slots, Kind.shape]
      single := by
        simp only [Singly, Message.slots, List.forall_mem_cons]
        exact ⟨fun _ => required_short, List.forall_mem_nil _⟩
      hollow := by simp [Kind.shape]
      absent := by simp [Kind.shape]
      aliases := by simp [Kind.shape] }
  | solution projects =>
    cases h
    exact {
      known := by simp [Message.slots, Kind.shape]
      single := by
        simp only [Singly, Message.slots, List.forall_mem_cons]
        exact ⟨fun _ => nullable_short, List.forall_mem_nil _⟩
      hollow := by
        simpa [Message.slots, Kind.shape] using fun own => nullable_hollow (fun _ => isList_empty) own
      absent := by simp [Kind.shape]
      aliases := by simp [Kind.shape] }
  | project id references =>
    cases h
    exact {
      known := by simp [Message.slots, Kind.shape]
      single := by
        simp only [Singly, Message.slots, List.forall_mem_cons]
        exact ⟨fun _ => required_short, fun _ => nullable_short, List.forall_mem_nil _⟩
      hollow := by
        simpa [Message.slots, Kind.shape] using fun own => nullable_hollow (fun _ => isList_empty) own
      absent := by simp [Kind.shape]
      aliases := by simp [Kind.shape] }
  | metadata content =>
    cases h
    exact metadata_suits content
  | error | unknown => cases h

theorem envelope_suits (message : Message) : Envelope.shape.Suits (Envelope.slots message) where
  known := by simp [Envelope.slots, Envelope.shape]
  single := by
    simp only [Singly, Envelope.slots, List.forall_mem_cons]
    exact ⟨fun _ => required_short, fun _ => required_short, List.forall_mem_nil _⟩
  hollow := by simp [Envelope.shape]
  absent := by simp [Envelope.shape]
  aliases := by simp [Envelope.shape]

end Suits

namespace Edit

variable {kind : Kind} {message : Message} {body value other : Json}

def Stands (message : Message) (value : Json) : Prop :=
  ∃ members, value = .object members ∧ Holds (Envelope.slots message) members

theorem stands_start (h : message.body? = some (kind, body)) :
    Stands message (Envelope.value kind.tag body) := by
  obtain ⟨readable, raw, rfl⟩ := Message.body?_readable h
  have shaped := (ofBody?_iff readable kind message).mp (Message.ofBody?_body? h)
  refine ⟨_, rfl, [("type", ofString kind.tag), ("body", .object raw)],
    .cons (reads_member ..) (.cons (reads_member ..) .nil), ?_⟩
  simp only [Envelope.slots, List.forall_mem_cons, Message.body?_kind h]
  exact ⟨.given (ofString_isText _), .given ⟨raw, rfl, (body_holds h).mp shaped⟩, List.forall_mem_nil _⟩

theorem fills_retouched (h : message.body? = some (kind, body)) (change : Retouched kind.shape value other)
    (fills : message.Fills value) : message.Fills other := by
  obtain ⟨raw, rfl, holds⟩ := fills
  cases change with
  | object retouch => exact ⟨_, rfl, retouch.holds (body_suits h) holds⟩

theorem descriptor_retouched {project : ProjectDescriptor}
    (change : Retouched ProjectDescriptor.shape value other) (own : IsDescriptor value project) :
    IsDescriptor other project := by
  cases change with
  | object retouch =>
    exact descriptor_holds.mpr (retouch.holds (descriptor_suits project) (descriptor_holds.mp own))

theorem list_among {projects : List ProjectDescriptor}
    (change : Among (Retouched ProjectDescriptor.shape) value other)
    (own : IsList IsDescriptor value projects) : IsList IsDescriptor other projects := by
  obtain ⟨items, rfl, all⟩ := own
  cases change with
  | item before after change =>
    obtain ⟨one, rest, left, right, rfl⟩ := forall₂_append_iff.mp all
    obtain ⟨project, two, mine, others, rfl⟩ := List.forall₂_cons_left_iff.mp right
    exact ⟨_, rfl, forall₂_append_iff.mpr
      ⟨one, project :: two, left, .cons (descriptor_retouched change mine) others, rfl⟩⟩

theorem fills_descriptor {projects : List ProjectDescriptor}
    (change : Inside "projects" (Among (Retouched ProjectDescriptor.shape)) value other)
    (fills : (Message.solution projects).Fills value) : (Message.solution projects).Fills other := by
  have h : (Message.solution projects).body? = some _ := rfl
  obtain ⟨raw, rfl, holds⟩ := fills
  refine change.holds (body_suits h).single holds ?_
  simp only [Message.slots, List.forall_mem_singleton]
  intro named value other among fits
  cases fits with
  | null => cases among
  | given own => exact .given (list_among among own)

theorem stands_inside {Change : Json → Json → Prop} (change : Inside "body" Change value other)
    (keeps : ∀ body other, Change body other → message.Fills body → message.Fills other)
    (stands : Stands message value) : Stands message other := by
  obtain ⟨members, rfl, holds⟩ := stands
  refine change.holds (envelope_suits message).single holds ?_
  simp only [Envelope.slots, List.forall_mem_cons]
  refine ⟨fun foreign => absurd foreign (by decide), fun _ value other change fits => ?_,
    List.forall_mem_nil _⟩
  cases fits with
  | given fills => exact .given (keeps value other change fills)

theorem stands_step (h : message.body? = some (kind, body)) (edit : Edit kind value other)
    (stands : Stands message value) : Stands message other := by
  cases edit with
  | envelope change =>
    obtain ⟨members, rfl, holds⟩ := stands
    cases change with
    | object retouch => exact ⟨_, rfl, retouch.holds (envelope_suits message) holds⟩
  | body change => exact stands_inside change (fun _ _ change => fills_retouched h change) stands
  | descriptor change =>
    cases message with
    | solution projects => exact stands_inside change (fun _ _ change => fills_descriptor change) stands
    | version | project | metadata | error | unknown => cases h

theorem stands_run (h : message.body? = some (kind, body))
    (edits : Relation.ReflTransGen (Edit kind) (Envelope.value kind.tag body) value) :
    Stands message value := by
  induction edits with
  | refl => exact stands_start h
  | tail _ edit ih => exact stands_step h edit ih

end Edit

namespace Envelope

variable {name : String} {value : Json} {named : List (String × Json)} {pairs : List (String × Entry)}

theorem pairs_of_reads {entries : List Entry} (reads : List.Forall₂ Reads (entries.map Entry.member) named) :
    ∃ pairs, pairs.map Prod.snd = entries ∧ Named Entry.name pairs ∧
      named = pairs.map (Prod.map id Entry.value) := by
  induction entries generalizing named with
  | nil =>
    cases reads
    exact ⟨[], rfl, by simp [Named], rfl⟩
  | cons entry entries ih =>
    obtain ⟨⟨name, value⟩, rest, ⟨means, same⟩, others, rfl⟩ := List.forall₂_cons_left_iff.mp reads
    obtain ⟨pairs, rfl, all, rfl⟩ := ih others
    refine ⟨(name, entry) :: pairs, rfl, List.forall_mem_cons.mpr ⟨means, all⟩, ?_⟩
    rw [List.map_cons, ← show entry.value = value from same]
    rfl

theorem mem_valuesOf {pair : String × Entry} (listed : pair ∈ pairs) (called : pair.1 = name) :
    pair.2.value ∈ valuesOf [name] (pairs.map (Prod.map id Entry.value)) :=
  List.mem_map.mpr ⟨Prod.map id Entry.value pair,
    List.mem_filter.mpr ⟨List.mem_map_of_mem listed, by simp [called]⟩, rfl⟩

theorem last_of_sole (sole : valuesOf [name] (pairs.map (Prod.map id Entry.value)) = [value]) :
    ∃ entry, Last name pairs entry ∧ entry.value = value := by
  induction pairs with
  | nil => cases sole
  | cons pair pairs ih =>
    obtain ⟨other, entry⟩ := pair
    simp only [List.map_cons, Prod.map_apply, id_eq, valuesOf_cons] at sole
    split at sole
    next mine =>
      obtain rfl := List.mem_singleton.mp mine
      obtain ⟨same, none⟩ := List.cons.inj sole
      refine ⟨entry, ⟨[], pairs, rfl, fun pair listed again => ?_⟩, same⟩
      have read := mem_valuesOf listed again
      rw [none] at read
      cases read
    next =>
      obtain ⟨found, ⟨before, after, rfl, last⟩, same⟩ := ih sole
      exact ⟨found, ⟨(other, entry) :: before, after, rfl, last⟩, same⟩

end Envelope

namespace Message

variable {kind : Kind} {message : Message} {body value : Json} {text : String}

theorem accepts_of_stands (h : message.body? = some (kind, body)) (stands : Edit.Stands message value)
    (laid : value.LaidOut text) : Accepts text message := by
  obtain ⟨members, rfl, named, reads, fits⟩ := stands
  obtain ⟨core, spells, padded⟩ := laid
  cases spells with
  | object braced =>
    obtain ⟨pairs, rfl, names, rfl⟩ := Envelope.pairs_of_reads reads
    simp only [Envelope.slots, List.forall_mem_cons] at fits
    obtain ⟨typed, filled, -⟩ := fits
    generalize types : valuesOf ["type"] _ = given at typed
    generalize bodies : valuesOf ["body"] _ = inner at filled
    obtain ⟨tagged⟩ := typed
    obtain ⟨raw, rfl, holds⟩ := filled
    obtain ⟨type, lastType, rfl⟩ := Envelope.last_of_sole types
    obtain ⟨entry, lastBody, same⟩ := Envelope.last_of_sole bodies
    have tag := body?_kind h
    rw [tag] at tagged
    have known : kind.tag ≠ "" := by cases kind <;> decide
    refine .known ⟨pairs, ⟨names, core, braced, padded⟩, ⟨type, lastType, tagged⟩, known, lastBody, _,
      same⟩ ?_
    rw [same]
    exact (body_holds h).mpr holds

-- The message has an encoding, which counts among its own changes, and each change of it is read as the
-- message.
def Tolerates (message : Message) : Prop :=
  ∃ kind original, message.kind = Kind.tag kind ∧ message.encode = .ok original ∧
    Edited kind original original ∧ ∀ text, Edited kind original text → Message.read text = message

theorem tolerates_of_body? (h : message.body? = some (kind, body)) : Tolerates message := by
  have original := value_of_body? h
  refine ⟨kind, _, body?_kind h, encode_of_body? h,
    ⟨_, _, laidOut_iff.mp original, .refl, laidOut_iff.mp original⟩, ?_⟩
  rintro text ⟨value, other, laid, edits, again⟩
  obtain rfl := Option.some.inj (original.symm.trans (laidOut_iff.mpr laid))
  exact (accepts_of_stands h (Edit.stands_run h edits) again).read

theorem edits_are_tolerated :
    (∀ version, Tolerates (.version version)) ∧ (∀ projects, Tolerates (.solution projects)) ∧
      (∀ id references, Tolerates (.project id references)) ∧ ∀ content, Tolerates (.metadata content) :=
  ⟨fun _ => tolerates_of_body? rfl, fun _ => tolerates_of_body? rfl,
    fun _ _ => tolerates_of_body? rfl, fun _ => tolerates_of_body? rfl⟩

example : Message.read ("\x7b \"body\":\x7b\"type\":\x7b\"projects\":[1]\x7d,\"projects\":null\x7d," ++
    "\"since\":1e999,\"type\":\"solution\"\x7d") = .solution [] := by
  decide +kernel

end Message

end TemplateSync
