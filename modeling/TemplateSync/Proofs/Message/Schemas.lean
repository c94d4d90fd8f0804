import TemplateSync.Proofs.Json.Integers
import TemplateSync.Proofs.Json.Records
import TemplateSync.Proofs.Message.Leaves
import TemplateSync.Proofs.Message.RoundTrip

set_option autoImplicit false

namespace TemplateSync

open Json

namespace Schema

def IsId (value : Json) (id : Uuid) : Prop :=
  ∃ text, IsText value text ∧ id.Spelled text.toList

def IsOctets (value : Json) (bytes : Bytes) : Prop :=
  IsText value (Base64.encode bytes)

def IsInt32 (value : Json) (number : Int32) : Prop :=
  value = Json.ofInt number.toInt

def IsList {α : Type} (Is : Json → α → Prop) (value : Json) (found : List α) : Prop :=
  ∃ items, value = .array items ∧ List.Forall₂ Is items found

def IsDescriptor (value : Json) (project : ProjectDescriptor) : Prop :=
  ∃ id name path references,
    Given [["id"], ["name"], ["path"], ["references"]] value [id, name, path, references] ∧
      Required IsId id project.id ∧ Defaulted "" IsText name project.name ∧
      Required IsText path project.path ∧ Nullable [] (IsList IsText) references project.references

def IsMetadata (value : Json) (metadata : Metadata) : Prop :=
  ∃ id projectName assemblyName bytes,
    Given [["id"], ["projectName", "name"], ["assemblyName"], ["bytes"]] value
      [id, projectName, assemblyName, bytes] ∧
      Required IsId id metadata.id ∧ Defaulted "" IsText projectName metadata.projectName ∧
      Nullable none (fun value name => ∃ text, IsText value text ∧ name = some text) assemblyName
        metadata.assemblyName ∧
      Nullable [] IsOctets bytes metadata.bytes

inductive IsBody (value : Json) : Kind → Message → Prop where
  | version {number : List Json} {version : Int32} (given : Given [["version"]] value [number])
      (own : Required IsInt32 number version) : IsBody value .version (.version version)
  | solution {list : List Json} {projects : List ProjectDescriptor}
      (given : Given [["projects"]] value [list])
      (own : Nullable [] (IsList IsDescriptor) list projects) :
      IsBody value .solution (.solution projects)
  | project {id list : List Json} {project : Uuid} {references : List String}
      (given : Given [["id"], ["references"]] value [id, list]) (own : Required IsId id project)
      (listed : Nullable [] (IsList IsText) list references) :
      IsBody value .project (.project project references)
  | metadata {metadata : Metadata} (own : IsMetadata value metadata) :
      IsBody value .metadata (.metadata metadata)

section Leaves

variable {value : Json}

theorem id_iff (readable : value.Readable) (id : Uuid) : Uuid.ofJson? value = some id ↔ IsId value id := by
  simp [Uuid.ofJson?, IsId, Option.bind_eq_some_iff, string?_iff readable, Uuid.parse?_iff]

theorem octets_iff (readable : value.Readable) (bytes : Bytes) :
    bytesOfJson? value = some bytes ↔ IsOctets value bytes := by
  simp [bytesOfJson?, IsOctets, Option.bind_eq_some_iff, string?_iff readable, Base64.decode?_iff]

theorem int32_iff (readable : value.Readable) (number : Int32) :
    Message.int32? value = some number ↔ IsInt32 value number := by
  constructor
  next =>
    intro read
    obtain ⟨n, integer, inside⟩ := Option.bind_eq_some_iff.mp read
    have written := (int?_iff fun literal same => readable_number (same ▸ readable)).mp integer
    split at inside
    next range =>
      obtain ⟨low, high⟩ : -2147483648 ≤ n ∧ n ≤ 2147483647 := by simpa using range
      obtain rfl := Option.some.inj inside
      rw [IsInt32, written, Int32.toInt_ofInt_of_le (by omega) (by omega)]
    next => cases inside
  next =>
    rintro rfl
    exact Message.int32?_ofInt number

theorem list_iff {α : Type} {read? : Json → Option α} {Is : Json → α → Prop} (readable : value.Readable)
    (reads : ∀ item : Json, item.Readable → ∀ a, read? item = some a ↔ Is item a) (found : List α) :
    list? read? value = some found ↔ IsList Is value found := by
  cases value with
  | array items =>
    have items_iff : items.mapM read? = some found ↔ List.Forall₂ Is items found :=
      mapM_iff fun item inside => reads item (readable_item readable item inside)
    simp [list?, IsList, items_iff]
  | null | bool | number | text | object => simp [list?, IsList]

theorem text_solid (text : String) : ¬ IsText .null text :=
  fun ⟨_, same, _⟩ => nomatch same

theorem list_solid {α : Type} {Is : Json → α → Prop} (found : List α) : ¬ IsList Is .null found :=
  fun ⟨_, same, _⟩ => nomatch same

end Leaves

section Records

variable {value : Json}

theorem required_id {given : List Json} (readable : ∀ item ∈ given, item.Readable) (id : Uuid) :
    Required IsId given id ↔ ∃ item, given = (some item).toList ∧ Uuid.ofJson? item = some id :=
  required_iff fun item inside => id_iff (readable item inside)

theorem required_int32 {given : List Json} (readable : ∀ item ∈ given, item.Readable) (number : Int32) :
    Required IsInt32 given number ↔
      ∃ item, given = (some item).toList ∧ Message.int32? item = some number :=
  required_iff fun item inside => int32_iff (readable item inside)

theorem required_text {given : List Json} (readable : ∀ item ∈ given, item.Readable) (text : String) :
    Required IsText given text ↔ ∃ item, given = (some item).toList ∧ string? item = some text :=
  required_iff fun item inside _ => string?_iff (readable item inside)

theorem defaulted_text {given : List Json} (readable : ∀ item ∈ given, item.Readable) (text : String) :
    Defaulted "" IsText given text ↔
      ∃ slot : Option Json, given = slot.toList ∧ optional? "" string? slot = some text :=
  defaulted_iff fun item inside _ => string?_iff (readable item inside)

theorem nullable_texts {given : List Json} (readable : ∀ item ∈ given, item.Readable)
    (texts : List String) : Nullable [] (IsList IsText) given texts ↔
      ∃ slot : Option Json, given = slot.toList ∧ nullable? [] stringsOfJson? slot = some texts :=
  nullable_iff (fun item inside => list_iff (readable item inside) fun _ own _ => string?_iff own)
    list_solid

theorem descriptor_iff (readable : value.Readable) (project : ProjectDescriptor) :
    ProjectDescriptor.ofJson? value = some project ↔ IsDescriptor value project := by
  have apart : Apart ProjectDescriptor.fields := by simp [Apart, ProjectDescriptor.fields]
  simp only [ProjectDescriptor.ofJson?, Option.bind_eq_bind, Option.bind_eq_some_iff,
    record?_iff apart readable]
  constructor
  next =>
    rintro ⟨slots, given, read⟩
    split at read
    next id name path references =>
      have own := given.readable readable
      simp only [Option.bind_eq_some_iff, Option.pure_def, Option.some.injEq] at read
      obtain ⟨_, readId, _, readName, _, readPath, _, readReferences, rfl⟩ := read
      exact ⟨_, _, _, _, given, (required_id (own _ (by simp)) _).mpr ⟨_, rfl, readId⟩,
        (defaulted_text (own _ (by simp)) _).mpr ⟨_, rfl, readName⟩,
        (required_text (own _ (by simp)) _).mpr ⟨_, rfl, readPath⟩,
        (nullable_texts (own _ (by simp)) _).mpr ⟨_, rfl, readReferences⟩⟩
    next => cases read
  next =>
    rintro ⟨id, name, path, references, given, ownId, ownName, ownPath, ownReferences⟩
    have own := given.readable readable
    obtain ⟨id, rfl, readId⟩ := (required_id (own _ (by simp)) _).mp ownId
    obtain ⟨name, rfl, readName⟩ := (defaulted_text (own _ (by simp)) _).mp ownName
    obtain ⟨path, rfl, readPath⟩ := (required_text (own _ (by simp)) _).mp ownPath
    obtain ⟨references, rfl, readReferences⟩ := (nullable_texts (own _ (by simp)) _).mp ownReferences
    exact ⟨[some id, name, some path, references], given, by
      simp [readId, readName, readPath, readReferences]⟩

theorem nullable_name {given : List Json} (readable : ∀ item ∈ given, item.Readable)
    (name : Option String) :
    Nullable none (fun value name => ∃ text, IsText value text ∧ name = some text) given name ↔
      ∃ slot : Option Json, given = slot.toList ∧
        nullable? none (fun name => name.string?.map some) slot = some name := by
  refine nullable_iff (fun item inside name => ?_) fun _ own => own.elim fun _ own => text_solid _ own.1
  rw [Option.map_eq_some_iff]
  exact exists_congr fun _ => and_congr (string?_iff (readable item inside)) eq_comm

theorem nullable_octets {given : List Json} (readable : ∀ item ∈ given, item.Readable) (bytes : Bytes) :
    Nullable [] IsOctets given bytes ↔
      ∃ slot : Option Json, given = slot.toList ∧ nullable? [] bytesOfJson? slot = some bytes :=
  nullable_iff (fun item inside => octets_iff (readable item inside)) fun _ => text_solid _

theorem metadata_iff (readable : value.Readable) (metadata : Metadata) :
    Metadata.ofJson? value = some metadata ↔ IsMetadata value metadata := by
  have apart : Apart Metadata.fields := by simp [Apart, Metadata.fields]
  simp only [Metadata.ofJson?, Option.bind_eq_bind, Option.bind_eq_some_iff, record?_iff apart readable]
  constructor
  next =>
    rintro ⟨slots, given, read⟩
    split at read
    next id projectName assemblyName bytes =>
      have own := given.readable readable
      simp only [Option.bind_eq_some_iff, Option.pure_def, Option.some.injEq] at read
      obtain ⟨_, readId, _, readProject, _, readAssembly, _, readBytes, rfl⟩ := read
      exact ⟨_, _, _, _, given, (required_id (own _ (by simp)) _).mpr ⟨_, rfl, readId⟩,
        (defaulted_text (own _ (by simp)) _).mpr ⟨_, rfl, readProject⟩,
        (nullable_name (own _ (by simp)) _).mpr ⟨_, rfl, readAssembly⟩,
        (nullable_octets (own _ (by simp)) _).mpr ⟨_, rfl, readBytes⟩⟩
    next => cases read
  next =>
    rintro ⟨id, projectName, assemblyName, bytes, given, ownId, ownProject, ownAssembly, ownBytes⟩
    have own := given.readable readable
    obtain ⟨id, rfl, readId⟩ := (required_id (own _ (by simp)) _).mp ownId
    obtain ⟨projectName, rfl, readProject⟩ := (defaulted_text (own _ (by simp)) _).mp ownProject
    obtain ⟨assemblyName, rfl, readAssembly⟩ := (nullable_name (own _ (by simp)) _).mp ownAssembly
    obtain ⟨bytes, rfl, readBytes⟩ := (nullable_octets (own _ (by simp)) _).mp ownBytes
    exact ⟨[some id, projectName, assemblyName, bytes], given, by
      simp [readId, readProject, readAssembly, readBytes]⟩

end Records

section Bodies

variable {value : Json}

theorem version_iff (readable : value.Readable) (message : Message) :
    Message.ofBody? value .version = some message ↔ IsBody value .version message := by
  have apart : Apart [["version"]] := by simp [Apart]
  simp only [Message.ofBody?, Option.bind_eq_bind, Option.bind_eq_some_iff, record?_iff apart readable]
  constructor
  next =>
    rintro ⟨slots, given, read⟩
    split at read
    next number =>
      have own := given.readable readable
      simp only [Option.bind_eq_some_iff, Option.pure_def, Option.some.injEq] at read
      obtain ⟨_, readVersion, rfl⟩ := read
      exact .version given ((required_int32 (own _ (by simp)) _).mpr ⟨_, rfl, readVersion⟩)
    next => cases read
  next =>
    intro body
    cases body with
    | version given ownVersion =>
      have own := given.readable readable
      obtain ⟨number, rfl, readVersion⟩ := (required_int32 (own _ (by simp)) _).mp ownVersion
      exact ⟨[some number], given, by simp [readVersion]⟩

theorem solution_iff (readable : value.Readable) (message : Message) :
    Message.ofBody? value .solution = some message ↔ IsBody value .solution message := by
  have apart : Apart [["projects"]] := by simp [Apart]
  have lists {given : List Json} (own : ∀ item ∈ given, item.Readable)
      (projects : List ProjectDescriptor) : Nullable [] (IsList IsDescriptor) given projects ↔
        ∃ slot : Option Json, given = slot.toList ∧
          nullable? [] (list? ProjectDescriptor.ofJson?) slot = some projects :=
    nullable_iff (fun item inside => list_iff (own item inside) fun _ own => descriptor_iff own) list_solid
  simp only [Message.ofBody?, Option.bind_eq_bind, Option.bind_eq_some_iff, record?_iff apart readable]
  constructor
  next =>
    rintro ⟨slots, given, read⟩
    split at read
    next list =>
      have own := given.readable readable
      simp only [Option.bind_eq_some_iff, Option.pure_def, Option.some.injEq] at read
      obtain ⟨projects, readProjects, rfl⟩ := read
      exact .solution given ((lists (own _ (by simp)) _).mpr ⟨_, rfl, readProjects⟩)
    next => cases read
  next =>
    intro body
    cases body with
    | solution given ownProjects =>
      have own := given.readable readable
      obtain ⟨list, rfl, readProjects⟩ := (lists (own _ (by simp)) _).mp ownProjects
      exact ⟨[list], given, by simp [readProjects]⟩

theorem project_iff (readable : value.Readable) (message : Message) :
    Message.ofBody? value .project = some message ↔ IsBody value .project message := by
  have apart : Apart [["id"], ["references"]] := by simp [Apart]
  simp only [Message.ofBody?, Option.bind_eq_bind, Option.bind_eq_some_iff, record?_iff apart readable]
  constructor
  next =>
    rintro ⟨slots, given, read⟩
    split at read
    next id references =>
      have own := given.readable readable
      simp only [Option.bind_eq_some_iff, Option.pure_def, Option.some.injEq] at read
      obtain ⟨_, readId, _, readReferences, rfl⟩ := read
      exact .project given ((required_id (own _ (by simp)) _).mpr ⟨_, rfl, readId⟩)
        ((nullable_texts (own _ (by simp)) _).mpr ⟨_, rfl, readReferences⟩)
    next => cases read
  next =>
    intro body
    cases body with
    | project given ownId ownReferences =>
      have own := given.readable readable
      obtain ⟨id, rfl, readId⟩ := (required_id (own _ (by simp)) _).mp ownId
      obtain ⟨list, rfl, readReferences⟩ := (nullable_texts (own _ (by simp)) _).mp ownReferences
      exact ⟨[some id, list], given, by simp [readId, readReferences]⟩

theorem ofBody?_iff (readable : value.Readable) (kind : Kind) (message : Message) :
    Message.ofBody? value kind = some message ↔ IsBody value kind message := by
  cases kind with
  | version => exact version_iff readable message
  | solution => exact solution_iff readable message
  | project => exact project_iff readable message
  | metadata =>
    rw [Message.ofBody?, Option.map_eq_some_iff]
    constructor
    next =>
      rintro ⟨content, read, rfl⟩
      exact .metadata ((metadata_iff readable content).mp read)
    next =>
      intro body
      cases body with
      | metadata own => exact ⟨_, (metadata_iff readable _).mpr own, rfl⟩

end Bodies

end Schema

end TemplateSync
