import TemplateSync.Codegen.Toolchain
import TemplateSync.FileTree.Basic
import TemplateSync.Host.Workspace
import TemplateSync.Toml.Record

set_option autoImplicit false

namespace TemplateSync

structure ManifestEntry where
  descriptor : ProjectDescriptor
  assemblyName : Option String
  deriving DecidableEq

structure Manifest where
  path : Path
  metadataCommand : List String
  entries : List ManifestEntry
  deriving DecidableEq

namespace Manifest

structure Listing where
  id : Uuid
  name : String
  path : String
  references : List String
  assemblyName : Option String
  deriving DecidableEq

def fields : List Toml.Key :=
  ["id", "name", "path", "references", "assembly_name"]

def uuid? (value : Toml.Value) : Option Uuid :=
  value.text?.bind Uuid.parse?

def listing? : List (Option Toml.Value) → Option Listing
  | [some id, some name, some path, references, assemblyName] => do
    return {
      id := ← uuid? id
      name := ← name.text?
      path := ← path.text?
      references := ← Toml.optional? [] Toml.Value.texts? references
      assemblyName := ← Toml.optional? none (fun name => name.text?.map some) assemblyName }
  | _ => none

-- A project is a table, or an array that holds all fields in order.
def project? : Toml.Value → Option Listing
  | .table _ members => (Toml.record? fields members).bind listing?
  | .array items =>
    if fields.length ≤ items.length then listing? ((items.take fields.length).map some) else none
  | _ => none

def ofMembers? (members : Toml.Members) : Option (List Listing) := do
  match ← Toml.record? ["project"] members with
  | [projects] => Toml.optional? [] (Toml.Value.list? project?) projects
  | _ => none

def base (path : Path) : Path :=
  path.parent?.getD ⟨[Path.dot]⟩

def entry (base : Path) (listing : Listing) : ManifestEntry :=
  { descriptor :=
      { id := listing.id
        name := listing.name
        path := (base.join (Path.ofString listing.path)).display
        references := listing.references }
    assemblyName := listing.assemblyName }

def ofText (path : Path) (text : String) : Except Fault (List ManifestEntry) :=
  match (Toml.parse? text).bind ofMembers? with
  | some listings => .ok (listings.map (entry (base path)))
  | none => .error (.toml "not of the expected form")

def readEntries (files : FileTree) (path : Path) : Except Fault (List ManifestEntry) :=
  match files.readText path with
  | .error error => .error (.io error)
  | .ok text => ofText path text

-- All paths start from the manifest's real place, so links to it make no difference.
def load (files : FileTree) (path : Path) (metadataCommand : List String) :
    Except Fault (Manifest × List Event) :=
  match files.canonicalize path with
  | .error error => .error (.io error)
  | .ok path =>
    match readEntries files path with
    | .error fault => .error fault
    | .ok entries => .ok (⟨path, metadataCommand, entries⟩, [.manifestLoaded path entries.length])

def reload (files : FileTree) : Act Manifest (Except Fault Unit) := fun manifest =>
  match readEntries files manifest.path with
  | .error fault => ⟨.error fault, [], manifest⟩
  | .ok entries => ⟨.ok (), [.manifestReloaded entries.length], { manifest with entries := entries }⟩

def projects (manifest : Manifest) : List ProjectDescriptor :=
  manifest.entries.map ManifestEntry.descriptor

-- A directory below one that is already listed is left out.
def addRoot (roots : List Path) (entry : ManifestEntry) : List Path :=
  match (Path.ofString entry.descriptor.path).parent? with
  | none => roots
  | some folder => if roots.any (folder.startsWith ·) then roots else roots ++ [folder]

def roots (manifest : Manifest) : List Path :=
  manifest.entries.foldl addRoot manifest.path.parent?.toList

def isProjectFile (manifest : Manifest) (path : Path) : Bool :=
  manifest.entries.any fun entry => (Path.ofString entry.descriptor.path).Same path

-- The first entry with the identifier decides; without a name of its own the project's is taken.
def assemblyName (manifest : Manifest) (project : ProjectDescriptor) : String :=
  ((manifest.entries.find? fun entry => entry.descriptor.id = project.id).bind
    ManifestEntry.assemblyName).getD project.name

def emittedOf (manifest : Manifest) (project : ProjectDescriptor) (finished : Finished) :
    Except Fault Emitted :=
  if finished.status.success then .ok ⟨some (manifest.assemblyName project), finished.output⟩
  else .error (.compile project.name (Text.trim (Utf8.decode finished.errors)))

def emit {σ : Type} (run : Runner σ) (manifest : Manifest) (project : ProjectDescriptor) :
    Act σ (Except Fault Emitted) :=
  match Command.ofWords? manifest.metadataCommand with
  | none => pure (.error (.config "no metadata command configured"))
  | some command => do
    match ← run { command with arguments := command.arguments ++ [project.path] } [] with
    | .ok finished => return manifest.emittedOf project finished
    | .error error => return .error (.io error)

end Manifest

end TemplateSync
