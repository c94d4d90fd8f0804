import TemplateSync.FileTree.Documents
import TemplateSync.Message

set_option autoImplicit false

namespace TemplateSync

structure Project where
  id : Uuid
  name : String
  path : Path
  sourceRoot : Path
  documents : List Path
  references : List Path
  lastMetadata : Option Bytes
  deriving DecidableEq

namespace Project

def sourceRootOf (path : Path) : Path :=
  path.parent?.getD ⟨[]⟩

-- The documents are those that are there when the project is added.
def ofDescriptor (files : FileTree) (extension : String) (descriptor : ProjectDescriptor) : Project :=
  let path := Path.ofString descriptor.path
  { id := descriptor.id
    name := descriptor.name
    path := path
    sourceRoot := sourceRootOf path
    documents := files.documents (sourceRootOf path) extension
    references := descriptor.references.map Path.ofString
    lastMetadata := none }

def setReferences (project : Project) (references : List String) : Project :=
  { project with references := references.map Path.ofString }

def relativePath (project : Project) (document : Path) : String :=
  String.join ((document.below project.sourceRoot).map fun component => "/" ++ component.display)

end Project

structure Catalog where
  projects : List Project
  distinct : (projects.map Project.id).Nodup

namespace Catalog

def empty : Catalog := ⟨[], .nil⟩

def get? (catalog : Catalog) (id : Uuid) : Option Project :=
  catalog.projects.find? fun project => project.id = id

theorem distinct_insert (projects : List Project) (project : Project)
    (distinct : (projects.map Project.id).Nodup) :
    ((project :: projects.filter (·.id ≠ project.id)).map Project.id).Nodup := by
  rw [List.map_cons, List.nodup_cons]
  constructor
  next => simp
  next => exact distinct.sublist (List.filter_sublist.map _)

-- A later project with the same identifier takes the place of an earlier one.
def insert (catalog : Catalog) (project : Project) : Catalog :=
  { projects := project :: catalog.projects.filter (·.id ≠ project.id)
    distinct := distinct_insert catalog.projects project catalog.distinct }

def ofList (projects : List Project) : Catalog :=
  projects.foldl insert empty

def ids (catalog : Catalog) : List Uuid :=
  catalog.projects.map Project.id

def size (catalog : Catalog) : Nat :=
  catalog.projects.length

end Catalog

end TemplateSync
