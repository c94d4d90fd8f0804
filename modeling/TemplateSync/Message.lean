import TemplateSync.Base64
import TemplateSync.Uuid
import TemplateSync.Utf8
import TemplateSync.Json.Record

set_option autoImplicit false

namespace TemplateSync

structure ProjectDescriptor where
  id : Uuid
  name : String
  path : String
  references : List String
  deriving DecidableEq

structure Metadata where
  id : Uuid
  projectName : String
  assemblyName : Option String
  bytes : Bytes
  deriving DecidableEq

inductive Message where
  | version (version : Int32)
  | solution (projects : List ProjectDescriptor)
  | project (id : Uuid) (references : List String)
  | metadata (metadata : Metadata)
  | error (text : String) (detail : Option String)
  | unknown (tag body : String)
  deriving DecidableEq

inductive Kind where
  | version
  | solution
  | project
  | metadata
  deriving DecidableEq

def Kind.tag : Kind → String
  | version => "version"
  | solution => "solution"
  | project => "project"
  | metadata => "metadata"

def Kind.ofTag? (tag : String) : Option Kind :=
  [version, solution, project, metadata].find? fun kind => kind.tag == tag

def Message.kind : Message → String
  | version _ => Kind.version.tag
  | solution _ => Kind.solution.tag
  | project _ _ => Kind.project.tag
  | metadata _ => Kind.metadata.tag
  | error _ _ => "error"
  | unknown _ _ => "unknown"

def Uuid.ofJson? (value : Json) : Option Uuid :=
  value.string?.bind Uuid.parse?

def Uuid.toJson (id : Uuid) : Json :=
  Json.ofString id.print

def bytesOfJson? (value : Json) : Option Bytes :=
  value.string?.bind Base64.decode?

def stringsOfJson? : Json → Option (List String) :=
  Json.list? Json.string?

namespace ProjectDescriptor

def fields : List Json.Names :=
  [["id"], ["name"], ["path"], ["references"]]

def ofJson? (value : Json) : Option ProjectDescriptor := do
  match ← value.record? fields with
  | [some id, name, some path, references] =>
    return {
      id := ← Uuid.ofJson? id
      name := ← Json.optional? "" Json.string? name
      path := ← path.string?
      references := ← Json.nullable? [] stringsOfJson? references }
  | _ => none

def toJson (project : ProjectDescriptor) : Json :=
  .object [
    Json.member "id" project.id.toJson,
    Json.member "name" (Json.ofString project.name),
    Json.member "path" (Json.ofString project.path),
    Json.member "references" (Json.strings project.references)]

end ProjectDescriptor

namespace Metadata

def fields : List Json.Names :=
  [["id"], ["projectName", "name"], ["assemblyName"], ["bytes"]]

def ofJson? (value : Json) : Option Metadata := do
  match ← value.record? fields with
  | [some id, projectName, assemblyName, bytes] =>
    return {
      id := ← Uuid.ofJson? id
      projectName := ← Json.optional? "" Json.string? projectName
      assemblyName := ← Json.nullable? none (fun name => name.string?.map some) assemblyName
      bytes := ← Json.nullable? [] bytesOfJson? bytes }
  | _ => none

def toJson (metadata : Metadata) : Json :=
  .object (
    [Json.member "id" metadata.id.toJson,
      Json.member "projectName" (Json.ofString metadata.projectName)] ++
    (metadata.assemblyName.map fun name => Json.member "assemblyName" (Json.ofString name)).toList ++
    [Json.member "bytes" (Json.ofString (Base64.encode metadata.bytes))])

end Metadata

namespace Message

def int32? (value : Json) : Option Int32 :=
  value.int?.bind fun n =>
    if -2147483648 ≤ n && n ≤ 2147483647 then some (Int32.ofInt n) else none

def ofBody? (value : Json) : Kind → Option Message
  | .version => do
    match ← value.record? [["version"]] with
    | [some number] => return version (← int32? number)
    | _ => none
  | .solution => do
    match ← value.record? [["projects"]] with
    | [projects] =>
      return solution (← Json.nullable? [] (Json.list? ProjectDescriptor.ofJson?) projects)
    | _ => none
  | .project => do
    match ← value.record? [["id"], ["references"]] with
    | [some id, references] =>
      return project (← Uuid.ofJson? id) (← Json.nullable? [] stringsOfJson? references)
    | _ => none
  | .metadata => (Metadata.ofJson? value).map metadata

def body? : Message → Option (Kind × Json)
  | version number => some (.version, .object [Json.member "version" (Json.ofInt number.toInt)])
  | solution projects =>
    some (.solution,
      .object [Json.member "projects" (.array (projects.map ProjectDescriptor.toJson))])
  | project id references =>
    some (.project,
      .object [Json.member "id" id.toJson, Json.member "references" (Json.strings references)])
  | metadata content => some (.metadata, content.toJson)
  | error _ _ | unknown _ _ => none

end Message

end TemplateSync
