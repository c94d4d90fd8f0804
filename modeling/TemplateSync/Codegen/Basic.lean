import TemplateSync.Base64
import TemplateSync.Fault
import TemplateSync.Json.Record
import TemplateSync.Json.Written
import TemplateSync.Path

set_option autoImplicit false

namespace TemplateSync

structure TemplateError where
  message : String
  location : Option String
  deriving DecidableEq

def TemplateError.display (error : TemplateError) : String :=
  match error.location with
  | some location => s!"{location}: {error.message}"
  | none => error.message

inductive Generation where
  | generated (text : String)
  | failed (errors : List TemplateError)
  deriving DecidableEq

def Generation.failedWith (document message : String) : Generation :=
  failed [⟨message, some document⟩]

structure ReferenceHandle where
  path : Path
  image : Option Bytes
  deriving DecidableEq

structure Source where
  path : Path
  text : String
  deriving DecidableEq

structure CompilationUnit where
  name : String
  selfReference : Option Bytes
  references : List ReferenceHandle
  sources : List Source
  deriving DecidableEq

inductive Severity where
  | hidden
  | info
  | warning
  | error
  deriving DecidableEq

namespace Severity

def name : Severity → String
  | hidden => "hidden"
  | info => "info"
  | warning => "warning"
  | error => "error"

def title : Severity → String
  | hidden => "Hidden"
  | info => "Info"
  | warning => "Warning"
  | error => "Error"

def ofName? (name : String) : Option Severity :=
  [hidden, info, warning, error].find? fun severity => severity.name == name

-- A name, or an object with the name as its one member and no content.
def ofJson? (value : Json) : Option Severity :=
  match value with
  | .object [(key, .null)] => (Json.unescape? key).bind fun name => ofName? (String.ofList name)
  | value => value.string?.bind ofName?

end Severity

structure Diagnostic where
  severity : Severity
  message : String
  deriving DecidableEq

namespace Diagnostic

def display (diagnostic : Diagnostic) : String :=
  s!"{diagnostic.severity.title}: {diagnostic.message}"

def ofJson? (value : Json) : Option Diagnostic := do
  match ← value.record? [["severity"], ["message"]] with
  | [some severity, some message] => return ⟨← Severity.ofJson? severity, ← message.string?⟩
  | _ => none

def toJson (diagnostic : Diagnostic) : Json :=
  .object [
    Json.member "severity" (Json.ofString diagnostic.severity.name),
    Json.member "message" (Json.ofString diagnostic.message)]

end Diagnostic

structure CompileOutcome where
  success : Bool
  diagnostics : List Diagnostic
  deriving DecidableEq

namespace CompileOutcome

def errors (outcome : CompileOutcome) : List Diagnostic :=
  outcome.diagnostics.filter fun diagnostic => diagnostic.severity = .error

def ofJson? (value : Json) : Option CompileOutcome := do
  match ← value.record? [["success"], ["diagnostics"]] with
  | [some success, diagnostics] =>
    return ⟨← success.bool?, ← Json.optional? [] (Json.list? Diagnostic.ofJson?) diagnostics⟩
  | _ => none

def toJson (outcome : CompileOutcome) : Json :=
  .object [
    Json.member "success" (.bool outcome.success),
    Json.member "diagnostics" (.array (outcome.diagnostics.map Diagnostic.toJson))]

def ofText? (text : String) : Option CompileOutcome :=
  (Json.ofText? text).bind ofJson?

-- Spells what may stand in a text that is skipped, and nowhere else.
def unreadable : List Char :=
  ['x', '\\', 'u', 'd', '8', '0', '0', '\\', 'u', 'd', '8', '0', '0']

-- Octets that are no text are an error only where a text is read.
def ofBytes? (bytes : Bytes) : Option CompileOutcome :=
  ofText? ((Utf8.decode? bytes).getD (Utf8.decodeWith unreadable bytes))

end CompileOutcome

namespace CompilationUnit

def pathJson (path : Path) : Except Fault Json :=
  match Utf8.decode? path.bytes with
  | some text => .ok (Json.ofString text)
  | none => .error (.json "path contains invalid UTF-8 characters")

def sourceJson (source : Source) : Except Fault Json := do
  let path ← pathJson source.path
  return .object [Json.member "path" path, Json.member "text" (Json.ofString source.text)]

def selfReferenceJson (bytes : Option Bytes) : Json :=
  match bytes with
  | some bytes => Json.ofString (Base64.encode bytes)
  | none => .null

def request (unit : CompilationUnit) : Except Fault String := do
  let references ← unit.references.mapM fun handle => pathJson handle.path
  let sources ← unit.sources.mapM sourceJson
  return String.ofList (Json.object [
    Json.member "name" (Json.ofString unit.name),
    Json.member "references" (.array references),
    Json.member "selfReference" (selfReferenceJson unit.selfReference),
    Json.member "sources" (.array sources)]).render

end CompilationUnit

end TemplateSync
