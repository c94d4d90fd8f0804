import TemplateSync.Codegen.Toolchain
import TemplateSync.FileTree.Basic
import TemplateSync.Toml.Record
import TemplateSync.Worker.Basic

set_option autoImplicit false

namespace TemplateSync

structure WorkerSettings where
  templateExtension : String
  generatorCommand : List String
  compilerCommand : List String
  maxFrameLength : Nat
  deriving DecidableEq

structure HostSettings where
  tickMilliseconds : Nat
  port : Nat
  protocolVersion : Int32
  metadataCommand : List String
  debounceMilliseconds : Nat
  deriving DecidableEq

def maxWord : Nat := UInt64.size - 1

def maxPort : Nat := UInt16.size - 1

namespace WorkerSettings

def default : WorkerSettings := ⟨"cshtml", [], [], 64 * 1024 * 1024⟩

def fields : List Toml.Key :=
  ["template_extension", "generator_command", "compiler_command", "max_frame_len"]

def ofMembers? (members : Toml.Members) : Option WorkerSettings := do
  match ← Toml.record? fields members with
  | [extension, generator, compiler, length] =>
    return {
      templateExtension := ← Toml.optional? default.templateExtension Toml.Value.text? extension
      generatorCommand := ← Toml.optional? default.generatorCommand Toml.Value.texts? generator
      compilerCommand := ← Toml.optional? default.compilerCommand Toml.Value.texts? compiler
      maxFrameLength := ← Toml.optional? default.maxFrameLength (Toml.Value.natural? maxWord) length }
  | _ => none

-- The toolchain that the settings ask for; an empty command stands for none.
def toolchain {σ : Type} (settings : WorkerSettings) (files : σ → FileTree) (run : Runner σ) :
    Toolchain σ :=
  Toolchain.configured files run (Command.ofWords? settings.generatorCommand)
    (Command.ofWords? settings.compilerCommand)

end WorkerSettings

namespace HostSettings

def default : HostSettings := ⟨5000, 0, TemplateSync.protocolVersion, [], 200⟩

def fields : List Toml.Key :=
  ["tick_interval_ms", "port", "protocol_version", "metadata_command", "debounce_ms"]

def int32? (value : Toml.Value) : Option Int32 :=
  (value.integerIn? (-2147483648) 2147483647).map Int32.ofInt

def ofMembers? (members : Toml.Members) : Option HostSettings := do
  match ← Toml.record? fields members with
  | [tick, port, version, command, debounce] =>
    return {
      tickMilliseconds := ← Toml.optional? default.tickMilliseconds (Toml.Value.natural? maxWord) tick
      port := ← Toml.optional? default.port (Toml.Value.natural? maxPort) port
      protocolVersion := ← Toml.optional? default.protocolVersion int32? version
      metadataCommand := ← Toml.optional? default.metadataCommand Toml.Value.texts? command
      debounceMilliseconds :=
        ← Toml.optional? default.debounceMilliseconds (Toml.Value.natural? maxWord) debounce }
  | _ => none

def tickInterval (settings : HostSettings) : Nat × Nat :=
  (settings.tickMilliseconds / 1000, settings.tickMilliseconds % 1000 * 1000000)

end HostSettings

def loadSettings {α : Type} (default : α) (ofMembers? : Toml.Members → Option α) (files : FileTree)
    (path : Option Path) : Except Fault α :=
  match path with
  | none => .ok default
  | some path =>
    match files.readText path with
    | .error error => .error (.io error)
    | .ok text =>
      match (Toml.parse? text).bind ofMembers? with
      | some settings => .ok settings
      | none => .error (.toml "not of the expected form")

def WorkerSettings.load (files : FileTree) (path : Option Path) : Except Fault WorkerSettings :=
  loadSettings default ofMembers? files path

def HostSettings.load (files : FileTree) (path : Option Path) : Except Fault HostSettings :=
  loadSettings default ofMembers? files path

end TemplateSync
