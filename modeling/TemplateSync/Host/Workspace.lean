import TemplateSync.Act
import TemplateSync.Message

set_option autoImplicit false

namespace TemplateSync

structure Emitted where
  assemblyName : Option String
  bytes : Bytes
  deriving DecidableEq

inductive Emission where
  | emitted (emitted : Emitted)
  | failed (fault : Fault)
  | crashed
  deriving DecidableEq

structure Workspace (σ : Type) where
  projects : σ → List ProjectDescriptor
  emit : ProjectDescriptor → Act σ Emission

structure Broadcaster (σ : Type) where
  broadcast : Message → Act σ Unit
  -- No one starts to listen between the snapshot and the choice of those who get it.
  broadcastSnapshot : Act σ Message → Act σ Unit

namespace Workspace

variable {σ : Type}

def list (workspace : Workspace σ) : Act σ (List ProjectDescriptor) := do
  return workspace.projects (← Act.get)

def greeting (workspace : Workspace σ) (version : Int32) (state : σ) : List Message :=
  [.version version, .solution (workspace.projects state)]

end Workspace

end TemplateSync
