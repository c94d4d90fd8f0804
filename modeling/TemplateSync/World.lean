import TemplateSync.Codegen.Toolchain
import TemplateSync.Frame

set_option autoImplicit false

namespace TemplateSync

inductive Network where
  | unreachable
  | refusing
  | serving (stream : Frame.Stream)

structure World where
  files : FileTree
  network : Network
  nonce : Nat

namespace World

def fresh : Act World Uuid := do
  let world ← Act.get
  Act.set { world with nonce := world.nonce + 1 }
  return Uuid.ofNat world.nonce

def run : Runner World := fun command input => do
  let world ← Act.get
  match Command.run world.files command input with
  | .ok (finished, files) =>
    Act.set { world with files := files }
    return .ok finished
  | .error error => return .error error

def connect (world : World) : Except IoError Frame.Stream :=
  match world.network with
  | .unreachable => .error (.os .unreachable)
  | .refusing => .error (.os .refused)
  | .serving stream => .ok stream

def workbench (toolchain : Toolchain World) : Workbench World :=
  { toolchain with files := World.files, fresh := fresh }

end World

end TemplateSync
