import TemplateSync.Cli.Programs

set_option autoImplicit false

namespace TemplateSync.Cli

-- More than directories nest.
def maxDepth : Nat := 64

-- A file that names an interpreter can be executed.
def isScript (content : Bytes) : Bool :=
  (Shell.interpreter? (Shell.octetsOf content)).isSome

def addFolder : Nat → Location → FileTree → IO FileTree
  | 0, _, tree => pure tree
  | depth + 1, location, tree => do
    let entries ← (System.mkFilePath [(FileTree.pathOf location).display]).readDir
    entries.foldlM (fun tree entry => do
      let below := location ++ [Utf8.encode entry.fileName]
      if ← entry.path.isDir then addFolder depth below (tree.put below .directory)
      else
        let content := (← IO.FS.readBinFile entry.path).toList
        return tree.put below (.file content (isScript content))) tree

def snapshot (folder : Location) : IO FileTree :=
  addFolder maxDepth folder
    { FileTree.empty.makeDirectories folder with workingDirectory := folder }

def store (before after : FileTree) : IO Unit :=
  after.nodes.forM fun (location, node) =>
    match node with
    | .file content _ =>
      if before.node? location = some node then pure ()
      else IO.FS.writeBinFile (FileTree.pathOf location).display ⟨content.toArray⟩
    | _ => pure ()

def line (event : Event) : String :=
  let shown : String × Field → String
    | (name, .number n) => s!" {name}={n}"
    | (name, .text text) => s!" {name}={text}"
    | (_, .address) => ""
  event.message ++ String.join (event.fields.map shown)

def report (ending : Ending) : IO Unit := do
  for event in ending.events do
    if event.level ≠ .debug then IO.eprintln (line event)
  match ending.error with
  | some error => IO.eprintln error
  | none => pure ()

def usage : String :=
  "usage: worker --port PORT [--config FILE] [--debug]\n" ++
    "       host --manifest FILE [--config FILE] [--spawn-worker PROGRAM] [--tick-ms N]"

def launchIn (network : Network) (program : World → List String → Ending) (words : List String) :
    IO UInt32 := do
  let folder := (← IO.currentDir).toString
  let files ← snapshot (FileTree.empty.layout (Path.ofString folder))
  let ending := program ⟨files, network, 1⟩ words
  report ending
  store files ending.world.files
  match ending.code with
  | some code => return code.toUInt32
  | none => do
    let _ ← (← IO.getStdin).readBinToEnd
    return 0

end TemplateSync.Cli

open TemplateSync Cli in
def main : List String → IO UInt32
  | "host" :: words => launchIn .refusing host words
  | "worker" :: words => do
    let stream ← (← IO.getStdin).readBinToEnd
    launchIn (.serving [stream.toList]) worker words
  | _ => do
    IO.eprintln usage
    return 2
