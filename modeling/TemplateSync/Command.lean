import TemplateSync.Shell.Session

set_option autoImplicit false

namespace TemplateSync

structure Command where
  program : String
  arguments : List String
  deriving DecidableEq

inductive ExitStatus where
  | exited (code : Nat)
  | signalled (signal : Nat)
  deriving DecidableEq

namespace ExitStatus

def success (status : ExitStatus) : Bool :=
  status = exited 0

def signalName (signal : Nat) : String :=
  let known := [(1, "SIGHUP"), (2, "SIGINT"), (3, "SIGQUIT"), (6, "SIGABRT"), (9, "SIGKILL"),
    (10, "SIGUSR1"), (11, "SIGSEGV"), (12, "SIGUSR2"), (13, "SIGPIPE"), (14, "SIGALRM"),
    (15, "SIGTERM")]
  match known.lookup signal with
  | some name => s!" ({name})"
  | none => ""

def text : ExitStatus → String
  | exited code => s!"exit status: {code}"
  | signalled signal => s!"signal: {signal}" ++ signalName signal

end ExitStatus

structure Finished where
  status : ExitStatus
  output : Bytes
  errors : Bytes

namespace Command

open Shell

def ofWords? : List String → Option Command
  | [] => none
  | program :: arguments => some ⟨program, arguments⟩

-- More than any script of ours nests.
def depth : Nat := 10000

def finished (flow : Flow) (session : Session) : Finished × FileTree :=
  let status := match flow with
    | .killed signal => .signalled signal
    | _ => .exited session.status
  (⟨status, bytesOf session.output, bytesOf session.errors⟩, session.files)

def interpret (files : FileTree) (input : Octets) (source name : Octets) (arguments : List Octets) :
    Finished × FileTree :=
  let session := Session.start files input name arguments
  match Script.parse source with
  | .ok script =>
    let (flow, session) := Shell.run (depth + source.length) script session
    finished flow session
  | .error error => finished .next { session.report error.text with status := 2 }

def interpretFile (files : FileTree) (input : Octets) (file : Octets) (arguments : List Octets) :
    Finished × FileTree :=
  match files.read (pathOf file) with
  | .ok bytes => interpret files input (octetsOf bytes) file arguments
  | .error error =>
    let session := Session.start files input ['s', 'h'] []
    finished .next { session.report s!"cannot open {shown file}: {openText error}" with status := 2 }

def builtin? (files : FileTree) (input : Octets) (name : Octets) (arguments : List Octets) :
    Option (Finished × FileTree) :=
  if name = "sh".toList || name = "dash".toList then
    match arguments with
    | ['-', 'c'] :: source :: name :: arguments =>
      some (interpret files input source name arguments)
    | [['-', 'c'], source] => some (interpret files input source ['s', 'h'] [])
    | file :: arguments => some (interpretFile files input file arguments)
    | [] => some (interpret files [] input ['s', 'h'] [])
  else (tool? false name).map fun tool =>
    let effect := tool ⟨arguments, input, files⟩
    (⟨.exited effect.status, bytesOf effect.output, bytesOf effect.errors⟩, effect.files)

def isInstalled (name : Octets) : Bool :=
  ["/bin/".toList, "/usr/bin/".toList].any fun folder =>
    folder.isPrefixOf name && !(name.drop folder.length).contains '/'

def runFile (files : FileTree) (input : Octets) (name : Octets) (arguments : List Octets) :
    Except IoError (Finished × FileTree) :=
  match files.find (pathOf name) with
  | .error error => .error error
  | .ok (_, .file content true) =>
    match interpreter? (octetsOf content) with
    | some (interpreter :: options) =>
      match builtin? files input (baseName interpreter) (options ++ name :: arguments) with
      | some done => .ok done
      | none => .error (.os .noEntry)
    | _ => .error (.os .notExecutable)
  | .ok _ => .error (.os .denied)

def run (files : FileTree) (command : Command) (input : Bytes) :
    Except IoError (Finished × FileTree) :=
  let name := octetsOfString command.program
  let arguments := command.arguments.map octetsOfString
  let input := octetsOf input
  -- No argument can hold the octet that ends it.
  if name.contains '\x00' || arguments.any (·.contains '\x00') then .error .nulInArgument
  else
    let known := if isInstalled name then baseName name else name
    match if known.contains '/' then none else builtin? files input known arguments with
    | some done => .ok done
    | none => if name.contains '/' then runFile files input name arguments else .error (.os .noEntry)

end Command

end TemplateSync
