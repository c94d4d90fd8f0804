import TemplateSync.Host.Manifest

set_option autoImplicit false

namespace TemplateSync

structure FileEvent where
  path : Path
  continuous : Bool
  deriving DecidableEq

structure Watch where
  roots : List Path
  debounceMilliseconds : Nat
  deriving DecidableEq

namespace Watch

def defaultDebounce : Nat := 200

def effectiveDebounce (milliseconds : Nat) : Nat :=
  if milliseconds = 0 then defaultDebounce else milliseconds

-- Only what exists can be watched.
def start (files : FileTree) (manifest : Manifest) (milliseconds : Nat) :
    Except IoError (Watch × List Event) :=
  match manifest.roots.mapM files.find with
  | .error error => .error error
  | .ok _ =>
    let debounce := effectiveDebounce milliseconds
    .ok (⟨manifest.roots, debounce⟩, [.watcherStarted manifest.roots.length debounce])

def ignoredNames : List String :=
  [".git", ".vs", "bin", "obj", "node_modules", "target"]

def isIgnored : Path.Component → Bool
  | .name bytes => ignoredNames.contains (Utf8.decode bytes)
  | _ => false

def classify? (manifest : Manifest) (path : Path) : Option Change :=
  if path.Same manifest.path then some .solutionChanged
  else if (path.below (manifest.path.parent?.getD ⟨[]⟩)).any isIgnored then none
  else if manifest.isProjectFile path then some .projectChanged
  else some .documentChanged

def reloadFor (files : FileTree) (change : Change) : Act Manifest Unit :=
  if change = .solutionChanged then do
    match ← Manifest.reload files with
    | .ok _ => return ()
    | .error fault => Act.say (.reloadFailed fault)
  else pure ()

-- One event after another; the changes reported so far come last first.
def handleFrom (files : FileTree) : List FileEvent → List Change → Act Manifest (List Change)
  | [], done => pure done.reverse
  | event :: events, done => do
    if event.continuous then
      Act.say (.skippingContinuous event.path)
      handleFrom files events done
    else match classify? (← Act.get) event.path with
      | none => handleFrom files events done
      | some change =>
        if done.contains change then handleFrom files events done
        -- The events that follow are looked at with the projects of the new reading.
        else
          reloadFor files change
          handleFrom files events (change :: done)

def handle (files : FileTree) (events : List FileEvent) : Act Manifest (List Change) := do
  let changes ← handleFrom files events []
  if changes ≠ [] then Act.say (.workspaceEvents changes)
  return changes

end Watch

end TemplateSync
