set_option autoImplicit false

namespace TemplateSync

inductive Change where
  | solutionAdded
  | solutionChanged
  | solutionCleared
  | solutionReloaded
  | solutionRemoved
  | projectAdded
  | projectChanged
  | projectReloaded
  | projectRemoved
  | documentAdded
  | documentChanged
  | documentReloaded
  | documentRemoved
  | additionalDocumentAdded
  | additionalDocumentChanged
  | additionalDocumentRemoved
  deriving DecidableEq

namespace Change

def all : List Change :=
  [solutionAdded, solutionChanged, solutionCleared, solutionReloaded, solutionRemoved, projectAdded,
    projectChanged, projectReloaded, projectRemoved, documentAdded, documentChanged,
    documentReloaded, documentRemoved, additionalDocumentAdded, additionalDocumentChanged,
    additionalDocumentRemoved]

def name : Change → String
  | solutionAdded => "SolutionAdded"
  | solutionChanged => "SolutionChanged"
  | solutionCleared => "SolutionCleared"
  | solutionReloaded => "SolutionReloaded"
  | solutionRemoved => "SolutionRemoved"
  | projectAdded => "ProjectAdded"
  | projectChanged => "ProjectChanged"
  | projectReloaded => "ProjectReloaded"
  | projectRemoved => "ProjectRemoved"
  | documentAdded => "DocumentAdded"
  | documentChanged => "DocumentChanged"
  | documentReloaded => "DocumentReloaded"
  | documentRemoved => "DocumentRemoved"
  | additionalDocumentAdded => "AdditionalDocumentAdded"
  | additionalDocumentChanged => "AdditionalDocumentChanged"
  | additionalDocumentRemoved => "AdditionalDocumentRemoved"

def ofName? (name : String) : Option Change :=
  all.find? fun change => change.name == name

def isStructural : Change → Bool
  | solutionAdded | solutionChanged | solutionCleared | solutionReloaded | solutionRemoved
  | projectAdded | projectChanged | projectReloaded | projectRemoved => true
  | documentAdded | documentChanged | documentReloaded | documentRemoved
  | additionalDocumentAdded | additionalDocumentChanged | additionalDocumentRemoved => false

end Change

structure DirtyFlags where
  solution : Bool
  metadata : Bool
  deriving DecidableEq

namespace DirtyFlags

def clean : DirtyFlags := ⟨false, false⟩

def mark (flags : DirtyFlags) (change : Change) : DirtyFlags :=
  ⟨flags.solution || change.isStructural, true⟩

def take (flags : DirtyFlags) : DirtyFlags × DirtyFlags :=
  (flags, clean)

end DirtyFlags

end TemplateSync
