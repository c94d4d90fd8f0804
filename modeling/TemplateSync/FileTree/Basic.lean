import TemplateSync.Path
import TemplateSync.IoError

set_option autoImplicit false

namespace TemplateSync

abbrev Location := List Bytes

inductive Node where
  | directory
  | file (content : Bytes) (executable : Bool)
  | link (target : Path)
  | null
  deriving DecidableEq

structure FileTree where
  nodes : List (Location × Node)
  workingDirectory : Location
  distinct : (nodes.map Prod.fst).Nodup

namespace FileTree

def empty : FileTree :=
  ⟨[], [], .nil⟩

-- The root directory is always there.
def node? (tree : FileTree) (location : Location) : Option Node :=
  if location = [] then some .directory else tree.nodes.lookup location

theorem distinct_put (nodes : List (Location × Node)) (location : Location) (node : Node)
    (distinct : (nodes.map Prod.fst).Nodup) :
    (((location, node) :: nodes.filter (·.1 ≠ location)).map Prod.fst).Nodup := by
  rw [List.map_cons, List.nodup_cons]
  constructor
  next => simp
  next => exact distinct.sublist (List.filter_sublist.map _)

theorem distinct_filter (nodes : List (Location × Node)) (keep : Location × Node → Bool)
    (distinct : (nodes.map Prod.fst).Nodup) : ((nodes.filter keep).map Prod.fst).Nodup :=
  distinct.sublist (List.filter_sublist.map _)

def put (tree : FileTree) (location : Location) (node : Node) : FileTree :=
  { tree with
    nodes := (location, node) :: tree.nodes.filter (·.1 ≠ location)
    distinct := distinct_put tree.nodes location node tree.distinct }

def prune (tree : FileTree) (location : Location) : FileTree :=
  { tree with
    nodes := tree.nodes.filter fun entry => !location.isPrefixOf entry.1
    distinct := distinct_filter tree.nodes _ tree.distinct }

inductive Step where
  | here
  | up
  | down (name : Bytes)
  deriving DecidableEq

def Step.ofPiece (piece : Bytes) : Step :=
  if Path.isIdle piece then here
  else if piece = [Path.dot, Path.dot] then up
  else down piece

def steps (path : Path) : List Step :=
  path.pieces.map Step.ofPiece

inductive Place where
  | found (location : Location) (node : Node)
  | vacant (location : Location)
  deriving DecidableEq

def maxName : Nat := 255

def maxPath : Nat := 4096

def maxLinks : Nat := 40

def start (tree : FileTree) (path : Path) : Location :=
  if path.isAbsolute then [] else tree.workingDirectory

-- `follow` goes on where a link leads. A link at the very end is followed on demand.
def walkWith (tree : FileTree) (atEnd : Bool)
    (follow : Location → List Step → Except OsError Place) :
    Location → List Step → Except OsError Place
  | location, [] =>
    match tree.node? location with
    | some node => .ok (.found location node)
    | none => .error .noEntry
  | location, step :: rest =>
    match tree.node? location with
    | none => .error .noEntry
    | some .directory =>
      match step with
      | .here => walkWith tree atEnd follow location rest
      | .up => walkWith tree atEnd follow location.dropLast rest
      | .down name =>
        if maxName < name.length then .error .nameTooLong
        else
          let next := location ++ [name]
          match tree.node? next with
          -- A name that is free may only be the last one.
          | none => if rest = [] then .ok (.vacant next) else .error .noEntry
          | some (.link target) =>
            if rest = [] && !atEnd then .ok (.found next (.link target))
            -- The steps that are left go on from the link's own directory.
            else follow (if target.isAbsolute then [] else location) (steps target ++ rest)
          | some _ => walkWith tree atEnd follow next rest
    | some _ => .error .notDirectory

def walk (tree : FileTree) (atEnd : Bool) : Nat → Location → List Step → Except OsError Place
  | 0 => walkWith tree atEnd fun _ _ => .error .tooManyLinks
  | links + 1 => walkWith tree atEnd (walk tree atEnd links)

def placeWith (tree : FileTree) (atEnd : Bool) (path : Path) : Except IoError Place :=
  if path.bytes.contains 0 then .error .nulInPath
  else if path.bytes = [] then .error (.os .noEntry)
  else if maxPath ≤ path.bytes.length then .error (.os .nameTooLong)
  else (walk tree atEnd maxLinks (tree.start path) (steps path)).mapError .os

def place (tree : FileTree) (path : Path) : Except IoError Place :=
  placeWith tree true path

def find (tree : FileTree) (path : Path) : Except IoError (Location × Node) :=
  match tree.place path with
  | .ok (.found location node) => .ok (location, node)
  | .ok (.vacant _) => .error (.os .noEntry)
  | .error error => .error error

def isDirectory (tree : FileTree) (path : Path) : Bool :=
  match tree.find path with
  | .ok (_, .directory) => true
  | _ => false

-- An opened file can still turn out to be a directory.
inductive OpenFile where
  | content (bytes : Bytes)
  | directory
  deriving DecidableEq

def OpenFile.read : OpenFile → Except IoError Bytes
  | content bytes => .ok bytes
  | directory => .error (.os .isDirectory)

def OpenFile.ofNode : Node → OpenFile
  | .file bytes _ => content bytes
  | .directory => directory
  | .link _ | .null => content []

def openFile (tree : FileTree) (path : Path) : Except IoError OpenFile :=
  (tree.find path).map fun (_, node) => .ofNode node

def read (tree : FileTree) (path : Path) : Except IoError Bytes :=
  (tree.openFile path).bind OpenFile.read

def textOf (bytes : Bytes) : Except IoError String :=
  match Utf8.decode? bytes with
  | some text => .ok text
  | none => .error .notText

def readText (tree : FileTree) (path : Path) : Except IoError String :=
  (tree.read path).bind textOf

def pathOf (location : Location) : Path :=
  if location = [] then ⟨[Path.slash]⟩ else ⟨location.flatMap (Path.slash :: ·)⟩

def canonicalize (tree : FileTree) (path : Path) : Except IoError Path :=
  (tree.find path).map fun (location, _) => pathOf location

def update (tree : FileTree) (path : Path) (change : Bytes → Bytes) : Except IoError FileTree :=
  match tree.place path with
  | .ok (.vacant location) => .ok (tree.put location (.file (change []) false))
  | .ok (.found location (.file content executable)) =>
    .ok (tree.put location (.file (change content) executable))
  | .ok (.found _ .directory) => .error (.os .isDirectory)
  | .ok (.found _ _) => .ok tree
  | .error error => .error error

def write (tree : FileTree) (path : Path) (content : Bytes) : Except IoError FileTree :=
  tree.update path fun _ => content

def append (tree : FileTree) (path : Path) (more : Bytes) : Except IoError FileTree :=
  tree.update path fun content => content ++ more

def makeDirectories (tree : FileTree) (location : Location) : FileTree :=
  (List.range location.length).foldl (fun tree count =>
    let above := location.take (count + 1)
    match tree.node? above with
    | none => tree.put above .directory
    | some _ => tree) tree

def layout (tree : FileTree) (path : Path) : Location :=
  (steps path).foldl (fun location step =>
    match step with
    | .here => location
    | .up => location.dropLast
    | .down name => location ++ [name]) (tree.start path)

end FileTree

end TemplateSync
