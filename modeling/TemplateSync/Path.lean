import TemplateSync.Utf8

set_option autoImplicit false

namespace TemplateSync

structure Path where
  bytes : Bytes
  deriving DecidableEq

namespace Path

def slash : UInt8 := 0x2F

def dot : UInt8 := 0x2E

inductive Component where
  | root
  | current
  | parent
  | name (bytes : Bytes)
  deriving DecidableEq

def ofString (text : String) : Path :=
  ⟨Utf8.encode text⟩

def display (path : Path) : String :=
  Utf8.decode path.bytes

def pieces (path : Path) : List Bytes :=
  path.bytes.splitOn slash

def ofPieces (pieces : List Bytes) : Path :=
  ⟨List.intercalate [slash] pieces⟩

-- Nothing between two slashes and a single dot mean the directory itself.
def isIdle (piece : Bytes) : Bool :=
  piece = [] || piece = [dot]

def Component.ofPiece? (piece : Bytes) : Option Component :=
  if isIdle piece then none else if piece = [dot, dot] then some parent else some (name piece)

-- A dot counts at the very start only.
def head (first : Bytes) (rest : List Bytes) : List Component :=
  if first = [] then if rest = [] then [] else [.root]
  else if first = [dot] then [.current]
  else (Component.ofPiece? first).toList

def components (path : Path) : List Component :=
  match path.pieces with
  | [] => []
  | first :: rest => head first rest ++ rest.filterMap Component.ofPiece?

def Same (p q : Path) : Prop :=
  p.components = q.components

instance (p q : Path) : Decidable (Same p q) :=
  inferInstanceAs (Decidable (p.components = q.components))

def startsWith (path base : Path) : Bool :=
  base.components.isPrefixOf path.components

def below (path base : Path) : List Component :=
  if path.startsWith base then path.components.drop base.components.length else path.components

def isAbsolute (path : Path) : Bool :=
  path.bytes.head? = some slash

def dropIdle (reversed : List Bytes) : List Bytes :=
  reversed.dropWhile isIdle

-- The spelling without its last component; the root directory and the empty path have none.
def parent? (path : Path) : Option Path :=
  match path.pieces with
  | [] => none
  | first :: rest =>
    match dropIdle rest.reverse with
    | _ :: above =>
      match (dropIdle above).reverse with
      | [] => some ⟨if first = [] then [slash] else first⟩
      | above => some (ofPieces (first :: above))
    | [] => if first = [] then none else some ⟨[]⟩

def extensionOf? (name : Bytes) : Option Bytes :=
  match name.reverse.span (· != dot) with
  | (extension, _ :: _ :: _) => some extension.reverse
  | _ => none

-- An absolute path replaces the base.
def join (base path : Path) : Path :=
  if path.isAbsolute then path
  else if base.bytes = [] || base.bytes.getLast? = some slash then ⟨base.bytes ++ path.bytes⟩
  else ⟨base.bytes ++ slash :: path.bytes⟩

def joinName (base : Path) (name : Bytes) : Path :=
  base.join ⟨name⟩

def Component.display : Component → String
  | root => "/"
  | current => "."
  | parent => ".."
  | name bytes => Utf8.decode bytes

def Component.rank : Component → Nat
  | root => 0
  | current => 1
  | parent => 2
  | name _ => 3

def bytesLe : Bytes → Bytes → Bool
  | [], _ => true
  | _ :: _, [] => false
  | a :: as, b :: bs => a < b || (a = b && bytesLe as bs)

def Component.le : Component → Component → Bool
  | name a, name b => bytesLe a b
  | a, b => a.rank ≤ b.rank

def componentsLe : List Component → List Component → Bool
  | [], _ => true
  | _ :: _, [] => false
  | a :: as, b :: bs => if a = b then componentsLe as bs else a.le b

-- Component by component, names by their octets, the shorter path first.
def le (p q : Path) : Bool :=
  componentsLe p.components q.components

end Path

end TemplateSync
