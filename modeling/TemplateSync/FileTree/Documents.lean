import TemplateSync.FileTree.Basic

set_option autoImplicit false

namespace TemplateSync.FileTree

-- Letters of the basic alphabet are the same in either case.
def foldCase (byte : UInt8) : UInt8 :=
  if 0x41 ≤ byte && byte ≤ 0x5A then byte + 0x20 else byte

def hasExtension (extension : Bytes) (name : Bytes) : Bool :=
  match Path.extensionOf? name with
  | some found => found.map foldCase = extension.map foldCase
  | none => false

def documentNames? (root : Location) (extension : Bytes) (entry : Location × Node) :
    Option (List Bytes) :=
  let names := entry.1.drop root.length
  match entry.2, names.getLast? with
  | .file _ _, some name =>
    if root.isPrefixOf entry.1 && hasExtension extension name then some names else none
  | _, _ => none

-- Links below the directory are neither followed nor listed; the directory itself may be one.
def documents (tree : FileTree) (root : Path) (extension : String) : List Path :=
  match tree.find root with
  | .ok (location, .directory) =>
    let names := tree.nodes.filterMap (documentNames? location (Utf8.encode extension))
    (names.map fun names => names.foldl Path.joinName root).mergeSort Path.le
  | _ => []

end TemplateSync.FileTree
