import Mathlib.Data.List.Forall2
import Mathlib.Data.List.TakeDrop
import Mathlib.Data.List.TakeWhile
import TemplateSync.FileTree.Documents
import TemplateSync.Proofs.FileTree.Basic
import TemplateSync.Proofs.Path.Order

set_option autoImplicit false

namespace TemplateSync

namespace Path

def IsUpper (byte : UInt8) : Prop :=
  0x41 ≤ byte ∧ byte ≤ 0x5A

def SameLetter (a b : UInt8) : Prop :=
  a = b ∨ IsUpper a ∧ b = a + 0x20 ∨ IsUpper b ∧ a = b + 0x20

def HasExtension (extension name : Bytes) : Prop :=
  ∃ stem own, name = stem ++ dot :: own ∧ stem ≠ [] ∧ dot ∉ own ∧ List.Forall₂ SameLetter own extension

theorem extensionOf?_iff {name own : Bytes} :
    extensionOf? name = some own ↔ ∃ stem, name = stem ++ dot :: own ∧ stem ≠ [] ∧ dot ∉ own := by
  rw [extensionOf?, List.span_eq_takeWhile_dropWhile]
  constructor
  next =>
    intro found
    split at found
    next ended first second rest whole =>
      cases found
      obtain ⟨taken, left⟩ := Prod.mk.inj whole
      have letters := List.takeWhile_append_dropWhile (p := (· != dot)) (l := name.reverse)
      have first_eq : first = dot := by
        have stop := List.head?_dropWhile_not (· != dot) name.reverse
        simpa [left] using stop
      rw [taken, left, first_eq] at letters
      refine ⟨(second :: rest).reverse, ?_, by simp, ?_⟩
      next => simpa using congrArg List.reverse letters.symm
      next =>
        intro inside
        rw [List.mem_reverse, ← taken] at inside
        simpa using List.mem_takeWhile_imp inside
    next => cases found
  next =>
    rintro ⟨stem, rfl, some, plain⟩
    have ended : ∀ byte ∈ own.reverse, (byte != dot) = true := by
      intro byte inside
      have apart : byte ≠ dot := ne_of_mem_of_not_mem (List.mem_reverse.mp inside) plain
      simpa using apart
    obtain ⟨front, last, rfl⟩ := (List.eq_nil_or_concat' stem).resolve_left some
    simp [List.takeWhile_append_of_pos ended, List.dropWhile_append_of_pos ended]

end Path

namespace FileTree

theorem foldCase_iff {a b : UInt8} : foldCase a = foldCase b ↔ Path.SameLetter a b := by
  simp only [foldCase, Path.SameLetter, Path.IsUpper, Bool.and_eq_true, decide_eq_true_eq]
  grind

theorem foldCase_map_iff {own extension : Bytes} :
    own.map foldCase = extension.map foldCase ↔ List.Forall₂ Path.SameLetter own extension := by
  induction own generalizing extension with
  | nil => cases extension <;> simp
  | cons letter own ih => cases extension <;> simp [foldCase_iff, ih]

theorem hasExtension_iff {extension name : Bytes} :
    hasExtension extension name = true ↔ Path.HasExtension extension name := by
  have found (own : Bytes) (ending : Path.extensionOf? name = some own) :
      hasExtension extension name = true ↔ List.Forall₂ Path.SameLetter own extension := by
    simp [hasExtension, ending, foldCase_map_iff]
  constructor
  next =>
    intro has
    cases ending : Path.extensionOf? name with
    | none => simp [hasExtension, ending] at has
    | some own =>
      obtain ⟨stem, whole, some, plain⟩ := Path.extensionOf?_iff.mp ending
      exact ⟨stem, own, whole, some, plain, (found own ending).mp has⟩
  next =>
    rintro ⟨stem, own, whole, some, plain, same⟩
    exact (found own (Path.extensionOf?_iff.mpr ⟨stem, whole, some, plain⟩)).mpr same

/-- What is found below a directory by going down its directories, links not followed. -/
inductive Below (tree : FileTree) : Location → List Bytes → Node → Prop where
  | child {location : Location} {name : Bytes} {node : Node}
      (there : tree.node? (location ++ [name]) = some node) : Below tree location [name] node
  | deeper {location : Location} {name : Bytes} {names : List Bytes} {node : Node}
      (directory : tree.node? (location ++ [name]) = some .directory)
      (below : Below tree (location ++ [name]) names node) : Below tree location (name :: names) node

def IsDocument (tree : FileTree) (root : Location) (extension : String) (names : List Bytes) : Prop :=
  ∃ content executable, tree.Below root names (.file content executable) ∧
    ∃ name, names.getLast? = some name ∧ Path.HasExtension (Utf8.encode extension) name

variable {tree : FileTree} {root location : Location} {names : List Bytes} {node : Node}

theorem below_iff (wellFormed : tree.WellFormed) :
    tree.Below location names node ↔ names ≠ [] ∧ tree.node? (location ++ names) = some node := by
  constructor
  next =>
    intro below
    induction below with
    | child there => exact ⟨by simp, there⟩
    | deeper directory below ih => exact ⟨by simp, by simpa using ih.2⟩
  next =>
    rintro ⟨deep, there⟩
    -- Each node stands in a directory, so all those on the way down are there.
    induction names generalizing location with
    | nil => exact absurd rfl deep
    | cons name names ih =>
      rw [List.append_cons] at there
      cases names with
      | nil =>
        apply Below.child
        simpa using there
      | cons next rest =>
        have directory := wellFormed.above (by simp) there
        exact .deeper directory (ih (by simp) there)

theorem documentNames?_iff {extension : Bytes} {entry : Location × Node} :
    documentNames? root extension entry = some names ↔
      entry.1 = root ++ names ∧ (∃ content executable, entry.2 = .file content executable) ∧
        ∃ name, names.getLast? = some name ∧ Path.HasExtension extension name := by
  obtain ⟨location, node⟩ := entry
  constructor
  next =>
    intro found
    cases node with
    | directory | link _ | null => simp [documentNames?] at found
    | file content executable =>
      cases last : (location.drop root.length).getLast? with
      | none => simp [documentNames?, last] at found
      | some name =>
        simp only [documentNames?, last] at found
        split at found
        next both =>
          cases found
          rw [Bool.and_eq_true, List.isPrefixOf_iff_prefix, hasExtension_iff] at both
          exact ⟨(List.prefix_iff_eq_append.mp both.1).symm, ⟨content, executable, rfl⟩, name, last, both.2⟩
        next => cases found
  next =>
    rintro ⟨rfl, ⟨content, executable, rfl⟩, name, last, has⟩
    simp [documentNames?, last, hasExtension_iff.mpr has]

def documentFiles (tree : FileTree) (path : Path) (root : Location) (extension : String) : List (List Bytes) :=
  (tree.nodes.filterMap (documentNames? root (Utf8.encode extension))).mergeSort
    fun names others => (names.foldl Path.joinName path).le (others.foldl Path.joinName path)

variable {path : Path} {extension : String}

theorem documents_eq (found : tree.find path = .ok (root, .directory)) :
    tree.documents path extension =
      (tree.documentFiles path root extension).map fun names => names.foldl Path.joinName path := by
  simp only [documents, found]
  exact (@List.map_mergeSort _ _ _ Path.le (fun names : List Bytes => names.foldl Path.joinName path) _
    fun _ _ _ _ => rfl).symm

theorem mem_documentFiles (wellFormed : tree.WellFormed) :
    names ∈ tree.documentFiles path root extension ↔ tree.IsDocument root extension names := by
  rw [documentFiles, List.mem_mergeSort, List.mem_filterMap]
  constructor
  next =>
    rintro ⟨⟨location, node⟩, inside, found⟩
    obtain ⟨rfl, ⟨content, executable, rfl⟩, name, last, has⟩ := documentNames?_iff.mp found
    have deep : names ≠ [] := by
      rintro rfl
      cases last
    have there := (mem_nodes_iff (by simp [deep])).mpr inside
    exact ⟨content, executable, (below_iff wellFormed).mpr ⟨deep, there⟩, name, last, has⟩
  next =>
    rintro ⟨content, executable, below, name, last, has⟩
    obtain ⟨deep, there⟩ := (below_iff wellFormed).mp below
    have inside := (mem_nodes_iff (by simp [deep])).mp there
    exact ⟨_, inside, documentNames?_iff.mpr ⟨rfl, ⟨content, executable, rfl⟩, name, last, has⟩⟩

theorem documentFiles_nodup (tree : FileTree) (path : Path) (root : Location) (extension : String) :
    (tree.documentFiles path root extension).Nodup := by
  have apart : tree.nodes.Pairwise fun one other => one.1 ≠ other.1 := List.pairwise_map.mp tree.distinct
  apply (List.mergeSort_perm _ _).nodup_iff.mpr
  apply List.pairwise_filterMap.mpr
  apply apart.imp
  intro one other different names own names' others same
  apply different
  rw [(documentNames?_iff.mp own).1, (documentNames?_iff.mp others).1, same]

theorem IsDocument.named (wellFormed : tree.WellFormed) {extension : String}
    (isDocument : tree.IsDocument root extension names) : ∀ name ∈ names, Path.IsName name := by
  obtain ⟨content, executable, below, -⟩ := isDocument
  obtain ⟨-, there⟩ := (below_iff wellFormed).mp below
  intro name inside
  exact wellFormed.names _ _ there name (List.mem_append_right _ inside)

theorem key_apart {names others : List Bytes} (all : ∀ name ∈ names, Path.IsName name)
    (same : ∀ name ∈ others, Path.IsName name) (apart : names ≠ others) (root : Path) :
    (names.foldl Path.joinName root).key ≠ (others.foldl Path.joinName root).key := by
  intro equal
  apply apart
  have components := Path.Component.key_injective.list_map equal
  rw [Path.names_components root all, Path.names_components root same] at components
  exact List.map_injective_iff.mpr (fun _ _ => Path.Component.name.inj) (List.append_cancel_left components)

theorem documentFiles_sorted (wellFormed : tree.WellFormed) :
    (tree.documentFiles path root extension).Pairwise fun names others =>
      (names.foldl Path.joinName path).Before (others.foldl Path.joinName path) := by
  have sorted : (tree.documentFiles path root extension).Pairwise fun names others =>
      (names.foldl Path.joinName path).le (others.foldl Path.joinName path) = true := by
    apply List.pairwise_mergeSort
    next =>
      intro one two three first second
      rw [Path.le_iff] at *
      exact first.trans second
    next =>
      intro one two
      rw [Bool.or_eq_true, Path.le_iff, Path.le_iff]
      exact le_total _ _
  -- No two files have the same key, so the order is strict.
  apply (sorted.and (documentFiles_nodup tree path root extension)).imp_of_mem
  intro names others one two pair
  have apart := key_apart (((mem_documentFiles wellFormed).mp one).named wellFormed)
    (((mem_documentFiles wellFormed).mp two).named wellFormed) pair.2 path
  exact lt_of_le_of_ne (Path.le_iff.mp pair.1) apart

theorem documents_are_exact (wellFormed : tree.WellFormed) (path : Path) (extension : String) :
    (∀ root, tree.find path = .ok (root, .directory) → ∃ files : List (List Bytes),
      files.Nodup ∧ (∀ names, names ∈ files ↔ tree.IsDocument root extension names) ∧
      (∀ names ∈ files,
        (names.foldl Path.joinName path).components = path.components ++ names.map .name) ∧
      tree.documents path extension = files.map (fun names => names.foldl Path.joinName path) ∧
      (tree.documents path extension).Pairwise Path.Before) ∧
    (tree.isDirectory path = false → tree.documents path extension = []) := by
  constructor
  next =>
    intro root found
    refine ⟨tree.documentFiles path root extension, documentFiles_nodup .., fun _ => mem_documentFiles wellFormed,
      ?_, documents_eq found, ?_⟩
    next =>
      intro names inside
      exact Path.names_components path (((mem_documentFiles wellFormed).mp inside).named wellFormed)
    next =>
      rw [documents_eq found, List.pairwise_map]
      exact documentFiles_sorted wellFormed
  next =>
    intro other
    simp only [isDirectory] at other
    simp only [documents]
    split at other <;> simp_all

section Example

-- A site behind a link, with a link inside, an extension in capitals and a name that only looks like one.
def siteTree : FileTree :=
  [(["srv"], Node.directory), (["srv", ".cshtml"], .file [] false), (["srv", "a.cshtml"], .file [] false),
    (["srv", "a"], .directory), (["srv", "a", "Index.CSHTML"], .file [] false),
    (["srv", "b"], .link (.ofString "/srv/a")), (["www"], .link (.ofString "/srv"))].foldl
    (fun tree entry => tree.put (entry.1.map Utf8.encode) entry.2) empty

/-- What lies in the directory `a` comes before the file `a.cshtml`. -/
theorem site_behind_a_link_is_listed :
    siteTree.WellFormed ∧
    siteTree.documents (.ofString "/www") "cshtml" = ["/www/a/Index.CSHTML", "/www/a.cshtml"].map .ofString ∧
    (siteTree.documents (.ofString "/www") "cshtml").Pairwise Path.Before ∧
    siteTree.documents (.ofString "/www/a.cshtml") "cshtml" = [] := by
  have wellFormed : siteTree.WellFormed := by decide +kernel
  have found : siteTree.find (.ofString "/www") = .ok ([Utf8.encode "srv"], .directory) := by decide +kernel
  have listed : siteTree.nodes.filterMap (documentNames? [Utf8.encode "srv"] (Utf8.encode "cshtml")) =
      [["a", "Index.CSHTML"].map Utf8.encode, ["a.cshtml"].map Utf8.encode] := by decide +kernel
  obtain ⟨files, -, -, -, -, sorted⟩ :=
    (documents_are_exact wellFormed (.ofString "/www") "cshtml").1 [Utf8.encode "srv"] found
  refine ⟨wellFormed, ?_, sorted, ?_⟩
  next =>
    rw [documents_eq found, documentFiles, listed, List.mergeSort_of_pairwise (by decide +kernel)]
    decide +kernel
  next => exact (documents_are_exact wellFormed (.ofString "/www/a.cshtml") "cshtml").2 (by decide +kernel)

end Example

end FileTree

end TemplateSync
