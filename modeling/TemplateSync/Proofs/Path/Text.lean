import TemplateSync.Proofs.FileTree.Documents
import TemplateSync.Proofs.Utf8
import TemplateSync.Worker.Project

set_option autoImplicit false

namespace TemplateSync

open Utf8 (IsText)

namespace Path

theorem slash_isText : IsText [slash] :=
  ⟨"/", rfl⟩

theorem empty_isText : IsText [] :=
  ⟨"", rfl⟩

theorem slash_not_mem_encode {c : Char} (apart : c ≠ '/') : slash ∉ String.utf8EncodeChar c := by
  have other : c.val.toNat ≠ 47 := by
    intro same
    apply apart
    exact Char.ext (UInt32.toNat_inj.mp same)
  have value : c.val.toNat = c.toNat := rfl
  simp only [String.utf8EncodeChar, slash]
  split
  next =>
    simp [← UInt8.toNat_inj]
    omega
  next =>
    split
    next =>
      simp [← UInt8.toNat_inj]
      omega
    next => split <;> simp [← UInt8.toNat_inj] <;> omega

section Slashes

variable {c : Char} {text : String}

theorem encodeChar_slash : String.utf8EncodeChar '/' = [slash] := by decide

theorem encodeChar_head : (String.utf8EncodeChar c).head? = some slash ↔ c = '/' := by
  constructor
  next =>
    intro first
    by_contra apart
    exact slash_not_mem_encode apart (List.mem_of_mem_head? first)
  next =>
    rintro rfl
    rw [encodeChar_slash]
    rfl

theorem encodeChar_last : (String.utf8EncodeChar c).getLast? = some slash ↔ c = '/' := by
  constructor
  next =>
    intro last
    by_contra apart
    exact slash_not_mem_encode apart (List.mem_of_getLast? last)
  next =>
    rintro rfl
    rw [encodeChar_slash]
    rfl

theorem encode_head : (Utf8.encode text).head? = some slash ↔ text.toList.head? = some '/' := by
  rw [Utf8.encode_chars]
  cases text.toList with
  | nil => simp
  | cons c chars => simp [String.utf8EncodeChar_ne_nil, encodeChar_head]

theorem encode_last : (Utf8.encode text).getLast? = some slash ↔ text.toList.getLast? = some '/' := by
  rw [Utf8.encode_chars]
  cases text.toList using List.reverseRecOn with
  | nil => simp
  | append_singleton chars c =>
    simp [String.utf8EncodeChar_ne_nil, encodeChar_last]

end Slashes

theorem splitOn_append {front : Bytes} (plain : slash ∉ front) (back : Bytes) :
    (front ++ back).splitOn slash = (back.splitOn slash).modifyHead (front ++ ·) := by
  induction front with
  | nil => cases split : back.splitOn slash <;> simp [split]
  | cons byte front ih =>
    rw [List.mem_cons, not_or] at plain
    rw [List.cons_append, List.splitOn_cons_eq_if_modifyHead, if_neg (by simpa using Ne.symm plain.1), ih plain.2,
      List.modifyHead_modifyHead]
    rfl

theorem pieces_isText {bytes : Bytes} (isText : IsText bytes) : ∀ piece ∈ bytes.splitOn slash, IsText piece := by
  obtain ⟨text, rfl⟩ := isText
  obtain ⟨chars, rfl⟩ : ∃ chars, text = String.ofList chars := ⟨text.toList, by simp⟩
  rw [Utf8.encode_ofList]
  induction chars with
  | nil => simpa using empty_isText
  | cons c chars ih =>
    rw [List.flatMap_cons]
    by_cases same : c = '/'
    next =>
      have octet : String.utf8EncodeChar c = [slash] := by rw [same]; decide
      rw [octet, List.singleton_append, List.splitOn_cons_eq_if_modifyHead, if_pos (by simp)]
      exact List.forall_mem_cons.mpr ⟨empty_isText, ih⟩
    next =>
      rw [splitOn_append (slash_not_mem_encode same)]
      have own : IsText (String.utf8EncodeChar c) := ⟨String.ofList [c], by
        rw [Utf8.encode_ofList, List.flatMap_singleton]⟩
      cases split : (chars.flatMap String.utf8EncodeChar).splitOn slash with
      | nil => simp
      | cons first rest =>
        rw [split] at ih
        have ⟨one, others⟩ := List.forall_mem_cons.mp ih
        exact List.forall_mem_cons.mpr ⟨own.append one, others⟩

theorem intercalate_isText {pieces : List Bytes} (all : ∀ piece ∈ pieces, IsText piece) :
    IsText (List.intercalate [slash] pieces) := by
  induction pieces with
  | nil => exact empty_isText
  | cons piece pieces ih =>
    have ⟨own, others⟩ := List.forall_mem_cons.mp all
    cases pieces with
    | nil => simpa using own
    | cons next rest =>
      rw [List.intercalate_cons_cons]
      exact (own.append slash_isText).append (ih others)

theorem encode_intercalate (texts : List String) :
    Utf8.encode ("/".intercalate texts) = List.intercalate [slash] (texts.map Utf8.encode) := by
  induction texts with
  | nil => rfl
  | cons text texts ih =>
    cases texts with
    | nil => simp
    | cons next rest =>
      rw [String.intercalate_cons_cons, Utf8.encode_append, Utf8.encode_append, ih, List.map_cons, List.map_cons,
        List.map_cons, List.intercalate_cons_cons]
      rfl

theorem parent?_isText {path above : Path} (isText : IsText path.bytes) (parent : path.parent? = some above) :
    IsText above.bytes := by
  rcases parent?_pieces parent with rfl | ⟨pieces, kept, rfl⟩
  next => exact slash_isText
  next => exact intercalate_isText fun piece inside => pieces_isText isText piece (kept.subset inside)

theorem joinName_isText {base : Path} {name : Bytes} (isText : IsText base.bytes) (named : IsText name) :
    IsText (base.joinName name).bytes := by
  simp only [joinName, join]
  split
  next => exact named
  next =>
    split
    next => exact isText.append named
    next => exact isText.append (slash_isText.append named)

theorem names_isText {base : Path} {names : List Bytes} (isText : IsText base.bytes)
    (all : ∀ name ∈ names, IsText name) : IsText (names.foldl joinName base).bytes := by
  induction names generalizing base with
  | nil => exact isText
  | cons name names ih =>
    have ⟨own, others⟩ := List.forall_mem_cons.mp all
    exact ih (joinName_isText isText own) others

end Path

def FileTree.TextNames (tree : FileTree) : Prop :=
  ∀ entry ∈ tree.nodes, ∀ name ∈ entry.1, IsText name

theorem FileTree.documents_isText {tree : FileTree} (named : tree.TextNames) {path : Path}
    (isText : IsText path.bytes) (extension : String) :
    ∀ document ∈ tree.documents path extension, IsText document.bytes := by
  intro document inside
  cases found : tree.find path with
  | error error => simp [documents, found] at inside
  | ok reached =>
    obtain ⟨root, node⟩ := reached
    cases node with
    | file | link | null => simp [documents, found] at inside
    | directory =>
      rw [documents_eq found] at inside
      obtain ⟨names, listed, rfl⟩ := List.mem_map.mp inside
      rw [documentFiles, List.mem_mergeSort, List.mem_filterMap] at listed
      obtain ⟨entry, there, own⟩ := listed
      apply Path.names_isText isText
      intro name last
      apply named entry there
      rw [(documentNames?_iff.mp own).1]
      exact List.mem_append_right _ last

theorem Project.documents_isText {files : FileTree} (named : files.TextNames) (extension : String)
    (descriptor : ProjectDescriptor) :
    ∀ document ∈ (ofDescriptor files extension descriptor).documents, IsText document.bytes := by
  apply FileTree.documents_isText named
  rw [sourceRootOf]
  cases parent : (Path.ofString descriptor.path).parent? with
  | none => exact Path.empty_isText
  | some above => exact Path.parent?_isText ⟨descriptor.path, rfl⟩ parent

end TemplateSync
