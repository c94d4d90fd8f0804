import TemplateSync.Proofs.Path.Text

set_option autoImplicit false

namespace TemplateSync

theorem join_slashes {texts : List String} (some : texts ≠ []) :
    String.join (texts.map ("/" ++ ·)) = "/" ++ "/".intercalate texts := by
  induction texts with
  | nil => exact absurd rfl some
  | cons text texts ih =>
    cases texts with
    | nil => simp
    | cons next rest =>
      rw [List.map_cons, String.join_cons, ih (by simp), String.intercalate_cons_cons]
      simp only [String.append_assoc]

namespace Project

def IsPlain (name : String) : Prop :=
  name ≠ "" ∧ name ≠ "." ∧ name ≠ ".." ∧ '/' ∉ name.toList

theorem isPlain_of_isName {name : String} (isName : Path.IsName (Utf8.encode name)) : IsPlain name := by
  have other {text : String} (apart : ¬ Path.IsName (Utf8.encode text)) : name ≠ text := by
    rintro rfl
    exact apart isName
  refine ⟨other (by decide +kernel), other (by decide +kernel), other (by decide +kernel), ?_⟩
  intro inside
  apply isName.closed
  obtain ⟨chars, rfl⟩ : ∃ chars, name = String.ofList chars := ⟨name.toList, by simp⟩
  rw [String.toList_ofList] at inside
  rw [Utf8.encode_ofList, List.mem_flatMap]
  exact ⟨'/', inside, by decide⟩

theorem relativePath_names {project : Project} {document : Path} {names : List String} (deep : names ≠ [])
    (below : document.components = project.sourceRoot.components ++ names.map fun name => .name (Utf8.encode name)) :
    project.relativePath document = "/" ++ "/".intercalate names := by
  have inside : document.startsWith project.sourceRoot = true := by
    rw [Path.startsWith, below, List.isPrefixOf_iff_prefix]
    exact List.prefix_append ..
  have shown : (document.below project.sourceRoot).map (fun component => "/" ++ component.display) =
      names.map ("/" ++ ·) := by
    simp [Path.below, inside, below, Path.Component.display, Function.comp_def]
  rw [relativePath, shown, join_slashes deep]

structure Located (files : FileTree) (extension : String) (project : Project) (document : Path)
    (names : List String) : Prop where
  file : ∃ root, files.find project.sourceRoot = .ok (root, .directory) ∧
    files.IsDocument root extension (names.map Utf8.encode)
  deep : names ≠ []
  plain : ∀ name ∈ names, IsPlain name
  below : document.components = project.sourceRoot.components ++ names.map fun name => .name (Utf8.encode name)
  relative : project.relativePath document = "/" ++ "/".intercalate names
  rejoined : project.sourceRoot.join (.ofString ("/".intercalate names)) = document

theorem located {files : FileTree} (wellFormed : files.WellFormed) (named : files.TextNames) {extension : String}
    {project : Project} {document : Path}
    (listed : document ∈ files.documents project.sourceRoot extension) :
    ∃ names, Located files extension project document names := by
  cases found : files.find project.sourceRoot with
  | error error => simp [FileTree.documents, found] at listed
  | ok reached =>
    obtain ⟨root, node⟩ := reached
    cases node with
    | file | link | null => simp [FileTree.documents, found] at listed
    | directory =>
      rw [FileTree.documents_eq found] at listed
      obtain ⟨names, inside, rfl⟩ := List.mem_map.mp listed
      have isDocument := (FileTree.mem_documentFiles wellFormed).mp inside
      have isNames := isDocument.named wellFormed
      obtain ⟨content, executable, under, -⟩ := isDocument
      obtain ⟨deep, there⟩ := (FileTree.below_iff wellFormed).mp under
      have entry := (FileTree.mem_nodes_iff (by simp [deep])).mp there
      have spelled : (names.map Utf8.decode).map Utf8.encode = names :=
        Utf8.encode_decode_all fun name last => named _ entry name (List.mem_append_right _ last)
      have below : (names.foldl Path.joinName project.sourceRoot).components =
          project.sourceRoot.components ++ (names.map Utf8.decode).map fun name => .name (Utf8.encode name) := by
        rw [Path.names_components _ isNames]
        nth_rewrite 1 [← spelled]
        rw [List.map_map]
        rfl
      refine ⟨names.map Utf8.decode, ⟨root, found, ?_⟩, by simpa using deep, ?_, below,
        relativePath_names (by simpa using deep) below, ?_⟩
      next =>
        rw [spelled]
        exact (FileTree.mem_documentFiles wellFormed).mp inside
      next =>
        intro text last
        apply isPlain_of_isName
        apply isNames
        rw [← spelled]
        exact List.mem_map_of_mem last
      next =>
        rw [Path.foldl_joinName isNames deep, Path.ofString, Path.encode_intercalate, spelled]

theorem relative_paths_identify_documents {files : FileTree} (wellFormed : files.WellFormed)
    (named : files.TextNames) (extension : String) (descriptor : ProjectDescriptor) :
    let project := ofDescriptor files extension descriptor
    (∀ document ∈ project.documents, ∃ names, Located files extension project document names) ∧
    ∀ document ∈ project.documents, ∀ other ∈ project.documents,
      project.relativePath document = project.relativePath other → document = other := by
  intro project
  have each (document : Path) (listed : document ∈ project.documents) :
      ∃ names, Located files extension project document names :=
    located wellFormed named listed
  refine ⟨each, ?_⟩
  intro document listed other beside same
  obtain ⟨names, one⟩ := each document listed
  obtain ⟨others, two⟩ := each other beside
  rw [one.relative, two.relative, String.append_right_inj] at same
  rw [← one.rejoined, ← two.rejoined, same]

section Example

def siteFiles : FileTree :=
  [(["srv"], Node.directory), (["srv", "web"], .directory), (["srv", "web", "Views"], .directory),
    (["srv", "web", "Views", "Über.cshtml"], .file [] false), (["srv", "web", "a.cshtml"], .file [] false)].foldl
    (fun tree entry => tree.put (entry.1.map Utf8.encode) entry.2) .empty

def siteProject : Project :=
  ofDescriptor siteFiles "cshtml" ⟨.ofNat 0, "Web", "./srv//web/.././web//Web.csproj", []⟩

/-- The source root keeps its dots and slashes, and the relative path has none of them. -/
theorem document_behind_two_dots_is_located :
    siteFiles.WellFormed ∧ siteFiles.TextNames ∧
    siteProject.sourceRoot = .ofString "./srv//web/.././web" ∧
    .ofString "./srv//web/.././web/Views/Über.cshtml" ∈ siteProject.documents ∧
    (∃ names, Located siteFiles "cshtml" siteProject (.ofString "./srv//web/.././web/Views/Über.cshtml") names) ∧
    siteProject.relativePath (.ofString "./srv//web/.././web/Views/Über.cshtml") = "/Views/Über.cshtml" := by
  have wellFormed : siteFiles.WellFormed := by decide +kernel
  have named : siteFiles.TextNames := by
    unfold FileTree.TextNames
    decide +kernel
  have root : siteProject.sourceRoot = .ofString "./srv//web/.././web" := by decide +kernel
  have found : siteFiles.find siteProject.sourceRoot = .ok (["srv", "web"].map Utf8.encode, .directory) := by
    decide +kernel
  have listed : .ofString "./srv//web/.././web/Views/Über.cshtml" ∈ siteProject.documents := by
    change _ ∈ siteFiles.documents siteProject.sourceRoot "cshtml"
    simp only [FileTree.documents, found, List.mem_mergeSort]
    decide +kernel
  have located := (relative_paths_identify_documents wellFormed named "cshtml" _).1 _ listed
  exact ⟨wellFormed, named, root, listed, located, by decide +kernel⟩

end Example

end Project

end TemplateSync
