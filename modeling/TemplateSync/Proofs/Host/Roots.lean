import TemplateSync.Proofs.Host.Watching
import TemplateSync.Proofs.Path.Components

set_option autoImplicit false

namespace TemplateSync

/-- The directory of a project is spelled behind a root. If it does not go up from there and leave it, it lies
inside that root by its names; and so it does on a disk without links. -/
theorem project_folders_lie_inside_the_roots (files : FileTree) (manifest : Manifest) {entry : ManifestEntry}
    (listed : entry ∈ manifest.entries) {folder : Path} (own : entry.folder? = some folder) :
    (∃ root ∈ manifest.roots, folder.startsWith root = true) ∧
    ∀ root ∈ manifest.roots, folder.startsWith root = true →
      FileTree.staysIn 0 (folder.below root) = true →
      files.layout root <+: files.layout folder ∧
      (files.Linkless → ∀ above there, files.find root = .ok above → files.find folder = .ok there →
        above.1 <+: there.1) := by
  constructor
  next => exact foldl_addRoot_covers listed own
  next =>
    intro root _ behind stays
    have inside : files.layout root <+: files.layout folder :=
      files.layout_prefix (Path.startsWith_iff.mp behind) stays
    refine ⟨inside, ?_⟩
    intro linkless above there rootFound folderFound
    rwa [FileTree.find_layout linkless rootFound, FileTree.find_layout linkless folderFound]

section Sample

def listing (path : String) : String :=
  "[[project]]\nid=\"00000000-0000-0000-0000-000000000000\"\nname=\"X\"\npath=\"" ++ path ++ "\"\n"

def listedAt (path : String) : Manifest :=
  ⟨sampleManifest.path, [], [⟨⟨.ofNat 0, "X", path, []⟩, none⟩]⟩

theorem sampleFiles_linkless (text : String) : (sampleFiles text).Linkless := by
  apply FileTree.Linkless.put _ _ (by simp)
  apply FileTree.Linkless.put _ _ (by simp)
  exact FileTree.empty_linkless.put _ (by simp)

theorem neighbour_loads :
    Manifest.load (sampleFiles (listing "../other/X.csproj")) sampleManifest.path [] =
      .ok (listedAt "/m/../other/X.csproj", [.manifestLoaded sampleManifest.path 1]) := by
  refine loads_of_toOption ?_
  decide +kernel

/-- The directory of a project beside the manifest's own one is spelled behind it, but lies inside no root. -/
theorem neighbouring_project_is_not_inside : ∃ files path manifest events entry folder,
    Manifest.load files path [] = .ok (manifest, events) ∧ files.Linkless ∧ entry ∈ manifest.entries ∧
    entry.folder? = some folder ∧ ∀ root ∈ manifest.roots, ¬ files.layout root <+: files.layout folder := by
  refine ⟨_, _, _, _, _, .ofString "/m/../other", neighbour_loads, sampleFiles_linkless _, List.mem_cons_self, ?_, ?_⟩
  next => decide
  next => decide +kernel

def branchFiles : FileTree :=
  ((sampleFiles (listing "Web/../Api/Api.csproj")).put [Utf8.encode "m", Utf8.encode "Web"] .directory).put
    [Utf8.encode "m", Utf8.encode "Api"] .directory

theorem branch_loads :
    Manifest.load branchFiles sampleManifest.path [] =
      .ok (listedAt "/m/Web/../Api/Api.csproj", [.manifestLoaded sampleManifest.path 1]) := by
  refine loads_of_toOption ?_
  decide +kernel

theorem branchFiles_linkless : branchFiles.Linkless := by
  apply FileTree.Linkless.put _ _ (by simp)
  exact (sampleFiles_linkless _).put _ (by simp)

theorem project_behind_two_dots_is_inside :
    Manifest.load branchFiles sampleManifest.path [] =
      .ok (listedAt "/m/Web/../Api/Api.csproj", [.manifestLoaded sampleManifest.path 1]) ∧
    branchFiles.layout (.ofString "/m") <+: branchFiles.layout (.ofString "/m/Web/../Api") ∧
    ∃ above there, branchFiles.find (.ofString "/m") = .ok above ∧
      branchFiles.find (.ofString "/m/Web/../Api") = .ok there ∧ above.1 <+: there.1 := by
  have own : (⟨⟨.ofNat 0, "X", "/m/Web/../Api/Api.csproj", []⟩, none⟩ : ManifestEntry).folder? =
      some (.ofString "/m/Web/../Api") := by decide
  have inside := (project_folders_lie_inside_the_roots branchFiles (listedAt "/m/Web/../Api/Api.csproj")
    List.mem_cons_self own).2 (.ofString "/m") (by decide) (by decide) (by decide)
  have above : branchFiles.find (.ofString "/m") = .ok ([Utf8.encode "m"], .directory) := by rfl
  have there : branchFiles.find (.ofString "/m/Web/../Api") =
      .ok ([Utf8.encode "m", Utf8.encode "Api"], .directory) := by rfl
  exact ⟨branch_loads, inside.1, _, _, above, there, inside.2 branchFiles_linkless _ _ above there⟩

end Sample

end TemplateSync
