import Mathlib.Logic.Relation
import TemplateSync.Host.Watch
import TemplateSync.Proofs.FileTree.Basic

set_option autoImplicit false

namespace TemplateSync

theorem Path.startsWith_self (path : Path) : path.startsWith path = true :=
  List.isPrefixOf_iff_prefix.mpr List.prefix_rfl

def ManifestEntry.folder? (entry : ManifestEntry) : Option Path :=
  (Path.ofString entry.descriptor.path).parent?

-- A directory lies in another one where the names lead, however the two are spelled.
def Manifest.Houses (manifest : Manifest) (files : FileTree) (folder : Path) : Prop :=
  (∃ own, manifest.path.parent? = some own ∧ files.layout own <+: files.layout folder) ∨
    ∃ entry ∈ manifest.entries, ∃ home, entry.folder? = some home ∧ files.layout home <+: files.layout folder

namespace Watch

def Covers (watch : Watch) (files : FileTree) (path : Path) : Prop :=
  ∃ root ∈ watch.roots, files.layout root <+: files.layout path

theorem Covers.below {watch : Watch} {files : FileTree} {path folder : Path} (covers : watch.Covers files folder)
    (below : files.layout folder <+: files.layout path) : watch.Covers files path := by
  obtain ⟨root, inside, within⟩ := covers
  exact ⟨root, inside, within.trans below⟩

end Watch

section Roots

variable {roots : List Path} {entry : ManifestEntry} {entries : List ManifestEntry} {folder : Path}

theorem addRoot_kept (roots : List Path) (entry : ManifestEntry) :
    ∀ root ∈ roots, root ∈ Manifest.addRoot roots entry := by
  intro root inside
  unfold Manifest.addRoot
  split
  next => exact inside
  next =>
    split
    next => exact inside
    next => exact List.mem_append_left _ inside

theorem addRoot_covers (roots : List Path) {home : Path} (own : entry.folder? = some home) :
    ∃ root ∈ Manifest.addRoot roots entry, home.startsWith root = true := by
  rw [ManifestEntry.folder?] at own
  simp only [Manifest.addRoot, own]
  split
  next covered => exact List.any_eq_true.mp covered
  next => exact ⟨home, List.mem_append_right _ List.mem_cons_self, home.startsWith_self⟩

theorem addRoot_from {root : Path} (inside : root ∈ Manifest.addRoot roots entry) :
    root ∈ roots ∨ entry.folder? = some root := by
  unfold Manifest.addRoot at inside
  split at inside
  next => exact .inl inside
  next home own =>
    split at inside
    next => exact .inl inside
    next =>
      rcases List.mem_append.mp inside with before | last
      next => exact .inl before
      next => exact .inr (List.mem_singleton.mp last ▸ own)

theorem foldl_addRoot_kept (entries : List ManifestEntry) {roots : List Path} :
    ∀ root ∈ roots, root ∈ entries.foldl Manifest.addRoot roots := by
  induction entries generalizing roots with
  | nil => exact fun _ inside => inside
  | cons entry entries ih =>
    intro root inside
    exact ih root (addRoot_kept roots entry root inside)

theorem foldl_addRoot_covers {roots : List Path} (listed : entry ∈ entries) {home : Path}
    (own : entry.folder? = some home) :
    ∃ root ∈ entries.foldl Manifest.addRoot roots, home.startsWith root = true := by
  induction entries generalizing roots with
  | nil => cases listed
  | cons first entries ih =>
    rcases List.mem_cons.mp listed with rfl | later
    next =>
      obtain ⟨root, inside, within⟩ := addRoot_covers roots own
      exact ⟨root, foldl_addRoot_kept entries root inside, within⟩
    next => exact ih later

theorem foldl_addRoot_from {roots : List Path} {root : Path}
    (inside : root ∈ entries.foldl Manifest.addRoot roots) :
    root ∈ roots ∨ ∃ entry ∈ entries, entry.folder? = some root := by
  induction entries generalizing roots with
  | nil => exact .inl inside
  | cons first entries ih =>
    rcases ih inside with before | ⟨entry, later, own⟩
    next =>
      rcases addRoot_from before with earlier | own
      next => exact .inl earlier
      next => exact .inr ⟨first, List.mem_cons_self, own⟩
    next => exact .inr ⟨entry, List.mem_cons_of_mem _ later, own⟩

theorem Manifest.roots_absolute {manifest : Manifest} (absolute : manifest.path.isAbsolute = true)
    (direct : ∀ entry ∈ manifest.entries, (Path.ofString entry.descriptor.path).Direct) :
    ∀ root ∈ manifest.roots, root.isAbsolute = true := by
  intro root inside
  rcases foldl_addRoot_from inside with own | ⟨entry, listed, home⟩
  next => exact Path.parent?_isAbsolute absolute (Option.mem_toList.mp own)
  next => exact ((direct entry listed).parent home).absolute

theorem Manifest.roots_cover {manifest : Manifest} (absolute : manifest.path.isAbsolute = true)
    (direct : ∀ entry ∈ manifest.entries, (Path.ofString entry.descriptor.path).Direct)
    (files : FileTree) (folder : Path) :
    (∃ root ∈ manifest.roots, files.layout root <+: files.layout folder) ↔ manifest.Houses files folder := by
  constructor
  next =>
    rintro ⟨root, inside, within⟩
    rcases foldl_addRoot_from inside with own | ⟨entry, listed, home⟩
    next => exact .inl ⟨root, Option.mem_toList.mp own, within⟩
    next => exact .inr ⟨entry, listed, root, home, within⟩
  next =>
    rintro (⟨own, same, within⟩ | ⟨entry, listed, home, own, within⟩)
    next => exact ⟨own, foldl_addRoot_kept _ own (Option.mem_toList.mpr same), within⟩
    next =>
      -- The directory may have been left out for one above it, by its spelling.
      obtain ⟨root, inside, behind⟩ := foldl_addRoot_covers listed own
      have above := files.layout_direct (roots_absolute absolute direct root inside)
        ((direct entry listed).parent own) behind
      exact ⟨root, inside, above.trans within⟩

end Roots

structure Watching where
  watch : Watch
  manifest : Manifest

namespace Watching

/-- A batch of events is handled, with the files as they are then. Only what is watched gives events. -/
inductive Step (w : Watching) : Watching → Prop where
  | handled (files : FileTree) (events : List FileEvent)
      (seen : ∀ event ∈ events, w.watch.Covers files event.path) :
      Step w { w with manifest := (Watch.handle files events w.manifest).state }

end Watching

section Handling

inductive Reread (files : FileTree) (manifest : Manifest) : Manifest → Prop where
  | kept : Reread files manifest manifest
  | read (entries : List ManifestEntry)
      (found : Manifest.readEntries files manifest.path = .ok entries) :
      Reread files manifest { manifest with entries := entries }

variable {files : FileTree} {manifest : Manifest}

theorem Reread.path {next : Manifest} (reread : Reread files manifest next) :
    next.path = manifest.path := by
  cases reread <;> rfl

theorem Reread.trans {middle next : Manifest} (one : Reread files manifest middle)
    (two : Reread files middle next) : Reread files manifest next := by
  cases two with
  | kept => exact one
  | read entries found =>
    have same := one.path
    cases one with
    | kept => exact .read entries found
    | read => exact .read entries (same ▸ found)

theorem reload_reread (files : FileTree) (manifest : Manifest) :
    Reread files manifest (Manifest.reload files manifest).state := by
  unfold Manifest.reload
  split
  next => exact .kept
  next entries found => exact .read entries found

theorem reloadFor_reread (files : FileTree) (change : Change) (manifest : Manifest) :
    Reread files manifest (Watch.reloadFor files change manifest).state := by
  unfold Watch.reloadFor
  split
  next =>
    have reread := reload_reread files manifest
    simp only [Act.bind_run]
    cases (Manifest.reload files manifest).value <;> exact reread
  next => exact .kept

theorem handleFrom_reread (files : FileTree) (events : List FileEvent) (done : List Change)
    (manifest : Manifest) :
    Reread files manifest (Watch.handleFrom files events done manifest).state := by
  induction events generalizing done manifest with
  | nil => exact .kept
  | cons event events ih =>
    simp only [Watch.handleFrom]
    split
    next => exact ih done manifest
    next =>
      simp only [Act.bind_run, Act.get_run]
      cases Watch.classify? manifest event.path with
      | none => exact ih done manifest
      | some change =>
        by_cases reported : done.contains change = true
        next =>
          simp only [if_pos reported]
          exact ih done manifest
        next =>
          simp only [if_neg reported]
          exact (reloadFor_reread files change manifest).trans (ih (change :: done) _)

theorem handle_reread (files : FileTree) (events : List FileEvent) (manifest : Manifest) :
    Reread files manifest (Watch.handle files events manifest).state := by
  have reread := handleFrom_reread files events [] manifest
  simp only [Watch.handle, Act.bind_run]
  split <;> exact reread

theorem handle_one (files : FileTree) (manifest : Manifest) (path : Path) :
    (Watch.handle files [⟨path, false⟩] manifest).value =
      (Watch.classify? manifest path).toList := by
  cases found : Watch.classify? manifest path <;>
    simp [Watch.handle, Watch.handleFrom, found]

end Handling

namespace Watching

variable {w v : Watching}

theorem step_fixed (step : Step w v) :
    v.watch = w.watch ∧ v.manifest.path = w.manifest.path := by
  cases step with
  | handled files events => exact ⟨rfl, (handle_reread files events w.manifest).path⟩

theorem run_fixed (run : Relation.ReflTransGen Step w v) :
    v.watch = w.watch ∧ v.manifest.path = w.manifest.path := by
  induction run with
  | refl => exact ⟨rfl, rfl⟩
  | tail _ last ih =>
    obtain ⟨watch, path⟩ := step_fixed last
    exact ⟨watch.trans ih.1, path.trans ih.2⟩

end Watching

theorem Watch.start_roots {files : FileTree} {manifest : Manifest} {milliseconds : Nat} {watch : Watch}
    {events : List Event} (started : Watch.start files manifest milliseconds = .ok (watch, events)) :
    watch.roots = manifest.roots := by
  simp only [Watch.start] at started
  split at started
  next => cases started
  next =>
    cases started
    rfl

theorem Manifest.load_isAbsolute {files : FileTree} {path : Path} {command : List String} {manifest : Manifest}
    {events : List Event} (loaded : Manifest.load files path command = .ok (manifest, events)) :
    manifest.path.isAbsolute = true := by
  unfold load at loaded
  split at loaded
  next => cases loaded
  next real found =>
    split at loaded <;> cases loaded
    rw [FileTree.canonicalize] at found
    cases place : files.find path with
    | error error =>
      rw [place] at found
      cases found
    | ok there =>
      rw [place] at found
      cases found
      exact FileTree.pathOf_isAbsolute there.1

/-- The directories are those of the start. Where a project lies is told by the names on its path. -/
theorem watched_folders_are_those_of_the_start {disk files : FileTree} {path : Path} {command : List String}
    {manifest : Manifest} {loading : List Event} {milliseconds : Nat} {watch : Watch} {starting : List Event}
    (loaded : Manifest.load disk path command = .ok (manifest, loading))
    (direct : ∀ entry ∈ manifest.entries, (Path.ofString entry.descriptor.path).Direct)
    (started : Watch.start files manifest milliseconds = .ok (watch, starting)) {w : Watching}
    (run : Relation.ReflTransGen Watching.Step ⟨watch, manifest⟩ w) :
    w.watch.roots = manifest.roots ∧
    ∀ entry ∈ w.manifest.entries, ∀ folder, entry.folder? = some folder → ∀ now : FileTree,
      (w.watch.Covers now folder ↔ manifest.Houses now folder) ∧
      (manifest.Houses now folder → ∀ path : Path, now.layout folder <+: now.layout path →
        w.watch.Covers now path ∧ (Watch.handle now [⟨path, false⟩] w.manifest).value =
          (Watch.classify? w.manifest path).toList) := by
  have roots : w.watch.roots = manifest.roots := by
    rw [(Watching.run_fixed run).1]
    exact Watch.start_roots started
  refine ⟨roots, ?_⟩
  intro entry _ folder _ now
  have covers : w.watch.Covers now folder ↔ manifest.Houses now folder := by
    rw [Watch.Covers, roots]
    exact Manifest.roots_cover (Manifest.load_isAbsolute loaded) direct now folder
  refine ⟨covers, ?_⟩
  intro housed path below
  exact ⟨(covers.mpr housed).below below, handle_one now w.manifest path⟩

section Sample

theorem loads_of_toOption {files : FileTree} {path : Path} {command : List String}
    {loaded : Manifest × List Event} (some : (Manifest.load files path command).toOption = .some loaded) :
    Manifest.load files path command = .ok loaded := by
  cases outcome : Manifest.load files path command with
  | error fault =>
    rw [outcome] at some
    cases some
  | ok other =>
    rw [outcome] at some
    cases some
    rfl

def sampleManifest : Manifest :=
  ⟨.ofString "/m/tether.toml", [], []⟩

def sampleProjects : String :=
  "[[project]]\nid=\"00000000-0000-0000-0000-000000000000\"\nname=\"X\"\npath=\"/other/X.csproj\"\n" ++
    "[[project]]\nid=\"00000000-0000-0000-0000-000000000001\"\nname=\"Y\"\npath=\"/m/a/Y.csproj\"\n"

def sampleFiles (text : String) : FileTree :=
  ((FileTree.empty.put [Utf8.encode "m"] .directory).put [Utf8.encode "other"] .directory).put
    [Utf8.encode "m", Utf8.encode "tether.toml"] (.file (Utf8.encode text) false)

def sampleWatch : Watch :=
  ⟨[.ofString "/m"], 200⟩

def sampleRewritten : Watching :=
  ⟨sampleWatch, (Watch.handle (sampleFiles sampleProjects) [⟨sampleManifest.path, false⟩] sampleManifest).state⟩

theorem sample_loaded :
    Manifest.load (sampleFiles "") sampleManifest.path [] =
      .ok (sampleManifest, [.manifestLoaded sampleManifest.path 0]) := by
  refine loads_of_toOption ?_
  decide +kernel

theorem sample_started :
    Watch.start (sampleFiles "") sampleManifest 0 = .ok (sampleWatch, [.watcherStarted 1 200]) := by
  rfl

theorem sample_run : Relation.ReflTransGen Watching.Step ⟨sampleWatch, sampleManifest⟩ sampleRewritten := by
  have seen : ∀ event ∈ [(⟨sampleManifest.path, false⟩ : FileEvent)],
      sampleWatch.Covers (sampleFiles sampleProjects) event.path := by
    intro event inside
    rw [List.mem_singleton.mp inside]
    exact ⟨.ofString "/m", List.mem_cons_self, by decide⟩
  exact .single (.handled (sampleFiles sampleProjects) _ seen)

theorem sample_listed : (sampleRewritten.manifest.entries.map fun entry => entry.descriptor.path) =
    ["/other/X.csproj", "/m/a/Y.csproj"] := by
  decide +kernel

theorem sample_entry {path : String} (inside : path ∈ ["/other/X.csproj", "/m/a/Y.csproj"]) :
    ∃ entry ∈ sampleRewritten.manifest.entries, entry.descriptor.path = path := by
  rw [← sample_listed] at inside
  exact List.mem_map.mp inside

theorem sample_direct :
    ∀ entry ∈ sampleRewritten.manifest.entries, (Path.ofString entry.descriptor.path).Direct := by
  have all : ∀ path ∈ ["/other/X.csproj", "/m/a/Y.csproj"], (Path.ofString path).Direct := by decide
  rw [← sample_listed] at all
  exact fun entry inside => all _ (List.mem_map_of_mem inside)

theorem added_project_is_not_watched : ∃ files manifest loading watch starting w entry folder,
    Manifest.load files manifest.path [] = .ok (manifest, loading) ∧
    Watch.start files manifest 0 = .ok (watch, starting) ∧
    Relation.ReflTransGen Watching.Step ⟨watch, manifest⟩ w ∧ entry ∈ w.manifest.entries ∧
    (∀ entry ∈ w.manifest.entries, (Path.ofString entry.descriptor.path).Direct) ∧
    entry.descriptor.path = "/other/X.csproj" ∧ entry.folder? = some folder ∧
    ∀ now, ¬ w.watch.Covers now folder := by
  obtain ⟨entry, listed, same⟩ := sample_entry List.mem_cons_self
  have folder : entry.folder? = some (.ofString "/other") := by
    rw [ManifestEntry.folder?, same]
    decide
  refine ⟨_, _, _, _, _, _, entry, _, sample_loaded, sample_started, sample_run, listed, sample_direct, same,
    folder, ?_⟩
  rintro now ⟨root, inside, within⟩
  have watched : now.layout (.ofString "/m") = [Utf8.encode "m"] := by
    rw [FileTree.layout_components]
    rfl
  have elsewhere : now.layout (.ofString "/other") = [Utf8.encode "other"] := by
    rw [FileTree.layout_components]
    rfl
  rw [List.mem_singleton.mp inside, watched, elsewhere] at within
  revert within
  decide

theorem project_below_the_manifest_is_watched :
    Manifest.load (sampleFiles "") sampleManifest.path [] =
      .ok (sampleManifest, [.manifestLoaded sampleManifest.path 0]) ∧
    Watch.start (sampleFiles "") sampleManifest 0 = .ok (sampleWatch, [.watcherStarted 1 200]) ∧
    Relation.ReflTransGen Watching.Step ⟨sampleWatch, sampleManifest⟩ sampleRewritten ∧
    (∃ entry ∈ sampleRewritten.manifest.entries, entry.folder? = some (.ofString "/m/a")) ∧
    sampleRewritten.watch.Covers (sampleFiles sampleProjects) (.ofString "/m/a/Index.cshtml") := by
  obtain ⟨entry, listed, same⟩ := sample_entry (List.mem_cons_of_mem _ List.mem_cons_self)
  have folder : entry.folder? = some (.ofString "/m/a") := by
    rw [ManifestEntry.folder?, same]
    decide
  have housed : sampleManifest.Houses (sampleFiles sampleProjects) (.ofString "/m/a") :=
    .inl ⟨.ofString "/m", by decide, by decide⟩
  have outcome := (watched_folders_are_those_of_the_start sample_loaded (by rintro _ ⟨⟩) sample_started
    sample_run).2
    entry listed _ folder (sampleFiles sampleProjects)
  exact ⟨sample_loaded, sample_started, sample_run, ⟨entry, listed, folder⟩,
    (outcome.2 housed (.ofString "/m/a/Index.cshtml") (by decide)).1⟩

end Sample

end TemplateSync
