import TemplateSync.Proofs.Host.EventBatches
import TemplateSync.Proofs.Host.ManifestText
import TemplateSync.Proofs.Trace

set_option autoImplicit false

namespace TemplateSync

namespace Manifest

variable {files : FileTree} {path : Path} {folder : String} {manifest : Manifest} {entries others : List ManifestEntry}

theorem load_reads {command : List String} {events : List Event}
    (loaded : load files path command = .ok (manifest, events)) :
    manifest.path.isAbsolute = true ∧ readEntries files manifest.path = .ok manifest.entries := by
  refine ⟨load_isAbsolute loaded, ?_⟩
  unfold load at loaded
  split at loaded
  next => cases loaded
  next real found =>
    split at loaded
    next => cases loaded
    next entries read =>
      cases loaded
      exact read

theorem home_of_read (absolute : path.isAbsolute = true) (read : readEntries files path = .ok entries) :
    path.parent? = some (base path) := by
  cases parent : path.parent? with
  | some above => rw [base, parent, Option.getD_some]
  | none =>
    obtain ⟨error, fails⟩ : ∃ error, files.read path = .error error :=
      FileTree.read_idle absolute (Path.idle_of_orphan absolute parent)
    simp [readEntries, FileTree.readText, fails, Except.bind] at read

theorem Tells.unique (home : path.parent? = some (.ofString folder)) (one : Tells files path folder entries)
    (two : Tells files path folder others) : entries = others := by
  have one := (readEntries_iff home).mpr one
  have two := (readEntries_iff home).mpr two
  exact Except.ok.inj (one.symm.trans two)

theorem reload_told (home : manifest.path.parent? = some (.ofString folder))
    (tells : Tells files manifest.path folder entries) :
    (reload files manifest).value = .ok () ∧ (reload files manifest).state = { manifest with entries := entries } := by
  rw [reload, (readEntries_iff home).mpr tells]
  exact ⟨rfl, rfl⟩

theorem reload_spoiled (home : manifest.path.parent? = some (.ofString folder))
    (spoiled : Spoiled files manifest.path folder) :
    (∃ fault, (reload files manifest).value = .error fault) ∧ (reload files manifest).state = manifest := by
  cases read : readEntries files manifest.path with
  | error fault =>
    rw [reload, read]
    exact ⟨⟨fault, rfl⟩, rfl⟩
  | ok entries => exact absurd ((readEntries_iff home).mp read) spoiled.untold

theorem reload_fails_iff (home : manifest.path.parent? = some (.ofString folder)) :
    (∃ fault, (reload files manifest).value = .error fault) ↔ Spoiled files manifest.path folder := by
  constructor
  next =>
    rintro ⟨fault, failed⟩
    rcases told_or_spoiled files manifest.path folder with ⟨entries, tells⟩ | spoiled
    next => cases failed.symm.trans (reload_told home tells).1
    next => exact spoiled
  next => exact fun spoiled => (reload_spoiled home spoiled).1

theorem located_isAbsolute (absolute : (Path.ofString folder).isAbsolute = true) (spelling : String) :
    (Path.ofString (Manifest.located folder spelling)).isAbsolute = true := by
  rw [← join_located]
  cases own : (Path.ofString spelling).isAbsolute with
  | true => rw [Path.join, if_pos own, own]
  | false =>
    have spelled : (Path.ofString folder).bytes ≠ [] := by
      intro none
      rw [Path.isAbsolute, none] at absolute
      cases absolute
    rw [Path.join_isAbsolute own _ spelled, absolute]

theorem Fields.absolute (absolute : (Path.ofString folder).isAbsolute = true) {slots : List (Option Toml.Value)}
    {entry : ManifestEntry} (told : Fields folder slots entry) :
    (Path.ofString entry.descriptor.path).isAbsolute = true := by
  cases told
  exact located_isAbsolute absolute _

theorem Tells.absolute (absolute : (Path.ofString folder).isAbsolute = true)
    (tells : Tells files path folder entries) :
    ∀ entry ∈ entries, (Path.ofString entry.descriptor.path).isAbsolute = true := by
  obtain ⟨text, members, -, -, lists⟩ := tells
  intro entry inside
  cases lists with
  | none => cases inside
  | all _ each =>
    obtain ⟨item, described⟩ := forall₂_mem each.flip inside
    cases described with
    | table _ _ told | row _ _ told => exact told.absolute absolute

end Manifest

theorem Watch.solution_told_iff (files : FileTree) (manifest : Manifest) (events : List FileEvent) :
    .solutionChanged ∈ (handle files events manifest).value ↔ Touches manifest events := by
  have handles := handle_handles files events manifest
  constructor
  next =>
    intro told
    by_contra aside
    obtain ⟨event, inside, live, found⟩ := by simpa using ((handles.untouched aside).2.2 _).mp told
    exact aside ⟨event, inside, live, classify_solution_iff.mp found⟩
  next => exact fun touches => (handles.touched List.nodup_nil List.not_mem_nil touches).2.2

structure Holding where
  files : FileTree
  manifest : Manifest

namespace Holding

inductive Move where
  | altered (files : FileTree)
  | reloaded (outcome : Except Fault Unit)
  | handled (events : List FileEvent) (changes : List Change)

inductive Step (h : Holding) : Move → Holding → Prop where
  | altered (files : FileTree) : Step h (.altered files) { h with files := files }
  | reloaded : Step h (.reloaded (h.manifest.reload h.files).value)
      { h with manifest := (Manifest.reload h.files h.manifest).state }
  | handled (events : List FileEvent) : Step h (.handled events (Watch.handle h.files events h.manifest).value)
      { h with manifest := (Watch.handle h.files events h.manifest).state }

def Reads (manifest : Manifest) : Move → Prop
  | .altered _ => False
  | .reloaded _ => True
  | .handled events _ => Watch.Touches manifest events

def alter (files : FileTree) : Move → FileTree
  | .altered others => others
  | .reloaded _ | .handled _ _ => files

def filesAfter (files : FileTree) (moves : List Move) : FileTree :=
  moves.foldl alter files

/-- These projects were told before some moves, at the loading or by the last move until then; later the manifest
could not be read. -/
structure LastRead (files : FileTree) (manifest : Manifest) (folder : String) (before after : List Move)
    (entries : List ManifestEntry) : Prop where
  reads : before = [] ∨ ∃ earlier move, before = earlier ++ [move] ∧ Reads manifest move
  tells : Manifest.Tells (filesAfter files before) manifest.path folder entries
  fails : ∀ between move later, after = between ++ move :: later → Reads manifest move →
    Manifest.Spoiled (filesAfter files (before ++ between)) manifest.path folder

def LastTold (files : FileTree) (manifest : Manifest) (folder : String) (moves : List Move)
    (entries : List ManifestEntry) : Prop :=
  ∃ before after, moves = before ++ after ∧ LastRead files manifest folder before after entries

section Runs

variable {files : FileTree} {manifest : Manifest} {folder : String} {moves before after : List Move} {move : Move}
  {entries others : List ManifestEntry} {h next : Holding}

theorem filesAfter_snoc (files : FileTree) (moves : List Move) (move : Move) :
    filesAfter files (moves ++ [move]) = alter (filesAfter files moves) move :=
  List.foldl_concat ..

theorem alter_reads (reads : Reads manifest move) : alter files move = files := by
  cases move with
  | altered => cases reads
  | reloaded | handled => rfl

theorem reads_congr (same : h.manifest.path = manifest.path) : Reads h.manifest move ↔ Reads manifest move := by
  cases move with
  | altered | reloaded => rfl
  | handled events changes => rw [Reads, Reads, Watch.Touches, Watch.Touches, same]

theorem LastRead.snoc (last : LastRead files manifest folder before after entries)
    (fails : Reads manifest move → Manifest.Spoiled (filesAfter files (before ++ after)) manifest.path folder) :
    LastRead files manifest folder before (after ++ [move]) entries where
  reads := last.reads
  tells := last.tells
  fails := by
    intro between one later split reads
    cases later using List.reverseRecOn with
    | nil =>
      obtain ⟨rfl, same⟩ := List.append_inj' split rfl
      cases same
      exact fails reads
    | append_singleton later latest =>
      rw [← List.cons_append, ← List.append_assoc] at split
      obtain ⟨inner, -⟩ := List.append_inj' split rfl
      exact last.fails between one later inner reads

theorem LastRead.no_later {more rest : List Move} (last : LastRead files manifest folder before (more ++ rest) entries)
    (other : LastRead files manifest folder (before ++ more) rest others) : more = [] := by
  cases more using List.reverseRecOn with
  | nil => rfl
  | append_singleton between move =>
    rcases other.reads with none | ⟨earlier, own, split, reads⟩
    next => simp at none
    next =>
      rw [← List.append_assoc] at split
      obtain ⟨rfl, same⟩ := List.append_inj' split rfl
      cases same
      have spoiled := last.fails between move rest (by simp) reads
      have tells := other.tells
      rw [← List.append_assoc, filesAfter_snoc, alter_reads reads] at tells
      exact absurd tells spoiled.untold

theorem LastTold.unique (home : manifest.path.parent? = some (.ofString folder))
    (one : LastTold files manifest folder moves entries) (two : LastTold files manifest folder moves others) :
    entries = others := by
  obtain ⟨before, after, rfl, last⟩ := one
  obtain ⟨front, rest, split, other⟩ := two
  rcases List.append_eq_append_iff.mp split with ⟨more, rfl, rfl⟩ | ⟨more, rfl, rfl⟩
  next =>
    obtain rfl := last.no_later other
    rw [List.append_nil] at other
    exact last.tells.unique home other.tells
  next =>
    obtain rfl := other.no_later last
    rw [List.append_nil] at last
    exact last.tells.unique home other.tells

theorem step_cases (home : h.manifest.path.parent? = some (.ofString folder)) (step : Step h move next) :
    next.files = alter h.files move ∧ next.manifest.path = h.manifest.path ∧
    (next.manifest = h.manifest ∧ (Reads h.manifest move → Manifest.Spoiled h.files h.manifest.path folder) ∨
      Reads h.manifest move ∧ Manifest.Tells h.files h.manifest.path folder next.manifest.entries) := by
  have reading : (Manifest.reload h.files h.manifest).state.path = h.manifest.path ∧
      ((Manifest.reload h.files h.manifest).state = h.manifest ∧ Manifest.Spoiled h.files h.manifest.path folder ∨
        Manifest.Tells h.files h.manifest.path folder (Manifest.reload h.files h.manifest).state.entries) := by
    rcases Manifest.told_or_spoiled h.files h.manifest.path folder with ⟨entries, tells⟩ | spoiled
    next =>
      rw [(Manifest.reload_told home tells).2]
      exact ⟨rfl, .inr tells⟩
    next =>
      rw [(Manifest.reload_spoiled home spoiled).2]
      exact ⟨rfl, .inl ⟨rfl, spoiled⟩⟩
  cases step with
  | altered files => exact ⟨rfl, rfl, .inl ⟨rfl, nofun⟩⟩
  | reloaded =>
    obtain ⟨path, outcome⟩ := reading
    exact ⟨rfl, path, outcome.imp (And.imp_right fun spoiled _ => spoiled) fun tells => ⟨trivial, tells⟩⟩
  | handled events =>
    have handles := Watch.handle_handles h.files events h.manifest
    by_cases touches : Watch.Touches h.manifest events
    next =>
      obtain ⟨path, outcome⟩ := reading
      rw [← (handles.touched List.nodup_nil List.not_mem_nil touches).1] at path outcome
      exact ⟨rfl, path, outcome.imp (And.imp_right fun spoiled _ => spoiled) fun tells => ⟨touches, tells⟩⟩
    next =>
      have same := (handles.untouched touches).1
      exact ⟨rfl, congrArg Manifest.path same, .inl ⟨same, fun reads => absurd reads touches⟩⟩

theorem run_told (home : manifest.path.parent? = some (.ofString folder))
    (told : Manifest.Tells files manifest.path folder manifest.entries)
    (trace : Trace Step ⟨files, manifest⟩ moves h) :
    h.files = filesAfter files moves ∧ h.manifest.path = manifest.path ∧
      LastTold files manifest folder moves h.manifest.entries := by
  -- The moves are cut after the last reading with success; each move goes to the second part, or ends the first.
  induction trace with
  | start => exact ⟨rfl, rfl, [], [], rfl, .inl rfl, told, by simp⟩
  | next trace last ih =>
    obtain ⟨sameFiles, samePath, before, after, rfl, read⟩ := ih
    obtain ⟨filesNow, pathNow, outcome⟩ := step_cases (samePath ▸ home) last
    rw [sameFiles, samePath] at outcome
    rw [reads_congr samePath] at outcome
    refine ⟨?_, pathNow.trans samePath, ?_⟩
    next => rw [filesNow, filesAfter_snoc, sameFiles]
    next =>
      rcases outcome with ⟨same, fails⟩ | ⟨reads, tells⟩
      next =>
        rw [same]
        exact ⟨before, _, List.append_assoc .., read.snoc fails⟩
      next =>
        refine ⟨_, [], (List.append_nil _).symm, .inr ⟨_, _, rfl, reads⟩, ?_, by simp⟩
        rw [filesAfter_snoc, alter_reads reads]
        exact tells

end Runs

theorem reloads_are_all_or_nothing {files : FileTree} {path : Path} {command : List String} {manifest : Manifest}
    {events : List Event} {folder : String} (loaded : Manifest.load files path command = .ok (manifest, events))
    (text : Manifest.base manifest.path = .ofString folder) {moves : List Move} {h : Holding}
    (trace : Trace Step ⟨files, manifest⟩ moves h) :
    manifest.path.parent? = some (.ofString folder) ∧ h.manifest.path = manifest.path ∧
    (∀ entries, LastTold files manifest folder moves entries ↔ h.manifest.entries = entries) ∧
    (∀ project ∈ h.manifest.projects, (Path.ofString project.path).isAbsolute = true) ∧
    ∀ move next, Step h move next →
      (Manifest.Spoiled h.files manifest.path folder → next.manifest = h.manifest) ∧
      (∀ outcome, move = .reloaded outcome →
        ((∃ fault, outcome = .error fault) ↔ Manifest.Spoiled h.files manifest.path folder)) ∧
      ∀ batch changes, move = .handled batch changes →
        (.solutionChanged ∈ changes ↔ Watch.Touches manifest batch) := by
  obtain ⟨absolute, read⟩ := Manifest.load_reads loaded
  have home : manifest.path.parent? = some (.ofString folder) := text ▸ Manifest.home_of_read absolute read
  obtain ⟨-, samePath, told⟩ := run_told home ((Manifest.readEntries_iff home).mp read) trace
  have homeNow : h.manifest.path.parent? = some (.ofString folder) := samePath ▸ home
  refine ⟨home, samePath, ?_, ?_, ?_⟩
  next =>
    intro entries
    constructor
    next => exact told.unique home
    next =>
      rintro rfl
      exact told
  next =>
    intro project inside
    obtain ⟨entry, listed, rfl⟩ := List.mem_map.mp inside
    obtain ⟨before, after, -, last⟩ := told
    exact last.tells.absolute (Path.parent?_isAbsolute absolute home) entry listed
  next =>
    intro move next step
    rw [← samePath]
    refine ⟨?_, ?_, ?_⟩
    next =>
      intro spoiled
      rcases (step_cases homeNow step).2.2 with ⟨same, -⟩ | ⟨-, tells⟩
      next => exact same
      next => exact absurd tells spoiled.untold
    next =>
      rintro outcome rfl
      cases step
      exact Manifest.reload_fails_iff homeNow
    next =>
      rintro batch changes rfl
      cases step
      rw [Watch.solution_told_iff, Watch.Touches, Watch.Touches, samePath]

section Sample

def halfListing : String :=
  listing "/m/Y.csproj" ++ "[[project]]\nname=\"Z\"\npath=\"Z.csproj\"\n"

/-- The manifest is rewritten and read again, then spoiled, and a change of it is told. The list stays the last
one. -/
theorem half_a_listing_is_not_taken : ∃ outcome changes h,
    Manifest.load (sampleFiles (listing "../other/X.csproj")) sampleManifest.path [] =
      .ok (listedAt "/m/../other/X.csproj", [.manifestLoaded sampleManifest.path 1]) ∧
    Trace Step ⟨sampleFiles (listing "../other/X.csproj"), listedAt "/m/../other/X.csproj"⟩
      [.altered (sampleFiles (listing "/other/X.csproj")), .reloaded outcome, .altered (sampleFiles halfListing),
        .handled [⟨sampleManifest.path, false⟩] changes] h ∧
    h.manifest = listedAt "/other/X.csproj" ∧ .solutionChanged ∈ changes ∧
    Manifest.Spoiled (sampleFiles halfListing) sampleManifest.path "/m" := by
  let good := sampleFiles (listing "/other/X.csproj")
  let bad := sampleFiles halfListing
  have taken : (Manifest.reload good (listedAt "/m/../other/X.csproj")).state = listedAt "/other/X.csproj" := by
    decide +kernel
  have fails : ∃ fault, (Manifest.reload bad (listedAt "/other/X.csproj")).value = .error fault := by
    cases outcome : (Manifest.reload bad (listedAt "/other/X.csproj")).value with
    | error fault => exact ⟨fault, rfl⟩
    | ok =>
      have none : (Manifest.reload bad (listedAt "/other/X.csproj")).value.toOption = none := by decide +kernel
      rw [outcome] at none
      cases none
  have before : Trace Step ⟨sampleFiles (listing "../other/X.csproj"), listedAt "/m/../other/X.csproj"⟩
      [.altered good, .reloaded (Manifest.reload good (listedAt "/m/../other/X.csproj")).value, .altered bad]
      ⟨bad, listedAt "/other/X.csproj"⟩ := by
    refine trace_cons.mpr ⟨_, .altered good, trace_cons.mpr ⟨_, .reloaded, ?_⟩⟩
    rw [taken]
    exact trace_single (.altered bad)
  have touches : Watch.Touches (listedAt "/m/../other/X.csproj") [⟨sampleManifest.path, false⟩] :=
    ⟨_, List.mem_cons_self, rfl, rfl⟩
  have text : Manifest.base (listedAt "/m/../other/X.csproj").path = .ofString "/m" := by decide
  obtain ⟨-, -, -, -, moves⟩ := reloads_are_all_or_nothing neighbour_loads text before
  have spoiled := ((moves _ _ .reloaded).2.1 _ rfl).mp fails
  have told := (moves _ _ (.handled [⟨sampleManifest.path, false⟩])).2.2 _ _ rfl
  exact ⟨_, _, _, neighbour_loads, before.next (.handled [⟨sampleManifest.path, false⟩]),
    (moves _ _ (.handled _)).1 spoiled, told.mpr touches, spoiled⟩

end Sample

end Holding

end TemplateSync
