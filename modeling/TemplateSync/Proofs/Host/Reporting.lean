import TemplateSync.Proofs.Host.Roots

set_option autoImplicit false

namespace TemplateSync

section Apart

variable {roots : List Path} {root : Path}

theorem addRoot_apart {entry : ManifestEntry} (inside : root ∈ Manifest.addRoot roots entry) :
    root ∈ roots ∨ ∀ other ∈ roots, root.startsWith other = false := by
  unfold Manifest.addRoot at inside
  split at inside
  next => exact .inl inside
  next folder own =>
    split at inside
    next => exact .inl inside
    next uncovered =>
      rcases List.mem_append.mp inside with before | last
      next => exact .inl before
      next =>
        rw [List.mem_singleton.mp last]
        exact .inr (by simpa using uncovered)

theorem foldl_addRoot_apart {entries : List ManifestEntry}
    (inside : root ∈ entries.foldl Manifest.addRoot roots) :
    root ∈ roots ∨ ∀ other ∈ roots, root.startsWith other = false := by
  induction entries generalizing roots with
  | nil => exact .inl inside
  | cons entry entries ih =>
    rcases ih inside with before | apart
    next => exact addRoot_apart before
    next => exact .inr fun other there => apart other (addRoot_kept roots entry other there)

end Apart

namespace Manifest

def Owns (manifest : Manifest) (path : Path) : Prop :=
  ∃ own, manifest.path.parent? = some own ∧ path.startsWith own = true

def kind (manifest : Manifest) (path : Path) : Change :=
  if path.Same manifest.path then .solutionChanged
  else if manifest.isProjectFile path then .projectChanged
  else .documentChanged

-- The change is not the manifest's, and lies elsewhere below a root that is below an ignored name.
def Silences (manifest : Manifest) (root path : Path) : Prop :=
  ¬ path.Same manifest.path ∧ ¬ manifest.Owns path ∧ ∃ component ∈ root.components, Watch.isIgnored component = true

theorem roots_apart {manifest : Manifest} {root own : Path} (watched : root ∈ manifest.roots)
    (same : manifest.path.parent? = some own) : root = own ∨ root.startsWith own = false := by
  rcases foldl_addRoot_apart watched with first | apart
  next =>
    rw [same] at first
    exact .inl (List.mem_singleton.mp first)
  next => exact .inr (apart own (by simp [same]))

end Manifest

namespace Watch

def looked (manifest : Manifest) (path : Path) : List Path.Component :=
  path.below (manifest.path.parent?.getD ⟨[]⟩)

theorem classify_of_plain {manifest : Manifest} {path : Path}
    (plain : ∀ component ∈ looked manifest path, isIgnored component = false) :
    classify? manifest path = some (manifest.kind path) := by
  have none : (path.below (manifest.path.parent?.getD ⟨[]⟩)).any isIgnored = false := by
    simpa [looked] using plain
  simp only [classify?, none, Bool.false_eq_true, if_false, Manifest.kind]
  split
  next => rfl
  next => split <;> rfl

theorem classify_of_ignored {manifest : Manifest} {path : Path} {component : Path.Component}
    (other : ¬ path.Same manifest.path) (inside : component ∈ looked manifest path)
    (ignored : isIgnored component = true) : classify? manifest path = none := by
  have some : (path.below (manifest.path.parent?.getD ⟨[]⟩)).any isIgnored = true :=
    List.any_eq_true.mpr ⟨component, inside, ignored⟩
  rw [classify?, if_neg other, if_pos some]

theorem looked_foreign {manifest : Manifest} {path : Path} (foreign : ¬ manifest.Owns path) :
    looked manifest path = path.components := by
  rw [looked]
  cases same : manifest.path.parent? with
  | none => simp [Path.below, Path.startsWith, Path.components, Path.pieces, Path.head]
  | some own =>
    rw [Option.getD_some, Path.below, if_neg]
    intro behind
    exact foreign ⟨own, same, behind⟩

theorem looked_owned {manifest : Manifest} {root path : Path} (watched : root ∈ manifest.roots)
    (owned : manifest.Owns path) {added : List Path.Component}
    (whole : path.components = root.components ++ added) :
    ∀ component ∈ looked manifest path, component ∈ added := by
  obtain ⟨own, same, behind⟩ := owned
  have above : root.components.length ≤ own.components.length := by
    rcases Manifest.roots_apart watched same with rfl | apart
    next => exact Nat.le_refl _
    next =>
      apply Nat.le_of_not_lt
      intro longer
      have inside := List.isPrefixOf_iff_prefix.mp behind
      rw [whole] at inside
      have within := List.prefix_of_prefix_length_le inside (List.prefix_append ..) (Nat.le_of_lt longer)
      rw [Path.startsWith, List.isPrefixOf_iff_prefix.mpr within] at apart
      cases apart
  intro component inside
  rw [looked, same, Option.getD_some, Path.below, if_pos behind, whole, List.drop_append,
    List.drop_eq_nil_of_le above, List.nil_append] at inside
  exact List.mem_of_mem_drop inside

/-- Below a root each change of a file that is looked at is reported as what it is, unless the root is outside
the manifest's directory and below an ignored name; then only the manifest's own changes are. -/
theorem classify_below_a_root {manifest : Manifest} {root path : Path} (watched : root ∈ manifest.roots)
    (relative : path.isAbsolute = false)
    (plain : ∀ component ∈ path.components, isIgnored component = false) :
    (¬ manifest.Silences root (root.join path) →
      classify? manifest (root.join path) = some (manifest.kind (root.join path))) ∧
    (manifest.Silences root (root.join path) → classify? manifest (root.join path) = none) ∧
    (manifest.path.parent? = some root → ¬ manifest.Silences root (root.join path)) := by
  obtain ⟨added, whole, own⟩ := Path.join_components relative root
  refine ⟨?_, ?_, ?_⟩
  next =>
    intro heard
    by_cases same : (root.join path).Same manifest.path
    next => rw [classify?, if_pos same, Manifest.kind, if_pos same]
    next =>
      apply classify_of_plain
      intro component inside
      by_cases owned : manifest.Owns (root.join path)
      next => exact plain component (own component (looked_owned watched owned whole component inside))
      next =>
        rw [looked_foreign owned, whole] at inside
        rcases List.mem_append.mp inside with above | below
        next =>
          cases ignored : isIgnored component with
          | false => rfl
          | true => exact absurd ⟨same, owned, component, above, ignored⟩ heard
        next => exact plain component (own component below)
  next =>
    rintro ⟨other, foreign, component, above, ignored⟩
    apply classify_of_ignored other _ ignored
    rw [looked_foreign foreign, whole]
    exact List.mem_append_left _ above
  next =>
    rintro same ⟨-, foreign, -⟩
    refine foreign ⟨root, same, ?_⟩
    rw [Path.startsWith, List.isPrefixOf_iff_prefix, whole]
    exact List.prefix_append ..

section Sample

theorem tool_loads :
    Manifest.load (sampleFiles (listing "/bin/app/X.csproj")) sampleManifest.path [] =
      .ok (listedAt "/bin/app/X.csproj", [.manifestLoaded sampleManifest.path 1]) := by
  refine loads_of_toOption ?_
  decide +kernel

theorem project_below_an_ignored_name_is_silent : ∃ files path manifest events root change,
    Manifest.load files path [] = .ok (manifest, events) ∧ root ∈ manifest.roots ∧
    change.isAbsolute = false ∧ (∀ component ∈ change.components, isIgnored component = false) ∧
    manifest.kind (root.join change) = .projectChanged ∧ classify? manifest (root.join change) = none := by
  refine ⟨_, _, _, _, .ofString "/bin/app", .ofString "X.csproj", tool_loads, ?_, ?_, ?_, ?_, ?_⟩ <;>
    decide +kernel

/-- The names above the manifest's own directory do not matter. -/
theorem project_with_its_manifest_is_heard :
    let manifest : Manifest := ⟨.ofString "/bin/m/tether.toml", [], (listedAt "/bin/m/Web/X.csproj").entries⟩
    Path.ofString "/bin/m" ∈ manifest.roots ∧ manifest.path.parent? = some (.ofString "/bin/m") ∧
    classify? manifest (Path.join (.ofString "/bin/m") (.ofString "Web/X.csproj")) = some .projectChanged := by
  intro manifest
  have watched : Path.ofString "/bin/m" ∈ manifest.roots := by decide +kernel
  have own : manifest.path.parent? = some (.ofString "/bin/m") := by decide +kernel
  have relative : (Path.ofString "Web/X.csproj").isAbsolute = false := by decide +kernel
  have plain : ∀ component ∈ (Path.ofString "Web/X.csproj").components, isIgnored component = false := by
    decide +kernel
  obtain ⟨heard, -, never⟩ := classify_below_a_root watched relative plain
  have project : manifest.kind (Path.join (.ofString "/bin/m") (.ofString "Web/X.csproj")) = .projectChanged := by
    decide +kernel
  refine ⟨watched, own, ?_⟩
  rw [heard (never own), project]

end Sample

end Watch

end TemplateSync
