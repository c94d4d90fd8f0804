import Mathlib.Data.List.Induction
import TemplateSync.Proofs.Path.Components

set_option autoImplicit false

namespace TemplateSync.FileTree

open TemplateSync.Path (IsName)

variable {tree : FileTree} {location other : Location} {node : Node}

theorem mem_nodes_iff (deep : location ≠ []) : tree.node? location = some node ↔ (location, node) ∈ tree.nodes := by
  have apart : tree.nodes.Pairwise fun one other => one.1 ≠ other.1 := List.pairwise_map.mp tree.distinct
  rw [node?, if_neg deep, List.lookup_eq_some_iff]
  constructor
  next =>
    rintro ⟨before, after, whole, -⟩
    simp [whole]
  next =>
    intro inside
    obtain ⟨before, after, whole⟩ := List.append_of_mem inside
    rw [whole] at apart
    refine ⟨before, after, whole, fun entry early => ?_⟩
    have others := (List.pairwise_append.mp apart).2.2 entry early (location, node) List.mem_cons_self
    simpa using others.symm

structure WellFormed (tree : FileTree) : Prop where
  names : ∀ location node, tree.node? location = some node → ∀ name ∈ location, IsName name
  rooted : ∀ above name node, tree.node? (above ++ [name]) = some node → tree.node? above = some .directory

theorem wellFormed_iff : tree.WellFormed ↔ ∀ entry ∈ tree.nodes,
    (∀ name ∈ entry.1, IsName name) ∧ (entry.1 = [] ∨ tree.node? entry.1.dropLast = some .directory) := by
  constructor
  next =>
    rintro wellFormed ⟨location, node⟩ inside
    by_cases top : location = []
    next => simp [top]
    have there := (mem_nodes_iff top).mpr inside
    refine ⟨wellFormed.names _ _ there, .inr ?_⟩
    rw [← List.dropLast_concat_getLast top] at there
    exact wellFormed.rooted _ _ _ there
  next =>
    intro all
    constructor
    next =>
      intro location node there
      by_cases top : location = []
      next => simp [top]
      next => exact (all _ ((mem_nodes_iff top).mp there)).1
    next =>
      intro above name node there
      have inside := (mem_nodes_iff (by simp)).mp there
      simpa using (all _ inside).2

instance (tree : FileTree) : Decidable tree.WellFormed :=
  decidable_of_iff _ wellFormed_iff.symm

theorem node?_put (deep : other ≠ []) :
    (tree.put location node).node? other = if other = location then some node else tree.node? other := by
  ext found
  rw [mem_nodes_iff deep]
  split
  next same => simp [put, same, eq_comm]
  next apart => simp [put, apart, mem_nodes_iff deep]

theorem node?_prune (deep : other ≠ []) :
    (tree.prune location).node? other = if location.isPrefixOf other then none else tree.node? other := by
  ext found
  rw [mem_nodes_iff deep]
  split
  next below => simp [prune, below]
  next apart => simp [prune, apart, mem_nodes_iff deep]

namespace WellFormed

variable (wellFormed : tree.WellFormed)

include wellFormed

theorem above {below : List Bytes} (deep : below ≠ []) (there : tree.node? (location ++ below) = some node) :
    tree.node? location = some .directory := by
  induction below using List.reverseRecOn generalizing node with
  | nil => exact absurd rfl deep
  | append_singleton below name ih =>
    rw [← List.append_assoc] at there
    have directory := wellFormed.rooted _ _ _ there
    cases below with
    | nil => simpa using directory
    | cons first rest => exact ih (by simp) directory

theorem put {above : Location} {name : Bytes} (isName : IsName name)
    (inside : tree.node? above = some .directory)
    (free : node = .directory ∨ tree.node? (above ++ [name]) ≠ some .directory) :
    (tree.put (above ++ [name]) node).WellFormed where
  names location found there := by
    by_cases deep : location = []
    next => simp [deep]
    next =>
      rw [node?_put deep] at there
      split at there
      next same =>
        rw [same]
        exact List.forall_mem_append.mpr ⟨wellFormed.names _ _ inside, by simpa using isName⟩
      next => exact wellFormed.names _ _ there
  rooted front last found there := by
    rw [node?_put (by simp)] at there
    by_cases top : front = []
    next => simp [top, node?]
    rw [node?_put top]
    split at there
    next same =>
      obtain ⟨rfl, -⟩ := List.append_inj' same rfl
      rw [if_neg (by simp)]
      exact inside
    next =>
      have directory := wellFormed.rooted _ _ _ there
      split
      next same =>
        subst same
        rw [free.resolve_right (not_not.mpr directory)]
      next => exact directory

theorem prune (location : Location) : (tree.prune location).WellFormed where
  names other found there := by
    by_cases deep : other = []
    next => simp [deep]
    next =>
      rw [node?_prune deep] at there
      split at there
      next => cases there
      next => exact wellFormed.names _ _ there
  rooted front last found there := by
    rw [node?_prune (by simp)] at there
    by_cases top : front = []
    next => simp [top, node?]
    rw [node?_prune top]
    split at there
    next => cases there
    next apart =>
      rw [if_neg]
      next => exact wellFormed.rooted _ _ _ there
      next =>
        intro below
        rw [List.isPrefixOf_iff_prefix] at apart below
        exact apart (below.trans (List.prefix_append ..))

end WellFormed

section Walks

def Step.Named (step : Step) : Prop :=
  ∀ name, step = .down name → IsName name

theorem steps_named (path : Path) : ∀ step ∈ steps path, step.Named := by
  intro step inside name down
  obtain ⟨piece, listed, rfl⟩ := List.mem_map.mp inside
  unfold Step.ofPiece at down
  split at down
  next => cases down
  next busy =>
    split at down
    next => cases down
    next apart =>
      cases down
      exact ⟨Path.slash_not_mem_pieces _ _ listed, by simpa using busy, apart⟩

def Place.Sound (tree : FileTree) : Place → Prop
  | .found location node => tree.node? location = some node
  | .vacant location => ∃ above name, location = above ++ [name] ∧ IsName name ∧
      tree.node? above = some .directory ∧ tree.node? location = none

theorem walkWith_sound {atEnd : Bool} {follow : Location → List Step → Except OsError Place}
    (later : ∀ location steps place, (∀ step ∈ steps, step.Named) →
      follow location steps = .ok place → place.Sound tree)
    {steps : List Step} (named : ∀ step ∈ steps, step.Named) {location : Location} {place : Place}
    (reached : walkWith tree atEnd follow location steps = .ok place) : place.Sound tree := by
  induction steps generalizing location with
  | nil =>
    unfold walkWith at reached
    split at reached
    next there =>
      cases reached
      exact there
    next => cases reached
  | cons step steps ih =>
    have ⟨own, others⟩ := List.forall_mem_cons.mp named
    unfold walkWith at reached
    split at reached
    next => cases reached
    next directory =>
      cases step with
      | here => exact ih others reached
      | up => exact ih others reached
      | down name =>
        simp only at reached
        split at reached
        next => cases reached
        next =>
          split at reached
          next none =>
            split at reached <;> cases reached
            exact ⟨location, name, rfl, own name rfl, directory, none⟩
          next target link =>
            split at reached
            next =>
              cases reached
              exact link
            next => exact later _ _ _ (List.forall_mem_append.mpr ⟨steps_named target, others⟩) reached
          next => exact ih others reached
    next => cases reached

theorem walk_sound {atEnd : Bool} (links : Nat) {steps : List Step} (named : ∀ step ∈ steps, step.Named)
    {location : Location} {place : Place} (reached : walk tree atEnd links location steps = .ok place) :
    place.Sound tree := by
  induction links generalizing steps location place with
  | zero => exact walkWith_sound (fun _ _ _ _ stopped => by cases stopped) named reached
  | succ links ih => exact walkWith_sound (fun _ _ _ others => ih others) named reached

theorem place_sound {path : Path} {place : Place} (reached : tree.place path = .ok place) :
    place.Sound tree :=
  walk_sound maxLinks (steps_named path) (walk_of_place reached)

theorem WellFormed.update (wellFormed : tree.WellFormed) {path : Path} {change : Bytes → Bytes}
    {later : FileTree} (done : tree.update path change = .ok later) : later.WellFormed := by
  unfold FileTree.update at done
  split at done
  next location vacant =>
    cases done
    obtain ⟨above, name, rfl, isName, directory, none⟩ := place_sound vacant
    apply wellFormed.put isName directory
    simp [none]
  next location content executable found =>
    cases done
    have there : tree.node? location = some (.file content executable) := place_sound found
    cases location using List.reverseRecOn with
    | nil => simp [node?] at there
    | append_singleton above name =>
      apply wellFormed.put
      next => exact wellFormed.names _ _ there name (by simp)
      next => exact wellFormed.rooted _ _ _ there
      next => simp [there]
  next => cases done
  next =>
    cases done
    exact wellFormed
  next => cases done

theorem pathOf_isAbsolute (location : Location) : (pathOf location).isAbsolute = true := by
  rw [pathOf]
  split
  next => rfl
  next spelled =>
    cases location with
    | nil => exact absurd rfl spelled
    | cons name names => simp [Path.isAbsolute]

theorem walkWith_here {atEnd : Bool} {follow : Location → List Step → Except OsError Place} {steps : List Step}
    (here : ∀ step ∈ steps, step = .here) : walkWith tree atEnd follow [] steps = .ok (.found [] .directory) := by
  induction steps with
  | nil => rfl
  | cons step steps ih =>
    obtain ⟨rfl, later⟩ := List.forall_mem_cons.mp here
    exact ih later

theorem read_idle {path : Path} (absolute : path.isAbsolute = true)
    (idle : ∀ piece ∈ path.pieces, Path.isIdle piece = true) : ∃ error, tree.read path = .error error := by
  have here : ∀ step ∈ steps path, step = .here := by
    intro step inside
    obtain ⟨piece, own, rfl⟩ := List.mem_map.mp inside
    rw [Step.ofPiece, if_pos (idle piece own)]
  have reached : walk tree true maxLinks (tree.start path) (steps path) = .ok (.found [] .directory) := by
    rw [start, if_pos absolute]
    exact walkWith_here here
  simp only [read, openFile, find, place, placeWith, reached]
  split_ifs <;> exact ⟨_, rfl⟩

end Walks

end TemplateSync.FileTree
