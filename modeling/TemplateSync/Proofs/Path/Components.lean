import Mathlib.Data.List.Basic
import Mathlib.Data.List.TakeWhile
import TemplateSync.FileTree.Basic

set_option autoImplicit false

namespace TemplateSync

namespace Path

-- The components that stay as they are behind another path.
def inner (path : Path) : List Component :=
  path.pieces.filterMap Component.ofPiece?

-- What only counts at the start of a path.
def lead (path : Path) : List Component :=
  if path.isAbsolute then [.root]
  else if path.pieces.head? = some [dot] then [.current]
  else []

theorem pieces_ne_nil (path : Path) : path.pieces ≠ [] :=
  List.splitOn_ne_nil slash path.bytes

theorem slash_not_mem_pieces (bytes piece : Bytes) (inside : piece ∈ bytes.splitOn slash) :
    slash ∉ piece := by
  induction bytes generalizing piece with
  | nil => simp_all
  | cons byte bytes ih =>
    rw [List.splitOn_cons_eq_if_modifyHead] at inside
    cases split : bytes.splitOn slash with
    | nil => exact absurd split (List.splitOn_ne_nil _ _)
    | cons first rest =>
      rw [split] at ih inside
      simp only [beq_iff_eq] at inside
      split at inside
      next =>
        rcases List.mem_cons.mp inside with rfl | later
        next => simp
        next => exact ih piece later
      next apart =>
        rcases List.mem_cons.mp inside with rfl | later
        next => simpa [Ne.symm apart] using ih first List.mem_cons_self
        next => exact ih piece (List.mem_cons_of_mem _ later)

theorem pieces_append (front back : Bytes) :
    Path.pieces ⟨front ++ slash :: back⟩ = Path.pieces ⟨front⟩ ++ Path.pieces ⟨back⟩ :=
  List.splitOn_append_cons_self ..

theorem isAbsolute_iff {path : Path} {first : Bytes} {rest : List Bytes}
    (split : path.pieces = first :: rest) : path.isAbsolute = true ↔ first = [] ∧ rest ≠ [] := by
  obtain ⟨bytes⟩ := path
  rw [pieces] at split
  cases bytes with
  | nil =>
    cases split
    simp [isAbsolute]
  | cons byte bytes =>
    rw [List.splitOn_cons_eq_if_modifyHead] at split
    by_cases same : byte = slash
    next =>
      rw [if_pos (by simpa using same)] at split
      cases split
      simp [isAbsolute, same]
    next =>
      rw [if_neg (by simpa using same)] at split
      have first_ne : first ≠ [] := by
        cases rest : bytes.splitOn slash with
        | nil => simp [rest] at split
        | cons piece pieces =>
          rw [rest] at split
          cases split
          simp
      simp [isAbsolute, same, first_ne]

theorem components_eq (path : Path) : path.components = path.lead ++ path.inner := by
  cases split : path.pieces with
  | nil => exact absurd split path.pieces_ne_nil
  | cons first rest =>
    have absolute := isAbsolute_iff split
    rw [components, lead, inner, split]
    simp only [List.filterMap_cons, List.head?_cons, Option.some.injEq, head]
    by_cases none : first = []
    next =>
      subst none
      by_cases alone : rest = [] <;> simp [absolute, alone, Component.ofPiece?, isIdle]
    next =>
      have relative : path.isAbsolute = false := by simpa [none] using absolute
      by_cases single : first = [dot]
      next => simp [relative, single, Component.ofPiece?, isIdle]
      next =>
        rw [if_neg none, if_neg single, relative]
        cases Component.ofPiece? first <;> simp [single]

theorem startsWith_iff {path base : Path} :
    path.startsWith base = true ↔ path.components = base.components ++ path.below base := by
  rw [startsWith, List.isPrefixOf_iff_prefix]
  constructor
  next =>
    intro inside
    rw [below, startsWith, if_pos (List.isPrefixOf_iff_prefix.mpr inside)]
    exact List.prefix_iff_eq_append.mp inside |>.symm
  next =>
    intro whole
    exact ⟨_, whole.symm⟩

section Join

variable {base path : Path} (relative : path.isAbsolute = false)

include relative

theorem join_pieces (base : Path) (spelled : base.bytes ≠ []) :
    ∃ front, front ≠ [] ∧ (base.join path).pieces = front ++ path.pieces ∧
      (base.pieces = front ∨ base.pieces = front ++ [[]]) := by
  simp only [join, relative, Bool.false_eq_true, if_false, spelled, decide_false, Bool.false_or,
    decide_eq_true_eq]
  split
  next last =>
    obtain ⟨front, same⟩ := List.getLast?_eq_some_iff.mp last
    refine ⟨Path.pieces ⟨front⟩, pieces_ne_nil _, ?_, .inr ?_⟩
    next => simpa [same] using pieces_append front path.bytes
    next => simpa [pieces, same] using pieces_append front []
  next => exact ⟨base.pieces, pieces_ne_nil _, pieces_append .., .inl rfl⟩

theorem join_isAbsolute (base : Path) (spelled : base.bytes ≠ []) :
    (base.join path).isAbsolute = base.isAbsolute := by
  obtain ⟨bytes⟩ := base
  cases bytes with
  | nil => exact absurd rfl spelled
  | cons byte bytes =>
    simp only [join, relative, Bool.false_eq_true, if_false]
    split <;> rfl

theorem join_inner (base : Path) (spelled : base.bytes ≠ []) :
    (base.join path).components = base.components ++ path.inner := by
  obtain ⟨front, some, whole, own⟩ := join_pieces relative base spelled
  have start : (base.join path).pieces.head? = base.pieces.head? := by
    cases front with
    | nil => exact absurd rfl some
    | cons first rest => rcases own with own | own <;> simp [whole, own]
  have idle : Component.ofPiece? [] = none := by simp [Component.ofPiece?, isIdle]
  have inner : (base.join path).inner = base.inner ++ path.inner := by
    rcases own with own | own <;> simp [Path.inner, whole, own, idle]
  rw [components_eq, components_eq base, lead, lead, join_isAbsolute relative base spelled, start, inner,
    List.append_assoc]

theorem join_components (base : Path) :
    ∃ added, (base.join path).components = base.components ++ added ∧
      ∀ component ∈ added, component ∈ path.components := by
  by_cases empty : base.bytes = []
  next =>
    obtain ⟨bytes⟩ := base
    cases empty
    refine ⟨path.components, ?_, fun _ inside => inside⟩
    simp [join, relative, components, pieces, head]
  next =>
    refine ⟨path.inner, join_inner relative base empty, ?_⟩
    intro component inside
    rw [components_eq]
    exact List.mem_append_right _ inside

end Join

structure IsName (name : Bytes) : Prop where
  closed : slash ∉ name
  busy : isIdle name = false
  down : name ≠ [dot, dot]

instance (name : Bytes) : Decidable (IsName name) :=
  decidable_of_iff (slash ∉ name ∧ isIdle name = false ∧ name ≠ [dot, dot])
    ⟨fun ⟨closed, busy, down⟩ => ⟨closed, busy, down⟩, fun ⟨closed, busy, down⟩ => ⟨closed, busy, down⟩⟩

section Names

variable {name : Bytes} (isName : IsName name)

include isName

theorem IsName.pieces : Path.pieces ⟨name⟩ = [name] :=
  List.splitOn_eq_singleton isName.closed

theorem IsName.inner : Path.inner ⟨name⟩ = [.name name] := by
  simp [Path.inner, isName.pieces, Component.ofPiece?, isName.busy, isName.down]

theorem IsName.relative : Path.isAbsolute ⟨name⟩ = false := by
  have apart : name.head? ≠ some slash := fun first => isName.closed (List.mem_of_mem_head? first)
  simp [isAbsolute, apart]

theorem IsName.ne_nil : name ≠ [] := by
  rintro rfl
  exact absurd isName.busy (by decide)

theorem joinName_components (base : Path) :
    (base.joinName name).components = base.components ++ [.name name] := by
  by_cases empty : base.bytes = []
  next =>
    have alone : base.joinName name = ⟨name⟩ := by simp [joinName, join, isName.relative, empty]
    have none : base.components = [] := by simp [components, Path.pieces, empty, head]
    have busy : name ≠ [dot] := by
      rintro rfl
      exact absurd isName.busy (by decide)
    have lead : Path.lead ⟨name⟩ = [] := by simp [Path.lead, isName.relative, isName.pieces, busy]
    rw [alone, none, components_eq, lead, isName.inner]
  next => rw [joinName, join_inner isName.relative base empty, isName.inner]

end Names

theorem names_components (base : Path) {names : List Bytes} (all : ∀ name ∈ names, IsName name) :
    (names.foldl joinName base).components = base.components ++ names.map .name := by
  induction names generalizing base with
  | nil => simp
  | cons name names ih =>
    have ⟨own, others⟩ := List.forall_mem_cons.mp all
    rw [List.foldl_cons, ih _ others, joinName_components own, List.append_assoc]
    rfl

section Spellings

variable {name : Bytes} {names : List Bytes} {path : Path}

theorem joinName_bytes (isName : IsName name) (base : Path) :
    ∃ front, (base.joinName name).bytes = front ++ name ∧
      ∀ path : Path, path.isAbsolute = false → base.join path = ⟨front ++ path.bytes⟩ := by
  by_cases ended : base.bytes = [] ∨ base.bytes.getLast? = some slash
  next =>
    have joined (path : Path) (relative : path.isAbsolute = false) : base.join path = ⟨base.bytes ++ path.bytes⟩ := by
      simp [join, relative, ended]
    exact ⟨base.bytes, by rw [joinName, joined _ isName.relative], joined⟩
  next =>
    have joined (path : Path) (relative : path.isAbsolute = false) :
        base.join path = ⟨(base.bytes ++ [slash]) ++ path.bytes⟩ := by
      simp [join, relative, ended]
    exact ⟨base.bytes ++ [slash], by rw [joinName, joined _ isName.relative], joined⟩

theorem joinName_join (isName : IsName name) (relative : path.isAbsolute = false) (base : Path) :
    (base.joinName name).join path = base.join ⟨name ++ slash :: path.bytes⟩ := by
  obtain ⟨front, bytes, joined⟩ := joinName_bytes isName base
  have spelled : front ++ name ≠ [] := by simp [isName.ne_nil]
  have open_end : (front ++ name).getLast? ≠ some slash := by
    rw [List.getLast?_append_of_ne_nil _ isName.ne_nil]
    exact fun last => isName.closed (List.mem_of_getLast? last)
  have behind : Path.isAbsolute ⟨name ++ slash :: path.bytes⟩ = false := by
    have first := isName.relative
    rw [isAbsolute, List.head?_append_of_ne_nil _ isName.ne_nil]
    exact first
  rw [joined _ behind, join, relative, bytes]
  rw [if_neg Bool.false_ne_true, if_neg (by simpa [isName.ne_nil] using open_end), List.append_assoc]

theorem intercalate_relative (all : ∀ name ∈ names, IsName name) :
    Path.isAbsolute ⟨List.intercalate [slash] names⟩ = false := by
  cases names with
  | nil => rfl
  | cons name names =>
    have own := all name List.mem_cons_self
    cases names with
    | nil => simpa using own.relative
    | cons next rest =>
      rw [List.intercalate_cons_cons, isAbsolute, List.append_assoc, List.head?_append_of_ne_nil _ own.ne_nil]
      exact own.relative

theorem foldl_joinName (all : ∀ name ∈ names, IsName name) (deep : names ≠ []) (base : Path) :
    names.foldl joinName base = base.join ⟨List.intercalate [slash] names⟩ := by
  induction names generalizing base with
  | nil => exact absurd rfl deep
  | cons name names ih =>
    have ⟨own, others⟩ := List.forall_mem_cons.mp all
    cases names with
    | nil => simp [joinName]
    | cons next rest =>
      rw [List.foldl_cons, ih others (by simp), joinName_join own (intercalate_relative others),
        List.intercalate_cons_cons, List.append_assoc]
      rfl

-- A path whose one name stands at the root directory lies in what is spelled as a slash alone.
theorem parent?_pieces {above : Path} (parent : path.parent? = some above) :
    above = ⟨[slash]⟩ ∨ ∃ pieces, pieces.Sublist path.pieces ∧ above = ofPieces pieces := by
  unfold parent? at parent
  split at parent
  next => cases parent
  next first rest split =>
    split at parent
    next own higher reversed =>
      have kept : (dropIdle higher).reverse.Sublist rest := by
        have busy : (dropIdle higher).Sublist rest.reverse :=
          ((List.dropWhile_sublist _).trans (List.sublist_cons_self own higher)).trans
            (reversed ▸ List.dropWhile_sublist _)
        simpa using busy.reverse
      cases named : (dropIdle higher).reverse with
      | nil =>
        simp only [named] at parent
        by_cases none : first = []
        next => exact .inl (by simpa [none] using parent.symm)
        next =>
          refine .inr ⟨[first], by rw [split]; exact (List.nil_sublist _).cons_cons _, ?_⟩
          simpa [none, ofPieces] using parent.symm
      | cons piece pieces =>
        rw [named] at parent kept
        cases parent
        exact .inr ⟨_, by rw [split]; exact kept.cons_cons _, rfl⟩
    next =>
      split at parent <;> cases parent
      exact .inr ⟨[], List.nil_sublist _, rfl⟩

theorem parent?_isAbsolute {above : Path} (absolute : path.isAbsolute = true)
    (parent : path.parent? = some above) : above.isAbsolute = true := by
  unfold parent? at parent
  split at parent
  next => cases parent
  next first rest split =>
    obtain ⟨rfl, -⟩ := (isAbsolute_iff split).mp absolute
    split at parent
    next own higher _ =>
      cases named : (dropIdle higher).reverse with
      | nil =>
        simp only [named, if_true] at parent
        cases parent
        rfl
      | cons piece pieces =>
        simp only [named] at parent
        cases parent
        rw [ofPieces, List.intercalate_cons_cons]
        rfl
    next => simp at parent

theorem idle_of_orphan (absolute : path.isAbsolute = true) (orphan : path.parent? = none) :
    ∀ piece ∈ path.pieces, isIdle piece = true := by
  unfold parent? at orphan
  split at orphan
  next empty => exact absurd empty path.pieces_ne_nil
  next first rest split =>
    obtain ⟨rfl, -⟩ := (isAbsolute_iff split).mp absolute
    split at orphan
    next => split at orphan <;> cases orphan
    next none =>
      rw [dropIdle, List.dropWhile_eq_nil_iff] at none
      rw [split]
      exact List.forall_mem_cons.mpr ⟨rfl, fun piece inside => none piece (List.mem_reverse.mpr inside)⟩

/-- A path that starts at the root directory and goes up nowhere. -/
structure Direct (path : Path) : Prop where
  absolute : path.isAbsolute = true
  down : [dot, dot] ∉ path.pieces

instance (path : Path) : Decidable path.Direct :=
  decidable_of_iff (path.isAbsolute = true ∧ [dot, dot] ∉ path.pieces)
    ⟨fun ⟨absolute, down⟩ => ⟨absolute, down⟩, fun ⟨absolute, down⟩ => ⟨absolute, down⟩⟩

theorem Direct.inner (direct : path.Direct) : ∀ component ∈ path.inner, ∃ name, component = .name name := by
  intro component inside
  obtain ⟨piece, listed, same⟩ := List.mem_filterMap.mp inside
  rw [Component.ofPiece?] at same
  split at same
  next => cases same
  next =>
    split at same
    next up => exact absurd (up ▸ listed) direct.down
    next => exact ⟨piece, (Option.some.inj same).symm⟩

theorem Direct.parent {above : Path} (direct : path.Direct) (parent : path.parent? = some above) :
    above.Direct := by
  refine ⟨parent?_isAbsolute direct.absolute parent, ?_⟩
  rcases parent?_pieces parent with rfl | ⟨pieces, kept, rfl⟩
  next => decide
  next =>
    by_cases none : pieces = []
    next =>
      subst none
      decide
    next =>
      have closed : ∀ piece ∈ pieces, slash ∉ piece :=
        fun piece inside => slash_not_mem_pieces _ _ (kept.subset inside)
      have same : (ofPieces pieces).pieces = pieces := List.splitOn_intercalate _ closed none
      rw [same]
      exact fun inside => direct.down (kept.subset inside)

end Spellings

end Path

namespace FileTree

def follow (location : Location) : Path.Component → Location
  | .root => []
  | .current => location
  | .parent => location.dropLast
  | .name name => location ++ [name]

def Step.goes (location : Location) : Step → Location
  | .here => location
  | .up => location.dropLast
  | .down name => location ++ [name]

theorem layout_steps (tree : FileTree) (path : Path) :
    tree.layout path = (steps path).foldl Step.goes (tree.start path) := rfl

theorem goes_piece (piece : Bytes) (location : Location) :
    Step.goes location (.ofPiece piece) = (Path.Component.ofPiece? piece).toList.foldl follow location := by
  rw [Step.ofPiece, Path.Component.ofPiece?]
  split
  next => rfl
  next => split <;> rfl

theorem goes_pieces (pieces : List Bytes) (location : Location) :
    (pieces.map Step.ofPiece).foldl Step.goes location =
      (pieces.filterMap Path.Component.ofPiece?).foldl follow location := by
  induction pieces generalizing location with
  | nil => rfl
  | cons piece pieces ih =>
    rw [List.map_cons, List.foldl_cons, ih, goes_piece, List.filterMap_cons]
    cases Path.Component.ofPiece? piece <;> rfl

theorem layout_components (tree : FileTree) (path : Path) :
    tree.layout path = path.components.foldl follow tree.workingDirectory := by
  have first : path.lead.foldl follow tree.workingDirectory = tree.start path := by
    rw [Path.lead, start]
    split
    next => rfl
    next => split <;> rfl
  rw [layout_steps, Path.components_eq, List.foldl_append, first]
  exact goes_pieces path.pieces (tree.start path)

-- Going these components, one never leaves the directory that is so many names above.
def staysIn : Nat → List Path.Component → Bool
  | _, [] => true
  | _, .root :: _ => false
  | depth, .current :: rest => staysIn depth rest
  | depth, .name _ :: rest => staysIn (depth + 1) rest
  | 0, .parent :: _ => false
  | depth + 1, .parent :: rest => staysIn depth rest

theorem prefix_follow {depth : Nat} {components : List Path.Component}
    (stays : staysIn depth components = true) (base : Location) {below : Location}
    (deep : below.length = depth) : base <+: components.foldl follow (base ++ below) := by
  induction components generalizing depth below with
  | nil => exact List.prefix_append ..
  | cons component components ih =>
    cases component with
    | root => simp [staysIn] at stays
    | current => exact ih stays deep
    | name name =>
      simp only [List.foldl_cons, follow, List.append_assoc]
      exact ih stays (by simp [deep])
    | parent =>
      cases depth with
      | zero => simp [staysIn] at stays
      | succ depth =>
        have some : below ≠ [] := List.ne_nil_of_length_eq_add_one deep
        simp only [List.foldl_cons, follow, List.dropLast_append_of_ne_nil some]
        exact ih stays (by simp [deep])

theorem layout_prefix (tree : FileTree) {root path : Path} {below : List Path.Component}
    (whole : path.components = root.components ++ below) (stays : staysIn 0 below = true) :
    tree.layout root <+: tree.layout path := by
  rw [layout_components, layout_components, whole, List.foldl_append]
  have none : ([] : Location).length = 0 := rfl
  have inside := prefix_follow stays (root.components.foldl follow tree.workingDirectory) none
  rwa [List.append_nil] at inside

theorem staysIn_names (depth : Nat) {components : List Path.Component}
    (names : ∀ component ∈ components, ∃ name, component = .name name) : staysIn depth components = true := by
  induction components generalizing depth with
  | nil => rfl
  | cons component components ih =>
    have ⟨⟨_, own⟩, others⟩ := List.forall_mem_cons.mp names
    rw [own, staysIn]
    exact ih _ others

theorem layout_direct (tree : FileTree) {root path : Path} (absolute : root.isAbsolute = true)
    (direct : path.Direct) (behind : path.startsWith root = true) : tree.layout root <+: tree.layout path := by
  have whole := Path.startsWith_iff.mp behind
  refine tree.layout_prefix whole (staysIn_names 0 fun component inside => direct.inner component ?_)
  rw [Path.components_eq, Path.components_eq root, Path.lead, Path.lead, direct.absolute, absolute] at whole
  simp only [if_true, List.cons_append, List.nil_append, List.cons.injEq, true_and] at whole
  rw [whole]
  exact List.mem_append_right _ inside

section Places

variable {tree : FileTree} {path : Path}

theorem place_of_find {location : Location} {node : Node} (found : tree.find path = .ok (location, node)) :
    tree.place path = .ok (.found location node) := by
  rw [find] at found
  split at found <;> cases found
  assumption

theorem walk_of_place {place : Place} (reached : tree.place path = .ok place) :
    walk tree true maxLinks (tree.start path) (steps path) = .ok place := by
  rw [FileTree.place, placeWith] at reached
  split at reached
  next => cases reached
  next =>
    split at reached
    next => cases reached
    next =>
      split at reached
      next => cases reached
      next =>
        cases walked : walk tree true maxLinks (tree.start path) (steps path) with
        | error error =>
          rw [walked] at reached
          cases reached
        | ok other =>
          rw [walked] at reached
          exact congrArg Except.ok (Except.ok.inj reached)

end Places

section Linkless

def Linkless (tree : FileTree) : Prop :=
  ∀ location target, (location, Node.link target) ∉ tree.nodes

theorem empty_linkless : empty.Linkless := by
  intro location target
  simp [empty]

theorem Linkless.put {tree : FileTree} (linkless : tree.Linkless) (location : Location) {node : Node}
    (plain : ∀ target, node ≠ .link target) : (tree.put location node).Linkless := by
  intro other target inside
  rcases List.mem_cons.mp inside with same | before
  next =>
    cases same
    exact plain target rfl
  next => exact linkless other target (List.mem_filter.mp before).1

variable {tree : FileTree} (linkless : tree.Linkless)

include linkless

theorem node?_ne_link (location : Location) (target : Path) : tree.node? location ≠ some (.link target) := by
  intro there
  rw [node?] at there
  split at there
  next => cases there
  next =>
    obtain ⟨before, after, whole, -⟩ := List.lookup_eq_some_iff.mp there
    exact linkless location target (by simp [whole])

theorem walkWith_goes {atEnd : Bool} {follow : Location → List Step → Except OsError Place}
    {steps : List Step} {location place : Location} {node : Node}
    (found : walkWith tree atEnd follow location steps = .ok (.found place node)) :
    place = steps.foldl Step.goes location := by
  induction steps generalizing location with
  | nil =>
    unfold walkWith at found
    split at found <;> cases found
    rfl
  | cons step steps ih =>
    unfold walkWith at found
    split at found
    next => cases found
    next =>
      cases step with
      | here => exact ih found
      | up => exact ih found
      | down name =>
        simp only at found
        split at found
        next => cases found
        next =>
          split at found
          next => split at found <;> cases found
          next target link => exact absurd link (node?_ne_link linkless _ target)
          next => exact ih found
    next => cases found

theorem find_layout {path : Path} {place : Location} {node : Node}
    (found : tree.find path = .ok (place, node)) : place = tree.layout path :=
  walkWith_goes linkless (walk_of_place (place_of_find found))

end Linkless

end FileTree

end TemplateSync
