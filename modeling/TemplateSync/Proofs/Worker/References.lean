import Mathlib.Data.List.Pairwise
import TemplateSync.Proofs.Worker.Journal

set_option autoImplicit false

namespace TemplateSync

theorem Path.Same.symm {p q : Path} (same : p.Same q) : q.Same p :=
  Eq.symm same

theorem Path.Same.trans {p q r : Path} (one : p.Same q) (two : q.Same r) : p.Same r :=
  Eq.trans one two

namespace Journal

def success? : Request → Option (Path × ReferenceHandle)
  | .resolve path (.ok handle) => some (path, handle)
  | _ => none

def successes (journal : Journal) : List (Path × ReferenceHandle) :=
  journal.filterMap success?

-- The handle of the first success for the path, however it was spelled.
def first? (journal : Journal) (path : Path) : Option ReferenceHandle :=
  (journal.successes.find? fun entry => decide (path.Same entry.1)).map (·.2)

def Settled (journal : Journal) : Prop :=
  journal.Pairwise fun earlier later => ∀ path handle other answer,
    earlier = .resolve path (.ok handle) → later = .resolve other answer → ¬ path.Same other

abbrev Occurrence := Path × Except Fault ReferenceHandle

/-- The occurrences of a list, from one state of the journal to another. A path with a success has the handle of
the first one and is not asked for; any other path is asked for, and has the answer. -/
inductive Met : Journal → List Occurrence → Journal → Prop where
  | nil {journal : Journal} : Met journal [] journal
  | known {journal last : Journal} {path : Path} {handle : ReferenceHandle}
      {occurrences : List Occurrence} (first : journal.first? path = some handle)
      (others : Met journal occurrences last) : Met journal ((path, .ok handle) :: occurrences) last
  | asked {journal last : Journal} {path : Path} {answer : Except Fault ReferenceHandle}
      {occurrences : List Occurrence} (new : journal.first? path = none)
      (others : Met (journal ++ [.resolve path answer]) occurrences last) :
      Met journal ((path, answer) :: occurrences) last

def handle? : Occurrence → Option ReferenceHandle
  | (_, .ok handle) => some handle
  | (_, .error _) => none

def failure? : Occurrence → Option (Path × Fault)
  | (_, .ok _) => none
  | (path, .error fault) => some (path, fault)

variable {journal last : Journal} {path other : Path} {handle : ReferenceHandle}
  {occurrences : List Occurrence}

theorem successes_append (journal more : Journal) :
    (journal ++ more).successes = journal.successes ++ more.successes :=
  List.filterMap_append

theorem successes_others {more : Journal}
    (others : ∀ request ∈ more, ∀ path answer, request ≠ .resolve path answer) :
    more.successes = [] := by
  refine List.filterMap_eq_nil_iff.mpr fun request inside => ?_
  cases request with
  | resolve path answer => exact (others _ inside path answer rfl).elim
  | generate | compile => rfl

theorem first?_same (journal : Journal) (same : path.Same other) :
    journal.first? path = journal.first? other := by
  have alike : (fun entry : Path × ReferenceHandle => decide (path.Same entry.1)) =
      fun entry => decide (other.Same entry.1) := by
    funext entry
    exact decide_eq_decide.mpr ⟨same.symm.trans, same.trans⟩
  rw [first?, first?, alike]

theorem first?_none (none : journal.first? path = none) :
    ∀ entry ∈ journal.successes, ¬ path.Same entry.1 := by
  simpa [first?] using none

theorem first?_grows (known : journal.first? path = some handle) (more : Journal) :
    (journal ++ more).first? path = some handle := by
  obtain ⟨entry, found, rfl⟩ := Option.map_eq_some_iff.mp known
  simp [first?, successes_append, found]

theorem settled_successes (settled : journal.Settled) :
    journal.successes.Pairwise fun one other => ¬ one.1.Same other.1 := by
  refine List.pairwise_filterMap.mpr (settled.imp ?_)
  rintro earlier later apart ⟨path, handle⟩ resolved ⟨other, found⟩ again
  have request {asked : Request} {entry : Path × ReferenceHandle} (own : success? asked = some entry) :
      asked = .resolve entry.1 (.ok entry.2) := by
    unfold success? at own
    split at own <;> cases own
    rfl
  exact apart path handle other _ (request resolved) (request again)

theorem first?_of_mem (settled : journal.Settled) (inside : (path, handle) ∈ journal.successes) :
    journal.first? path = some handle := by
  cases known : journal.first? path with
  | none => exact absurd rfl (first?_none known _ inside)
  | some first =>
    obtain ⟨entry, found, rfl⟩ := Option.map_eq_some_iff.mp known
    have same : path.Same entry.1 := by simpa using List.find?_some found
    have alike : entry = (path, handle) := by
      by_contra different
      have symmetric : Std.Symm fun one other : Path × ReferenceHandle => ¬ one.1.Same other.1 :=
        ⟨fun _ _ apart same => apart same.symm⟩
      exact (settled_successes settled).forall (List.mem_of_find?_eq_some found) inside different
        same.symm
    rw [alike]

theorem settled_asked (settled : journal.Settled) (new : journal.first? path = none)
    (answer : Except Fault ReferenceHandle) : Settled (journal ++ [.resolve path answer]) := by
  refine List.pairwise_append.mpr ⟨settled, List.pairwise_singleton _ _, ?_⟩
  rintro earlier inside later added known handle other given rfl rfl same
  obtain ⟨rfl, -⟩ : other = path ∧ given = answer := by simpa using added
  have entry : (known, handle) ∈ journal.successes := List.mem_filterMap.mpr ⟨_, inside, rfl⟩
  exact first?_none new _ entry same.symm

theorem settled_others (settled : journal.Settled) {more : Journal}
    (others : ∀ request ∈ more, ∀ path answer, request ≠ .resolve path answer) :
    Settled (journal ++ more) := by
  refine List.pairwise_append.mpr ⟨settled, ?_, ?_⟩
  next =>
    refine List.pairwise_of_forall_mem_list fun earlier inside later _ path handle _ _ asked => ?_
    exact (others earlier inside path _ asked).elim
  next =>
    rintro earlier _ later added path handle other answer _ rfl
    exact (others _ added other answer rfl).elim

theorem Met.settled (met : Met journal occurrences last) (settled : journal.Settled) :
    last.Settled := by
  induction met with
  | nil => exact settled
  | known _ _ ih => exact ih settled
  | asked new _ ih => exact ih (settled_asked settled new _)

theorem Met.grows (met : Met journal occurrences last) : ∃ asked : Journal, last = journal ++ asked := by
  induction met with
  | nil => exact ⟨[], by simp⟩
  | known _ _ ih => exact ih
  | asked _ _ ih =>
    obtain ⟨asked, rfl⟩ := ih
    exact ⟨_, List.append_assoc _ _ _⟩

theorem Met.keeps (met : Met journal occurrences last) (first : journal.first? path = some handle) :
    ∀ occurrence ∈ occurrences, path.Same occurrence.1 → occurrence.2 = .ok handle := by
  induction met with
  | nil => simp
  | known own _ ih =>
    refine List.forall_mem_cons.mpr ⟨fun same => ?_, ih first⟩
    rw [first?_same _ same.symm, first] at own
    rw [Option.some.inj own]
  | asked new _ ih =>
    refine List.forall_mem_cons.mpr ⟨fun same => ?_, ih (first?_grows first _)⟩
    rw [first?_same _ same.symm, first] at new
    cases new

theorem occurrences_length (occurrences : List Occurrence) :
    (occurrences.filterMap handle?).length + (occurrences.filterMap failure?).length =
      occurrences.length := by
  induction occurrences with
  | nil => rfl
  | cons occurrence occurrences ih =>
    obtain ⟨path, answer⟩ := occurrence
    cases answer <;> simp [List.filterMap_cons, handle?, failure?] <;> omega

end Journal

section Requests

open Journal

variable {σ : Type} (bench : Workbench σ)

theorem Handles.find?_eq {cache : Handles} {journal : Journal} (kept : cache.entries = journal.successes)
    (path : Path) : cache.find? path = journal.first? path := by
  rw [find?, first?, kept]

def Resolution.adding (occurrence : Occurrence) (rest : Resolution) : Resolution :=
  ⟨(handle? occurrence).toList ++ rest.handles, (failure? occurrence).toList ++ rest.failures⟩

theorem Handles.resolveAll_cons (resolve : Resolver σ) (cache : Handles) (path : Path)
    (paths : List Path) (state : σ) :
    let one := resolveOne resolve cache path state
    let rest := resolveAll resolve one.value.2 paths one.state
    (resolveAll resolve cache (path :: paths) state).value =
        (rest.value.1.adding (path, one.value.1), rest.value.2) ∧
      (resolveAll resolve cache (path :: paths) state).state = rest.state := by
  simp only [resolveAll, Act.bind_run]
  cases (resolveOne resolve cache path state).value.1 <;> exact ⟨rfl, rfl⟩

theorem Handles.resolveOne_known {cache : Handles} {path : Path} {handle : ReferenceHandle}
    (known : cache.find? path = some handle) (resolve : Resolver σ) (state : σ) :
    resolveOne resolve cache path state = ⟨(.ok handle, cache), [], state⟩ := by
  simp [resolveOne, known]

theorem Handles.resolveOne_asked {cache : Handles} {path : Path} {journal : Journal}
    (unknown : cache.find? path = none) (kept : cache.entries = journal.successes) (state : σ) :
    let one := resolveOne bench.recorded.resolve cache path (state, journal)
    let asked := journal ++ [.resolve path one.value.1]
    one.state.2 = asked ∧ one.value.2.entries = asked.successes := by
  simp only [resolveOne, unknown, Act.bind_run, Workbench.recorded, Act.noted, Act.beside, Act.zoom_run,
    Act.modify_run, Act.pure_run, successes_append]
  cases (bench.resolve path state).value with
  | ok handle => exact ⟨rfl, congrArg (· ++ [(path, handle)]) kept⟩
  | error fault => exact ⟨rfl, kept.trans (List.append_nil _).symm⟩

theorem adding_eq (occurrence : Occurrence) (occurrences : List Occurrence) :
    Resolution.adding occurrence
        ⟨occurrences.filterMap handle?, occurrences.filterMap failure?⟩ =
      ⟨(occurrence :: occurrences).filterMap handle?,
        (occurrence :: occurrences).filterMap failure?⟩ := by
  obtain ⟨path, answer⟩ := occurrence
  cases answer <;> rfl

theorem Handles.resolveAll_met (paths : List Path) {cache : Handles} {journal : Journal}
    (kept : cache.entries = journal.successes) (state : σ) :
    let done := resolveAll bench.recorded.resolve cache paths (state, journal)
    ∃ occurrences, Met journal occurrences done.state.2 ∧ occurrences.map Prod.fst = paths ∧
      done.value.1 = ⟨occurrences.filterMap handle?, occurrences.filterMap failure?⟩ ∧
      done.value.2.entries = done.state.2.successes := by
  induction paths generalizing cache journal state with
  | nil => exact ⟨[], .nil, rfl, rfl, kept⟩
  | cons path paths ih =>
    obtain ⟨value, left⟩ := resolveAll_cons bench.recorded.resolve cache path paths (state, journal)
    simp only [value, left]
    cases first : journal.first? path with
    | some handle =>
      have known : cache.find? path = some handle := (find?_eq kept path).trans first
      rw [resolveOne_known known]
      obtain ⟨occurrences, met, listed, resolution, entries⟩ := ih kept state
      exact ⟨(path, .ok handle) :: occurrences, .known first met, by simp [listed],
        by rw [resolution, adding_eq], entries⟩
    | none =>
      have unknown : cache.find? path = none := (find?_eq kept path).trans first
      obtain ⟨asked, entries⟩ := resolveOne_asked bench unknown kept state
      generalize resolveOne bench.recorded.resolve cache path (state, journal) = one at asked entries
      obtain ⟨⟨answer, after⟩, events, left, noted⟩ := one
      obtain rfl : noted = journal ++ [.resolve path answer] := asked
      obtain ⟨occurrences, met, listed, resolution, more⟩ := ih entries left
      exact ⟨(path, answer) :: occurrences, .asked first met, by simp [listed],
        by rw [resolution, adding_eq], more⟩

-- One list with three spellings of one path, and a resolver that fails once: the second spelling is asked
-- for again, and the third one has its handle.
example (fault : Fault) :
    let flaky : Resolver Bool := fun path ready =>
      ⟨if ready then .ok ⟨path, none⟩ else .error fault, [], true⟩
    let spelled : Bytes → Path := fun octets => ⟨octets⟩
    (Handles.resolveAll flaky .empty [spelled [65], spelled [65, 47], spelled [65, 47, 46]] false).value.1 =
      ⟨[⟨spelled [65, 47], none⟩, ⟨spelled [65, 47], none⟩], [(spelled [65], fault)]⟩ := by
  rfl

theorem Pass.generateOne_asks (project : Project) (document : Path) (state : σ) (journal : Journal) :
    ∃ made : Journal, (generateOne bench.recorded project document (state, journal)).state.2 =
      journal ++ made ∧ ∀ request ∈ made, ∃ document outcome, request = .generate document outcome := by
  simp only [generateOne, Act.bind_run, Act.say_run, Act.get_run, Workbench.recorded]
  cases (bench.files state).openFile document with
  | error error => exact ⟨[], by simp, by simp⟩
  | ok file =>
    simp only [Act.bind_run, Act.noted, Act.beside, Act.zoom_run, Act.modify_run, Act.pure_run]
    generalize (bench.generate (project.relativePath document) file state).value = outcome
    exact ⟨[.generate (project.relativePath document) outcome], by cases outcome <;> rfl, by simp⟩

theorem Pass.generateAll_asks (project : Project) (documents : List Path) (state : σ)
    (journal : Journal) :
    ∃ made : Journal, (generateAll bench.recorded project documents (state, journal)).state.2 =
      journal ++ made ∧ ∀ request ∈ made, ∃ document outcome, request = .generate document outcome := by
  induction documents generalizing state journal with
  | nil => exact ⟨[], by simp [generateAll], by simp⟩
  | cons document documents ih =>
    obtain ⟨first, grown, generated⟩ := generateOne_asks bench project document state journal
    simp only [generateAll, Act.bind_run, Act.pure_run]
    generalize generateOne bench.recorded project document (state, journal) = one at grown
    obtain ⟨source, events, left, noted⟩ := one
    obtain rfl : noted = journal ++ first := grown
    obtain ⟨rest, more, others⟩ := ih left (journal ++ first)
    refine ⟨first ++ rest, by rw [more, List.append_assoc], ?_⟩
    exact List.forall_mem_append.mpr ⟨generated, others⟩

theorem Pass.run_asks (project : Project) (references : List ReferenceHandle) (state : σ)
    (journal : Journal) : ∃ (made : Journal) (unit : CompilationUnit) (outcome : _),
      (run bench.recorded project references (state, journal)).state.2 =
        journal ++ made ++ [.compile unit outcome] ∧
      (∀ request ∈ made, ∃ document outcome, request = .generate document outcome) ∧
      unit.references = references := by
  have review_keeps (outcome : Except Fault CompileOutcome) (whole : σ × Journal) :
      (review project.name outcome whole).state = whole := by
    cases outcome <;> rfl
  let start := Act.beside bench.fresh (state, journal)
  obtain ⟨made, grown, generated⟩ :=
    generateAll_asks bench project project.documents start.state.1 journal
  let sources := generateAll bench.recorded project project.documents (start.state.1, journal)
  let unit := unitOf project start.value references sources.value
  refine ⟨made, unit, (bench.compile unit sources.state.1).value, ?_, generated, rfl⟩
  simp only [run, Act.bind_run, Act.pure_run, review_keeps]
  rw [← grown]
  rfl

structure PassAccount where
  occurrences : List Occurrence
  asked : Journal
  made : Journal
  unit : CompilationUnit
  outcome : Except Fault CompileOutcome

structure PassAccount.Of (account : PassAccount) (project : Project) (before : Journal) (events : List Event)
    (after : Journal) : Prop where
  met : Met before account.occurrences (before ++ account.asked)
  listed : account.occurrences.map Prod.fst = project.references
  requests : after = before ++ account.asked ++ account.made ++ [.compile account.unit account.outcome]
  generated : ∀ request ∈ account.made, ∃ document outcome, request = .generate document outcome
  handles : account.unit.references = account.occurrences.filterMap handle?
  reported : ∃ first last, events =
    first ++ Worker.reportFailures project.name (account.occurrences.filterMap failure?) ++ last
  counted : account.unit.references.length + (account.occurrences.filterMap failure?).length =
    project.references.length

theorem silent {made : Journal} {unit : CompilationUnit} {outcome : Except Fault CompileOutcome}
    (generated : ∀ request ∈ made, ∃ document outcome, request = .generate document outcome) :
    ∀ request ∈ made ++ [.compile unit outcome], ∀ path answer, request ≠ .resolve path answer := by
  refine List.forall_mem_append.mpr ⟨fun request inside path answer => ?_, by simp⟩
  obtain ⟨document, outcome, rfl⟩ := generated request inside
  exact nofun

namespace Worker

variable (extension : String) {worker : Worker} {journal : Journal}

theorem handle_known {metadata : Metadata} {project : Project}
    (known : worker.catalog.get? metadata.id = some project)
    (kept : worker.handles.entries = journal.successes) (state : σ) :
    let done := worker.handle bench.recorded extension (.metadata metadata) (state, journal)
    (∃ account : PassAccount, account.Of project journal done.events done.state.2) ∧
      done.value.2.handles.entries = done.state.2.successes := by
  simp only [handle, applyMetadata, known, Act.bind_run, Act.say_run, Act.sayAll_run, Act.pure_run]
  obtain ⟨occurrences, met, listed, resolution, entries⟩ :=
    Handles.resolveAll_met bench project.references kept state
  obtain ⟨asked, grown⟩ := met.grows
  generalize Handles.resolveAll bench.recorded.resolve worker.handles project.references
    (state, journal) = resolved at met resolution entries grown
  obtain ⟨⟨found, cache⟩, asking, left, noted⟩ := resolved
  obtain rfl : noted = journal ++ asked := grown
  obtain rfl : found = _ := resolution
  obtain ⟨made, unit, outcome, requests, generated, handles⟩ :=
    Pass.run_asks bench { project with lastMetadata := some metadata.bytes }
      (occurrences.filterMap handle?) left (journal ++ asked)
  refine ⟨⟨⟨occurrences, asked, made, unit, outcome⟩, met, listed, requests, generated, handles, ?_, ?_⟩,
    ?_⟩
  next => exact ⟨_ :: asking, _, by simp only [List.cons_append, List.append_assoc, List.nil_append]; rfl⟩
  next => rw [handles, occurrences_length, ← listed, List.length_map]
  next =>
    rw [requests, List.append_assoc, successes_append, successes_others (silent generated), List.append_nil]
    exact entries

theorem handle_other {message : Message}
    (other : ∀ metadata, message = .metadata metadata → worker.catalog.get? metadata.id = none)
    (state : σ) (journal : Journal) :
    let done := worker.handle bench.recorded extension message (state, journal)
    done.value.2.handles = worker.handles ∧ done.state.2 = journal := by
  cases message with
  | version | error | unknown | solution => exact ⟨rfl, rfl⟩
  | project id references =>
    simp only [handle, applyReferences]
    cases worker.catalog.get? id <;> exact ⟨rfl, rfl⟩
  | metadata metadata => simp [handle, applyMetadata, other metadata rfl]

theorem handleAll_settled (state : σ) (messages : List Message) :
    let run := handleAll bench.recorded extension .initial (state, []) messages
    run.2.2.Settled ∧ run.1.handles.entries = run.2.2.successes := by
  induction messages using List.reverseRecOn with
  | nil => exact ⟨List.Pairwise.nil, rfl⟩
  | append_singleton messages message ih =>
    simp only [handleAll_append] at ih ⊢
    generalize handleAll bench.recorded extension .initial (state, []) messages = run at ih
    obtain ⟨worker, left, journal⟩ := run
    obtain ⟨settled, kept⟩ := ih
    by_cases known : ∃ metadata project, message = .metadata metadata ∧
        worker.catalog.get? metadata.id = some project
    next =>
      obtain ⟨metadata, project, rfl, known⟩ := known
      obtain ⟨⟨account, own⟩, entries⟩ := handle_known bench extension known kept left
      refine ⟨?_, entries⟩
      rw [own.requests, List.append_assoc]
      exact settled_others (own.met.settled settled) (silent own.generated)
    next =>
      have unknown (metadata : Metadata) (own : message = .metadata metadata) :
          worker.catalog.get? metadata.id = none :=
        Option.eq_none_iff_forall_not_mem.mpr fun project there => known ⟨metadata, project, own, there⟩
      obtain ⟨handles, same⟩ := handle_other bench extension unknown left journal
      rw [handles, same]
      exact ⟨settled, kept⟩

end Worker

end Requests

namespace Worker

open Journal

variable {σ : Type}

theorem references_resolve_once (bench : Workbench σ) (extension : String) (state : σ)
    (messages : List Message) :
    let run := handleAll bench.recorded extension .initial (state, []) messages
    (run.1, run.2.1) = handleAll bench extension .initial state messages ∧
    run.2.2.Settled ∧ run.1.handles.entries = run.2.2.successes ∧
    ∀ message,
      let done := run.1.handle bench.recorded extension message run.2
      handleAll bench.recorded extension .initial (state, []) (messages ++ [message]) =
          (done.value.2, done.state) ∧
      ((∀ metadata, message = .metadata metadata → run.1.catalog.get? metadata.id = none) →
        done.value.2.handles = run.1.handles ∧ done.state.2 = run.2.2) ∧
      ∀ metadata project, message = .metadata metadata →
        run.1.catalog.get? metadata.id = some project →
          ∃ account : PassAccount, account.Of project run.2.2 done.events done.state.2 ∧
            ∀ path handle, (path, handle) ∈ run.2.2.successes →
              ∀ occurrence ∈ account.occurrences, path.Same occurrence.1 → occurrence.2 = .ok handle := by
  intro run
  obtain ⟨settled, kept⟩ := handleAll_settled bench extension state messages
  refine ⟨handleAll_recorded bench extension .initial state [] messages, settled, kept, ?_⟩
  intro message done
  refine ⟨handleAll_append _ _ _ _ _ _, fun other => handle_other bench extension other run.2.1 run.2.2, ?_⟩
  rintro metadata project rfl known
  obtain ⟨⟨account, own⟩, -⟩ := handle_known bench extension known kept run.2.1
  exact ⟨account, own, fun path handle inside => own.met.keeps (first?_of_mem settled inside)⟩

end Worker

end TemplateSync
