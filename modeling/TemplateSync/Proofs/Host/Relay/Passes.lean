import TemplateSync.Proofs.Host.Relay

set_option autoImplicit false

namespace TemplateSync

namespace Relay

variable {σ τ : Type} {workspace : Workspace σ} {version : Int32} {bench : Workbench τ}
  {extension : String} {r s t u : Relay σ τ} {turn : Turn σ} {turns : List (Turn σ)}

section Worker

variable (still : bench.Still)

include still

end Worker

section Host

-- The last metadata of a project to be handled, and what was asked for when it was.
def LastPass (turns : List (Turn σ)) (metadata : Metadata) (requests : Journal) : Prop :=
  ∃ earlier later, turns = earlier ++ .handled (.metadata metadata) requests :: later ∧
    ∀ content, .metadata content ∈ taken later → content.id ≠ metadata.id

structure AtRest (r : Relay σ τ) : Prop where
  host : r.host.clock.AtRest
  joined : r.joined = true
  handled : r.line = []

theorem LastPass.within {since : List (Turn σ)} {metadata content : Metadata} {requests : Journal}
    (last : LastPass turns metadata requests) (since_suffix : since <:+ turns)
    (inside : .metadata content ∈ taken since) (same : content.id = metadata.id) :
    ∃ middle later, since = middle ++ .handled (.metadata metadata) requests :: later := by
  obtain ⟨earlier, later, split, final⟩ := last
  have pass : .handled (.metadata metadata) requests :: later <:+ turns := ⟨earlier, split.symm⟩
  rcases List.suffix_or_suffix_of_suffix since_suffix pass with short | ⟨middle, long⟩
  next =>
    rcases List.suffix_cons_iff.mp short with whole | ⟨between, rfl⟩
    next => exact ⟨[], later, whole⟩
    next =>
      rw [taken_append] at final
      exact absurd same (final content (List.mem_append_right _ inside))
  next => exact ⟨middle, later, long.symm⟩

end Host

section Example

def emitting : Workspace (List ProjectDescriptor) :=
  ⟨id, fun _ => pure (.emitted ⟨none, [1]⟩)⟩

def plainBench : Workbench FileTree where
  generate := verbatimGenerator
  compile := nullCompiler
  resolve := fileResolver id
  files := id
  fresh := pure (.ofNat 0)

def noTemplates : FileTree :=
  FileTree.empty.put [Utf8.encode "web"] .directory

def oneTemplate : FileTree :=
  noTemplates.put [Utf8.encode "web", Utf8.encode "Home.cshtml"] (.file [] false)

def web : ProjectDescriptor :=
  ⟨.ofNat 1, "Web", "/web/Web.csproj", []⟩

def webMetadata : Metadata :=
  ⟨web.id, web.name, none, [1]⟩

abbrev Runs :
    List (Turn (List ProjectDescriptor)) → Relay (List ProjectDescriptor) FileTree → Prop :=
  Trace (Step emitting 1 plainBench "cshtml") (start [web] noTemplates)

def knowing (files : FileTree) : Worker :=
  ⟨.ofList [.ofDescriptor files "cshtml" web], .empty⟩

def passOf (worker : Worker) : Outcome (FileTree × Journal) (Verdict × Worker) :=
  worker.handle plainBench.recorded "cshtml" (.metadata webMetadata) (oneTemplate, [])

def opening : List (Turn (List ProjectDescriptor)) :=
  [.joined [.version 1, .solution [web]], .handled (.version 1) [], .handled (.solution [web]) [],
    .edited]

def opened : Relay (List ProjectDescriptor) FileTree where
  host := .start [web]
  joined := true
  line := []
  worker := knowing noTemplates
  state := oneTemplate

theorem opening_runs : Runs opening opened := by
  refine trace_cons.mpr ⟨_, .joined rfl, ?_⟩
  refine trace_cons.mpr ⟨_, .handled (.version 1) _ rfl, ?_⟩
  refine trace_cons.mpr ⟨_, .handled (.solution [web]) _ rfl, ?_⟩
  exact trace_single (.edited oneTemplate)

def batch : List (Turn (List ProjectDescriptor)) :=
  [.host (.clock (.projectsRead 0)) [], .host (.clock (.batchStarted 0)) [],
    .host (.emitted 0 web) [], .host (.gathered 0) [], .host (.speaking 0 (.metadata webMetadata)) [],
    .host (.spoken 0 (.metadata webMetadata)) [.metadata webMetadata],
    .host (.clock (.batchEnded 0)) []]

theorem step_quiet {r : Relay (List ProjectDescriptor) FileTree}
    {beat : Beat (List ProjectDescriptor)} {host : Clockwork (List ProjectDescriptor)}
    (step : Clockwork.Step emitting r.host beat host) (quiet : r.post beat = [])
    (alone : ∀ tick, beat = .clock (.claimed tick) →
      ∀ other, (r.host.clock.ticks other).inProgress = false) :
    Step emitting 1 plainBench "cshtml" r (.host beat []) { r with host := host } := by
  have done : Step emitting 1 plainBench "cshtml" r (.host beat (r.post beat)) _ :=
    .host beat host alone step
  simpa [quiet] using done

theorem batch_runs {turns : List (Turn (List ProjectDescriptor))} {clock : Clock (List ProjectDescriptor)}
    {line : List Message} {worker : Worker} {state : FileTree}
    (run : Runs turns ⟨⟨clock, fun _ => none⟩, true, line, worker, state⟩)
    (world : clock.world = [web]) (clean : clock.ticker.flags = .clean)
    (listed : clock.ticks 0 = .listed) (others : ∀ tick, tick ≠ 0 → clock.ticks tick = .unstarted) :
    ∃ host : Clockwork (List ProjectDescriptor), host.clock.AtRest ∧
      Runs (turns ++ batch) ⟨host, true, line ++ [.metadata webMetadata], worker, state⟩ := by
  obtain ⟨ticker, _, ticks⟩ := clock
  obtain rfl := world
  have more : Trace (Step emitting 1 plainBench "cshtml")
      ⟨⟨⟨ticker, [web], ticks⟩, fun _ => none⟩, true, line, worker, state⟩ [] _ := .start
  have more := more.next (step_quiet
    (.clock (.projectsRead 0) _ rfl (.projectsRead 0 listed)) rfl nofun)
  have more := more.next (step_quiet
    (.begun 0 ⟨[web]⟩ _ rfl (.batchStarted 0 ⟨[web]⟩ rfl)) rfl nofun)
  have more := more.next (step_quiet (.emitted 0 [] [] web rfl) rfl nofun)
  have more := more.next (step_quiet
    (.gathered 0 [(web, .emitted ⟨none, [1]⟩)] rfl (by simp)) rfl nofun)
  have more := more.next (step_quiet (.speaking 0 web ⟨none, [1]⟩ [] rfl) rfl nofun)
  have more := more.next (.host (.spoken 0 _) _ nofun (.spoken 0 _ [] rfl))
  have more := more.next (step_quiet
    (.ended 0 _ (.inr rfl) (.batchEnded 0 ⟨[web]⟩ rfl)) rfl nofun)
  refine ⟨_, ⟨clean, fun tick => ?_⟩, run.trans more⟩
  by_cases own : tick = 0
  next =>
    subst own
    exact .inr rfl
  next =>
    left
    simpa [Clock.put, Clock.turn, Clockwork.put, Clockwork.move, Clock.move, own] using others tick own

theorem pass_step (host : Clockwork (List ProjectDescriptor)) (worker : Worker) :
    Step emitting 1 plainBench "cshtml" ⟨host, true, [.metadata webMetadata], worker, oneTemplate⟩
      (.handled (.metadata webMetadata) (passOf worker).state.2)
      ⟨host, true, [], (passOf worker).value.2, (passOf worker).state.1⟩ :=
  .handled _ _ rfl

def reported (change : Change) (sends handles : List (Turn (List ProjectDescriptor)))
    (requests : Journal) : List (Turn (List ProjectDescriptor)) :=
  opening ++ .host (.clock (.changed change)) [] :: (.host (.clock (.claimed 0)) [] ::
    (sends ++ batch ++ handles ++ [.handled (.metadata webMetadata) requests]))

section Reported

variable (change : Change) (sends : List (Turn (List ProjectDescriptor)))
  {handles : List (Turn (List ProjectDescriptor))} (requests : Journal)

end Reported

def listing : List (Turn (List ProjectDescriptor)) :=
  [.host (.clock (.listRead 0)) [], .host (.clock (.listSent 0)) [.solution [web]]]

theorem listing_runs : ∃ r : Relay (List ProjectDescriptor) FileTree, r.AtRest ∧
    r.worker = (passOf (knowing oneTemplate)).value.2 ∧
    Runs (reported .projectChanged listing [.handled (.solution [web]) []]
      (passOf (knowing oneTemplate)).state.2) r := by
  have changed := opening_runs.next (step_quiet
    (.clock (.changed .projectChanged) _ rfl (.changed _)) rfl nofun)
  have claimed := changed.next (step_quiet
    (.clock (.claimed 0) _ rfl (.claimed 0 rfl)) rfl fun _ _ _ => rfl)
  have read := claimed.next (step_quiet
    (.clock (.listRead 0) _ rfl (.listRead 0 true rfl)) rfl nofun)
  have sent := read.next (.host (.clock (.listSent 0)) _ nofun
    (.clock _ _ rfl (.listSent 0 (.solution [web]) true rfl)))
  obtain ⟨host, rest, batched⟩ := batch_runs sent rfl rfl rfl fun tick other => by
    simp [Clock.put, Clock.turn, opened, Clockwork.start, Clock.start, other]
  have listed := batched.next (.handled (.solution [web]) [.metadata webMetadata] rfl)
  have run := listed.next (pass_step host (knowing oneTemplate))
  exact ⟨_, ⟨rest, rfl, rfl⟩, rfl, run⟩

end Example

end Relay

end TemplateSync
