import TemplateSync.Act
import TemplateSync.Proofs.Trace

set_option autoImplicit false

namespace TemplateSync.Locks

inductive Grip where
  | reading
  | writing
  deriving DecidableEq

def Grip.Clashes (grip other : Grip) : Prop :=
  grip = .writing ∨ other = .writing

instance (grip other : Grip) : Decidable (grip.Clashes other) :=
  inferInstanceAs (Decidable (grip = .writing ∨ other = .writing))

inductive Want (L R : Type) where
  | lock (lock : L) (grip : Grip)
  | ending (role : R) (number : Nat)
  deriving DecidableEq

/-- What a thread does up to its result. All threads share one state; a thread has a role and a number. -/
inductive Script (S L R α : Type) where
  | done (value : α)
  | lock (lock : L) (grip : Grip) (next : Script S L R α)
  -- The lock that was taken last is released.
  | unlock (next : Script S L R α)
  -- In one moment the state is changed, and what it was before is known.
  | act (change : S → S) (next : S → Script S L R α)
  | choose (next : Bool → Script S L R α)
  | join (role : R) (number : Nat) (next : Script S L R α)
  | spawn (role : R) (next : Nat → Script S L R α)

section Scripts

variable {S L R α β σ : Type}

namespace Script

def bind : Script S L R α → (α → Script S L R β) → Script S L R β
  | done value, next => next value
  | lock l grip rest, next => lock l grip (rest.bind next)
  | unlock rest, next => unlock (rest.bind next)
  | act change rest, next => act change fun s => (rest s).bind next
  | choose rest, next => choose fun choice => (rest choice).bind next
  | join role number rest, next => join role number (rest.bind next)
  | spawn role rest, next => spawn role fun number => (rest number).bind next

instance : Monad (Script S L R) where
  pure := done
  bind := bind

def want? : Script S L R α → Option (Want L R)
  | lock l grip _ => some (.lock l grip)
  | join role number _ => some (.ending role number)
  | _ => none

def isOver : Script S L R Bool → Bool
  | done again => !again
  | _ => false

theorem running_of_want {script : Script S L R Bool} {want : Want L R}
    (wants : script.want? = some want) :
    script.isOver = false := by
  cases script with
  | done => cases wants
  | lock | unlock | act | choose | join | spawn => rfl

end Script

def look : Script S L R S :=
  .act id .done

def alter (change : S → S) : Script S L R Unit :=
  .act change fun _ => .done ()

def swap (change : S → S) : Script S L R S :=
  .act change .done

def perform (read : S → σ) (write : σ → S → S) (act : Act σ α) : Script S L R α :=
  .act (fun s => write (act (read s)).state s) fun s => .done (act (read s)).value

def either : Script S L R Bool :=
  .choose .done

def spawn (role : R) : Script S L R Nat :=
  .spawn role .done

def await (role : R) (number : Nat) : Script S L R Unit :=
  .join role number (.done ())

def within (lock : L) (grip : Grip) (body : Script S L R α) : Script S L R α :=
  .lock lock grip (body.bind fun value => .unlock (.done value))

-- What may come of a script when no other thread goes on meanwhile.
def Script.Comes : Script S L R α → S → α → S → Prop
  | .done value, s, result, after => result = value ∧ after = s
  | .lock _ _ next, s, result, after => next.Comes s result after
  | .unlock next, s, result, after => next.Comes s result after
  | .act change next, s, result, after => (next s).Comes (change s) result after
  | .choose next, s, result, after => ∃ choice, (next choice).Comes s result after
  | .join _ _ next, s, result, after => next.Comes s result after
  | .spawn _ next, s, result, after => ∃ number, (next number).Comes s result after

def Script.Settles (script : Script S L R α) (s : S) (value : α) (after : S) : Prop :=
  ∀ result last, script.Comes s result last ↔ result = value ∧ last = after

section Comes

variable {script : Script S L R α} {next : α → Script S L R β} {s between after : S} {value : α} {result : β}

theorem comes_bind : (script.bind next).Comes s result after ↔
    ∃ value between, script.Comes s value between ∧ (next value).Comes between result after := by
  induction script generalizing s with
  | done value =>
    constructor
    next => exact fun comes => ⟨value, s, ⟨rfl, rfl⟩, comes⟩
    next =>
      rintro ⟨_, _, ⟨rfl, rfl⟩, comes⟩
      exact comes
  | lock _ _ _ ih | join _ _ _ ih => exact ih
  | unlock _ ih => exact ih
  | act change _ ih => exact ih (s := change s) s
  | choose _ ih | spawn _ _ ih =>
    constructor
    next =>
      rintro ⟨choice, comes⟩
      obtain ⟨value, between, first, rest⟩ := (ih choice).mp comes
      exact ⟨value, between, ⟨choice, first⟩, rest⟩
    next =>
      rintro ⟨value, between, ⟨choice, first⟩, rest⟩
      exact ⟨choice, (ih choice).mpr ⟨value, between, first, rest⟩⟩

theorem Script.Settles.comes_bind (settles : script.Settles s value between) :
    (script >>= next).Comes s result after ↔ (next value).Comes between result after := by
  refine Locks.comes_bind.trans ?_
  constructor
  next =>
    rintro ⟨_, _, first, rest⟩
    obtain ⟨rfl, rfl⟩ := (settles _ _).mp first
    exact rest
  next => exact fun rest => ⟨value, between, (settles _ _).mpr ⟨rfl, rfl⟩, rest⟩

theorem Script.Settles.bind (settles : script.Settles s value between)
    (rest : (next value).Settles between result after) : (script >>= next).Settles s result after :=
  fun one last => settles.comes_bind.trans (rest one last)

theorem settles_pure : (pure value : Script S L R α).Settles s value s :=
  fun _ _ => Iff.rfl

theorem settles_look : (look : Script S L R S).Settles s s s :=
  fun _ _ => Iff.rfl

theorem settles_swap {change : S → S} : (swap change : Script S L R S).Settles s s (change s) :=
  fun _ _ => Iff.rfl

theorem settles_perform {read : S → σ} {write : σ → S → S} {act : Act σ α} :
    (perform read write act : Script S L R α).Settles s (act (read s)).value (write (act (read s)).state s) :=
  fun _ _ => Iff.rfl

theorem settles_await {role : R} {number : Nat} :
    (await role number : Script S L R Unit).Settles s () s :=
  fun _ _ => Iff.rfl

theorem settles_within {lock : L} {grip : Grip} (settles : script.Settles s value after) :
    (within lock grip script).Settles s value after := by
  have released : (script >>= fun value => .unlock (.done value)).Settles s value after :=
    settles.bind fun _ _ => Iff.rfl
  exact released

theorem comes_either_bind {next : Bool → Script S L R β} :
    (either >>= next).Comes s result after ↔ ∃ choice, (next choice).Comes s result after :=
  Iff.rfl

end Comes

end Scripts

structure Thread (S L R : Type) where
  role : R
  script : Script S L R Bool
  held : List (L × Grip)

structure Machine (S L R : Type) where
  shared : S
  threads : List (Thread S L R)

/-- What the threads of each role do, which of them come by themselves, and what changes the state besides them.
A thread whose result is true begins anew. -/
structure Program (S L R : Type) where
  body : R → Nat → Script S L R Bool
  Enters : R → Prop
  Drifts : S → S → Prop

inductive Move (R : Type) where
  | drifted
  | entered (role : R)
  | turned (number : Nat) (choice : Bool)

section Machines

variable {S L R : Type} {program : Program S L R}

namespace Machine

def put (m : Machine S L R) (number : Nat) (thread : Thread S L R) : Machine S L R :=
  { m with threads := m.threads.set number thread }

def begin (program : Program S L R) (m : Machine S L R) (role : R) : Machine S L R :=
  { m with threads := m.threads ++ [⟨role, program.body role m.threads.length, []⟩] }

def Free (m : Machine S L R) (lock : L) (grip : Grip) : Prop :=
  ∀ thread ∈ m.threads, ∀ hold ∈ thread.held, hold.1 = lock → ¬ grip.Clashes hold.2

instance [DecidableEq L] (m : Machine S L R) (lock : L) (grip : Grip) : Decidable (m.Free lock grip) :=
  inferInstanceAs (Decidable (∀ thread ∈ m.threads, ∀ hold ∈ thread.held, hold.1 = lock → ¬ grip.Clashes hold.2))

def Ended (m : Machine S L R) (role : R) (number : Nat) : Prop :=
  ∀ thread ∈ m.threads[number]?, thread.role = role → thread.script.isOver = true

instance [DecidableEq R] (m : Machine S L R) (role : R) (number : Nat) : Decidable (m.Ended role number) :=
  inferInstanceAs (Decidable (∀ thread ∈ m.threads[number]?, thread.role = role → thread.script.isOver = true))

variable [DecidableEq L] [DecidableEq R]

def advance? (program : Program S L R) (m : Machine S L R) (number : Nat) (choice : Bool) :
    Option (Machine S L R) :=
  match m.threads[number]? with
  | none | some ⟨_, .done false, _⟩ => none
  | some ⟨role, .done true, held⟩ => some (m.put number ⟨role, program.body role number, held⟩)
  | some ⟨role, .lock lock grip next, held⟩ =>
    if m.Free lock grip then some (m.put number ⟨role, next, (lock, grip) :: held⟩) else none
  | some ⟨role, .unlock next, held⟩ => some (m.put number ⟨role, next, held.tail⟩)
  | some ⟨role, .act change next, held⟩ =>
    some { m.put number ⟨role, next m.shared, held⟩ with shared := change m.shared }
  | some ⟨role, .choose next, held⟩ => some (m.put number ⟨role, next choice, held⟩)
  | some ⟨role, .join other awaited next, held⟩ =>
    if m.Ended other awaited then some (m.put number ⟨role, next, held⟩) else none
  | some ⟨role, .spawn other next, held⟩ =>
    some ((m.put number ⟨role, next m.threads.length, held⟩).begin program other)

def play? (program : Program S L R) (m : Machine S L R) : List (Move R) → Option (Machine S L R)
  | [] => some m
  | .drifted :: _ => none
  | .entered role :: moves => (m.begin program role).play? program moves
  | .turned number choice :: moves => (m.advance? program number choice).bind fun next => next.play? program moves

inductive Step (program : Program S L R) (m : Machine S L R) : Move R → Machine S L R → Prop where
  | drifted (shared : S) (drifts : program.Drifts m.shared shared) :
      Step program m .drifted { m with shared := shared }
  | entered (role : R) (enters : program.Enters role) : Step program m (.entered role) (m.begin program role)
  | turned (number : Nat) (choice : Bool) {next : Machine S L R}
      (goes : m.advance? program number choice = some next) : Step program m (.turned number choice) next

theorem trace_of_play {m next : Machine S L R} {moves : List (Move R)}
    (enters : ∀ role, .entered role ∈ moves → program.Enters role) (played : m.play? program moves = some next) :
    Trace (Step program) m moves next := by
  induction moves generalizing m with
  | nil =>
    cases played
    exact .start
  | cons move moves ih =>
    have later : ∀ role, .entered role ∈ moves → program.Enters role :=
      fun role inside => enters role (List.mem_cons_of_mem _ inside)
    cases move with
    | drifted => cases played
    | entered role =>
      exact trace_cons.mpr ⟨_, .entered role (enters role List.mem_cons_self), ih later played⟩
    | turned number choice =>
      obtain ⟨between, goes, rest⟩ := Option.bind_eq_some_iff.mp played
      exact trace_cons.mpr ⟨between, .turned number choice goes, ih later rest⟩

/-- The thread waits for the other one: for a lock that it holds or, as a reader, for a writer that waits too; or
for its end. -/
inductive Waits (m : Machine S L R) (number other : Nat) : Prop where
  | held {thread holder : Thread S L R} {lock : L} {grip own : Grip} (here : m.threads[number]? = some thread)
      (wants : thread.script.want? = some (.lock lock grip)) (there : m.threads[other]? = some holder)
      (holds : (lock, own) ∈ holder.held) (clashes : grip.Clashes own)
  | queued {thread writer : Thread S L R} {lock : L} (here : m.threads[number]? = some thread)
      (wants : thread.script.want? = some (.lock lock .reading)) (there : m.threads[other]? = some writer)
      (waits : writer.script.want? = some (.lock lock .writing))
  | running {thread runner : Thread S L R} (here : m.threads[number]? = some thread)
      (wants : thread.script.want? = some (.ending runner.role other)) (there : m.threads[other]? = some runner)
      (running : runner.script.isOver = false)

end Machine

end Machines

end TemplateSync.Locks
