import Mathlib.Logic.Relation
import TemplateSync.Proofs.Locks

set_option autoImplicit false

namespace TemplateSync.Locks

structure Order (L R : Type) where
  lock : L → Nat
  ending : R → Nat
  top : Nat
  lock_le : ∀ one, lock one ≤ top
  ending_le : ∀ role, ending role ≤ top

namespace Order

variable {S L R α β σ : Type} (order : Order L R)

def Above (own : Nat) (held : List (L × Grip)) (rank : Nat) : Prop :=
  own < rank ∧ ∀ hold ∈ held, order.lock hold.1 < rank

-- A script waits only for what ranks above all that its thread holds then.
def Climbs (own : Nat) : Script S L R α → List (L × Grip) → (α → List (L × Grip) → Prop) → Prop
  | .done value, held, post => post value held
  | .lock lock grip next, held, post =>
    order.Above own held (order.lock lock) ∧ Climbs own next ((lock, grip) :: held) post
  | .unlock next, held, post => Climbs own next held.tail post
  | .act _ next, held, post => ∀ s, Climbs own (next s) held post
  | .choose next, held, post => ∀ choice, Climbs own (next choice) held post
  | .join role _ next, held, post => order.Above own held (order.ending role) ∧ Climbs own next held post
  | .spawn _ next, held, post => ∀ number, Climbs own (next number) held post

-- A thread that holds nothing above the floor may run the script, and holds the same after it.
def Keeps (floor : Nat) (script : Script S L R α) : Prop :=
  ∀ own held, own ≤ floor → (∀ hold ∈ held, order.lock hold.1 ≤ floor) →
    order.Climbs own script held fun _ after => after = held

section Keeps

variable {order} {own floor : Nat} {script : Script S L R α} {held : List (L × Grip)}
  {post other : α → List (L × Grip) → Prop}

theorem climbs_bind (next : α → Script S L R β) (post : β → List (L × Grip) → Prop) :
    order.Climbs own (script.bind next) held post ↔
      order.Climbs own script held fun value after => order.Climbs own (next value) after post := by
  induction script generalizing held with
  | done => rfl
  | lock _ _ _ ih | join _ _ _ ih => exact and_congr_right fun _ => ih
  | unlock _ ih => exact ih
  | act _ _ ih => exact forall_congr' fun s => ih s
  | choose _ ih => exact forall_congr' fun choice => ih choice
  | spawn _ _ ih => exact forall_congr' fun number => ih number

theorem Climbs.mono (climbs : order.Climbs own script held post)
    (weaker : ∀ value after, post value after → other value after) : order.Climbs own script held other := by
  induction script generalizing held with
  | done => exact weaker _ _ climbs
  | lock _ _ _ ih | join _ _ _ ih => exact ⟨climbs.1, ih climbs.2⟩
  | unlock _ ih => exact ih climbs
  | act _ _ ih => exact fun s => ih s (climbs s)
  | choose _ ih => exact fun choice => ih choice (climbs choice)
  | spawn _ _ ih => exact fun number => ih number (climbs number)

theorem Keeps.mono {higher : Nat} (keeps : order.Keeps higher script) (below : floor ≤ higher) :
    order.Keeps floor script :=
  fun own held low all => keeps own held (Nat.le_trans low below) fun hold inside =>
    Nat.le_trans (all hold inside) below

theorem keeps_pure (value : α) : order.Keeps floor (pure value : Script S L R α) :=
  fun _ _ _ _ => rfl

theorem Keeps.bind {next : α → Script S L R β} (first : order.Keeps floor script)
    (rest : ∀ value, order.Keeps floor (next value)) : order.Keeps floor (script >>= next) := by
  intro own held low all
  apply (climbs_bind next _).mpr
  apply (first own held low all).mono
  rintro value _ rfl
  exact rest value own _ low all

theorem keeps_look : order.Keeps floor (look : Script S L R S) :=
  fun _ _ _ _ _ => rfl

theorem keeps_alter (change : S → S) : order.Keeps floor (alter change : Script S L R Unit) :=
  fun _ _ _ _ _ => rfl

theorem keeps_swap (change : S → S) : order.Keeps floor (swap change : Script S L R S) :=
  fun _ _ _ _ _ => rfl

theorem keeps_perform (read : S → σ) (write : σ → S → S) (act : Act σ α) :
    order.Keeps floor (perform read write act : Script S L R α) :=
  fun _ _ _ _ _ => rfl

theorem keeps_either : order.Keeps floor (either : Script S L R Bool) :=
  fun _ _ _ _ _ => rfl

theorem keeps_spawn (role : R) : order.Keeps floor (spawn role : Script S L R Nat) :=
  fun _ _ _ _ _ => rfl

theorem above_of_le {rank : Nat} (above : floor < rank) (low : own ≤ floor)
    (all : ∀ hold ∈ held, order.lock hold.1 ≤ floor) : order.Above own held rank :=
  ⟨Nat.lt_of_le_of_lt low above, fun hold inside => Nat.lt_of_le_of_lt (all hold inside) above⟩

theorem keeps_await {role : R} (above : floor < order.ending role) (number : Nat) :
    order.Keeps floor (await role number : Script S L R Unit) :=
  fun _ _ low all => ⟨above_of_le above low all, rfl⟩

theorem keeps_within {lock : L} (grip : Grip) (above : floor < order.lock lock)
    (body : order.Keeps (order.lock lock) script) : order.Keeps floor (within lock grip script) := by
  intro own held low all
  have free := above_of_le above low all
  have higher : ∀ hold ∈ (lock, grip) :: held, order.lock hold.1 ≤ order.lock lock := by
    intro hold inside
    rcases List.mem_cons.mp inside with rfl | before
    next => exact Nat.le_refl _
    next => exact Nat.le_of_lt (free.2 hold before)
  refine ⟨free, ?_⟩
  apply (climbs_bind _ _).mpr
  apply (body own _ (Nat.le_of_lt free.1) higher).mono
  rintro value _ rfl
  rfl

theorem keeps_ite {condition : Prop} [Decidable condition] {one two : Script S L R α}
    (first : order.Keeps floor one) (second : order.Keeps floor two) :
    order.Keeps floor (if condition then one else two) := by
  split
  next => exact first
  next => exact second

end Keeps

-- How high a want is; a reader comes before a writer, and who wants nothing is above all.
def level : Option (Want L R) → Nat
  | some (.lock lock .reading) => 2 * order.lock lock
  | some (.lock lock .writing) => 2 * order.lock lock + 1
  | some (.ending role _) => 2 * order.ending role
  | none => 2 * order.top + 2

def rank : Want L R → Nat
  | .lock lock _ => order.lock lock
  | .ending role _ => order.ending role

theorem rank_le (want : Want L R) : order.rank want ≤ order.top := by
  cases want with
  | lock lock grip => exact order.lock_le lock
  | ending role number => exact order.ending_le role

theorem level_rank (want : Want L R) :
    2 * order.rank want ≤ order.level (some want) ∧ order.level (some want) ≤ 2 * order.rank want + 1 := by
  cases want with
  | lock lock grip => cases grip <;> simp [level, rank]
  | ending role number => simp [level, rank]

section Levels

variable {order} {own : Nat} {script : Script S L R α} {held : List (L × Grip)} {post : α → List (L × Grip) → Prop}

theorem Climbs.above {want : Want L R} (climbs : order.Climbs own script held post)
    (wants : script.want? = some want) : order.Above own held (order.rank want) := by
  cases script with
  | lock | join =>
    cases wants
    exact climbs.1
  | done | unlock | act | choose | spawn => cases wants

theorem Climbs.level_above {rank : Nat} (climbs : order.Climbs own script held post) (low : rank ≤ order.top)
    (holds : rank = own ∨ ∃ hold ∈ held, order.lock hold.1 = rank) :
    2 * rank + 1 < order.level script.want? := by
  cases wants : script.want? with
  | none =>
    rw [level]
    omega
  | some want =>
    have above := climbs.above wants
    have least := (order.level_rank want).1
    have lower : rank < order.rank want := by
      rcases holds with rfl | ⟨hold, inside, rfl⟩
      next => exact above.1
      next => exact above.2 hold inside
    omega

end Levels

def Fits (program : Program S L R) : Prop :=
  ∀ role number, order.Keeps (order.ending role) (program.body role number)

end Order

section Runs

variable {S L R : Type} {program : Program S L R} {order : Order L R} {m next : Machine S L R} {number other : Nat}
  {thread : Thread S L R} {choice : Bool}

def Thread.Sound (order : Order L R) (thread : Thread S L R) : Prop :=
  order.Climbs (order.ending thread.role) thread.script thread.held fun _ after => after = []

namespace Machine

def Sound (order : Order L R) (m : Machine S L R) : Prop :=
  ∀ thread ∈ m.threads, thread.Sound order

theorem Sound.put (sound : m.Sound order) (number : Nat) {role : R} {script : Script S L R Bool}
    {held : List (L × Grip)} (own : order.Climbs (order.ending role) script held fun _ after => after = []) :
    (m.put number ⟨role, script, held⟩).Sound order := by
  intro one inside
  rcases List.mem_or_eq_of_mem_set inside with before | rfl
  next => exact sound one before
  next => exact own

theorem Sound.begin (sound : m.Sound order) (fits : order.Fits program) (role : R) :
    (m.begin program role).Sound order := by
  intro one inside
  rcases List.mem_append.mp inside with before | last
  next => exact sound one before
  next =>
    rw [List.mem_singleton.mp last]
    exact fits role _ _ [] (Nat.le_refl _) nofun

def level (order : Order L R) (m : Machine S L R) (number : Nat) : Nat :=
  (m.threads[number]?).elim 0 fun thread => order.level thread.script.want?

theorem level_eq (there : m.threads[number]? = some thread) :
    m.level order number = order.level thread.script.want? := by
  rw [level, there]
  rfl

-- A wait leads to a thread whose own want is higher.
theorem Waits.level_lt (sound : m.Sound order) (waits : m.Waits number other) :
    m.level order number < m.level order other := by
  cases waits with
  | @held thread holder lock grip own here wants there holds clashes =>
    have above := Order.Climbs.level_above (sound _ (List.mem_of_getElem? there)) (order.lock_le lock)
      (.inr ⟨_, holds, rfl⟩)
    rw [level_eq here, level_eq there, wants]
    exact Nat.lt_of_le_of_lt (order.level_rank (.lock lock grip)).2 above
  | queued here wants there waits =>
    rw [level_eq here, level_eq there, wants, waits]
    exact Nat.lt_succ_self _
  | @running thread runner here wants there _ =>
    have above := Order.Climbs.level_above (sound _ (List.mem_of_getElem? there)) (order.ending_le runner.role)
      (.inl rfl)
    rw [level_eq here, level_eq there, wants]
    exact Nat.lt_of_le_of_lt (order.level_rank (.ending runner.role other)).2 above

theorem waits_acyclic (sound : m.Sound order) : ¬ ∃ number, Relation.TransGen m.Waits number number := by
  rintro ⟨number, cycle⟩
  have rises {one two : Nat} (waits : Relation.TransGen m.Waits one two) :
      m.level order one < m.level order two := by
    induction waits with
    | single wait => exact wait.level_lt sound
    | tail _ wait ih => exact Nat.lt_trans ih (wait.level_lt sound)
  exact Nat.lt_irrefl _ (rises cycle)

theorem Waits.not_over (sound : m.Sound order) (waits : m.Waits number other) :
    ∃ thread, m.threads[other]? = some thread ∧ thread.script.isOver = false := by
  cases waits with
  | queued _ _ there waits => exact ⟨_, there, Script.running_of_want waits⟩
  | running _ _ there running => exact ⟨_, there, running⟩
  | @held _ holder _ _ _ _ _ there holds _ =>
    refine ⟨holder, there, ?_⟩
    have rest : holder.Sound order := sound holder (List.mem_of_getElem? there)
    obtain ⟨role, script, held⟩ := holder
    cases script with
    | done =>
      obtain rfl : held = [] := rest
      cases holds
    | lock | unlock | act | choose | join | spawn => rfl

theorem level_le (m : Machine S L R) (number : Nat) : m.level order number ≤ 2 * order.top + 2 := by
  cases there : m.threads[number]? with
  | none => simp [level, there]
  | some thread =>
    rw [level_eq there]
    cases thread.script.want? with
    | none => exact Nat.le_refl _
    | some want =>
      have low := order.rank_le want
      have most := (order.level_rank want).2
      omega

variable [DecidableEq L] [DecidableEq R]

theorem Sound.advance (sound : m.Sound order) (fits : order.Fits program)
    (goes : m.advance? program number choice = some next) : next.Sound order := by
  have own {role : R} {script : Script S L R Bool} {held : List (L × Grip)}
      (there : m.threads[number]? = some ⟨role, script, held⟩) :
      order.Climbs (order.ending role) script held fun _ after => after = [] :=
    sound _ (List.mem_of_getElem? there)
  unfold advance? at goes
  split at goes
  next => cases goes
  next => cases goes
  next role held there =>
    cases goes
    obtain rfl : held = [] := own there
    exact sound.put number (fits role number _ [] (Nat.le_refl _) nofun)
  next there =>
    split at goes <;> cases goes
    exact sound.put number (own there).2
  next there =>
    cases goes
    have rest := own there
    exact sound.put number rest
  next there =>
    cases goes
    exact sound.put number (own there m.shared)
  next there =>
    cases goes
    exact sound.put number (own there choice)
  next there =>
    split at goes <;> cases goes
    exact sound.put number (own there).2
  next there =>
    cases goes
    exact (sound.put number (own there m.threads.length)).begin fits _

theorem Sound.step {move : Move R} (sound : m.Sound order) (fits : order.Fits program)
    (step : Step program m move next) : next.Sound order := by
  cases step with
  | drifted => exact sound
  | entered role => exact sound.begin fits role
  | turned number choice goes => exact sound.advance fits goes

theorem sound_run (fits : order.Fits program) {shared : S} {moves : List (Move R)}
    (trace : Trace (Step program) ⟨shared, []⟩ moves m) : m.Sound order :=
  trace.keeps (fun _ _ _ sound step => sound.step fits step) nofun

theorem goes_unless_waiting (there : m.threads[number]? = some thread) (running : thread.script.isOver = false)
    (calm : ∀ other, ¬ m.Waits number other) : ∃ next, Step program m (.turned number true) next := by
  obtain ⟨role, script, held⟩ := thread
  suffices goes : (m.advance? program number true).isSome by
    obtain ⟨next, goes⟩ := Option.isSome_iff_exists.mp goes
    exact ⟨next, .turned number true goes⟩
  rw [advance?, there]
  cases script with
  | done again =>
    cases again with
    | false => cases running
    | true => rfl
  | lock lock grip next =>
    have free : m.Free lock grip := by
      intro one inside hold holds same clashes
      obtain ⟨other, here⟩ := List.mem_iff_getElem?.mp inside
      subst same
      exact calm other (.held there rfl here holds clashes)
    simp only [if_pos free, Option.isSome_some]
  | join role awaited next =>
    have ended : m.Ended role awaited := by
      intro one here same
      by_contra goes
      subst same
      exact calm awaited (.running there rfl here (Bool.not_eq_true _ ▸ goes))
    simp only [if_pos ended, Option.isSome_some]
  | unlock | act | choose | spawn => rfl

theorem someone_goes_on (sound : m.Sound order) (there : m.threads[number]? = some thread)
    (running : thread.script.isOver = false) : ∃ last next, Relation.ReflTransGen m.Waits number last ∧
      (∀ other, ¬ m.Waits last other) ∧ Step program m (.turned last true) next := by
  -- Along the waits the level rises, and no level is above that of a thread that wants nothing.
  induction rest : 2 * order.top + 2 - m.level order number using Nat.strongRecOn generalizing number
    thread with
  | _ rest ih =>
    by_cases calm : ∃ other, m.Waits number other
    next =>
      obtain ⟨other, waits⟩ := calm
      obtain ⟨own, here, running⟩ := waits.not_over sound
      have higher := waits.level_lt sound
      have most : m.level order other ≤ 2 * order.top + 2 := level_le m other
      obtain ⟨last, next, chain, calm, step⟩ := ih _ (by omega) here running rfl
      exact ⟨last, next, .head waits chain, calm, step⟩
    next =>
      obtain ⟨next, step⟩ := goes_unless_waiting there running (not_exists.mp calm)
      exact ⟨number, next, .refl, not_exists.mp calm, step⟩

end Machine

end Runs

end TemplateSync.Locks
