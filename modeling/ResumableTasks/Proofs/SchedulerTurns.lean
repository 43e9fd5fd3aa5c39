import ResumableTasks.Scheduler.Loop
/-!
What one turn of a scheduler's loop can do, guards included, and what each of its steps leaves
alone.
-/
namespace ResumableTasks.World

variable {ρ ε α : Type}

def take? (w : World ρ ε) : Option (Nat × World ρ ε) :=
  w.scheduler.queue.pop?.map fun taken =>
    (taken.1, w.updateScheduler ({ · with queue := taken.2 }))

theorem take?_eq_some_iff {w taken : World ρ ε} {task : Nat} :
    w.take? = some (task, taken) ↔ ∃ rest, w.scheduler.queue.entries = task :: rest ∧
      taken = w.updateScheduler ({ · with queue := ⟨rest⟩ }) := by
  cases queued : w.scheduler.queue.entries with
  | nil => simp [take?, RunQueue.pop?, queued]
  | cons head rest =>
    simp only [take?, RunQueue.pop?, queued, Option.map_some, Option.some.injEq, Prod.mk.injEq,
      List.cons.injEq]
    constructor
    · rintro ⟨rfl, rfl⟩
      exact ⟨rest, ⟨rfl, rfl⟩, rfl⟩
    · rintro ⟨later, ⟨rfl, rfl⟩, rfl⟩
      exact ⟨rfl, rfl⟩

theorem take?_eq_none_iff {w : World ρ ε} : w.take? = none ↔ w.scheduler.queue.entries = [] := by
  cases queued : w.scheduler.queue.entries <;> simp [take?, RunQueue.pop?, queued]

theorem timedOut_scheduler (w : World ρ ε) : w.timedOut.2.scheduler = w.scheduler := by
  unfold timedOut
  split <;> rfl

theorem timedOut_tasks (w : World ρ ε) : w.timedOut.2.tasks = w.tasks := by
  unfold timedOut
  split <;> rfl

theorem settle_tasks (task : Nat) (w : World ρ ε) (verdict : Verdict) :
    (w.settle task verdict).2.tasks = w.tasks := by
  cases verdict <;> rfl

theorem timedOut_unlimited {w : World ρ ε} (unlimited : w.scheduler.settings.idleTimeout = none) :
    w.timedOut = (false, w) := by
  simp only [timedOut, unlimited]

theorem verdict_world (w : World ρ ε) (task : Nat) (answer : RunAnswer) :
    (w.verdict task answer).2 = w ∨ (w.verdict task answer).2 = w.progress := by
  cases answer with
  | suspended | done => exact .inr rfl
  | misused => exact .inl rfl
  | failed error =>
    simp only [verdict]
    split
    · exact .inl rfl
    · split
      · exact .inr rfl
      · exact .inl rfl

theorem verdict_tasks (task : Nat) (w : World ρ ε) (answer : RunAnswer) :
    (w.verdict task answer).2.tasks = w.tasks := by
  rcases w.verdict_world task answer with same | same
  · rw [same]
  · rw [same]
    rfl

/-- A turn that goes on: the queue is empty, or an entry is dispatched. A miss that completes a
sweep of the queue is followed by a pause. -/
inductive Turned (execute : Context ρ ε → Ending α × Context ρ ε) (misses : Nat) (w : World ρ ε) :
    Nat → World ρ ε → Prop
  | starved (empty : w.timedOut.2.take? = none) : Turned execute misses w misses w.timedOut.2.sleep
  | moved {task : Nat} {taken : World ρ ε} (took : w.timedOut.2.take? = some (task, taken))
      (moved : (taken.dispatch execute task).1 = true) :
      Turned execute misses w 0 (taken.dispatch execute task).2
  | swept {task : Nat} {taken : World ρ ε} (took : w.timedOut.2.take? = some (task, taken))
      (stuck : (taken.dispatch execute task).1 = false)
      (sweep : (taken.dispatch execute task).2.scheduler.queue.size < misses + 1) :
      Turned execute misses w 0 (taken.dispatch execute task).2.sleep
  | missed {task : Nat} {taken : World ρ ε} (took : w.timedOut.2.take? = some (task, taken))
      (stuck : (taken.dispatch execute task).1 = false)
      (left : misses + 1 ≤ (taken.dispatch execute task).2.scheduler.queue.size) :
      Turned execute misses w (misses + 1) (taken.dispatch execute task).2

theorem turn_cases (execute : Context ρ ε → Ending α × Context ρ ε) (misses : Nat)
    (w : World ρ ε) :
    (w.scheduler.live = 0 ∧ w.turn execute misses = .stopped w) ∨
    (w.timedOut.1 = true ∧ w.turn execute misses = .stopped w.timedOut.2) ∨
    (w.scheduler.live ≠ 0 ∧ w.timedOut.1 = false ∧ ∃ later v,
      w.turn execute misses = .next later v ∧ w.Turned execute misses later v) := by
  unfold turn
  split
  · next idle => exact .inl ⟨idle, rfl⟩
  · next live =>
    dsimp only
    split
    · next late => exact .inr (.inl ⟨late, rfl⟩)
    · next inTime =>
      refine .inr (.inr ⟨live, by simpa using inTime, ?_⟩)
      split
      · next empty =>
        exact ⟨_, _, rfl, .starved (by simp [take?, empty])⟩
      · next task queue popped =>
        have took : w.timedOut.2.take? =
            some (task, w.timedOut.2.updateScheduler ({ · with queue })) := by
          simp [take?, popped]
        split
        · next moved => exact ⟨_, _, rfl, .moved took moved⟩
        · next stuck =>
          have stuck := Bool.eq_false_iff.mpr stuck
          split
          · next sweep => exact ⟨_, _, rfl, .swept took stuck sweep⟩
          · next left => exact ⟨_, _, rfl, .missed took stuck (Nat.le_of_not_lt left)⟩

theorem turned_of_next {execute : Context ρ ε → Ending α × Context ρ ε} {misses later : Nat}
    {w v : World ρ ε} (goes : w.turn execute misses = .next later v) :
    w.scheduler.live ≠ 0 ∧ w.timedOut.1 = false ∧ w.Turned execute misses later v := by
  rcases turn_cases execute misses w with
    ⟨_, stops⟩ | ⟨_, stops⟩ | ⟨live, inTime, _, _, turns, turned⟩
  · simp [stops] at goes
  · simp [stops] at goes
  · rw [turns] at goes
    cases goes
    exact ⟨live, inTime, turned⟩

/-- How many turns are allowed does not change what the loop ends with. -/
theorem runTurns_unique {execute : Context ρ ε → Ending α × Context ρ ε}
    {turns others misses : Nat} {w v v' : World ρ ε}
    (ended : runTurns execute turns misses w = some v)
    (ended' : runTurns execute others misses w = some v') : v = v' := by
  induction turns generalizing others misses w with
  | zero => cases ended
  | succ turns ih =>
    cases others with
    | zero => cases ended'
    | succ others =>
      rw [runTurns] at ended ended'
      cases goes : w.turn execute misses with
      | stopped last =>
        rw [goes] at ended ended'
        exact Option.some.inj (ended.symm.trans ended')
      | next later u =>
        rw [goes] at ended ended'
        exact ih ended ended'

theorem runCurrentThread_unique {execute : Context ρ ε → Ending α × Context ρ ε}
    {turns others : Nat} {w : World ρ ε} {ran ran' : SchedulerReport × World ρ ε}
    (finished : w.runCurrentThread execute turns = some ran)
    (finished' : w.runCurrentThread execute others = some ran') : ran = ran' := by
  obtain ⟨v, ended, rfl⟩ := Option.map_eq_some_iff.mp finished
  obtain ⟨v', ended', rfl⟩ := Option.map_eq_some_iff.mp finished'
  rw [runTurns_unique ended ended']

end ResumableTasks.World
