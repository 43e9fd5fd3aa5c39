import ResumableTasks.Proofs.StatefulTask
/-!
An object that is invoked is the one that is executed from then on, in every turn, with its own
state and at its own frames. What a later turn hands to the same invocation is dropped.
-/
namespace ResumableTasks

open FrameStack Slot Occurrence

variable {σ ω ε ρ : Type}

def RoutineObject.IsStateful (object : RoutineObject σ ω ε) : Prop :=
  ∃ code state, object = .stateful code state

namespace Occurrence

def Stateful : Occurrence (RoutineObject σ ω ε) σ ε → Prop
  | .effect _ => True
  | .invoked object => object.IsStateful
  | .wait _ _ held => ∀ object ∈ held.filterMap Slot.routine?, object.IsStateful

theorem Stateful.inFrame {o : Occurrence (RoutineObject σ ω ε) σ ε} (stateful : o.Stateful)
    (marker : UInt32) (locals : Value) : (o.inFrame (.saved marker (.value locals))).Stateful := by
  cases o with
  | effect | invoked | wait => exact stateful

theorem Stateful.within {o : Occurrence (RoutineObject σ ω ε) σ ε} (stateful : o.Stateful)
    (code : FrameCode σ ω ε) (outer : σ) : (o.within (.stateful code) outer).Stateful := by
  cases o with
  | effect | invoked => exact stateful
  | wait reason state held =>
    intro object member
    rcases List.mem_cons.mp member with rfl | inner
    · exact ⟨code, state, rfl⟩
    · exact stateful object inner

theorem mem_newcomers {object : ρ} {occurrences : List (Occurrence ρ σ ε)}
    (member : object ∈ newcomers occurrences) : .invoked object ∈ occurrences := by
  induction occurrences with
  | nil => cases member
  | cons o rest ih =>
    cases o with
    | effect => exact List.mem_cons_of_mem _ (ih member)
    | invoked =>
      rcases List.mem_cons.mp member with rfl | later
      · exact List.mem_cons_self
      · exact List.mem_cons_of_mem _ (ih later)
    | wait => cases member

end Occurrence

def Play.Stateful (play : Play (RoutineObject σ ω ε) σ ε) : Prop :=
  ∀ o ∈ play.occurrences, o.Stateful

namespace Play

variable {play : Play (RoutineObject σ ω ε) σ ε}

theorem Stateful.before (stateful : play.Stateful)
    {first : List (Occurrence (RoutineObject σ ω ε) σ ε)} (also : ∀ o ∈ first, o.Stateful) :
    (play.before first).Stateful := by
  intro o member
  rcases List.mem_append.mp member with early | late
  · exact also o early
  · exact stateful o late

theorem Stateful.andThen (stateful : play.Stateful)
    {next : Value → σ → Play (RoutineObject σ ω ε) σ ε} (goes : ∀ value state,
      (next value state).Stateful) : (play.andThen next).Stateful := by
  unfold Play.andThen
  split
  · exact (goes _ _).before stateful
  · exact stateful

theorem Stateful.inFrame (stateful : play.Stateful) (marker : UInt32) (locals : Value) :
    (play.inFrame (.saved marker (.value locals))).Stateful := by
  intro o member
  obtain ⟨o, inner, rfl⟩ := List.mem_map.mp member
  exact (stateful o inner).inFrame marker locals

theorem Stateful.within (stateful : play.Stateful) (code : FrameCode σ ω ε) (outer : σ) :
    (play.within (.stateful code) outer).Stateful := by
  intro o member
  obtain ⟨o, inner, rfl⟩ := List.mem_map.mp member
  exact (stateful o inner).within code outer

theorem Stateful.under (stateful : play.Stateful) (request : Option CancelReason) (state : σ) :
    (play.under request state).Stateful := by
  cases request with
  | none => exact stateful
  | some request => nofun

end Play

theorem Method.direct_stateful (m : Method σ ω ε) (state : σ) : (m.direct state).Stateful := by
  induction m generalizing state with
  | finish | leave =>
    intro o member
    cases member
  | effect entry rest ih => exact (ih state).before (by simp [Occurrence.Stateful])
  | store later rest ih => exact ih later
  | suspend marker locals reason rest ih =>
    exact (ih state).before (by simp [Occurrence.Stateful, Slot.routine?])
  | call marker locals type known again start rest _ startIh restIh =>
    exact ((startIh state state).inFrame marker locals).andThen fun value later =>
      restIh value later later
  | invoke marker locals type known again start initial others rest _ startIh restIh =>
    let callee : FrameCode σ ω ε := ⟨type, known, again, start⟩
    have inner := (startIh initial initial).within callee state
    have invoked : Play.Stateful (.before [.invoked (.stateful callee initial)] _) :=
      inner.before (by simp [Occurrence.Stateful, RoutineObject.IsStateful])
    rw [Method.direct]
    exact (invoked.inFrame marker locals).andThen fun _ _ => restIh state

/-- Done, or at rest with objects that have state, now and in what is still to come. -/
def FrameCode.Owns (code : FrameCode σ ω ε) (depth : Nat) (t : Task (RoutineObject σ ω ε)) : Prop :=
  t.state = .done ∨ ∃ held state play, Rests code depth t held state play ∧ play.Stateful ∧
    ∀ object ∈ held.filterMap Slot.routine?, object.IsStateful

theorem FrameCode.owns_steady (code : FrameCode σ ω ε) (depth : Nat) :
    Task.Steady (code.Owns depth) := by
  apply Task.steady_of
  · rintro t request (done | ⟨held, state, play, rests, stateful⟩)
    · exact .inl done
    · exact .inr ⟨held, state, play, rests.requested request, stateful⟩
  · rintro t reason latches now - waiting (done | ⟨held, state, play, rests, stateful⟩)
    · exact .inl done
    · exact .inr ⟨held, state, play, rests.polled waiting latches now, stateful⟩

inductive TaskCall.Drives (others : ω → Script (RoutineObject σ ω ε) ε) (depth task : Nat) :
    TaskCall (RoutineObject σ ω ε) ε → Prop where
  | turn (number : Nat) :
      Drives others depth task (.run task (RoutineObject.enter others number) (depth + 1))
  | create (entry : RoutineObject σ ω ε) (classifier : Nat) :
      Drives others depth task (.create entry classifier)
  | cancel (other : Nat) (request : CancelReason) : Drives others depth task (.cancel other request)
  | ask (other : Nat) : Drives others depth task (.ask other)

namespace World

variable {w : World (RoutineObject σ ω ε) ε} {task : Nat} {code : FrameCode σ ω ε} {depth : Nat}

theorem executed_stateful (owns : w.Has task (code.Owns depth))
    (others : ω → Script (RoutineObject σ ω ε) ε) (turn : Nat) :
    ∀ object ∈ w.executed (RoutineObject.enter others turn) (depth + 1) task,
      object.IsStateful := by
  obtain ⟨t, found, done | ⟨held, state, play, rests, stateful, kept⟩⟩ := owns
  · simp [executed, acts, entry_of_done found done]
  · rcases t.startable_or_stopped with startable | ⟨request, new, requested⟩
    · intro object member
      rw [executed_rests found rests startable others turn] at member
      rcases List.mem_append.mp member with first | newcomer
      · rcases List.mem_cons.mp first with rfl | inner
        · exact ⟨code, state, rfl⟩
        · exact kept object inner
      · exact stateful.under t.cancel state _ (mem_newcomers newcomer)
    · simp [executed, acts, entry_of_unstarted found new requested]

theorem Has.runStateful (owns : w.Has task (code.Owns depth))
    (others : ω → Script (RoutineObject σ ω ε) ε) (turn : Nat) :
    (w.runTask (Script.execute (RoutineObject.enter others turn) (depth + 1)) task).2.Has task
      (code.Owns depth) := by
  obtain ⟨t, found, done | ⟨held, state, play, rests, stateful, kept⟩⟩ := owns
  · rw [runTask_of_done found done]
    exact ⟨t, found, .inl done⟩
  · rcases t.startable_or_stopped with startable | ⟨request, new, requested⟩
    · obtain ⟨quiet, t', -, found', -, -, -, ends⟩ :=
        runTask_rests found rests startable others turn
      have turned := stateful.under t.cancel state
      generalize play.under t.cancel state = left at ends turned
      cases ends with
      | completed _ _ concluded | ended _ _ _ concluded => exact ⟨t', found', .inl concluded.done⟩
      | @suspended reason kept inner later split _ _ _ rests' =>
        subst split
        have waited := turned (.wait reason kept inner) (by simp [Play.before])
        have still : later.Stateful := fun o member => turned o (List.mem_append_right _ member)
        exact ⟨t', found', .inr ⟨inner, kept, later, rests', still, waited⟩⟩
    · rw [runTask_of_unstarted found new requested]
      exact Has.updateTask ⟨t, found, .inr ⟨held, state, play, rests, stateful, kept⟩⟩ task
        fun _ _ => .inl rfl

theorem Has.history (owns : w.Has task (code.Owns depth))
    {others : ω → Script (RoutineObject σ ω ε) ε} {calls : List (TaskCall (RoutineObject σ ω ε) ε)}
    (drive : ∀ call ∈ calls, call.Drives others depth task) :
    (w.answerAll calls).2.Has task (code.Owns depth) := by
  induction calls generalizing w with
  | nil => exact owns
  | cons call rest ih =>
    refine ih ?_ fun call member => drive call (List.mem_cons_of_mem _ member)
    cases drive call List.mem_cons_self with
    | turn number => exact owns.runStateful others number
    | create | cancel | ask => exact owns.asked (code.owns_steady depth) (by simp)

/-- A task over an object with state that invokes others, to any depth, and hands arbitrary objects
to the same invocations when they are issued again. Of these objects none is ever executed, whatever
turns, requests to stop and questions there are. When it is run turn after turn, the task keeps at
each suspension the slots of the direct execution, among them a single one for each invocation that
is under way, and the next turn executes the objects in these slots, in the states in which they
were left, before those that are invoked then. The effects of all turns and the outcome are those of
the direct execution, in which an invocation is a call of the object with its state, up to a wait
that ends the task. -/
theorem invoked_objects_keep_their_state (w : World (RoutineObject σ ω ε) ε)
    (classifier depth : Nat) (others : ω → Script (RoutineObject σ ω ε) ε)
    {code : FrameCode σ ω ε} {state : σ} (woven : (code.start state).Woven code depth state) :
    let task := w.tasks.length
    let play := (code.start state).direct state
    let after (turns : Nat) := (w.addTask (.stateful code state) classifier).answerAll
      (TaskCall.turns others depth task 0 turns)
    let executed (turn : Nat) :=
      (after turn).2.executed (RoutineObject.enter others turn) (depth + 1) task
    (∀ calls, (∀ call ∈ calls, call.Drives others depth task) → ∀ turn object,
        .other object ∉ ((w.addTask (.stateful code state) classifier).answerAll calls).2.executed
          (RoutineObject.enter others turn) (depth + 1) task) ∧
      executed 0 = .stateful code state :: newcomers play.occurrences ∧
      (∀ before reason kept held later,
        play.occurrences = before ++ .wait reason kept held :: later →
        (∀ o ∈ before ++ [.wait reason kept held], o.ending? = none) →
        let past := after (waits before + 1)
        past.1 = List.replicate (waits before + 1) (.ran .suspended) ∧
          past.2.log = w.log ++ (effects before).map (Prod.mk task) ∧
          (∃ t, past.2.tasks[task]? = some t ∧ t.state = .suspended ∧ t.reason = some reason ∧
            t.entry = .stateful code kept ∧ t.frames.Holds held ∧
            t.frames.retained = held.length + 1) ∧
          executed (waits before + 1) =
            .stateful code kept :: held.filterMap Slot.routine? ++ newcomers later) ∧
      let count := waits (reached play.occurrences)
      let past := after (count + 1)
      past.1 = List.replicate count (.ran .suspended) ++ [.ran (play.answer (.ofIndex task))] ∧
        past.2.log = w.log ++ (effects (reached play.occurrences)).map (Prod.mk task) ∧
        ∃ t, past.2.tasks[task]? = some t ∧ t.Concluded (play.outcome (.ofIndex task)) := by
  intro task play after executed
  obtain ⟨t₀, created, uncancelled, named, rests⟩ := addTask_rests w classifier woven
  refine ⟨?_, ?_, ?_, ?_⟩
  · intro calls drive turn object member
    have owns : (w.addTask (.stateful code state) classifier).Has task (code.Owns depth) :=
      ⟨t₀, created, .inr ⟨[], state, play, rests,
        Method.direct_stateful (code.start state) state, by simp⟩⟩
    obtain ⟨_, _, same⟩ := executed_stateful (owns.history drive) others turn _ member
    cases same
  · have first := executed_rests created rests (fun _ => uncancelled) others 0
    rw [uncancelled] at first
    exact first
  -- What comes after the wait is a play of its own, for which the task rests.
  · intro before reason kept held later split open_ended past
    have cut : play = Play.before (before ++ [.wait reason kept held])
        ⟨later, play.close, play.state⟩ := by
      rw [Play.before, List.append_assoc]
      exact congrArg (Play.mk · play.close play.state) split
    obtain ⟨w', t, ⟨answered, log⟩, found, uncancelled', -, waiting, rests'⟩ :=
      rests_through created rests uncancelled others 0 cut open_ended
    have same : past.2 = w' := congrArg Prod.snd answered
    refine ⟨congrArg Prod.fst answered, by rw [same, log]; rfl, ⟨t, by rw [same, found], ?_⟩, ?_⟩
    · obtain ⟨suspended, holds⟩ := rests'.holds waiting
      exact ⟨suspended, waiting, rests'.owns, holds, holds.retained⟩
    · have next := executed_rests found rests' (fun _ => uncancelled') others (waits before + 1)
      rw [uncancelled', ← same] at next
      exact next
  · obtain ⟨w', t, ⟨answered, log⟩, found, concluded, -⟩ :=
      rests_complete created rests uncancelled others 0
    rw [named] at answered concluded
    have same := congrArg Prod.snd answered
    exact ⟨congrArg Prod.fst answered, (congrArg World.log same).trans log, t,
      (congrArg (fun w => w.tasks[task]?) same).trans found, concluded⟩

end World

def Method.steps : Nat → Method Nat Unit Nat
  | 0 => .finish .unit
  | left + 1 => .suspend 1 .unit .yield <| .store left <| .effect left <| steps left

def FrameCode.steps : FrameCode Nat Unit Nat where
  type := .unit
  known marker := marker = 1
  again _ _ left := .steps left
  start left := .steps left

theorem Method.steps_woven (depth left : Nat) : (steps left).Woven .steps depth left := by
  induction left with
  | zero => trivial
  | succ left ih => exact ⟨⟨by decide, rfl, rfl, rfl⟩, ih⟩

namespace Method

def invokesSteps : Method Nat Unit Nat :=
  .invoke 1 .unit .unit (· = 1) (fun _ _ left => steps left) (fun left => steps left) 2
    (fun _ => ()) <|
  .effect 7 <|
  .finish .unit

def invokesTwice : Method Nat Unit Nat :=
  .invoke 1 .unit .unit (· = 1) (fun _ _ _ => invokesSteps) (fun _ => invokesSteps) 5
    (fun _ => ()) <|
  .effect 9 <|
  .finish .unit

theorem invokesTwice_woven : invokesTwice.Woven (.restarting invokesTwice) 2 0 := by
  have inner : invokesSteps.Woven (.restarting invokesSteps) 1 5 :=
    ⟨FrameCode.restarting_resumes 5 invokesSteps, ⟨0, rfl, steps_woven 0 2⟩, trivial⟩
  exact ⟨FrameCode.restarting_resumes 0 invokesTwice, ⟨1, rfl, inner⟩, trivial⟩

end Method

/-- Before the last turn one step is left of two. That turn executes the objects of the first one,
and none that would have the effect 99. -/
theorem nested_steps_are_kept :
    let w : World (RoutineObject Nat Unit Nat) Nat := { scheduler := default }
    let others : Unit → Script (RoutineObject Nat Unit Nat) Nat :=
      fun _ => .act (.emit 99) fun _ => .done (.returned .unit)
    let code := FrameCode.restarting Method.invokesTwice
    let after (turns : Nat) := (w.addTask (.stateful code 0) 0).answerAll
      (TaskCall.turns others 2 0 0 turns)
    (code.start 0).Woven code 2 0 ∧
      (after 3).1 = [.ran .suspended, .ran .suspended, .ran .done] ∧
      (after 3).2.log = [1, 0, 7, 9].map (Prod.mk 0) ∧
      (after 2).2.executed (RoutineObject.enter others 2) 3 0 =
        [.stateful code 0, .stateful (.restarting Method.invokesSteps) 5, .stateful .steps 1] := by
  intro w others code after
  have woven : (code.start 0).Woven code 2 0 := Method.invokesTwice_woven
  let middle : RoutineObject Nat Unit Nat := .stateful (.restarting Method.invokesSteps) 5
  let held (left : Nat) : List (Slot (RoutineObject Nat Unit Nat)) :=
    [.saved 1 (.value .unit), .saved 1 (.routine middle), .saved 1 (.value .unit),
      .saved 1 (.routine (.stateful .steps left)), .saved 1 (.value .unit)]
  have played : ((code.start 0).direct 0).occurrences =
      [.invoked middle, .invoked (.stateful .steps 2), .wait .yield 0 (held 2), .effect 1] ++
        .wait .yield 0 (held 1) :: [.effect 0, .effect 7, .effect 9] := rfl
  have open_ended : reached ((code.start 0).direct 0).occurrences =
      ((code.start 0).direct 0).occurrences := rfl
  have answer : ((code.start 0).direct 0).answer (.ofIndex 0) = .done := rfl
  have first : w.tasks.length = 0 := rfl
  have kept := World.invoked_objects_keep_their_state w 0 2 others woven
  dsimp only at kept
  rw [open_ended, first, answer] at kept
  obtain ⟨-, -, through, answers, log, -⟩ := kept
  obtain ⟨-, -, -, executed⟩ := through _ _ _ _ _ played (by simp [ending?, WaitReason.outcome?])
  rw [played] at answers log
  exact ⟨woven, answers, log, executed⟩

end ResumableTasks
