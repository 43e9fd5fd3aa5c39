import ResumableTasks.Proofs.StatefulTask
/-!
An exit takes all frames along, those of the objects that invoked the one that exits included. The
slots that they had captured in earlier turns go with them, and so does whatever the task last
waited for.
-/
namespace ResumableTasks

open FrameStack Occurrence

variable {σ ω ε : Type}

namespace World

/-- A task over an object whose direct execution exits, in whatever frame and after however many
suspensions, none of which ends the task first. The turn that comes to the exit answers that the
task is done, with exactly this value or error as its outcome, and the exit is the last thing that
is done for the task, in this turn and in any other. Nothing is retained, and the effects of all
turns are those of the direct execution up to the exit. -/
theorem exit_from_any_depth (w : World (RoutineObject σ ω ε) ε) (classifier depth : Nat)
    (others : ω → Script (RoutineObject σ ω ε) ε) {code : FrameCode σ ω ε} {state : σ}
    (woven : (code.start state).Woven code depth state) {result : Except Error Value}
    (exits : ((code.start state).direct state).close = .left (.exit result))
    (arrives : ∀ o ∈ ((code.start state).direct state).occurrences, o.ending? = none) :
    let task := w.tasks.length
    let occurrences := ((code.start state).direct state).occurrences
    let after (turns : Nat) := (w.addTask (.stateful code state) classifier).answerAll
      (TaskCall.turns others depth task 0 turns)
    let count := waits occurrences
    let past := after (count + 1)
    past.1 = List.replicate count (.ran .suspended) ++ [.ran .done] ∧
      past.2.log = w.log ++ (effects occurrences).map (Prod.mk task) ∧
      (∃ t, past.2.tasks[task]? = some t ∧
        t.Concluded (.ofResult (result.map ExitValue.mk)) ∧ t.frames.retained = 0) ∧
      ((after count).2.acts (RoutineObject.enter others count) (depth + 1) task).getLast? =
        some (.op (Leaving.exitOp result)) ∧
      ∀ enter depth, past.2.acts enter depth task = [] := by
  intro task occurrences after count past
  obtain ⟨t₀, created, uncancelled, named, rests⟩ := addTask_rests w classifier woven
  have all_reached : reached occurrences = occurrences :=
    List.takeWhile_eq_self_iff.mpr fun o member => by simp [arrives o member]
  obtain ⟨w', t, ⟨answered, log⟩, found, concluded, last⟩ :=
    rests_complete created rests uncancelled others 0
  have ends : occurrences.findSome? ending? = none := List.findSome?_eq_none_iff.mpr arrives
  have answer : ((code.start state).direct state).answer t₀.id = .done := by
    rw [Play.answer, ends, exits]
    rfl
  have outcome : ((code.start state).direct state).outcome t₀.id =
      .ofResult (result.map ExitValue.mk) := by
    rw [Play.outcome, ends, exits]
    rfl
  have final := last result exits all_reached
  rw [all_reached] at answered log final
  rw [outcome] at concluded
  have same : past.2 = w' := congrArg Prod.snd answered
  refine ⟨?_, ?_, ?_, ?_, ?_⟩
  · rw [← answer]
    exact congrArg Prod.fst answered
  · rw [same, log]
    rfl
  · refine ⟨t, ?_, concluded, ?_⟩
    · rw [same, found]
    · rw [concluded.empty]
      rfl
  · rw [Nat.zero_add] at final
    exact final
  · intro enter depth
    rw [same, acts, entry_of_done found concluded.done]

end World

namespace Method

def exits : Method Unit Unit String :=
  .suspend 1 .unit .yield <|
  .effect "leaf" <|
  .leave (.exit (.ok (.word32 42)))

def invokesExit : Method Unit Unit String :=
  .invoke 1 .unit .unit (· = 1) (fun _ _ _ => exits) (fun _ => exits) () (fun _ => ()) <|
  .effect "after invocation" <|
  .finish .unit

def callsInvocation : Method Unit Unit String :=
  .call 1 .unit .unit (· = 1) (fun _ _ _ => invokesExit) (fun _ => invokesExit) fun _ _ =>
  .effect "after call" <|
  .finish .unit

theorem callsInvocation_woven : callsInvocation.Woven (.restarting callsInvocation) 1 () := by
  have leaf : exits.Woven (.restarting exits) 0 () :=
    ⟨FrameCode.restarting_resumes () exits, trivial⟩
  have middle : invokesExit.Woven (.restarting invokesExit) 1 () :=
    ⟨FrameCode.restarting_resumes () invokesExit, ⟨0, rfl, leaf⟩, trivial⟩
  refine ⟨fun _ => FrameCode.restarting_resumes () callsInvocation, middle, ?_⟩
  intro value returned
  cases returned

end Method

theorem nested_exit_leaves_all_frames :
    let w : World (RoutineObject Unit Unit String) String := { scheduler := default }
    let code := FrameCode.restarting Method.callsInvocation
    let after (turns : Nat) := (w.addTask (.stateful code ()) 0).answerAll
      (TaskCall.turns (fun _ => .done (.returned .unit)) 1 0 0 turns)
    (code.start ()).Woven code 1 () ∧
      ((code.start ()).direct ()).close = .left (.exit (.ok (.word32 42))) ∧
      (∀ o ∈ ((code.start ()).direct ()).occurrences, o.ending? = none) ∧
      (after 2).1 = [.ran .suspended, .ran .done] ∧ (after 2).2.log = [(0, "leaf")] ∧
      ∃ t, (after 2).2.tasks[0]? = some t ∧ t.exit = some (.ok ⟨.word32 42⟩) := by
  intro w code after
  have woven : (code.start ()).Woven code 1 () := Method.callsInvocation_woven
  obtain ⟨frames, played⟩ : ∃ frames, ((code.start ()).direct ()).occurrences =
      [.invoked (.stateful (.restarting Method.exits) ()), .wait .yield () frames,
        .effect "leaf"] := ⟨_, rfl⟩
  have arrives : ∀ o ∈ ((code.start ()).direct ()).occurrences, o.ending? = none := by
    rw [played]
    simp [ending?, WaitReason.outcome?]
  have counted : waits ((code.start ()).direct ()).occurrences = 1 := by
    rw [played]
    rfl
  have exit := World.exit_from_any_depth w 0 1 (fun _ => .done (.returned .unit)) woven rfl arrives
  have first : w.tasks.length = 0 := rfl
  dsimp only at exit
  rw [counted, played, first] at exit
  obtain ⟨answers, log, ⟨t, found, concluded, -⟩, -⟩ := exit
  exact ⟨woven, rfl, arrives, answers, log, t, found, concluded.exit⟩

end ResumableTasks
