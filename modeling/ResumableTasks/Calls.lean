import ResumableTasks.Script
/-!
What the owner of a world does with its tasks, one call after the other. Each run brings its own
routine code, so that a routine may behave differently at each re-entry.
-/
namespace ResumableTasks

inductive TaskCall (ρ ε : Type) where
  | create (entry : ρ) (classifier : Nat)
  | run (task : Nat) (enter : ρ → Script ρ ε) (depth : Nat)
  | cancel (task : Nat) (reason : CancelReason)
  | ask (task : Nat)

inductive CallAnswer where
  | created
  | ran (answer : RunAnswer)
  | cancelled (accepted : Bool)
  | asked (ready : Bool)
  deriving DecidableEq, Repr

namespace World

variable {ρ ε : Type}

def answer (w : World ρ ε) : TaskCall ρ ε → CallAnswer × World ρ ε
  | .create entry classifier => (.created, w.addTask entry classifier)
  | .run task enter depth =>
    let ran := w.runTask (Script.execute enter depth) task
    (.ran ran.1, ran.2)
  | .cancel task reason =>
    let answered := w.cancel task reason
    (.cancelled answered.1, answered.2)
  | .ask task =>
    let answered := w.isReady task
    (.asked answered.1, answered.2)

def answerAll (w : World ρ ε) : List (TaskCall ρ ε) → List CallAnswer × World ρ ε
  | [] => ([], w)
  | call :: rest =>
    let answered := w.answer call
    let later := answered.2.answerAll rest
    (answered.1 :: later.1, later.2)

theorem answerAll_append (w : World ρ ε) (first later : List (TaskCall ρ ε)) :
    w.answerAll (first ++ later) =
      ((w.answerAll first).1 ++ ((w.answerAll first).2.answerAll later).1,
        ((w.answerAll first).2.answerAll later).2) := by
  induction first generalizing w with
  | nil => rfl
  | cons call rest ih => simp only [List.cons_append, answerAll, ih]

end World

end ResumableTasks
