import ResumableTasks.Outcome
/-!
What a suspended task waits for. A yield is ready at once, a finished task never is, and a
condition answers when it is asked: a shared latch, a point in time, or a probe that may answer
differently each time. Asking a probe uses up one of its answers.
-/
namespace ResumableTasks

/-- A condition with a mind of its own: its answer to each question in turn, per task. -/
structure Probe where
  answer : Nat → TaskId → Bool
  label : String := "wait"
  description : Nat → String := fun _ => "Probe"

inductive Condition where
  | latch (index : Nat)
  | deadline (due : Nat)
  | probe (source : Probe) (asked : Nat)

namespace Condition

def poll (latches : List Bool) (now : Nat) (task : TaskId) : Condition → Bool × Condition
  | .latch index => (latches[index]?.getD false, Condition.latch index)
  | .deadline due => (due ≤ now, Condition.deadline due)
  | .probe source asked => (source.answer asked task, Condition.probe source (asked + 1))

def label : Condition → String
  | .latch _ => "latch"
  | .deadline _ => "deadline"
  | .probe source _ => source.label

def describe (latches : List Bool) : Condition → String
  | .latch index => "Latch \x7b released: " ++ toString (latches[index]?.getD false) ++ " \x7d"
  | .deadline due => "Deadline \x7b at: " ++ toString due ++ " \x7d"
  | .probe source asked => source.description asked

end Condition

/-- Points in time and spans are in milliseconds; the last second that the clock can show bounds
them. -/
def latestInstant : Nat := 9223372036854775807 * 1000 + 999

def farFuture : Nat := 100 * 365 * 24 * 60 * 60 * 1000

def instantAfter (now span : Nat) : Nat :=
  if now + span ≤ latestInstant then now + span
  else if now + farFuture ≤ latestInstant then now + farFuture
  else now

inductive WaitKind where
  | yield | done | wait
  deriving DecidableEq, Repr

def WaitKind.display : WaitKind → String
  | .yield => "yield"
  | .done => "done"
  | .wait => "wait"

inductive WaitReason where
  | yield
  | done (outcome : TaskOutcome)
  | on (condition : Condition)

namespace WaitReason

def poll (latches : List Bool) (now : Nat) (task : TaskId) : WaitReason → Bool × WaitReason
  | .yield => (true, .yield)
  | .done outcome => (false, .done outcome)
  | .on condition =>
    let asked := condition.poll latches now task
    (asked.1, .on asked.2)

def kind : WaitReason → WaitKind
  | .yield => .yield
  | .done _ => .done
  | .on _ => .wait

def isTerminal (r : WaitReason) : Bool := r.kind = .done

def outcome? : WaitReason → Option TaskOutcome
  | .done outcome => some outcome
  | _ => none

def display : WaitReason → String
  | .yield => "yield"
  | .done (.ok value) => "done(" ++ value.describe ++ ")"
  | .done (.err error) => "done(err: " ++ error.display ++ ")"
  | .done (.cancelled reason) => "done(cancelled: " ++ reason.display ++ ")"
  | .done (.panicked panic) => "done(" ++ panic.display ++ ")"
  | .on condition => "wait(" ++ condition.label ++ ")"

def describe (latches : List Bool) : WaitReason → String
  | .yield => "Yield"
  | .done outcome => "Done(" ++ outcome.describe ExitValue.describe Error.describe ++ ")"
  | .on condition => "Wait(" ++ condition.describe latches ++ ")"

end WaitReason

end ResumableTasks
