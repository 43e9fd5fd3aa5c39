/-!
Identities of tasks, drawn from a counter that starts at one.
-/
namespace ResumableTasks

structure TaskId where
  raw : Nat
  deriving DecidableEq, Repr, Inhabited

def TaskId.ofIndex (earlier : Nat) : TaskId := ⟨earlier + 1⟩

def TaskId.display (id : TaskId) : String := "T" ++ toString id.raw

def TaskId.describe (id : TaskId) : String := "TaskId(" ++ toString id.raw ++ ")"

def TaskId.order (a b : TaskId) : Ordering := compare a.raw b.raw

end ResumableTasks
