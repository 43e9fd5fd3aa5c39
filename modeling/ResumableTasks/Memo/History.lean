import ResumableTasks.Memo
/-!
What is asked of a compute-once map, one call after the other. The owner catches a panic of an
initializer and goes on with the map as it is then.
-/
namespace ResumableTasks

inductive MemoCall (κ α : Type) where
  | request (key : κ) (init : Initializer κ α)
  | look (key : κ)

inductive MemoAnswer (α : Type) where
  | requested (result : Except String α)
  | looked (found : Option α)

def MemoCall.isRequest {κ α : Type} : MemoCall κ α → Bool
  | .request .. => true
  | .look _ => false

namespace Memo

variable {κ α : Type} [DecidableEq κ]

def answer (m : Memo κ α) : MemoCall κ α → MemoAnswer α × Memo κ α
  | .request key init =>
    let requested := m.request key init
    (.requested requested.1, requested.2)
  | .look key => (.looked (m.get? key), m)

def answerAll (m : Memo κ α) : List (MemoCall κ α) → List (MemoAnswer α) × Memo κ α
  | [] => ([], m)
  | call :: rest =>
    let answered := m.answer call
    let later := answered.2.answerAll rest
    (answered.1 :: later.1, later.2)

end Memo

end ResumableTasks
