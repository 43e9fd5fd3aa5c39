import ResumableTasks.Classifier.StackDepth
/-!
What is asked of a classifier in the course of time: declarations to its catalog, questions about
single sites, and stack depths, for which it classifies the sites of a trace on its way.
-/
namespace ResumableTasks

inductive ClassifierCall where
  | declare (declaration : Declaration)
  | classify (site : CallSite)
  | isPausable (site : CallSite)
  | stackDepth (trace : CallTrace)

inductive ClassifierAnswer where
  | declared
  | classified (answer : Classification)
  | pausable (answer : Bool)
  | depth (answer : Except Error Nat)

namespace Classifier

def answer (c : Classifier) : ClassifierCall → ClassifierAnswer × Classifier
  | .declare declaration => (.declared, c.declare declaration)
  | .classify site =>
    let answered := c.classify site
    (.classified answered.1, answered.2)
  | .isPausable site =>
    let answered := c.isPausable site
    (.pausable answered.1, answered.2)
  | .stackDepth trace =>
    let answered := c.stackDepth trace
    (.depth answered.1, answered.2)

def answerAll (c : Classifier) : List ClassifierCall → List ClassifierAnswer × Classifier
  | [] => ([], c)
  | call :: rest =>
    let answered := c.answer call
    let later := answered.2.answerAll rest
    (answered.1 :: later.1, later.2)

theorem answerAll_concat (c : Classifier) (calls : List ClassifierCall) (call : ClassifierCall) :
    c.answerAll (calls ++ [call]) =
      ((c.answerAll calls).1 ++ [((c.answerAll calls).2.answer call).1],
        ((c.answerAll calls).2.answer call).2) := by
  induction calls generalizing c with
  | nil => rfl
  | cons first rest ih => simp only [List.cons_append, answerAll, ih]

end Classifier

end ResumableTasks
