/-!
The clock that a world reads. It never goes back: it stands still between readings or drifts by any
amount, `drift n` before its reading number `n`, and sleeping moves it forward. Times are in
milliseconds.
-/
namespace ResumableTasks

structure Clock where
  now : Nat := 0
  readings : Nat := 0
  drift : Nat → Nat := fun _ => 0

namespace Clock

instance : Inhabited Clock := ⟨{}⟩

def read (c : Clock) : Nat × Clock :=
  let now := c.now + c.drift c.readings
  (now, { c with now, readings := c.readings + 1 })

def sleep (c : Clock) (span : Nat) : Clock := { c with now := c.now + span }

end Clock

end ResumableTasks
