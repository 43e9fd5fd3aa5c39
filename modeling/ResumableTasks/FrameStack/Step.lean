import ResumableTasks.FrameStack
/-!
The operations on a frame stack as data, so that whole histories of them can be spoken of. A step
that fails leaves the stack as it was.
-/
namespace ResumableTasks

inductive FrameStep (ρ : Type) where
  | begin
  | finish
  | enter
  | leave
  | capture (marker : UInt32) (locals : Captured ρ)
  | state (type : CapturedType)
  | replace (content : Captured ρ)
  | take (type : CapturedType)
  | togglePause
  | recoverTo (index : Nat)
  | clear

inductive FrameAnswer (ρ : Type) where
  | done
  | marker (marker : UInt32)
  | suspended (answer : Bool)
  | left (departure : Departure)
  | state (content : Captured ρ)
  | replaced (was : Captured ρ)
  deriving DecidableEq, Repr

inductive FrameFault where
  | misuse (misuse : Misuse)
  | error (error : FrameError)
  deriving DecidableEq, Repr

namespace FrameStep

variable {ρ : Type}

def attempt (s : FrameStack ρ) : FrameStep ρ → Except FrameFault (FrameAnswer ρ × FrameStack ρ)
  | .begin => s.begin.mapError .misuse |>.map fun s => (.marker s.marker, s)
  | .finish => s.finish.mapError .misuse |>.map fun (answer, s) => (.suspended answer, s)
  | .enter => .ok (.marker s.enter.marker, s.enter)
  | .leave => s.leave.mapError .misuse |>.map fun (departure, s) => (.left departure, s)
  | .capture marker locals => s.capture marker locals |>.mapError .misuse |>.map fun s => (.done, s)
  | .state type => s.state (.captured type) |>.mapError .error |>.map fun c => (.state c, s)
  | .replace content =>
    s.replace content |>.mapError .error |>.map fun (was, s) => (.replaced was, s)
  | .take type => s.take (.captured type) |>.mapError .error |>.map fun (c, s) => (.state c, s)
  | .togglePause => s.togglePause.mapError .error |>.map fun s => (.done, s)
  | .recoverTo index => s.recoverTo index |>.mapError .error |>.map fun (m, s) => (.marker m, s)
  | .clear => .ok (.done, s.clear)

def run (step : FrameStep ρ) (s : FrameStack ρ) :
    Except FrameFault (FrameAnswer ρ) × FrameStack ρ :=
  match step.attempt s with
  | .ok (answer, s') => (.ok answer, s')
  | .error fault => (.error fault, s)

def runAll : List (FrameStep ρ) → FrameStack ρ →
    List (Except FrameFault (FrameAnswer ρ)) × FrameStack ρ
  | [], s => ([], s)
  | step :: rest, s =>
    let answered := step.run s
    let later := runAll rest answered.2
    (answered.1 :: later.1, later.2)

end FrameStep

end ResumableTasks
