import ResumableTasks.CallSite.Symbol
import ResumableTasks.Text.Blank
/-!
Traces from the printed form of a backtrace. A line names a symbol, with a number before it or not,
or the place of the symbol above it; blank lines say nothing.
-/
namespace ResumableTasks.Backtrace

inductive Line where
  | blank
  | symbol (text : List Char)
  | place (text : List Char)
  deriving DecidableEq, Repr

def Line.ofChars (cs : List Char) : Line :=
  let cs := Text.trimStart cs
  if cs = [] then .blank
  else match Text.stripLead? "at ".toList cs with
    | some text => .place text
    | none =>
      match Text.splitFirst? [':', ' '] cs with
      | some (number, name) =>
        .symbol (Text.trim (if number.all Text.isDigit then name else cs))
      | none => .symbol (Text.trim cs)

def setPlace (place : List Char) (site : CallSite) : CallSite :=
  let whole := { site with file := some (String.ofList place) }
  match Text.splitLast? [':'] place with
  | none => whole
  | some (front, _) =>
    match Text.splitLast? [':'] front with
    | none => whole
    | some (file, row) =>
      match Text.readDecimal? UInt32.size row with
      | some line => { site with file := some (String.ofList file), line := some (.ofNat line) }
      | none => whole

/-- One more line read; the sites read so far stand in reverse. -/
def addLine (sites : List CallSite) : Line → List CallSite
  | .blank => sites
  | .symbol text => CallSite.ofSymbol (String.ofList text) :: sites
  | .place text =>
    match sites with
    | site :: above => setPlace text site :: above
    | [] => []

def sites (lines : List Line) : List CallSite := (lines.foldl addLine []).reverse

end ResumableTasks.Backtrace

namespace ResumableTasks

def CallTrace.ofBacktrace (text : String) : CallTrace :=
  ⟨Backtrace.sites ((Text.lines text.toList).map Backtrace.Line.ofChars)⟩

end ResumableTasks
