import LedSketch.Script.Fault
import LedSketch.Sketch.Note

namespace LedSketch

/-!
# Log

What a simulator reports about its own work, with a severity and a text.
-/

/-- How a run ended. -/
inductive Outcome where
  /-- The program ran to its end, or made as many iterations as it may. -/
  | finished (iterations : Nat)
  /-- A newer run was started. -/
  | superseded
  | failed (failure : Script.Failure)

/-- The outcome of a program that was stopped. -/
def Outcome.ofInterrupt : Script.Interrupt → Outcome
  | .failed failure => .failed failure
  | .superseded => .superseded

/-- The severities of log entries. -/
inductive Severity where
  | debug
  | info
  | warning
  | error
  deriving Repr, DecidableEq

/-- One entry of the log. -/
inductive LogEntry where
  | substitutions (rule : String) (count : Nat)
  | note (note : Sketch.Note)
  | stripCreated (id count : Nat) (pin : Int64) (order : ColorOrder)
  | buttonCreated (id : Nat) (label : String)
  | buttonClicked (id : Nat) (label : String)
  | clickIgnored (id : Nat)
  | serialLine (text : String)
  | ended (generation : Nat) (outcome : Outcome)

namespace LogEntry

/-- The severity of a log entry. -/
def severity : LogEntry → Severity
  | .substitutions .. => .debug
  | .note _ => .warning
  | .ended _ (.failed _) => .error
  | _ => .info

/-- The text of a log entry. -/
def text : LogEntry → String
  | .substitutions rule count =>
      "[REWRITE] " ++ rule ++ ": " ++ toString count ++ " substitution(s)"
  | .note shown => "[REWRITE] " ++ shown.display
  | .stripCreated id count pin order =>
      "[SIM] Strip " ++ toString id ++ " created: " ++ toString count ++
        " pixels on pin " ++ toString pin.toInt ++ " (" ++ order.name ++ ")"
  | .buttonCreated id label =>
      "[SIM] Button " ++ toString id ++ " created: " ++ label
  | .buttonClicked id label =>
      "[SIM] Button " ++ toString id ++ " clicked: " ++ label
  | .clickIgnored id => "[SIM] Click on button " ++ toString id ++ " ignored"
  | .serialLine text => "[Serial] " ++ text
  | .ended generation (.finished iterations) =>
      "[SIM] Run " ++ toString generation ++ " finished after " ++
        toString iterations ++ " loop iteration(s)"
  | .ended generation .superseded =>
      "[SIM] Run " ++ toString generation ++ " superseded"
  | .ended generation (.failed failure) =>
      "[SIM] Run " ++ toString generation ++ " failed: " ++ failure.display

end LogEntry

end LedSketch
