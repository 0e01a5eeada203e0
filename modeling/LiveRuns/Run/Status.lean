import LiveRuns.Unicode.Blank
import LiveRuns.Unicode.Lower
import LiveRuns.Wire.Decoder

/-!
The status of a run.

On the wire every name is accepted and the unfamiliar ones mean `unknown`, so that a server may
add statuses.  A status that a person types must be one of the five real ones; blanks around it
and case do not matter.
-/

namespace LiveRuns

inductive RunStatus where
  | pending
  | running
  | completed
  | failed
  | cancelled
  | unknown
deriving DecidableEq, Repr

namespace RunStatus

def name : RunStatus → String
  | .pending => "pending"
  | .running => "running"
  | .completed => "completed"
  | .failed => "failed"
  | .cancelled => "cancelled"
  | .unknown => "unknown"

/-- The status with a name; any other name is `unknown`. -/
def ofName (name : String) : RunStatus :=
  if name = "pending" then .pending
  else if name = "running" then .running
  else if name = "completed" then .completed
  else if name = "failed" then .failed
  else if name = "cancelled" then .cancelled
  else .unknown

/-- A typed status after trimming and lower-casing. -/
def normalized (text : String) : String :=
  String.ofList (Unicode.lower (Unicode.trim text.toList))

/-- The status that a person typed, or the normalized text that names none.  `unknown` is not a
status to ask for. -/
def parse (text : String) : Except String RunStatus :=
  match ofName (normalized text) with
  | .unknown => .error (normalized text)
  | status => .ok status

def unknownText (normalized : String) : String := "unknown run status: " ++ normalized

def decoder : Wire.Decoder RunStatus := Wire.named fun name => .ok (ofName name)

end RunStatus

end LiveRuns
