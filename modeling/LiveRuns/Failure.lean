import LiveRuns.Url.Fault
import LiveRuns.Wire.Error

/-!
Failures of a feed.

None of them ends a feed: they are recorded, shown and followed by another attempt.
-/

namespace LiveRuns

inductive Failure where
  /-- The listing could not be fetched; the status is there if the server answered. -/
  | fetch (status : Option Nat) (detail : String)
  | stream (detail : String)
  | malformed (why : Wire.Error)
  | url (why : Url.Fault)
  | settings (detail : String)
deriving DecidableEq, Repr

def Failure.message : Failure → String
  | .fetch _ detail => "Snapshot fetch failed: " ++ detail
  | .stream detail => "Stream error: " ++ detail
  | .malformed why => "Malformed run event: " ++ why.message
  | .url why => "Invalid URL: " ++ why.message
  | .settings detail => "Configuration error: " ++ detail

end LiveRuns
