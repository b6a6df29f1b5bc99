import Correlator.Instant

/-!
# Configuration of an engine
-/

namespace Correlator

/-- The settings of an engine, read once when it is built. -/
structure Config where
  /-- Names the node in the key under which admission is published. -/
  node : String := ""
  /-- The timeout of calls without one of their own. -/
  defaultTimeout : Millis := 120000
  sweepInterval : Millis := 1000
  admissionLimit : UInt32 := 1000
  admissionKey : String := "outbound"
  /-- How long a session stays bound. -/
  sessionLifetime : Millis := 600000
  deriving DecidableEq, Inhabited

/-- A setting that an engine cannot run with. -/
inductive ConfigDefect where
  | zeroSweepInterval
  | zeroDefaultTimeout
  | zeroAdmissionLimit
  deriving DecidableEq, Inhabited

def ConfigDefect.message : ConfigDefect → String
  | .zeroSweepInterval => "sweep_interval_ms must be greater than zero"
  | .zeroDefaultTimeout => "default_timeout_ms must be greater than zero"
  | .zeroAdmissionLimit => "admission_limit must be greater than zero"

namespace Config

/-- The first setting that must not be zero and is. A build stops at the first one; the others are
reported when that is mended. -/
def error? (c : Config) : Option ConfigDefect :=
  if c.sweepInterval = 0 then some .zeroSweepInterval
  else if c.defaultTimeout = 0 then some .zeroDefaultTimeout
  else if c.admissionLimit = 0 then some .zeroAdmissionLimit
  else none

/-- The key under which admission is published: behind the node's name, if it has one. -/
def publicationKey (c : Config) : String :=
  if c.node = "" then c.admissionKey else c.node ++ "/" ++ c.admissionKey

end Config

end Correlator
