import ByteScan.LogLevel

/-!
# Configuration

The settings that hold for every command until the command line overrides them, and the check that a
configuration has to pass before it is used.
-/

namespace ByteScan

/-- How a report is written. -/
inductive OutputFormat where
  | text
  | json
  deriving DecidableEq, Repr

/-- The settings of a run. -/
structure Config where
  /-- Whether the entries of a database may be searched for at the same time. -/
  parallel : Bool := true
  /-- How many matches of a signature are reported when all are asked for. -/
  maxMatches : Option UInt64 := none
  outputFormat : OutputFormat := .text
  color : Bool := true
  /-- The name of the log level. -/
  logLevel : String := "info"
  /-- Whether bad entries of a database are left out instead of ending the run. -/
  lenientDatabase : Bool := false
  deriving DecidableEq, Repr

/-- Why a configuration cannot be used. -/
inductive ConfigFault where
  /-- No match at all is to be reported. -/
  | zeroMaxMatches
  /-- The log level has no such name. -/
  | unknownLogLevel (name : String)
  deriving DecidableEq, Repr

/-- The message for a fault. -/
def ConfigFault.message : ConfigFault → String
  | .zeroMaxMatches => "max_matches must be greater than 0"
  | .unknownLogLevel name => s!"unknown log_level '{name}'"

/-- Why a configuration file is refused. -/
inductive ConfigError where
  /-- The file is no JSON document, or not one for a configuration. -/
  | json
  /-- The configuration cannot be used. -/
  | invalid (fault : ConfigFault)
  deriving DecidableEq, Repr

namespace ConfigError

/-- What stands in a message for the place and kind of a fault in a JSON document. The reader does not
tell such faults apart. -/
def jsonFault : String := "<json>"

/-- The message for a fault. -/
def message : ConfigError → String
  | json => s!"Invalid config JSON: {jsonFault}"
  | invalid fault => s!"Invalid config: {fault.message}"

end ConfigError

/-- The first fault of a configuration, if it has one. -/
def Config.fault? (c : Config) : Option ConfigFault :=
  if c.maxMatches = some 0 then some .zeroMaxMatches
  else if (LogLevel.ofText? c.logLevel).isNone then some (.unknownLogLevel c.logLevel)
  else none

/-- The configuration if it can be used. -/
def Config.validate (c : Config) : Except ConfigFault Config :=
  match c.fault? with
  | some fault => .error fault
  | none => .ok c

end ByteScan
