import ByteScan.Command.Environment
import ByteScan.Command.Summary
import ByteScan.Database.Scan
import ByteScan.Report.Json
import ByteScan.Report.Text

/-!
# Carrying out a command

A command is a function of its arguments and of what it finds around it. It comes to a report or to
a signature's summary, and only then is this written. What it writes is one text, which it has only
when nothing has gone wrong, so a command that fails writes nothing but its fault.

## The order of faults

The configuration file comes first, then the configuration with what the command line changes in it.
Then a command looks for its files and judges how far it is to search, before it reads what it is to
search for. The bytes to search are read last.
-/

namespace ByteScan

/-! ## Searching -/

/-- Searches for one signature. -/
def Environment.searchOne (env : Environment) (c : Config) (name : String) (s : Signature)
    (t : Target) : CommandStep Report := do
  let region ← env.region t
  let starts := s.starts (t.extent c.maxMatches) region
  .noteAll (if t.all then starts.map (.matched s) else [])
  let report : Report := { source := t.source, regionSize := region.length }
  return report.push (.ofPositions name s (starts.map s.position) region)

/-- The finding for an entry of a database. -/
def Database.finding? (d : Database) (region : List UInt8) (h : Database.EntryHits) :
    Option Finding :=
  d.entries[h.index]?.map fun e => .ofPositions h.name e.signature h.positions region

/-- Searches for every entry of a database. -/
def Environment.searchAll (env : Environment) (c : Config) (d : Database) (sequential : Bool)
    (t : Target) : CommandStep Report := do
  let region ← env.region t
  let scanner : Scanner :=
    { parallel := c.parallel && !sequential, maxMatches := t.maxMatches.or c.maxMatches }
  let extent := t.extent scanner.maxMatches
  .noteAll (Scanner.events extent region d)
  let findings := (scanner.hits extent region d).filterMap (d.finding? region)
  return findings.foldl Report.push { source := t.source, regionSize := region.length }

/-- Reads a signature and searches for it. -/
def Environment.searchFor (env : Environment) (c : Config) (name : String)
    (read : CommandStep Signature) (t : Target) : CommandStep Report := do
  failIf (env.targetFault? t)
  let s ← read
  env.searchOne c name s t

/-- Reads a database and searches for its entries. -/
def Environment.searchDatabase (env : Environment) (c : Config) (path : String)
    (lenient sequential : Bool) (t : Target) : CommandStep Report := do
  failIf (env.databaseFault? path)
  failIf (env.targetFault? t)
  let mode := if lenient || c.lenientDatabase then .lenient else .strict
  let d ← env.loadDatabase mode path
  env.searchAll c d sequential t

/-! ## What a command comes to -/

/-- What a command comes to before it is written. -/
inductive Yield where
  | report (r : Report)
  | summary (s : Signature)
  deriving DecidableEq, Repr

/-- What a command comes to under a configuration. -/
def Environment.yield (env : Environment) (c : Config) : Command → CommandStep Yield
  | .find signature offset target => do
    return .report (← env.searchFor c "signature" (readSignature signature offset) target)
  | .masked bytes mask offset target => do
    return .report (← env.searchFor c "pattern" (readMasked bytes mask offset) target)
  | .database path lenient sequential target => do
    return .report (← env.searchDatabase c path lenient sequential target)
  | .inspect signature => do
    return .summary (← readSignature signature 0)

/-! ## Writing -/

/-- A report as it is written. -/
def Config.render (c : Config) (color : Bool) (r : Report) : String :=
  match c.outputFormat with
  | .text => r.text color
  | .json => r.toJson.pretty ++ "\n"

/-- A signature's summary as it is written. -/
def Config.renderSummary (c : Config) (color : Bool) (s : Signature) : String :=
  match c.outputFormat with
  | .text => s.summaryText color
  | .json => s.summaryJson.pretty ++ "\n"

/-- What a command comes to as it is written. -/
def Config.write (c : Config) (color : Bool) : Yield → String
  | .report r => c.render color r
  | .summary s => c.renderSummary color s

/-! ## Commands -/

/-- What a command writes under a configuration. -/
def Environment.perform (env : Environment) (c : Config) (command : Command) :
    CommandStep String := do
  return c.write (env.color && c.color) (← env.yield c command)

/-- Carries out what a command line asks for. -/
def Environment.run (env : Environment) (a : Arguments) : CommandStep String := do
  let c ← .ofExcept (env.config a)
  env.perform c a.command

/-! ## What can be seen of a command -/

/-- What can be seen of a command that has ended. -/
structure Outcome where
  /-- What it has written. -/
  stdout : String := ""
  /-- The shown part of its log. -/
  log : List Event := []
  /-- Why it was not carried out. -/
  fault : Option CommandError := none
  deriving DecidableEq, Repr

/-- The status with which a command ends. -/
def Outcome.exitCode (o : Outcome) : UInt8 :=
  if o.fault.isSome then 1 else 0

/-- Carries out what a command line asks for, and shows the part of the log that it asks for. Without
a configuration nothing has been noted yet. -/
def Environment.execute (env : Environment) (a : Arguments) : Outcome :=
  let level :=
    match env.config a with
    | .ok c => a.shownLevel c
    | .error _ => .off
  let step := env.run a
  let log := step.events.filter fun e => level.shows e.level
  match step.result with
  | .ok text => { stdout := text, log }
  | .error fault => { log, fault := some fault }

end ByteScan
