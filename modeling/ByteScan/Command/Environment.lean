import ByteScan.Command.Error
import ByteScan.CommandLine.Arguments
import ByteScan.Config.Json
import ByteScan.Database.Parser
import ByteScan.Search.Cursor
import ByteScan.Signature.Masked

/-!
# What a command finds around it

A command sees files, standard input and whether it may write in colour. Here are the steps that look
at them, each with the faults that it can end in: reading the configuration, judging and reading what
is to be searched, and reading the database.
-/

namespace ByteScan

/-- What a command finds around it. -/
structure Environment where
  files : FileSystem
  /-- What standard input holds. -/
  stdin : List UInt8 := []
  /-- Whether what is written may be coloured. -/
  color : Bool := false

/-- A step of a command. -/
abbrev CommandStep := Logged Event CommandError

/-! ## Configuration -/

/-- The configuration in a file. -/
def Environment.loadConfig (env : Environment) (path : String) : Except CommandError Config := do
  let text ← (env.files.text path).mapError (.unreadableConfig path)
  (Config.read text).mapError (.configFile path)

/-- The configuration with what the command line changes in it. -/
def Arguments.override (a : Arguments) (c : Config) : Config :=
  { c with
    logLevel := a.logLevel.getD c.logLevel
    color := c.color && !a.noColor
    outputFormat := if a.json then .json else c.outputFormat }

/-- The configuration for a command: that of the file, or else the default, with what the command
line changes in it. -/
def Environment.config (env : Environment) (a : Arguments) : Except CommandError Config := do
  let base ← (a.config.map env.loadConfig).getD (.ok {})
  (a.override base).validate.mapError .config

/-- The level of the log. -/
def Arguments.shownLevel (a : Arguments) (c : Config) : LogLevel :=
  (LogLevel.ofText c.logLevel).raise a.verbosity.toNat

/-! ## What is searched -/

/-- The fault of a target, if it has one. -/
def Environment.targetFault? (env : Environment) (t : Target) : Option CommandError :=
  if t.maxMatches = some 0 then some .zeroMaxMatches
  else if t.maxMatches.isSome ∧ t.all = false then some .limitWithoutAll
  else
    match t.input with
    | some path => if env.files.has path then none else some (.missingInput path)
    | none => none

/-- A step that ends in the fault, if there is one. -/
def failIf (fault? : Option CommandError) : CommandStep Unit :=
  match fault? with
  | some fault => .fail fault
  | none => .ofExcept (.ok ())

/-- The bytes to search. -/
def Environment.region (env : Environment) (t : Target) : CommandStep (List UInt8) := do
  let bytes ← .ofExcept <|
    match t.input with
    | some path => (env.files path).mapError (.unreadableInput path)
    | none => .ok env.stdin
  .note (.read bytes.length t.source)
  return bytes

/-- How many matches a target wants, where `limit?` counts if the target has no limit of its own. -/
def Target.extent (t : Target) (limit? : Option UInt64) : Extent :=
  if t.all then .every (t.maxMatches.or limit?) else .first

/-! ## What is searched for -/

/-- The signature that a text writes. -/
def readSignature (text : String) (offset : Int64) : CommandStep Signature := do
  let s ← (Signature.noted (Signature.ofText text)).mapError (.signature text)
  return s.withOffset offset

/-- The signature of the bytes that a text writes, under this mask. -/
def readMasked (bytes mask : String) (offset : Int64) : CommandStep Signature := do
  match HexBytes.read? bytes with
  | none => .fail (.bytes bytes)
  | some bytes =>
    let s ← (Signature.noted (Signature.ofBytesAndMask bytes mask)).mapError .masked
    return s.withOffset offset

/-- The fault of a database's path, if it has one. -/
def Environment.databaseFault? (env : Environment) (path : String) : Option CommandError :=
  if env.files.has path then none else some (.missingDatabase path)

/-- The database in a file. -/
def Environment.loadDatabase (env : Environment) (mode : Database.Mode) (path : String) :
    CommandStep Database := do
  let text ← .ofExcept ((env.files.text path).mapError (.unreadableDatabase path))
  let d ← (Database.parse mode text).mapError .database
  if d.entries.isEmpty then .fail (.emptyDatabase path)
  else
    .note (.loaded d.entries.length path)
    return d

end ByteScan
