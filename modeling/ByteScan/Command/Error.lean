import ByteScan.Command.FileSystem
import ByteScan.Config.Basic
import ByteScan.Database.Basic
import ByteScan.HexBytes
import ByteScan.Text.Quoted

/-!
# Faults of commands

Why a command that was understood cannot be carried out. The message of such a fault leads from what
was tried to the cause. A cause has its own place in the message even when the text in front of it
already ends in the cause's text, as it does for faults of entries and of configuration files.
-/

namespace ByteScan

/-- Why a command cannot be carried out. -/
inductive CommandError where
  /-- The configuration file cannot be read. -/
  | unreadableConfig (path : String) (cause : FileError)
  /-- The configuration file is refused. -/
  | configFile (path : String) (cause : ConfigError)
  /-- The configuration cannot be used with what the command line changes in it. -/
  | config (fault : ConfigFault)
  /-- No match at all is wanted. -/
  | zeroMaxMatches
  /-- The number of matches is limited although only the first one is wanted. -/
  | limitWithoutAll
  /-- There is no file to search. -/
  | missingInput (path : String)
  /-- There is no database file. -/
  | missingDatabase (path : String)
  /-- The text of a signature is refused. -/
  | signature (text : String) (cause : SignatureError)
  /-- A text does not write bytes. -/
  | bytes (text : String)
  /-- Bytes and mask are refused. -/
  | masked (cause : SignatureError)
  /-- The database file cannot be read. -/
  | unreadableDatabase (path : String) (cause : FileError)
  /-- The database file is refused. -/
  | database (cause : DatabaseError)
  /-- The database has no entries. -/
  | emptyDatabase (path : String)
  /-- The file to search cannot be read. -/
  | unreadableInput (path : String) (cause : FileError)
  deriving DecidableEq, Repr

namespace CommandError

/-- The text for the cause of a configuration file's fault, if it has a cause of its own. -/
def configCause : ConfigError → List String
  | .json => [ConfigError.jsonFault]
  | .invalid _ => []

/-- The text for the cause of a database's fault, if it has a cause of its own. -/
def databaseCause : DatabaseError → List String
  | .signature _ _ cause => [cause.message]
  | .outsideSection .. | .unexpectedLine .. | .invalidEntryPointOnly .. | .missingSignature .. => []

/-- The texts that lead from what was tried to the last cause. -/
def chain : CommandError → List String
  | unreadableConfig path cause =>
    [s!"Failed to load config {Text.quoted path}", s!"IO error: {cause.message}", cause.message]
  | configFile path cause =>
    [s!"Failed to load config {Text.quoted path}", cause.message] ++ configCause cause
  | config fault => [(ConfigError.invalid fault).message]
  | zeroMaxMatches => ["--max-matches must be at least 1"]
  | limitWithoutAll => ["--max-matches only applies together with --all"]
  | missingInput path => [s!"Input file does not exist: {Text.quoted path}"]
  | missingDatabase path => [s!"Database file does not exist: {Text.quoted path}"]
  | signature text cause => [s!"Invalid signature '{text}'", cause.message]
  | bytes text => [HexBytes.message text]
  | masked cause => ["Invalid pattern/mask pair", cause.message]
  | unreadableDatabase path cause =>
    [s!"Failed to read database {Text.quoted path}", cause.message]
  | database cause => cause.message :: databaseCause cause
  | emptyDatabase path => [s!"Database {Text.quoted path} contains no usable signatures"]
  | unreadableInput path cause => [s!"Failed to read {Text.quoted path}", cause.message]

/-- The message for a fault. -/
def message (e : CommandError) : String :=
  ": ".intercalate e.chain

end CommandError

end ByteScan
