/-!
# Arguments

What a command line asks for, after it has been read.
-/

namespace ByteScan

/-- What a command searches, and how far. -/
structure Target where
  /-- The file to search. Without one, standard input is searched. -/
  input : Option String := none
  /-- Whether all matches are wanted, and not only the first. -/
  all : Bool := false
  /-- How many matches of a signature are wanted. -/
  maxMatches : Option UInt64 := none
  deriving DecidableEq, Repr

/-- The name of what is searched. -/
def Target.source (t : Target) : String :=
  t.input.getD "stdin"

/-- A command. -/
inductive Command where
  /-- Searches for a signature in text. -/
  | find (signature : String) (offset : Int64) (target : Target)
  /-- Searches for bytes under a mask. -/
  | masked (bytes mask : String) (offset : Int64) (target : Target)
  /-- Searches for the entries of the database in a file. -/
  | database (path : String) (lenient sequential : Bool) (target : Target)
  /-- Shows what a signature is made of. -/
  | inspect (signature : String)
  deriving DecidableEq, Repr

/-- What a command searches, if it searches anything. -/
def Command.target? : Command → Option Target
  | .find _ _ target | .masked _ _ _ target | .database _ _ _ target => some target
  | .inspect _ => none

/-- The files that a command reads, other than the configuration file. -/
def Command.paths : Command → List String
  | .find _ _ target | .masked _ _ _ target => target.input.toList
  | .database path _ _ target => path :: target.input.toList
  | .inspect _ => []

/-- What a command line asks for. -/
structure Arguments where
  /-- The log level in place of the configured one. -/
  logLevel : Option String := none
  /-- How many steps the log level is raised. -/
  verbosity : UInt8 := 0
  /-- The configuration file. -/
  config : Option String := none
  /-- Whether colours are turned off. -/
  noColor : Bool := false
  /-- Whether reports are written as JSON. -/
  json : Bool := false
  command : Command
  deriving DecidableEq, Repr

end ByteScan
