/-!
# Options of the command line

The commands, the options, and which options may be given where. A command line has two levels: what
stands in front of the command's name, and what stands behind it. The options that concern every
command may be given on either level.
-/

namespace ByteScan.CommandLine

/-- The commands. -/
inductive CommandName where
  | find
  | masked
  | database
  | inspect
  deriving DecidableEq, Repr

namespace CommandName

/-- All commands. -/
def all : List CommandName :=
  [find, masked, database, inspect]

/-- The word for a command. -/
def text : CommandName → String
  | find => "find"
  | masked => "masked"
  | database => "db"
  | inspect => "inspect"

/-- The command of this name. -/
def ofText? (word : String) : Option CommandName :=
  all.find? (·.text = word)

/-- Whether the command searches bytes, and so takes the options that say where and how far. -/
def scans : CommandName → Bool
  | inspect => false
  | _ => true

end CommandName

/-- The options. -/
inductive Opt where
  | logLevel
  | verbose
  | config
  | noColor
  | json
  | offset
  | input
  | all
  | maxMatches
  | bytes
  | mask
  | database
  | lenient
  | sequential
  | help
  | version
  deriving DecidableEq, Repr

namespace Opt

/-- The word for an option, which is written behind two hyphens. -/
def longName : Opt → String
  | logLevel => "log-level"
  | verbose => "verbose"
  | config => "config"
  | noColor => "no-color"
  | json => "json"
  | offset => "offset"
  | input => "input"
  | all => "all"
  | maxMatches => "max-matches"
  | bytes => "bytes"
  | mask => "mask"
  | database => "database"
  | lenient => "lenient"
  | sequential => "sequential"
  | help => "help"
  | version => "version"

/-- The letter for an option, if it has one, which is written behind one hyphen. -/
def letter? : Opt → Option Char
  | logLevel => some 'l'
  | verbose => some 'v'
  | config => some 'c'
  | offset => some 'o'
  | input => some 'i'
  | all => some 'a'
  | bytes => some 'b'
  | mask => some 'm'
  | database => some 'd'
  | help => some 'h'
  | version => some 'V'
  | noColor | json | maxMatches | lenient | sequential => none

/-- Whether an option has a value. -/
def takesValue : Opt → Bool
  | logLevel | config | offset | input | maxMatches | bytes | mask | database => true
  | verbose | noColor | json | all | lenient | sequential | help | version => false

/-- Whether the value of an option may begin with a hyphen when it is an argument of its own. An
offset may, since it may be negative. -/
def takesHyphens : Opt → Bool
  | offset => true
  | _ => false

/-- Whether an option may be given several times on one level. -/
def repeats : Opt → Bool
  | verbose => true
  | _ => false

end Opt

/-- A part of the command line: what stands in front of the command's name, or what stands behind
it. -/
inductive Level where
  | front
  | behind (command : CommandName)
  deriving DecidableEq, Repr

namespace Level

/-- The options that concern every command. -/
def common : List Opt :=
  [.logLevel, .verbose, .config, .noColor, .json, .help]

/-- The options that say what a command searches and how far. -/
def scanning : List Opt :=
  [.input, .all, .maxMatches]

/-- The options that a command has for itself. -/
def own : CommandName → List Opt
  | .find => [.offset]
  | .masked => [.bytes, .mask, .offset]
  | .database => [.database, .lenient, .sequential]
  | .inspect => []

/-- The options that may be given on a level. -/
def options : Level → List Opt
  | front => .version :: common
  | behind c => common ++ own c ++ if c.scans then scanning else []

/-- The option that a word stands for on a level. -/
def long? (l : Level) (word : String) : Option Opt :=
  l.options.find? (·.longName = word)

/-- The option that a letter stands for on a level. -/
def short? (l : Level) (letter : Char) : Option Opt :=
  l.options.find? (·.letter? = some letter)

/-- How many operands, that is, arguments that belong to no option, a level has. -/
def operandCount : Level → Nat
  | behind .find | behind .inspect => 1
  | front | behind .masked | behind .database => 0

end Level

end ByteScan.CommandLine
