/-!
# Log levels

How much of the log is shown. The levels are ordered from `off`, which shows nothing, to `trace`,
which shows everything.
-/

namespace ByteScan

/-- How much of the log is shown. -/
inductive LogLevel where
  | off
  | error
  | warn
  | info
  | debug
  | trace
  deriving DecidableEq, Repr

namespace LogLevel

/-- The levels in ascending order. -/
def all : List LogLevel :=
  [off, error, warn, info, debug, trace]

/-- The place of a level in the order. -/
def rank : LogLevel → Nat
  | off => 0
  | error => 1
  | warn => 2
  | info => 3
  | debug => 4
  | trace => 5

/-- The name of a level in a log. -/
def name : LogLevel → String
  | off => "OFF"
  | error => "ERROR"
  | warn => "WARN"
  | info => "INFO"
  | debug => "DEBUG"
  | trace => "TRACE"

/-- The level that a text names. Letters may be in either case. Lowering the ASCII letters decides
this, since no other character becomes a letter of one of these names when it is lowered. -/
def ofText? (text : String) : Option LogLevel :=
  match text.map Char.toLower with
  | "error" => some error
  | "warn" => some warn
  | "warning" => some warn
  | "info" => some info
  | "debug" => some debug
  | "trace" => some trace
  | "off" => some off
  | _ => none

/-- The level that a text names, and `info` if it names none. -/
def ofText (text : String) : LogLevel :=
  (ofText? text).getD info

/-- The level that is `steps` higher, and `trace` if there is none so high. -/
def raise (level : LogLevel) (steps : Nat) : LogLevel :=
  (all.drop (level.rank + steps)).headD trace

/-- Whether a message of level `message` is shown in a log of this level. -/
def shows (level message : LogLevel) : Bool :=
  message.rank ≤ level.rank

end LogLevel

end ByteScan
