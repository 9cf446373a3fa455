import ByteScan.CommandLine.Arguments
import ByteScan.CommandLine.Word
import ByteScan.Text.Decimal

/-!
# Reading the command line

The words in front of the command's name and those behind it are read one level after the other. A
word is *acceptable* where it stands if its option is not given twice, its value can be read and
there is room for it. A request for help or for the version is granted if all words in front of it are
acceptable, whatever comes behind it.

## The order of faults

All faults look the same (`Refusal.usage`), so their order only matters next to a request for help.

* A level's words are judged as soon as they are read. One judgement is put off: a value that is an
  argument of its own is judged together with what follows it, and what follows the last value in
  front of a command's name is the whole level behind it (`settled`).
* A missing operand or option is noticed only when nothing else is wrong with its level.
-/

namespace ByteScan.CommandLine

/-- Why a command line is not carried out. -/
inductive Refusal where
  /-- It is not a well-formed command line. -/
  | usage
  /-- It asks for help. -/
  | help
  /-- It asks for the version. -/
  | version
  deriving DecidableEq, Repr

/-- The status with which a refused command line ends. -/
def Refusal.exitCode : Refusal → UInt8
  | usage => 2
  | help | version => 0

/-! ## Judging words -/

/-- Whether a value can be read. The name of a file may not be empty, and a number has to be one. -/
def Opt.admits : Opt → String → Bool
  | config, text | input, text | database, text => text ≠ ""
  | offset, text => (Text.int64? text).isSome
  | maxMatches, text => (Text.uint64? text).isSome
  | _, _ => true

/-- Whether the value in a word can be read. -/
def Word.admitted : Word → Bool
  | value o text _ => o.admits text
  | flag _ | operand _ => true

/-- How often words give an option. -/
def occurrences (words : List Word) (o : Opt) : Nat :=
  words.countP (·.option? = some o)

/-- The operands among words, in order. -/
def operands (words : List Word) : List String :=
  words.filterMap Word.operand?

/-- Whether these words may stand on a level. -/
def acceptable (l : Level) (words : List Word) : Bool :=
  words.all Word.admitted &&
    l.options.all (fun o => o.repeats || occurrences words o ≤ 1) &&
    (operands words).length ≤ l.operandCount

/-- What a word requests in place of a command. -/
def Word.request? : Word → Option Refusal
  | flag .help => some .help
  | flag .version => some .version
  | _ => none

/-- Judges the words of a level. The first request is granted if the words in front of it are
acceptable. Without a request all words have to be. -/
def judge (l : Level) (words : List Word) : Except Refusal Unit :=
  match words.findSome? Word.request? with
  | some request =>
    .error (if acceptable l (words.takeWhile (·.request?.isNone)) then request else .usage)
  | none => if acceptable l words then .ok () else .error .usage

/-- The words without the last one, if that is a value that was an argument of its own. -/
def settled (words : List Word) : List Word :=
  match words.getLast? with
  | some (.value _ _ false) => words.dropLast
  | _ => words

/-! ## Reading arguments off words -/

/-- The words of both levels. An option that is given behind the command's name replaces the same
option in front of it. -/
def combine (front behind : List Word) : List Word :=
  behind ++ front.filter fun w => behind.all fun w' => w'.option? ≠ w.option?

/-- Whether words give an option. -/
def given (words : List Word) (o : Opt) : Bool :=
  words.any (·.option? = some o)

/-- The value that words give to an option. -/
def valueOf? (words : List Word) (o : Opt) : Option String :=
  words.findSome? (·.valueOf? o)

/-- The offset that words give, and zero if they give none. -/
def offsetOf (words : List Word) : Int64 :=
  ((valueOf? words .offset).bind Text.int64?).getD 0

/-- What words say about the search. -/
def targetOf (words : List Word) : Target where
  input := valueOf? words .input
  all := given words .all
  maxMatches := (valueOf? words .maxMatches).bind Text.uint64?

/-- The command that words describe. There is none if an operand or an option is missing. -/
def commandOf? (words : List Word) : CommandName → Option Command
  | .find => do
    let signature ← (operands words).head?
    return .find signature (offsetOf words) (targetOf words)
  | .masked => do
    let bytes ← valueOf? words .bytes
    let mask ← valueOf? words .mask
    return .masked bytes mask (offsetOf words) (targetOf words)
  | .database => do
    let path ← valueOf? words .database
    return .database path (given words .lenient) (given words .sequential) (targetOf words)
  | .inspect => do
    let signature ← (operands words).head?
    return .inspect signature

/-- The arguments that words and their command make. More than 255 steps of verbosity count as
255. -/
def argumentsOf (words : List Word) (command : Command) : Arguments where
  logLevel := valueOf? words .logLevel
  verbosity := UInt8.ofNat (min 255 (occurrences words .verbose))
  config := valueOf? words .config
  noColor := given words .noColor
  json := given words .json
  command := command

/-! ## The whole -/

/-- What stands behind the word for help: nothing, or one word that help can be had on. -/
def judgeTopics : List String → Refusal
  | [] => .help
  | [topic] => if topic = helpWord || (CommandName.ofText? topic).isSome then .help else .usage
  | _ => .usage

/-- Reads what stands behind a command's name. -/
def readBehind (name : CommandName) (arguments : List String) :
    Except Refusal (List Word × Command) := do
  let level := Level.behind name
  let (words, ending) := readWords level .anything arguments
  judge level words
  match ending, commandOf? words name with
  | .complete, some command => return (words, command)
  | _, _ => throw .usage

/-- Reads a command line, which does not contain the program's own name. -/
def parse (arguments : List String) : Except Refusal Arguments := do
  let (front, ending) := readWords .front .anything arguments
  judge .front (settled front)
  match ending with
  | .complete | .refused => throw .usage
  | .topics rest => throw (judgeTopics rest)
  | .command name rest =>
    let (behind, command) ← readBehind name rest
    judge .front front
    return argumentsOf (combine front behind) command

end ByteScan.CommandLine
