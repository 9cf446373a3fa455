import ByteScan.CommandLine.Option

/-!
# Words of the command line

The arguments of a level are first told apart by their form (`Shape`) and then read as *words*: an
option without a value, an option with its value, or an operand. A value may be attached to its
option or be the argument behind it, letters may share one hyphen, and behind `--` there are only
operands.

Reading the words does not judge them. Whether an option is given too often, whether a value can be
read, and whether a request for help comes before a fault is decided on the list of words.
-/

namespace ByteScan.CommandLine

/-- What an argument looks like. -/
inductive Shape where
  /-- The argument `--`. -/
  | escape
  /-- Two hyphens and the word for an option, with a value behind the first equals sign. -/
  | long (name : String) (value : Option String)
  /-- One hyphen and letters, or a letter and its value. -/
  | cluster (letters : List Char)
  /-- Anything else, one hyphen and the empty argument included. -/
  | plain
  deriving DecidableEq, Repr

/-- What the characters of an argument look like. -/
def Shape.ofChars : List Char → Shape
  | ['-', '-'] => escape
  | '-' :: '-' :: cs =>
    long (String.ofList (cs.takeWhile (· != '=')))
      (match cs.dropWhile (· != '=') with
        | [] => none
        | _ :: value => some (String.ofList value))
  | '-' :: c :: cs => cluster (c :: cs)
  | _ => plain

/-- What an argument looks like. -/
def Shape.of (argument : String) : Shape :=
  ofChars argument.toList

/-- What one or two arguments say. -/
inductive Word where
  /-- An option without a value. -/
  | flag (option : Opt)
  /-- An option with its value, which was `attached` to it or is an argument of its own. -/
  | value (option : Opt) (text : String) (attached : Bool)
  /-- An argument that belongs to no option. -/
  | operand (text : String)
  deriving DecidableEq, Repr

namespace Word

/-- The option that a word gives. -/
def option? : Word → Option Opt
  | flag o | value o _ _ => some o
  | operand _ => none

/-- The value that a word gives to an option. -/
def valueOf? (o : Opt) : Word → Option String
  | value o' text _ => if o' = o then some text else none
  | flag _ | operand _ => none

/-- The text of an operand. -/
def operand? : Word → Option String
  | operand text => some text
  | flag _ | value .. => none

end Word

/-- What may come next on a level. -/
inductive Expects where
  /-- Anything. -/
  | anything
  /-- The value of an option. -/
  | valueOf (option : Opt)
  /-- Operands only. -/
  | operands
  deriving DecidableEq, Repr

/-- What an argument says by itself: its words, and what may come next. Nothing may come next if the
argument is refused. -/
abbrev Reading := List Word × Option Expects

/-- The value that is attached to a letter: what stands behind it, without one equals sign at its
front. There is none if nothing stands behind the letter. -/
def attached? : List Char → Option String
  | [] => none
  | '=' :: cs => some (String.ofList cs)
  | cs => some (String.ofList cs)

/-- Reads letters behind one hyphen. A letter whose option has a value takes all that is left. -/
def readLetters (l : Level) : List Char → Reading
  | [] => ([], some .anything)
  | c :: cs =>
    match l.short? c with
    | none => ([], none)
    | some o =>
      if o.takesValue then
        match attached? cs with
        | none => ([], some (.valueOf o))
        | some text => ([.value o text true], some .anything)
      else
        let (words, next) := readLetters l cs
        (.flag o :: words, next)

/-- Reads the word for an option. One without a value refuses an attached one. -/
def readLong (l : Level) (name : String) (value : Option String) : Reading :=
  match l.long? name, value with
  | none, _ => ([], none)
  | some o, none =>
    if o.takesValue then ([], some (.valueOf o)) else ([.flag o], some .anything)
  | some o, some text =>
    if o.takesValue then ([.value o text true], some .anything) else ([], none)

/-- How the words of a level end. -/
inductive Ending where
  /-- With the last argument. -/
  | complete
  /-- With an argument that has no place there, or without the value of the last option. -/
  | refused
  /-- In front of the level behind a command's name. -/
  | command (name : CommandName) (rest : List String)
  /-- With the word that asks for help on what stands behind it. -/
  | topics (rest : List String)
  deriving DecidableEq, Repr

/-- The word that asks for help in place of a command. -/
def helpWord : String := "help"

/-- How a level ends in an argument that belongs to no option. Only the level in front of a command's
name ends so. -/
def endingAt? (l : Level) (argument : String) (rest : List String) : Option Ending :=
  match l with
  | .behind _ => none
  | .front =>
    if argument = helpWord then some (.topics rest)
    else
      match CommandName.ofText? argument with
      | some name => some (.command name rest)
      | none => some .refused

/-- Reads the words of a level. -/
def readWords (l : Level) : Expects → List String → List Word × Ending
  | .valueOf _, [] => ([], .refused)
  | .anything, [] | .operands, [] => ([], .complete)
  | .valueOf o, argument :: rest =>
    if o.takesHyphens || Shape.of argument = .plain then
      let (words, ending) := readWords l .anything rest
      (.value o argument false :: words, ending)
    else ([], .refused)
  | .operands, argument :: rest =>
    if l = .front then ([], .refused)
    else
      let (words, ending) := readWords l .operands rest
      (.operand argument :: words, ending)
  | .anything, argument :: rest =>
    let go : Reading → List Word × Ending
      | (words, none) => (words, .refused)
      | (words, some next) =>
        let (later, ending) := readWords l next rest
        (words ++ later, ending)
    match Shape.of argument with
    | .escape => readWords l .operands rest
    | .long name value => go (readLong l name value)
    | .cluster letters => go (readLetters l letters)
    | .plain =>
      match endingAt? l argument rest with
      | some ending => ([], ending)
      | none => go ([.operand argument], some .anything)

end ByteScan.CommandLine
