import ByteScan.CommandLine.Parser

/-!
# Help on the command line

The texts that are written in place of carrying out a command.
-/

namespace ByteScan.CommandLine

/-- What a command is for. -/
def CommandName.purpose : CommandName → String
  | find => "search for a signature such as \"55 8B EC ?? ?? C3\""
  | masked => "search for bytes under a mask of x and ?"
  | database => "search for every signature of a database file"
  | inspect => "show what a signature is made of"

/-- What an option is for. -/
def Opt.purpose : Opt → String
  | logLevel => "off, error, warn, info, debug or trace"
  | verbose => "raise the log level by one step"
  | config => "read the configuration from this file"
  | noColor => "write without colours"
  | json => "write JSON"
  | offset => "add this to every position"
  | input => "search this file instead of standard input"
  | all => "report every match instead of the first"
  | maxMatches => "report at most so many matches of a signature"
  | bytes => "the bytes, as in \"55 00 C3\" or 5500C3"
  | mask => "for each byte x where it counts and ? where it does not"
  | database => "the database file"
  | lenient => "leave out bad entries"
  | sequential => "search for one signature after another"
  | help => "show this text"
  | version => "show the version"

/-- The ways to write an option. -/
def Opt.usage (o : Opt) : String :=
  let letter := o.letter?.elim "    " fun c => String.ofList ['-', c, ',', ' ']
  letter ++ "--" ++ o.longName ++ if o.takesValue then " <value>" else ""

/-- A line of help, in which what is explained takes a column of its own. -/
def helpLine (subject explanation : String) : String :=
  "  " ++ subject ++ String.ofList (List.replicate (26 - subject.length) ' ') ++ "  " ++
    explanation ++ "\n"

/-- The options of a level, one a line. -/
def Level.help (l : Level) : String :=
  String.join (l.options.map fun o => helpLine o.usage o.purpose)

/-- A command and its own options. -/
def CommandName.help (c : CommandName) : String :=
  let operand := if Level.operandCount (.behind c) = 0 then "" else " <signature>"
  let own := (Level.behind c).options.filter fun o => o ∉ Level.common
  "\n" ++ c.text ++ operand ++ ": " ++ c.purpose ++ "\n" ++
    String.join (own.map fun o => helpLine o.usage o.purpose)

/-- The help on the whole command line. -/
def helpText : String :=
  "Usage: bytescan [options] <command> [options]\n\n" ++ Level.help .front ++
    String.join (CommandName.all.map CommandName.help)

/-- The version. -/
def versionText : String := "bytescan 1.0.0\n"

/-- The text for a refused command line. -/
def Refusal.text : Refusal → String
  | usage => "This is no command line for bytescan.\n\n" ++ helpText
  | help => helpText
  | version => versionText

end ByteScan.CommandLine
