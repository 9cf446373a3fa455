import ByteScan.Command.Run
import ByteScan.CommandLine.Help

/-!
# The program

The program reads its command line and the files that this names, carries out the command, and writes
what can be seen of it. Standard input is read only for a command that has no other fault.
-/

namespace ByteScan

/-- The files that a command line names. -/
def Arguments.paths (a : Arguments) : List String :=
  a.config.toList ++ a.command.paths

/-- Whether a command searches standard input. -/
def Arguments.readsStdin (a : Arguments) : Bool :=
  a.command.target?.any (·.input.isNone)

/-- Whether a number is the given error number or its negation. -/
def isErrorNumber (number code : UInt32) : Bool :=
  code == number || code == 0 - number

/-- The reason why the system does not read a file. -/
def FileError.ofSystem (path : String) : IO.Error → FileError
  | .noFileOrDirectory .. => .notFound
  | .permissionDenied .. => .other "Permission denied (os error 13)"
  | .inappropriateType _ code _ => if isErrorNumber 21 code then .isDirectory else .notDirectory
  | .invalidArgument _ code reason =>
    if path.toList.contains '\x00' then .invalidPath
    else if isErrorNumber 36 code then .nameTooLong
    else .other reason
  | e => .other (toString e)

/-- Reads a file. -/
def readFile (path : String) : IO (String × Except FileError (List UInt8)) := do
  match ← (IO.FS.readBinFile path).toBaseIO with
  | .ok bytes => return (path, .ok bytes.data.toList)
  | .error e => return (path, .error (.ofSystem path e))

/-- Reads a stream to its end. -/
partial def readAll (stream : IO.FS.Stream) (bytes : ByteArray) : IO ByteArray := do
  let more ← stream.read 65536
  if more.isEmpty then return bytes else readAll stream (bytes ++ more)

/-- What a command line's files and the terminal are. Standard input is left empty. -/
def Environment.ofSystem (a : Arguments) : IO Environment := do
  let found ← a.paths.mapM readFile
  let stdout ← IO.getStdout
  let color := (← stdout.isTty) && (← IO.getEnv "NO_COLOR").isNone
  return { files := fun path => (found.lookup path).getD (.error .notFound), color }

/-- Writes what can be seen of a command. -/
def Outcome.write (o : Outcome) : IO UInt32 := do
  for event in o.log do
    IO.eprintln event.text
  IO.print o.stdout
  if let some fault := o.fault then
    IO.eprintln s!"[!] {fault.message}"
  return o.exitCode.toUInt32

/-- Reads the command line and carries out the command. -/
def program (arguments : List String) : IO UInt32 := do
  match CommandLine.parse arguments with
  | .error refusal =>
    if refusal = .usage then IO.eprint refusal.text else IO.print refusal.text
    return refusal.exitCode.toUInt32
  | .ok a =>
    let env ← Environment.ofSystem a
    let attempt := env.execute a
    if attempt.fault.isSome || !a.readsStdin then attempt.write
    else
      let stdin ← readAll (← IO.getStdin) .empty
      Outcome.write ({ env with stdin := stdin.data.toList }.execute a)

end ByteScan

def main (arguments : List String) : IO UInt32 :=
  ByteScan.program arguments
