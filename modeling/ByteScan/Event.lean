import ByteScan.Database.Basic
import ByteScan.LogLevel
import ByteScan.Logged
import ByteScan.Text.Quoted

/-!
# Events

What the library notes while it works. An event is a value; its level and its message are functions
of it, so that a log can be compared event by event and shown in part.
-/

namespace ByteScan

/-- Something worth noting. -/
inductive Event where
  /-- A signature was built. -/
  | built (signature : Signature)
  /-- A match was met at this start while all matches were wanted. -/
  | matched (signature : Signature) (start : Nat)
  /-- A database entry was found this many times. -/
  | entryHit (name : String) (count : Nat)
  /-- A line of a database file has a key that means nothing. -/
  | ignoredKey (line : Nat) (key : String)
  /-- A bad value of `ep_only` was taken for false. -/
  | assumedFalse (fault : DatabaseError)
  /-- A bad entry of a database file was left out. -/
  | skippedEntry (fault : DatabaseError)
  /-- A database file was read. -/
  | parsed (entries : Nat)
  /-- A command has read its database. -/
  | loaded (entries : Nat) (path : String)
  /-- A command has read the bytes to search. -/
  | read (bytes : Nat) (source : String)
  deriving DecidableEq, Repr

namespace Event

/-- The level from which on an event is shown. -/
def level : Event → LogLevel
  | built _ | ignoredKey .. | parsed _ | read .. => .debug
  | matched .. | entryHit .. => .trace
  | assumedFalse _ | skippedEntry _ => .warn
  | loaded .. => .info

/-- The message for an event. -/
def message : Event → String
  | built s => s!"Built signature '{s.text}' (anchor at {s.anchorIndex})"
  | matched s start => s!"Match for '{s.text}' at 0x{Text.lowerHex start}"
  | entryHit name count => s!"'{name}' hit {count} time(s)"
  | ignoredKey line key => s!"Line {line}: ignoring key '{key}'"
  | assumedFalse fault => s!"{fault.message}, treating as false"
  | skippedEntry fault => s!"Skipping entry: {fault.message}"
  | parsed entries => s!"Parsed signature database with {entries} entries"
  | loaded entries path => s!"Loaded {entries} signature(s) from {Text.quoted path}"
  | read bytes source => s!"Read {bytes} bytes from {source}"

/-- A line of the log: the level's name and the message. -/
def text (e : Event) : String :=
  s!"{e.level.name} {e.message}"

end Event

/-- A construction of a signature with what it notes: a signature that was built. -/
def Signature.noted (result : Except SignatureError Signature) :
    Logged Event SignatureError Signature :=
  match result with
  | .ok s => ⟨[.built s], .ok s⟩
  | .error e => ⟨[], .error e⟩

theorem Signature.result_noted (result : Except SignatureError Signature) :
    (Signature.noted result).result = result := by
  cases result with
  | error e => rfl
  | ok s => rfl

theorem Signature.mem_events_noted {result : Except SignatureError Signature} {e : Event} :
    e ∈ (Signature.noted result).events ↔ ∃ s, result = .ok s ∧ e = .built s := by
  cases result with
  | error _ => simp [Signature.noted]
  | ok s => simp [Signature.noted]

end ByteScan
