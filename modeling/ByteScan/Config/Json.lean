import ByteScan.Config.Basic
import ByteScan.Json.Printer
import ByteScan.Json.Reader

/-!
# Configurations as JSON

A configuration is written as an object with one member for each setting. It is read from such an
object, in which settings may be missing and other members are passed over, or from an array of the
settings' values in their order, at the end of which some may be missing. A missing setting has its
default.

A setting may not be given twice, and its value has to be of its kind. The name of every member of the
object has to denote a text, whether it names a setting or not.
-/

namespace ByteScan

/-- The name of an output format. -/
def OutputFormat.name : OutputFormat → String
  | .text => "text"
  | .json => "json"

namespace Config

/-- The settings of a configuration, in their order. -/
inductive Field where
  | parallel
  | maxMatches
  | outputFormat
  | color
  | logLevel
  | lenientDatabase
  deriving DecidableEq, Repr

namespace Field

/-- All settings in their order. -/
def all : List Field :=
  [parallel, maxMatches, outputFormat, color, logLevel, lenientDatabase]

/-- The name of a setting. -/
def name : Field → String
  | parallel => "parallel"
  | maxMatches => "max_matches"
  | outputFormat => "output_format"
  | color => "color"
  | logLevel => "log_level"
  | lenientDatabase => "lenient_database"

end Field

/-- Different settings have different names. -/
theorem name_inj {f f' : Field} (h : f.name = f'.name) : f = f' := by
  cases f <;> cases f' <;> first | rfl | exact absurd h (by decide)

/-! ## Writing -/

/-- The value of a setting. -/
def value (c : Config) : Field → Json
  | .parallel => .ofBool c.parallel
  | .maxMatches =>
    match c.maxMatches with
    | none => .null
    | some n => .ofNat n.toNat
  | .outputFormat => .ofText c.outputFormat.name
  | .color => .ofBool c.color
  | .logLevel => .ofText c.logLevel
  | .lenientDatabase => .ofBool c.lenientDatabase

/-- A configuration as JSON. -/
def toJson (c : Config) : Json :=
  .ofMembers (Field.all.map fun f => (f.name, c.value f))

/-! ## Reading -/

/-- A truth value. -/
def bool? : Json → Option Bool
  | .atom (.bool b) => some b
  | _ => none

/-- A text. -/
def text? : Json → Option String
  | .atom (.string text) => text
  | _ => none

/-- A number of matches, or none for nothing. Only whole numbers below 2^64 count, and minus zero is
not one of them. -/
def limit? : Json → Option (Option UInt64)
  | .atom .null => some none
  | .atom (.integer (.ofNat n)) => if n < UInt64.size then some (some (UInt64.ofNat n)) else none
  | _ => none

/-- The output format of this name. -/
def formatNamed? (name : Option String) : Option OutputFormat :=
  if name = some "text" then some .text
  else if name = some "json" then some .json
  else none

/-- An output format: its name, or an object whose only member has that name and no value. -/
def format? : Json → Option OutputFormat
  | .atom (.string name) => formatNamed? name
  | .object [(name, .atom .null)] => formatNamed? name
  | _ => none

/-- A setting that is given, or its default. -/
def settingOr {α : Type} (default : α) (read? : Json → Option α) : Option Json → Option α
  | none => some default
  | some v => read? v

/-- The configuration with the given settings, and the defaults for the others. There is none if a
value is not of its kind. -/
def ofValues? (given : Field → Option Json) : Option Config := do
  let base : Config := {}
  return {
    parallel := ← settingOr base.parallel bool? (given .parallel)
    maxMatches := ← settingOr base.maxMatches limit? (given .maxMatches)
    outputFormat := ← settingOr base.outputFormat format? (given .outputFormat)
    color := ← settingOr base.color bool? (given .color)
    logLevel := ← settingOr base.logLevel text? (given .logLevel)
    lenientDatabase := ← settingOr base.lenientDatabase bool? (given .lenientDatabase) }

/-- The values that an object's members give to a setting. -/
def valuesOf (members : List (Option String × Json)) (f : Field) : List Json :=
  (members.filter (·.1 = some f.name)).map (·.2)

/-- The configuration that a JSON value stands for. -/
def ofJson? : Json → Option Config
  | .atom _ => none
  | .array items =>
    if items.length ≤ Field.all.length then ofValues? fun f => items[Field.all.idxOf f]? else none
  | .object members =>
    if members.all (·.1.isSome) && Field.all.all fun f => (valuesOf members f).length ≤ 1 then
      ofValues? fun f => (valuesOf members f).head?
    else none

/-- Reads a configuration file and checks what it says. A document that is none for a configuration
is found before a setting that cannot be used. -/
def read (text : String) : Except ConfigError Config :=
  match Json.read? text >>= ofJson? with
  | none => .error .json
  | some c => c.validate.mapError .invalid

end Config

end ByteScan
