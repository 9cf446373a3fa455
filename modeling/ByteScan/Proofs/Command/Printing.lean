import ByteScan.Proofs.Command.Running
import ByteScan.Proofs.Json.Grammar

/-!
# What a command prints before it ends

A command, as a function, comes to a text or to a fault. While it is carried out it prints that text
piece by piece, and a piece that is printed stays printed if a later step fails. Here the commands
are carried out with each print in its place. Every step that can fail comes before the prints,
which are made of what the command has come to by then, so a command that fails has printed nothing;
and under a configuration that asks for JSON, all that is printed is one document and the end of its
line.

* `Printing`: a computation that prints and may fail.
* `Environment.printing`: a command with each print in its place.
* `Printing.Prints`: all of a text is printed, or nothing is and there is a fault.
* `Environment.SelectsJson`: JSON is asked for by the command line or by its configuration file.

Results:
1. `Printing.prints_bind`: steps that print nothing may come first.
2. `Environment.prints_run`: the prints of a command make up the text that it comes to.
3. `Environment.isDocumentLine_run`: a command that is to write JSON writes one document.
4. `Environment.stdout_all_or_nothing`: both, of whole commands.
-/

namespace ByteScan

/-! ## Definitions -/

/-- A computation that prints pieces of text and may fail. What was printed before it fails stays
printed. -/
abbrev Printing := Logged String CommandError

namespace Printing

/-- Prints pieces of text, in order. -/
def print (pieces : List String) : Printing Unit :=
  .noteAll pieces

/-- A step that prints nothing. -/
def silently {α : Type} (x : CommandStep α) : Printing α :=
  .ofExcept x.result

/-- If there is a text, its pieces are printed and nothing else is; if there is a fault, nothing is
printed. -/
def Prints (p : Printing Unit) : Except CommandError String → Prop
  | .ok text => p.result = .ok () ∧ String.join p.events = text
  | .error fault => p.result = .error fault ∧ p.events = []

end Printing

open Printing (print silently)

/-- Prints a report. The end of the line behind a document is a piece of its own. -/
def Config.printReport (c : Config) (color : Bool) (r : Report) : Printing Unit :=
  match c.outputFormat with
  | .text => Printing.print [r.text color]
  | .json => Printing.print [r.toJson.pretty, "\n"]

/-- Prints a signature's summary, which has a piece for each line if it is written for people. -/
def Config.printSummary (c : Config) (color : Bool) (s : Signature) : Printing Unit :=
  match c.outputFormat with
  | .text => Printing.print (s.summaryLines color)
  | .json => Printing.print [s.summaryJson.pretty ++ "\n"]

/-- Prints what a command comes to. -/
def Config.print (c : Config) (color : Bool) : Yield → Printing Unit
  | .report r => c.printReport color r
  | .summary s => c.printSummary color s

namespace Environment

/-- Carries out a command under a configuration, with each print in its place. -/
def printingUnder (env : Environment) (c : Config) (command : Command) : Printing Unit := do
  let y ← silently (env.yield c command)
  c.print (env.color && c.color) y

/-- Carries out what a command line asks for, with each print in its place. -/
def printing (env : Environment) (a : Arguments) : Printing Unit := do
  let c ← silently (.ofExcept (env.config a))
  env.printingUnder c a.command

/-- JSON is asked for by the command line, or else by the configuration file. -/
def SelectsJson (env : Environment) (a : Arguments) : Prop :=
  a.json = true ∨ ∃ c, env.baseConfig a = .ok c ∧ c.outputFormat = .json

end Environment

/-! ## 1. Steps that print nothing -/

namespace Printing

theorem prints_bind {α : Type} (x : CommandStep α) {f : α → Printing Unit}
    {g : α → CommandStep String} (h : ∀ a, (f a).Prints (g a).result) :
    (silently x >>= f).Prints (x >>= g).result := by
  cases hx : x.result with
  | error fault =>
    have hsilent : (silently x).result = .error fault := hx
    rw [Logged.bind_of_error f hsilent, Logged.bind_of_error g hx]
    exact ⟨rfl, rfl⟩
  | ok a =>
    have hsilent : (silently x).result = .ok a := hx
    rw [Logged.bind_of_ok f hsilent, Logged.bind_of_ok g hx]
    exact h a

theorem prints_print (pieces : List String) : (print pieces).Prints (.ok (String.join pieces)) :=
  ⟨rfl, rfl⟩

end Printing

open Printing (prints_bind prints_print)

/-! ## 2. Commands -/

theorem Config.prints_report (c : Config) (color : Bool) (r : Report) :
    (c.printReport color r).Prints (.ok (c.render color r)) := by
  unfold Config.printReport Config.render
  cases c.outputFormat with
  | text => simpa [String.join] using prints_print [r.text color]
  | json => simpa [String.join] using prints_print [r.toJson.pretty, "\n"]

theorem Config.prints_summary (c : Config) (color : Bool) (s : Signature) :
    (c.printSummary color s).Prints (.ok (c.renderSummary color s)) := by
  unfold Config.printSummary Config.renderSummary
  cases c.outputFormat with
  | text => exact prints_print (s.summaryLines color)
  | json => simpa [String.join] using prints_print [s.summaryJson.pretty ++ "\n"]

theorem Config.prints_write (c : Config) (color : Bool) (y : Yield) :
    (c.print color y).Prints (.ok (c.write color y)) := by
  cases y with
  | report r => exact c.prints_report color r
  | summary s => exact c.prints_summary color s

namespace Environment

variable (env : Environment)

theorem prints_perform (c : Config) (command : Command) :
    (env.printingUnder c command).Prints (env.perform c command).result :=
  prints_bind _ fun y => c.prints_write _ y

theorem prints_run (a : Arguments) : (env.printing a).Prints (env.run a).result :=
  prints_bind _ fun c => env.prints_perform c a.command

end Environment

/-! ## 3. Documents -/

theorem getLast?_toList_append {c : Char} (s : String) {t : String}
    (h : t.toList.getLast? = some c) : (s ++ t).toList.getLast? = some c := by
  rw [String.toList_append, List.getLast?_append, h, Option.some_or]

theorem Json.getLast?_prettyMembers (members : List (Option String × Json)) :
    (Json.prettyMembers 0 members).toList.getLast? = some '\x7d' := by
  induction members with
  | nil => rfl
  | cons m ms ih =>
    rw [Json.prettyMembers]
    exact getLast?_toList_append _ ih

/-- An object is written with its closing brace at the end. -/
theorem Json.getLast?_pretty_ofMembers (members : List (String × Json)) :
    (Json.ofMembers members).pretty.toList.getLast? = some '\x7d' := by
  cases members with
  | nil => rfl
  | cons m ms =>
    rw [Json.ofMembers, List.map_cons, Json.pretty, Json.prettyAt]
    exact getLast?_toList_append _ (Json.getLast?_prettyMembers _)

/-- The text is one document, which ends in a closing brace, and the end of its line. -/
def IsDocumentLine (text : String) : Prop :=
  ∃ (v : Json) (document : String), v.Writes document ∧
    document.toList.getLast? = some '\x7d' ∧ text = document ++ "\n"

theorem isDocumentLine_pretty (members : List (String × Json)) :
    IsDocumentLine ((Json.ofMembers members).pretty ++ "\n") :=
  ⟨.ofMembers members, _, Json.writes_pretty _, Json.getLast?_pretty_ofMembers members, rfl⟩

theorem Config.isDocumentLine_render {c : Config} (h : c.outputFormat = .json) (color : Bool)
    (r : Report) : IsDocumentLine (c.render color r) := by
  rw [render, h]
  exact isDocumentLine_pretty _

theorem Config.isDocumentLine_renderSummary {c : Config} (h : c.outputFormat = .json) (color : Bool)
    (s : Signature) : IsDocumentLine (c.renderSummary color s) := by
  rw [renderSummary, h]
  exact isDocumentLine_pretty _

theorem Config.isDocumentLine_write {c : Config} (h : c.outputFormat = .json) (color : Bool)
    (y : Yield) : IsDocumentLine (c.write color y) := by
  cases y with
  | report r => exact isDocumentLine_render h color r
  | summary s => exact isDocumentLine_renderSummary h color s

namespace Environment

variable {env : Environment} {a : Arguments} {c : Config} {text : String}

theorem outputFormat_of_selectsJson (hselects : env.SelectsJson a) (h : env.config a = .ok c) :
    c.outputFormat = .json := by
  obtain ⟨base, hbase, -, rfl⟩ := config_eq_ok.mp h
  obtain hflag | ⟨base', hbase', hformat⟩ := hselects
  · exact if_pos hflag
  · obtain rfl : base = base' := Except.ok.inj (hbase.symm.trans hbase')
    show (if a.json = true then OutputFormat.json else base.outputFormat) = .json
    rw [hformat, ite_self]

theorem isDocumentLine_run (hselects : env.SelectsJson a) (h : (env.run a).result = .ok text) :
    IsDocumentLine text := by
  obtain ⟨c, hc, hperform⟩ := Logged.result_bind_eq_ok.mp h
  obtain ⟨y, -, ⟨⟩⟩ := Logged.result_bind_eq_ok.mp hperform
  exact Config.isDocumentLine_write (outputFormat_of_selectsJson hselects hc) _ y

/-! ## 4. Whole commands -/

variable (env a)

/-- The pieces that a command prints make up what it has written in the end, and it fails when it
does. If it fails, no piece was printed. If it does not and JSON was asked for, all that was printed
is one document and the end of its line. -/
theorem stdout_all_or_nothing :
    String.join (env.printing a).events = (env.execute a).stdout ∧
      ((env.execute a).fault = match (env.printing a).result with
        | .ok () => none
        | .error fault => some fault) ∧
      ((env.execute a).fault.isSome = true →
        (env.printing a).events = [] ∧ (env.execute a).stdout = "") ∧
      ((env.execute a).fault = none → env.SelectsJson a →
        IsDocumentLine (env.execute a).stdout) := by
  have hprints := env.prints_run a
  cases hrun : (env.run a).result with
  | error fault =>
    rw [hrun] at hprints
    obtain ⟨hresult, hevents⟩ := hprints
    obtain ⟨hstdout, hfault⟩ := execute_of_error hrun
    rw [hresult, hevents, hstdout, hfault]
    refine ⟨rfl, rfl, fun _ => ⟨rfl, rfl⟩, ?_⟩
    rintro ⟨⟩
  | ok text =>
    rw [hrun] at hprints
    obtain ⟨hresult, hevents⟩ := hprints
    obtain ⟨hstdout, hfault⟩ := execute_of_ok hrun
    rw [hresult, hevents, hstdout, hfault]
    refine ⟨rfl, rfl, ?_, fun _ hselects => isDocumentLine_run hselects hrun⟩
    rintro ⟨⟩

/-- JSON is asked for by a configuration file: a search that finds its signature writes a document,
and one for half a byte writes nothing. -/
theorem stdout_all_or_nothing_90 :
    let env : Environment :=
      { files := fun path =>
          if path = "json.json" then .ok "\x7b\"output_format\": \"json\"\x7d".toUTF8.data.toList
          else .error .notFound
        stdin := [0x90, 0x90] }
    let a : String → Arguments := fun signature =>
      { config := some "json.json", command := .find signature 0 {} }
    IsDocumentLine (env.execute (a "90")).stdout ∧ (env.execute (a "9")).fault.isSome = true ∧
      (env.printing (a "9")).events = [] := by
  intro env a
  have hfault : (env.execute (a "90")).fault = none := by decide +kernel
  have hformat : (env.baseConfig (a "90")).map Config.outputFormat = .ok .json := by decide +kernel
  have hselects : env.SelectsJson (a "90") := by
    cases hbase : env.baseConfig (a "90") with
    | error fault =>
      rw [hbase] at hformat
      cases hformat
    | ok c =>
      rw [hbase] at hformat
      exact .inr ⟨c, hbase, Except.ok.inj hformat⟩
  have hhalf : (env.execute (a "9")).fault.isSome = true := by decide +kernel
  obtain ⟨-, -, -, hdocument⟩ := env.stdout_all_or_nothing (a "90")
  obtain ⟨-, -, hnothing, -⟩ := env.stdout_all_or_nothing (a "9")
  exact ⟨hdocument hfault hselects, hhalf, (hnothing hhalf).1⟩

end Environment

end ByteScan
