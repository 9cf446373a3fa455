import ByteScan.Event
import ByteScan.Search.Cursor

/-!
# Scripts over several cursors

A script works on a list of cursors over the same region and signature. The list begins with one
cursor at the first match; a step may add another, at the place of an existing one (`clone`) or at
the first match again (`restart`). All other steps move the cursor that they name, except `count` and
`last`, which run to the end on a copy of it.

`Script.run` returns the answers of the steps and the starts of all matches that were met on the way,
copies included. Each of these is noted (`Script.events`).
-/

namespace ByteScan

namespace Script

/-- What a step does with its cursor. -/
inductive Action where
  /-- The next position. -/
  | next
  /-- The position after `n` further ones. -/
  | nth (n : Nat)
  /-- The next `n` positions. -/
  | take (n : Nat)
  /-- The next position at `bound` or above. -/
  | skipBelow (bound : Int64)
  /-- All remaining positions. -/
  | collect
  /-- How many positions remain. -/
  | count
  /-- The last of the remaining positions. -/
  | last
  /-- Adds a cursor at the same place. -/
  | clone
  /-- Adds a cursor at the first match. -/
  | restart
  deriving DecidableEq, Repr

/-- A step: an action on the cursor with this number. -/
structure Step where
  cursor : Nat
  action : Action
  deriving DecidableEq, Repr

/-- The answer to a step. -/
inductive Answer where
  | position (p : Option Int64)
  | positions (ps : List Int64)
  | count (n : Nat)
  /-- The number of the cursor that was added. -/
  | cursor (number : Nat)
  deriving DecidableEq, Repr

/-- What a step on one cursor comes to. -/
structure Effect where
  answer : Answer
  /-- The starts that were met. -/
  met : List Nat := []
  /-- The cursor that the step named, after it. -/
  moved : Cursor
  /-- The cursor that the step adds. -/
  added : Option Cursor := none

/-- The effect of an action on a cursor, when there are `cursors` of them so far. -/
def effect (s : Signature) (region : List UInt8) (cursors : Nat) (c : Cursor) : Action → Effect
  | .next =>
    let (met, moved) := c.take s 1
    { answer := .position (met.head?.map s.position), met, moved }
  | .nth n =>
    let (met, moved) := c.take s (n + 1)
    { answer := .position (met[n]?.map s.position), met, moved }
  | .take n =>
    let (met, moved) := c.take s n
    { answer := .positions (met.map s.position), met, moved }
  | .skipBelow bound =>
    let (met, moved) := c.takeTo s bound
    { answer := .position ((met.map s.position).find? (bound ≤ ·)), met, moved }
  | .collect =>
    let (met, moved) := c.drain s
    { answer := .positions (met.map s.position), met, moved }
  | .count =>
    let met := (c.drain s).1
    { answer := .count met.length, met, moved := c }
  | .last =>
    let met := (c.drain s).1
    { answer := .position (met.getLast?.map s.position), met, moved := c }
  | .clone => { answer := .cursor cursors, moved := c, added := some c }
  | .restart => { answer := .cursor cursors, moved := c, added := some { rest := region } }

/-- Runs steps on a list of cursors. A step on a cursor that does not exist finds nothing. -/
def runFrom (s : Signature) (region : List UInt8) (cursors : List Cursor) :
    List Step → List Answer × List Nat
  | [] => ([], [])
  | step :: steps =>
    match cursors[step.cursor]? with
    | none =>
      let (answers, met) := runFrom s region cursors steps
      (.position none :: answers, met)
    | some c =>
      let e := effect s region cursors.length c step.action
      let (answers, met) :=
        runFrom s region (cursors.set step.cursor e.moved ++ e.added.toList) steps
      (e.answer :: answers, e.met ++ met)

/-- Runs a script, which begins with one cursor at the first match. -/
def run (s : Signature) (region : List UInt8) (steps : List Step) : List Answer × List Nat :=
  runFrom s region [{ rest := region }] steps

/-- What a script notes: each start that it meets. -/
def events (s : Signature) (region : List UInt8) (steps : List Step) : List Event :=
  (run s region steps).2.map (.matched s)

end Script

end ByteScan
