import ByteScan.Proofs.Search.Series
import ByteScan.Search.Script

/-!
# A script only counts

A script moves cursors, each with its own rest of the region. This module says the same without any
cursor: there is one list of all starts, and all that is kept of a cursor is how many of them it has
given. What it gives next is the list behind that many, whatever the script does to other cursors.

* `Action.pulled`, `Action.answer`: what an action takes from the starts that are left, and what it
  answers.
* `Step.answer`, `Step.pulled`, `Step.advance`: a step on the numbers of starts that the cursors have
  given.
* `Script.replay`: steps one after another.

Results:
1. `effect_met`, `effect_answer`, `remaining_moved`: what an action meets, answers and leaves.
   `runFrom_eq_replay`: from there a whole script, by the relation `Tracks` between cursors and
   numbers.
2. `replay_congr`: a script does not depend on the cursors that it does not name.
   `getElem?_advance_of_ne`: a step leaves them where they are. `le_countsAfter`: no cursor goes back.
3. `run_eq_replay`: the answers of a script, the starts that it meets and its events, with what
   follows for the other cursors and for a cursor at its end.
-/

namespace ByteScan

/-! ## Definitions -/

namespace Script

namespace Action

/-- The starts that an action pulls, `left` being those that its cursor has still to give. -/
def pulled (report : Nat → Int64) (left : List Nat) : Action → List Nat
  | .next => left.take 1
  | .nth n => left.take (n + 1)
  | .take n => left.take n
  | .skipBelow bound => left.take (left.findIdx (fun start => bound ≤ report start) + 1)
  | .collect | .count | .last => left
  | .clone | .restart => []

/-- What an action answers, when there are `cursors` of them. -/
def answer (report : Nat → Int64) (left : List Nat) (cursors : Nat) : Action → Answer
  | .next => .position (left.head?.map report)
  | .nth n => .position (left[n]?.map report)
  | .take n => .positions ((left.take n).map report)
  | .skipBelow bound => .position ((left.map report).find? (bound ≤ ·))
  | .collect => .positions (left.map report)
  | .count => .count left.length
  | .last => .position (left.getLast?.map report)
  | .clone | .restart => .cursor cursors

/-- Whether an action pulls from a copy of its cursor. -/
def onCopy : Action → Bool
  | .count | .last => true
  | _ => false

/-- How many starts the cursor itself gives. -/
def given (report : Nat → Int64) (left : List Nat) (action : Action) : Nat :=
  if action.onCopy then 0 else (action.pulled report left).length

/-- How many starts a cursor that the action adds counts as given. A clone begins where its original
stands, which has given `n`. -/
def added? (n : Nat) : Action → Option Nat
  | .clone => some n
  | .restart => some 0
  | _ => none

end Action

section Definitions

variable (report : Nat → Int64) (all counts : List Nat)

/-- The answer to a step. `counts` says of each cursor how many starts of `all` it has given. -/
def Step.answer (step : Step) : Answer :=
  match counts[step.cursor]? with
  | none => .position none
  | some n => step.action.answer report (all.drop n) counts.length

/-- The starts that a step pulls. -/
def Step.pulled (step : Step) : List Nat :=
  match counts[step.cursor]? with
  | none => []
  | some n => step.action.pulled report (all.drop n)

/-- How many starts each cursor has given after a step. -/
def Step.advance (step : Step) : List Nat :=
  match counts[step.cursor]? with
  | none => counts
  | some n =>
    counts.set step.cursor (n + step.action.given report (all.drop n)) ++
      (step.action.added? n).toList

theorem Step.advance_of_none {step : Step} (h : counts[step.cursor]? = none) :
    step.advance report all counts = counts := by
  rw [Step.advance, h]

theorem Step.advance_of_some {step : Step} {n : Nat} (h : counts[step.cursor]? = some n) :
    step.advance report all counts =
      counts.set step.cursor (n + step.action.given report (all.drop n)) ++
        (step.action.added? n).toList := by
  rw [Step.advance, h]

/-- How many starts each cursor has given after some steps. -/
def countsAfter (steps : List Step) : List Nat :=
  steps.foldl (fun counts step => step.advance report all counts) counts

end Definitions

/-- The answers to some steps, and the starts that they pull. -/
def replay (report : Nat → Int64) (all counts : List Nat) : List Step → List Answer × List Nat
  | [] => ([], [])
  | step :: steps =>
    let (answers, met) := replay report all (step.advance report all counts) steps
    (step.answer report all counts :: answers, step.pulled report all counts ++ met)

end Script

/-! ## 1. Cursors and numbers -/

namespace Cursor

theorem upTo_eq_take (enough : Nat → Bool) (starts : List Nat) :
    upTo enough starts = starts.take (starts.findIdx enough + 1) := by
  induction starts with
  | nil => rfl
  | cons start starts ih =>
    rw [upTo, List.findIdx_cons]
    cases enough start with
    | true => rfl
    | false =>
      rw [if_neg Bool.false_ne_true, ih]
      rfl

/-- The first start that is enough is among those up to it. -/
theorem find?_upTo (enough : Nat → Bool) (starts : List Nat) :
    (upTo enough starts).find? enough = starts.find? enough := by
  induction starts with
  | nil => rfl
  | cons start starts ih =>
    rw [upTo]
    cases h : enough start with
    | true => simp [h]
    | false => simp [h, ih]

section TakeTo

variable (s : Signature) (c : Cursor)

theorem takeTo_fst (bound : Int64) :
    (c.takeTo s bound).1 = upTo (fun start => bound ≤ s.position start) (c.remaining s) := by
  have hlen := c.length_remaining_le s
  rw [takeTo, pull_fst, stepBound, List.take_of_length_le (by omega)]

/-- What is left behind a pull is what remained, without the starts that were met. -/
theorem remaining_pull_length (enough : Nat → Bool) (steps : Nat) :
    (c.pull s enough steps []).2.remaining s =
      (c.remaining s).drop (c.pull s enough steps []).1.length := by
  rw [remaining_pull, pull_fst]

theorem remaining_take_length (n : Nat) :
    (c.take s n).2.remaining s = (c.remaining s).drop (c.take s n).1.length :=
  c.remaining_pull_length s (fun _ => false) n

theorem remaining_takeTo_length (bound : Int64) :
    (c.takeTo s bound).2.remaining s = (c.remaining s).drop (c.takeTo s bound).1.length :=
  c.remaining_pull_length s (fun start => bound ≤ s.position start) c.stepBound

end TakeTo

end Cursor

namespace Script

section Effect

variable (s : Signature) (region : List UInt8) (cursors : Nat) (c : Cursor)

theorem effect_met (action : Action) :
    (effect s region cursors c action).met = action.pulled s.position (c.remaining s) := by
  cases action with
  | next => exact c.take_fst s 1
  | nth n => exact c.take_fst s (n + 1)
  | take n => exact c.take_fst s n
  | skipBelow bound =>
    show (c.takeTo s bound).1 = _
    rw [Cursor.takeTo_fst, Cursor.upTo_eq_take]
    rfl
  | collect => exact c.drain_fst s
  | count => exact c.drain_fst s
  | last => exact c.drain_fst s
  | clone => rfl
  | restart => rfl

theorem effect_answer (action : Action) :
    (effect s region cursors c action).answer =
      action.answer s.position (c.remaining s) cursors := by
  cases action with
  | next =>
    show Answer.position ((c.take s 1).1.head?.map s.position) = _
    rw [Cursor.take_fst, List.head?_take, if_neg Nat.one_ne_zero]
    rfl
  | nth n =>
    show Answer.position ((c.take s (n + 1)).1[n]?.map s.position) = _
    rw [Cursor.take_fst, List.getElem?_take_of_lt n.lt_succ_self]
    rfl
  | take n =>
    show Answer.positions ((c.take s n).1.map s.position) = _
    rw [Cursor.take_fst]
    rfl
  | skipBelow bound =>
    show Answer.position (((c.takeTo s bound).1.map s.position).find? (bound ≤ ·)) = _
    rw [Cursor.takeTo_fst, List.find?_map, Action.answer, List.find?_map]
    -- the pull stops at the position that is asked for, so it is found among what was met
    congr 2
    exact Cursor.find?_upTo _ _
  | collect =>
    show Answer.positions ((c.drain s).1.map s.position) = _
    rw [Cursor.drain_fst]
    rfl
  | count =>
    show Answer.count (c.drain s).1.length = _
    rw [Cursor.drain_fst]
    rfl
  | last =>
    show Answer.position ((c.drain s).1.getLast?.map s.position) = _
    rw [Cursor.drain_fst]
    rfl
  | clone => rfl
  | restart => rfl

/-- An action leaves the starts that it has not pulled, and all of them if it pulls from a copy. -/
theorem remaining_moved (action : Action) :
    (effect s region cursors c action).moved.remaining s =
      (c.remaining s).drop (action.given s.position (c.remaining s)) := by
  rw [Action.given, ← effect_met s region cursors c action]
  cases action with
  | next => exact c.remaining_take_length s 1
  | nth n => exact c.remaining_take_length s (n + 1)
  | take n => exact c.remaining_take_length s n
  | skipBelow bound => exact c.remaining_takeTo_length s bound
  | collect => exact c.remaining_take_length s c.stepBound
  | count => rfl
  | last => rfl
  | clone => rfl
  | restart => rfl

theorem remaining_added {n : Nat} (h : c.remaining s = (s.walk region 0).drop n)
    (action : Action) :
    (effect s region cursors c action).added.toList.map (Cursor.remaining s) =
      (action.added? n).toList.map ((s.walk region 0).drop ·) := by
  cases action with
  | clone => exact congrArg (fun left => [left]) h
  | restart => exact congrArg (fun left => [left]) (Cursor.remaining_start s region)
  | _ => rfl

end Effect

section Simulation

variable {s : Signature} {region : List UInt8}

/-- Each of the cursors has still to give what lies behind the number written down for it. -/
def Tracks (s : Signature) (region : List UInt8) (cursors : List Cursor) (counts : List Nat) :
    Prop :=
  cursors.map (Cursor.remaining s) = counts.map ((s.walk region 0).drop ·)

theorem tracks_start (s : Signature) (region : List UInt8) :
    Tracks s region [{ rest := region }] [0] :=
  congrArg (fun left => [left]) (Cursor.remaining_start s region)

theorem Tracks.length_eq {cursors : List Cursor} {counts : List Nat}
    (h : Tracks s region cursors counts) : cursors.length = counts.length := by
  simpa [Tracks] using congrArg List.length h

theorem Tracks.getElem? {cursors : List Cursor} {counts : List Nat}
    (h : Tracks s region cursors counts) (i : Nat) :
    cursors[i]?.map (Cursor.remaining s) = counts[i]?.map ((s.walk region 0).drop ·) := by
  rw [← List.getElem?_map, ← List.getElem?_map, h]

theorem Tracks.set_append {cursors added : List Cursor} {counts counts' : List Nat} {c : Cursor}
    {n : Nat} (h : Tracks s region cursors counts) (i : Nat)
    (hc : c.remaining s = (s.walk region 0).drop n) (hadded : Tracks s region added counts') :
    Tracks s region (cursors.set i c ++ added) (counts.set i n ++ counts') := by
  unfold Tracks at h hadded ⊢
  rw [List.map_append, List.map_append, List.map_set, List.map_set, h, hc, hadded]

/-- A script with cursors and a script with their numbers come to the same. -/
theorem runFrom_eq_replay (steps : List Step) (cursors : List Cursor) (counts : List Nat)
    (h : Tracks s region cursors counts) :
    runFrom s region cursors steps = replay s.position (s.walk region 0) counts steps := by
  induction steps generalizing cursors counts with
  | nil => rfl
  | cons step steps ih =>
    have hget := h.getElem? step.cursor
    cases hcount : counts[step.cursor]? with
    | none =>
      have hnone : cursors[step.cursor]? = none := by simpa [hcount] using hget
      rw [runFrom, hnone, replay, ih cursors counts h]
      simp [Step.answer, Step.pulled, Step.advance, hcount]
    | some n =>
      obtain ⟨c, hc, hleft⟩ : ∃ c, cursors[step.cursor]? = some c ∧
          c.remaining s = (s.walk region 0).drop n := by simpa [hcount] using hget
      -- the step moves the cursor and its number by the same starts, so they still track each other
      have hmoved := remaining_moved s region cursors.length c step.action
      rw [hleft, List.drop_drop] at hmoved
      have hnext := h.set_append step.cursor hmoved
        (remaining_added s region cursors.length c hleft step.action)
      rw [runFrom, hc, replay]
      simp only [ih _ _ hnext]
      rw [effect_answer, effect_met, hleft, h.length_eq]
      simp [Step.answer, Step.pulled, Step.advance, hcount]

end Simulation

/-! ## 2. Numbers alone -/

section Counts

variable (report : Nat → Int64) (all : List Nat) {counts : List Nat}

theorem replay_append (steps more : List Step) (counts : List Nat) :
    replay report all counts (steps ++ more) =
      ((replay report all counts steps).1 ++
          (replay report all (countsAfter report all counts steps) more).1,
        (replay report all counts steps).2 ++
          (replay report all (countsAfter report all counts steps) more).2) := by
  induction steps generalizing counts with
  | nil => rfl
  | cons step steps ih =>
    rw [List.cons_append, replay, ih]
    simp [replay, countsAfter]

theorem countsAfter_append (steps more : List Step) (counts : List Nat) :
    countsAfter report all counts (steps ++ more) =
      countsAfter report all (countsAfter report all counts steps) more :=
  List.foldl_append

theorem length_replay (steps : List Step) (counts : List Nat) :
    (replay report all counts steps).1.length = steps.length := by
  induction steps generalizing counts with
  | nil => rfl
  | cons step steps ih => simp [replay, ih]

theorem getLast?_replay_concat (counts : List Nat) (steps : List Step) (step : Step) :
    (replay report all counts (steps ++ [step])).1.getLast? =
      some (step.answer report all (countsAfter report all counts steps)) := by
  rw [replay_append]
  simp [replay]

/-- Two records of the same cursors that may differ only in what the cursor `i` has given. -/
def AgreeBut (i : Nat) (counts counts' : List Nat) : Prop :=
  counts.length = counts'.length ∧ ∀ j, j ≠ i → counts[j]? = counts'[j]?

/-- A step on another cursor answers and pulls the same, and leaves the difference where it was. -/
theorem AgreeBut.step {i : Nat} {counts' : List Nat} (h : AgreeBut i counts counts') {step : Step}
    (hstep : step.cursor ≠ i) :
    step.answer report all counts = step.answer report all counts' ∧
      step.pulled report all counts = step.pulled report all counts' ∧
      AgreeBut i (step.advance report all counts) (step.advance report all counts') := by
  obtain ⟨hlen, hsame⟩ := h
  have hcursor := hsame step.cursor hstep
  refine ⟨?_, ?_, ?_⟩
  · rw [Step.answer, Step.answer, hcursor, hlen]
  · rw [Step.pulled, Step.pulled, hcursor]
  · cases hcount : counts'[step.cursor]? with
    | none =>
      rw [Step.advance_of_none report all counts' hcount,
        Step.advance_of_none report all counts (hcursor.trans hcount)]
      exact ⟨hlen, hsame⟩
    | some n =>
      rw [Step.advance_of_some report all counts' hcount,
        Step.advance_of_some report all counts (hcursor.trans hcount)]
      refine ⟨by simp [hlen], fun j hj => ?_⟩
      -- the cursors that the step adds have the same numbers in both records
      simp only [List.getElem?_append, List.getElem?_set, List.length_set, hlen, hsame j hj]

theorem replay_congr {i : Nat} {counts' : List Nat} (h : AgreeBut i counts counts')
    {steps : List Step} (hsteps : ∀ step ∈ steps, step.cursor ≠ i) :
    replay report all counts steps = replay report all counts' steps := by
  induction steps generalizing counts counts' with
  | nil => rfl
  | cons step steps ih =>
    obtain ⟨hfirst, hrest⟩ := List.forall_mem_cons.mp hsteps
    obtain ⟨hanswer, hpulled, hagree⟩ := h.step report all hfirst
    rw [replay, replay, hanswer, hpulled, ih hagree hrest]

/-- A step that adds no cursor changes only what is written down for the cursor that it names. -/
theorem agreeBut_advance {step : Step} (hclone : step.action ≠ .clone)
    (hrestart : step.action ≠ .restart) :
    AgreeBut step.cursor (step.advance report all counts) counts := by
  have hadded : ∀ n, step.action.added? n = none := by
    intro n
    cases h : step.action with
    | clone => exact absurd h hclone
    | restart => exact absurd h hrestart
    | _ => rfl
  cases h : counts[step.cursor]? with
  | none =>
    rw [Step.advance_of_none report all counts h]
    exact ⟨rfl, fun _ _ => rfl⟩
  | some n =>
    rw [Step.advance_of_some report all counts h, hadded, Option.toList_none, List.append_nil]
    exact ⟨List.length_set, fun j hj => List.getElem?_set_ne hj.symm⟩

/-- So a step that adds no cursor changes no answer but its own, as long as its cursor is not named
again. -/
theorem eraseIdx_replay {steps more : List Step} {step : Step} (hclone : step.action ≠ .clone)
    (hrestart : step.action ≠ .restart) (hmore : ∀ later ∈ more, later.cursor ≠ step.cursor) :
    (replay report all counts (steps ++ step :: more)).1.eraseIdx steps.length =
      (replay report all counts (steps ++ more)).1 := by
  have hagree : AgreeBut step.cursor
      (step.advance report all (countsAfter report all counts steps))
      (countsAfter report all counts steps) := agreeBut_advance report all hclone hrestart
  rw [replay_append, replay_append, replay, ← length_replay report all steps counts]
  simp only [replay_congr report all hagree hmore]
  rw [List.eraseIdx_append_of_length_le (Nat.le_refl _), Nat.sub_self, List.eraseIdx_cons_zero]

/-- A step, be it one that adds a cursor, leaves the cursors where they are that it does not name. -/
theorem getElem?_advance_of_ne {i n : Nat} (h : counts[i]? = some n) {step : Step}
    (hne : i ≠ step.cursor) : (step.advance report all counts)[i]? = some n := by
  have hlen : i < counts.length := (List.getElem?_eq_some_iff.mp h).1
  cases hcount : counts[step.cursor]? with
  | none => rw [Step.advance_of_none report all counts hcount, h]
  | some k =>
    rw [Step.advance_of_some report all counts hcount,
      List.getElem?_append_left (by simpa using hlen), List.getElem?_set_ne hne.symm, h]

/-- A step takes nothing back that a cursor has given. -/
theorem le_advance {i n : Nat} (h : counts[i]? = some n) (step : Step) :
    ∃ m, (step.advance report all counts)[i]? = some m ∧ n ≤ m := by
  by_cases hne : i ≠ step.cursor
  · exact ⟨n, getElem?_advance_of_ne report all h hne, Nat.le_refl n⟩
  · obtain rfl : i = step.cursor := Classical.not_not.mp hne
    have hlen : step.cursor < counts.length := (List.getElem?_eq_some_iff.mp h).1
    rw [Step.advance_of_some report all counts h, List.getElem?_append_left (by simpa using hlen)]
    exact ⟨_, List.getElem?_set_self hlen, Nat.le_add_right n _⟩

theorem le_countsAfter {i n : Nat} (h : counts[i]? = some n) (steps : List Step) :
    ∃ m, (countsAfter report all counts steps)[i]? = some m ∧ n ≤ m := by
  induction steps generalizing counts n with
  | nil => exact ⟨n, h, Nat.le_refl n⟩
  | cons step steps ih =>
    obtain ⟨k, hk, hle⟩ := le_advance report all h step
    obtain ⟨m, hm, hle'⟩ := ih hk
    exact ⟨m, hm, Nat.le_trans hle hle'⟩

/-- A cursor answers with no position exactly when it has given all starts. -/
theorem answer_next_eq_none {i n : Nat} (h : counts[i]? = some n) :
    Step.answer report all counts ⟨i, .next⟩ = .position none ↔ all.length ≤ n := by
  simp [Step.answer, h, Action.answer]

/-- A cursor that has given all starts has given all of them after any further steps. -/
theorem getLast?_replay_next {i : Nat} {steps : List Step}
    (hi : i < (countsAfter report all counts steps).length)
    (h : (replay report all counts (steps ++ [⟨i, .next⟩])).1.getLast? = some (.position none))
    (more : List Step) :
    (replay report all counts (steps ++ more ++ [⟨i, .next⟩])).1.getLast? =
      some (.position none) := by
  have hget := List.getElem?_eq_getElem hi
  rw [getLast?_replay_concat, Option.some.injEq, answer_next_eq_none report all hget] at h
  obtain ⟨m, hm, hle⟩ := le_countsAfter report all hget more
  rw [← countsAfter_append] at hm
  rw [getLast?_replay_concat, Option.some.injEq, answer_next_eq_none report all hm]
  exact Nat.le_trans h hle

end Counts

/-! ## 3. A whole script -/

theorem run_eq_replay_starts (s : Signature) (region : List UInt8) (steps : List Step) :
    run s region steps = replay s.position (s.starts (.every none) region) [0] steps := by
  rw [s.starts_every]
  exact runFrom_eq_replay steps _ _ (tracks_start s region)

/-- A script answers and meets what can be told from the list of all starts and the number of them
that each cursor has given, and it notes each start that it meets. A step moves no cursor that it does
not name, and if it adds none, it changes no answer but its own, as long as its cursor is not named
again. A cursor that has once found nothing finds nothing later. -/
theorem run_eq_replay (s : Signature) (region : List UInt8) (steps : List Step) :
    let all := s.starts (.every none) region
    run s region steps = replay s.position all [0] steps ∧
      (events s region steps).map Event.text =
        (replay s.position all [0] steps).2.map
          (fun start => s!"TRACE Match for '{s.text}' at 0x{Text.lowerHex start}") ∧
      (∀ (i n : Nat) (step : Step), (countsAfter s.position all [0] steps)[i]? = some n →
        i ≠ step.cursor → (countsAfter s.position all [0] (steps ++ [step]))[i]? = some n) ∧
      (∀ (i : Nat) (action : Action) (more : List Step), (∀ step ∈ more, step.cursor ≠ i) →
        action ≠ .clone → action ≠ .restart →
        (run s region (steps ++ ⟨i, action⟩ :: more)).1.eraseIdx steps.length =
          (run s region (steps ++ more)).1) ∧
      ∀ (i : Nat) (more : List Step), i < (countsAfter s.position all [0] steps).length →
        (run s region (steps ++ [⟨i, .next⟩])).1.getLast? = some (.position none) →
        (run s region (steps ++ ⟨i, .next⟩ :: more ++ [⟨i, .next⟩])).1.getLast? =
          some (.position none) := by
  intro all
  refine ⟨run_eq_replay_starts s region steps, ?_, ?_, ?_, ?_⟩
  · rw [events, run_eq_replay_starts, List.map_map]
    rfl
  · intro i n step hget hne
    rw [countsAfter_append]
    exact getElem?_advance_of_ne s.position all hget hne
  · intro i action more hmore hclone hrestart
    rw [run_eq_replay_starts, run_eq_replay_starts]
    exact eraseIdx_replay s.position all hclone hrestart hmore
  · intro i more hi hnone
    rw [run_eq_replay_starts] at hnone ⊢
    exact getLast?_replay_next s.position all hi hnone (⟨i, .next⟩ :: more)

/-- Two matches of `A` are met by the cursor `0`, and its clone behind the first one still gives the
second when the cursor `0` has come to its end. -/
theorem run_AA_clone :
    let s : Signature := ⟨[.exact 0x41], 0, rfl⟩
    let region : List UInt8 := [0x41, 0x41]
    let all := s.starts (.every none) region
    let steps : List Step := [⟨0, .next⟩, ⟨0, .clone⟩, ⟨0, .next⟩]
    let more : List Step := [⟨1, .next⟩]
    (∀ step ∈ more, step.cursor ≠ 0) ∧ 0 < (countsAfter s.position all [0] steps).length ∧
      (run s region (steps ++ [⟨0, .next⟩])).1.getLast? = some (.position none) ∧
      (run s region (steps ++ ⟨0, .next⟩ :: more)).1.eraseIdx steps.length =
        (run s region (steps ++ more)).1 ∧
      (run s region (steps ++ ⟨0, .next⟩ :: more ++ [⟨0, .next⟩])).1.getLast? =
        some (.position none) := by
  intro s region all steps more
  have hmore : ∀ step ∈ more, step.cursor ≠ 0 := by decide
  have hcursor : 0 < (countsAfter s.position all [0] steps).length := by decide
  have hend : (run s region (steps ++ [⟨0, .next⟩])).1.getLast? = some (.position none) := by decide
  obtain ⟨_, _, _, hother, hlater⟩ := run_eq_replay s region steps
  exact ⟨hmore, hcursor, hend, hother 0 .next more hmore (by decide) (by decide),
    hlater 0 more hcursor hend⟩

end Script

end ByteScan
