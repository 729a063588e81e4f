import LiveHeap.Script.Reader
import Mathlib.Tactic.SplitIfs

/-!
# A script line by line

The reader takes a statement from each line, or nothing, and adds it to what it
has of the script.  What it has is a draft, the script so far and the events of
the step that is not yet ended.
-/

namespace LiveHeap.Script

inductive Statement where
  | bootstrap (entry : Entry)
  | report (entry : Entry)
  | endStep

/-- What a single line says, if it says anything. -/
def readLine (line : List Char) : Except LineFault (Option Statement) :=
  match statement line with
  | [] => .ok none
  | c :: cs =>
      if c :: cs = separator then .ok (some .endStep)
      else if c = '@' then
        (parseWords (Text.words cs)).map fun entry => some (.bootstrap entry)
      else
        (parseWords (Text.words (c :: cs))).map fun entry =>
          some (.report entry)

structure Draft where
  script : Script
  step : List Entry

namespace Draft

def empty : Draft := ⟨⟨[], []⟩, []⟩

def add (d : Draft) : Statement → Draft
  | .bootstrap entry =>
      { d with script :=
          { d.script with bootstrap := d.script.bootstrap ++ [entry] } }
  | .report entry => { d with step := d.step ++ [entry] }
  | .endStep =>
      ⟨{ d.script with steps := d.script.steps ++ [d.step] }, []⟩

/-- Events behind the last separator form a step of their own. -/
def finish (d : Draft) : Script :=
  if d.step.isEmpty then d.script
  else { d.script with steps := d.script.steps ++ [d.step] }

variable (d : Draft)

theorem foldl_bootstrap (entries : List Entry) :
    (entries.map .bootstrap).foldl add d =
      { d with script :=
          { d.script with bootstrap := d.script.bootstrap ++ entries } } := by
  induction entries generalizing d with
  | nil => simp
  | cons entry entries ih => simp [ih, add]

theorem foldl_report (entries : List Entry) :
    (entries.map .report).foldl add d =
      { d with step := d.step ++ entries } := by
  induction entries generalizing d with
  | nil => simp
  | cons entry entries ih => simp [ih, add]

/-- Steps that are all ended leave no step behind. -/
theorem foldl_steps (script : Script) (steps : List (List Entry)) :
    (steps.flatMap fun step => step.map .report ++ [.endStep]).foldl add
        ⟨script, []⟩ =
      ⟨{ script with steps := script.steps ++ steps }, []⟩ := by
  induction steps generalizing script with
  | nil => simp
  | cons step steps ih => simp [foldl_report, add, ih]

end Draft

variable (d : Draft) (number : Nat) (line : List Char) (ls : List (List Char))

theorem parseLines_statement :
    parseLines d.script d.step number (line :: ls) =
      match statement line with
      | [] => parseLines d.script d.step (number + 1) ls
      | c :: cs =>
          if c :: cs = separator then
            parseLines (d.add .endStep).script [] (number + 1) ls
          else if c = '@' then
            match parseWords (Text.words cs) with
            | .error e => .error ⟨e.text, number, 1⟩
            | .ok entry =>
                parseLines (d.add (.bootstrap entry)).script d.step
                  (number + 1) ls
          else
            match parseWords (Text.words (c :: cs)) with
            | .error e => .error ⟨e.text, number, 1⟩
            | .ok entry =>
                parseLines d.script (d.step ++ [entry]) (number + 1) ls := by
  delta parseLines
  rfl

theorem parseLines_cons :
    parseLines d.script d.step number (line :: ls) =
      match readLine line with
      | .error e => .error ⟨e.text, number, 1⟩
      | .ok none => parseLines d.script d.step (number + 1) ls
      | .ok (some s) =>
          parseLines (d.add s).script (d.add s).step (number + 1) ls := by
  rw [parseLines_statement, readLine]
  cases statement line with
  | nil => rfl
  | cons c cs =>
      simp only
      split_ifs
      · rfl
      · cases parseWords (Text.words cs) <;> rfl
      · cases parseWords (Text.words (c :: cs)) <;> rfl

end LiveHeap.Script
