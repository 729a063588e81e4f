import LiveHeap.Proofs.Script.Lines
import LiveHeap.Proofs.Script.Sentences
import LiveHeap.Proofs.Text.Words

/-!
# Any text as a script

Any text is a script or has lines at fault.  The first of those is the one that
the reader reports.  A text without them says the events of the bootstrap and
of the steps in the order of its lines, and its separators say where the steps
end.
-/

namespace LiveHeap.Script

/-! ## Lines at fault -/

/-- What is said without the mark of the bootstrap and the blanks behind it. -/
def unmarked : List Char → List Char
  | '@' :: text => Text.trim text
  | text => text

def IsEvent (text : List Char) : Prop :=
  ∃ entry, Sentence entry (Text.words text)

def Offends (line : List Char) : Prop :=
  statement line ≠ [] ∧ statement line ≠ separator ∧
    ¬ IsEvent (unmarked (statement line))

/-- The error is for the first line at fault, and the lines behind that one have
no part in it. -/
def FirstOffence (ls : List (List Char)) (e : ParseError) : Prop :=
  ∃ before line after fault, ls = before ++ line :: after ∧
    (∀ l ∈ before, ¬ Offends l) ∧ Offends line ∧
    parseWords (Text.words (unmarked (statement line))) = .error fault ∧
    e = ⟨fault.text, before.length + 1, 1⟩

/-- What is left of a line without its comment makes a statement. -/
inductive Says : List Char → Statement → Prop
  | endStep : Says separator .endStep
  | bootstrap {text : List Char} {entry : Entry}
      (h : Sentence entry (Text.words (Text.trim text))) :
      Says ('@' :: text) (.bootstrap entry)
  | report {text : List Char} {entry : Entry} (hmark : text.head? ≠ some '@')
      (hother : text ≠ separator) (h : Sentence entry (Text.words text)) :
      Says text (.report entry)

section Lines

variable {text line : List Char} {s : Statement}

theorem unmarked_of_ne (h : text.head? ≠ some '@') : unmarked text = text := by
  unfold unmarked
  split
  next => contradiction
  next => rfl

theorem Says.ne_nil (h : Says text s) : text ≠ [] := by
  cases h with
  | endStep => exact nofun
  | bootstrap _ => exact nofun
  | report _ _ h =>
      rintro rfl
      cases h

theorem Says.not_offends (h : Says (statement line) s) : ¬ Offends line := by
  intro hoffends
  obtain ⟨-, hother, hnone⟩ := hoffends
  generalize statement line = text at h hother hnone
  cases h with
  | endStep => exact hother rfl
  | bootstrap h => exact hnone ⟨_, h⟩
  | report hmark _ h =>
      rw [unmarked_of_ne hmark] at hnone
      exact hnone ⟨_, h⟩

/-- Anything but a separator is read as an event behind its mark. -/
theorem readLine_event (hne : statement line ≠ [])
    (hother : statement line ≠ separator) :
    readLine line =
      (parseWords (Text.words (unmarked (statement line)))).map fun entry =>
        some (if (statement line).head? = some '@' then .bootstrap entry
          else .report entry) := by
  unfold readLine
  generalize statement line = text at hne hother
  cases text with
  | nil => contradiction
  | cons c cs =>
      simp only [if_neg hother, List.head?_cons, Option.some.injEq]
      by_cases hmark : c = '@'
      · simp [hmark, unmarked, Text.words_trim]
      · have hplain : (c :: cs).head? ≠ some '@' := by simpa using hmark
        simp [hmark, unmarked_of_ne hplain]

/-- A line says nothing, or it says a statement, or it is at fault. -/
theorem readLine_cases (line : List Char) :
    (statement line = [] ∧ readLine line = .ok none) ∨
      (∃ s, Says (statement line) s ∧ readLine line = .ok (some s)) ∨
      ∃ fault, parseWords (Text.words (unmarked (statement line))) =
          .error fault ∧
        Offends line ∧ readLine line = .error fault := by
  by_cases hne : statement line = []
  · exact .inl ⟨hne, by rw [readLine, hne]⟩
  by_cases hother : statement line = separator
  · have hread : readLine line = .ok (some .endStep) := by
      rw [readLine, hother]
      rfl
    exact .inr (.inl ⟨.endStep, hother ▸ .endStep, hread⟩)
  have hread := readLine_event hne hother
  cases hevent : parseWords (Text.words (unmarked (statement line))) with
  | error fault =>
      rw [hevent] at hread
      refine .inr (.inr ⟨fault, rfl, ⟨hne, hother, ?_⟩, hread⟩)
      rintro ⟨entry, hsentence⟩
      rw [← parseWords_eq_ok_iff, hevent] at hsentence
      contradiction
  | ok entry =>
      rw [hevent] at hread
      have hsentence := parseWords_eq_ok_iff.mp hevent
      refine .inr (.inl ⟨_, ?_, hread⟩)
      split
      next hmark =>
        obtain ⟨text, htext⟩ := List.head?_eq_some_iff.mp hmark
        rw [htext] at hsentence ⊢
        exact .bootstrap hsentence
      next hmark =>
        rw [unmarked_of_ne hmark] at hsentence
        exact .report hmark hother hsentence

end Lines

/-! ## All lines -/

/-- What the lines say, without those that say nothing. -/
def spoken (ls : List (List Char)) : List (List Char) :=
  (ls.map statement).filter fun text => !text.isEmpty

section Reading

variable {before ls : List (List Char)} {line : List Char}

theorem exists_fault (h : Offends line) :
    ∃ fault, parseWords (Text.words (unmarked (statement line))) =
        .error fault ∧
      readLine line = .error fault := by
  obtain ⟨hsilent, -⟩ | ⟨s, hsays, -⟩ | ⟨fault, hparse, -, hread⟩ :=
    readLine_cases line
  · exact absurd hsilent h.1
  · exact absurd h hsays.not_offends
  · exact ⟨fault, hparse, hread⟩

/-- The reader stops at the first line at fault. -/
theorem parseLines_offence {fault : LineFault}
    (hbefore : ∀ l ∈ before, ¬ Offends l) (hline : readLine line = .error fault)
    (after : List (List Char)) (d : Draft) (number : Nat) :
    parseLines d.script d.step number (before ++ line :: after) =
      .error ⟨fault.text, number + before.length, 1⟩ := by
  induction before generalizing d number with
  | nil => rw [List.nil_append, parseLines_cons, hline]; rfl
  | cons first before ih =>
      rw [List.forall_mem_cons] at hbefore
      have hnumber : number + (first :: before).length =
          number + 1 + before.length := by
        rw [List.length_cons]
        omega
      rw [List.cons_append, parseLines_cons, hnumber]
      obtain ⟨-, hread⟩ | ⟨s, -, hread⟩ | ⟨_, -, hoffends, -⟩ :=
        readLine_cases first
      · rw [hread]
        exact ih hbefore.2 d (number + 1)
      · rw [hread]
        exact ih hbefore.2 (d.add s) (number + 1)
      · exact absurd hoffends hbefore.1

/-- The reader adds up what the lines say as long as none is at fault. -/
theorem parseLines_sound (h : ∀ line ∈ ls, ¬ Offends line) (d : Draft)
    (number : Nat) :
    ∃ said, List.Forall₂ Says (spoken ls) said ∧
      parseLines d.script d.step number ls =
        .ok (said.foldl Draft.add d).finish := by
  induction ls generalizing d number with
  | nil => exact ⟨[], .nil, rfl⟩
  | cons line ls ih =>
      rw [List.forall_mem_cons] at h
      rw [parseLines_cons]
      obtain ⟨hsilent, hread⟩ | ⟨s, hsays, hread⟩ | ⟨_, -, hoffends, -⟩ :=
        readLine_cases line
      · obtain ⟨said, hsaid, hparse⟩ := ih h.2 d (number + 1)
        have hspoken : spoken (line :: ls) = spoken ls := by
          simp [spoken, hsilent]
        rw [hread, hspoken]
        exact ⟨said, hsaid, hparse⟩
      · obtain ⟨said, hsaid, hparse⟩ := ih h.2 (d.add s) (number + 1)
        have hspoken : spoken (line :: ls) = statement line :: spoken ls := by
          simp [spoken, hsays.ne_nil]
        rw [hread, hspoken]
        exact ⟨s :: said, .cons hsays hsaid, hparse⟩
      · exact absurd hoffends h.1

theorem exists_firstOffence (h : ∃ line ∈ ls, Offends line) :
    ∃ e, FirstOffence ls e := by
  classical
  have hfound : (ls.find? fun line => Offends line).isSome = true := by
    simpa using h
  obtain ⟨line, hfind⟩ := Option.isSome_iff_exists.mp hfound
  obtain ⟨hoffends, before, after, hls, hbefore⟩ :=
    List.find?_eq_some_iff_append.mp hfind
  have hline : Offends line := of_decide_eq_true hoffends
  obtain ⟨fault, hparse, -⟩ := exists_fault hline
  exact ⟨_, before, line, after, fault, hls, by simpa using hbefore, hline,
    hparse, rfl⟩

end Reading

/-! ## Segments -/

namespace Statement

def bootstrap? : Statement → Option Entry
  | bootstrap entry => some entry
  | _ => none

def report? : Statement → Option Entry
  | report entry => some entry
  | _ => none

def isEndStep : Statement → Bool
  | endStep => true
  | _ => false

end Statement

open Statement (bootstrap? report? isEndStep)

/-- The events behind the last separator. -/
def openEvents (said : List Statement) : List Entry :=
  (said.rtakeWhile fun s => !s.isEndStep).filterMap report?

/-- The script has a step for each separator, with the events since the one
before, and one more step if events are left behind the last separator. -/
structure Segments (said : List Statement) (script : Script) : Prop where
  bootstrap : script.bootstrap = said.filterMap bootstrap?
  reports : script.steps.flatten = said.filterMap report?
  ended : ∀ before after, said = before ++ .endStep :: after →
    script.steps[before.countP isEndStep]? = some (openEvents before)
  last : openEvents said ≠ [] →
    script.steps[said.countP isEndStep]? = some (openEvents said)
  count : script.steps.length =
    said.countP isEndStep + if openEvents said = [] then 0 else 1

/-- The draft is that of the statements up to here. -/
structure Draft.Follows (said : List Statement) (d : Draft) : Prop where
  bootstrap : d.script.bootstrap = said.filterMap bootstrap?
  reports : d.script.steps.flatten ++ d.step = said.filterMap report?
  step : d.step = openEvents said
  count : d.script.steps.length = said.countP isEndStep
  ended : ∀ before after, said = before ++ .endStep :: after →
    d.script.steps[before.countP isEndStep]? = some (openEvents before)

section Segments

variable {said before after : List Statement} {s t : Statement} {d : Draft}

theorem openEvents_endStep : openEvents (said ++ [.endStep]) = [] := by
  simp [openEvents, isEndStep]

theorem openEvents_append (h : s.isEndStep = false) :
    openEvents (said ++ [s]) = openEvents said ++ s.report?.toList := by
  have hlast : [s].filterMap report? = s.report?.toList := by
    cases s <;> rfl
  simp [openEvents, h, hlast]

theorem append_singleton_cases (h : said ++ [s] = before ++ t :: after) :
    (said = before ∧ s = t) ∨ ∃ after', said = before ++ t :: after' := by
  obtain rfl | ⟨after', last, rfl⟩ := List.eq_nil_or_concat after
  · obtain ⟨hsaid, hlast⟩ := List.append_inj' h rfl
    exact .inl ⟨hsaid, List.singleton_inj.mp hlast⟩
  · rw [List.concat_eq_append, ← List.cons_append, ← List.append_assoc] at h
    exact .inr ⟨after', (List.append_inj' h rfl).1⟩

namespace Draft

theorem follows_empty : Draft.empty.Follows [] where
  bootstrap := rfl
  reports := rfl
  step := rfl
  count := rfl
  ended := by simp

theorem Follows.ended_of_ne (h : d.Follows said) (hs : s.isEndStep = false)
    (heq : said ++ [s] = before ++ .endStep :: after) :
    d.script.steps[before.countP isEndStep]? = some (openEvents before) := by
  obtain ⟨-, hlast⟩ | ⟨after', hsaid⟩ := append_singleton_cases heq
  · rw [hlast] at hs
    contradiction
  · exact h.ended before after' hsaid

theorem Follows.add (h : d.Follows said) (s : Statement) :
    (d.add s).Follows (said ++ [s]) := by
  cases s with
  | bootstrap entry =>
      refine ⟨?_, ?_, ?_, ?_, ?_⟩
      · simp [Draft.add, h.bootstrap, bootstrap?]
      · simp [Draft.add, h.reports, report?]
      · rw [openEvents_append rfl]
        simp [Draft.add, h.step, report?]
      · simp [Draft.add, h.count, isEndStep]
      · exact fun before after heq => h.ended_of_ne rfl heq
  | report entry =>
      refine ⟨?_, ?_, ?_, ?_, ?_⟩
      · simp [Draft.add, h.bootstrap, bootstrap?]
      · simp [Draft.add, ← h.reports, report?]
      · rw [openEvents_append rfl]
        simp [Draft.add, h.step, report?]
      · simp [Draft.add, h.count, isEndStep]
      · exact fun before after heq => h.ended_of_ne rfl heq
  | endStep =>
      refine ⟨?_, ?_, ?_, ?_, ?_⟩
      · simp [Draft.add, h.bootstrap, bootstrap?]
      · simp [Draft.add, h.reports, report?]
      · rw [openEvents_endStep]
        rfl
      · simp [Draft.add, h.count, isEndStep]
      · intro before after heq
        simp only [Draft.add]
        obtain ⟨rfl, -⟩ | ⟨after', hsaid⟩ := append_singleton_cases heq
        · rw [← h.count, ← h.step, List.getElem?_concat_length]
        · have hold := h.ended before after' hsaid
          rw [List.getElem?_append_left (List.getElem?_eq_some_iff.mp hold).1]
          exact hold

theorem follows_foldl (said : List Statement) :
    (said.foldl Draft.add .empty).Follows said := by
  induction said using List.reverseRecOn with
  | nil => exact follows_empty
  | append_singleton said s ih =>
      rw [List.foldl_concat]
      exact ih.add s

theorem Follows.finish (h : d.Follows said) : Segments said d.finish := by
  have hlast := h.step
  cases hstep : d.step with
  | nil =>
      have hfinish : d.finish = d.script := by simp [Draft.finish, hstep]
      rw [hstep] at hlast
      rw [hfinish]
      refine ⟨h.bootstrap, ?_, h.ended, ?_, ?_⟩
      · rw [← h.reports, hstep, List.append_nil]
      · exact fun hopen => absurd hlast.symm hopen
      · rw [if_pos hlast.symm, h.count, Nat.add_zero]
  | cons entry entries =>
      have hfinish : d.finish =
          { d.script with steps := d.script.steps ++ [d.step] } := by
        simp [Draft.finish, hstep]
      have hopen : openEvents said ≠ [] := by
        rw [← hlast, hstep]
        exact List.cons_ne_nil _ _
      rw [hfinish]
      refine ⟨h.bootstrap, ?_, ?_, ?_, ?_⟩
      · simpa using h.reports
      · intro before after hsaid
        have hold := h.ended before after hsaid
        have hfits := (List.getElem?_eq_some_iff.mp hold).1
        exact (List.getElem?_append_left hfits).trans hold
      · rw [← h.count, ← hlast]
        exact fun _ => List.getElem?_concat_length
      · simp [if_neg hopen, h.count]

end Draft

end Segments

/-! ## Every source -/

section Source

variable {source : String} {e : ParseError}

theorem parse_of_firstOffence
    (h : FirstOffence (Text.lines source.toList) e) :
    parse source = .error e := by
  obtain ⟨before, line, after, fault, hlines, hbefore, hline, hparse, rfl⟩ := h
  obtain ⟨fault', hparse', hread⟩ := exists_fault hline
  rw [hparse, Except.error.injEq] at hparse'
  rw [← hparse'] at hread
  rw [parse, hlines, Nat.add_comm before.length 1]
  exact parseLines_offence hbefore hread after .empty 1

theorem exists_segments
    (h : ∀ line ∈ Text.lines source.toList, ¬ Offends line) :
    ∃ script said, parse source = .ok script ∧
      List.Forall₂ Says (spoken (Text.lines source.toList)) said ∧
      Segments said script := by
  obtain ⟨said, hsaid, hparse⟩ := parseLines_sound h .empty 1
  exact ⟨_, said, hparse, hsaid, (Draft.follows_foldl said).finish⟩

end Source

/-- A source is rejected exactly if one of its lines is at fault, for the first
of these, and otherwise it is the script that its lines say. -/
theorem parse_segments (source : String) :
    ((∃ e, parse source = .error e) ↔
      ∃ line ∈ Text.lines source.toList, Offends line) ∧
    (∀ e, parse source = .error e ↔
      FirstOffence (Text.lines source.toList) e) ∧
    ((∀ line ∈ Text.lines source.toList, ¬ Offends line) →
      ∃ script said, parse source = .ok script ∧
        List.Forall₂ Says (spoken (Text.lines source.toList)) said ∧
        Segments said script) := by
  have hfails : ∀ {e}, parse source = .error e →
      ∃ line ∈ Text.lines source.toList, Offends line := by
    intro e hparse
    by_contra hnone
    push Not at hnone
    obtain ⟨script, said, hok, -⟩ := exists_segments hnone
    rw [hparse] at hok
    contradiction
  refine ⟨⟨?_, ?_⟩, fun e => ⟨?_, parse_of_firstOffence⟩, exists_segments⟩
  · rintro ⟨e, hparse⟩
    exact hfails hparse
  · intro hoffends
    obtain ⟨e, hfirst⟩ := exists_firstOffence hoffends
    exact ⟨e, parse_of_firstOffence hfirst⟩
  · intro hparse
    obtain ⟨e', hfirst⟩ := exists_firstOffence (hfails hparse)
    have hsame := parse_of_firstOffence hfirst
    rw [hparse, Except.error.injEq] at hsame
    rwa [hsame]

example : parse "push 1 # ---\n@call\n --- # one\n---\n\n@ pop 2\ncall" =
    .ok ⟨[.report .callBoundary, .report (.pop ⟨2⟩)],
      [[.report (.push ⟨1⟩)], [], [.report .callBoundary]]⟩ := by
  rfl

/-- A mark with nothing but a comment behind it is an error of its line. -/
example : parse "call\n# call\n@ # call\ncall off" =
    .error ⟨LineFault.text (.unknownOperation []), 3, 1⟩ := by
  rfl

end LiveHeap.Script
