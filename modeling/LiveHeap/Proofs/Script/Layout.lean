import LiveHeap.Proofs.Script.Lines
import LiveHeap.Proofs.Script.Phrases
import LiveHeap.Proofs.Text.Words

/-!
# Scripts as they are written

A script may be laid out freely: blanks around and between the words of a line,
comments behind them, and lines that say nothing.  None of that matters to the
reader.  It takes from every written form of a script the events and the steps
that were written down.
-/

namespace LiveHeap.Script

open Text (isBlank)

/-! ## Words on a line -/

/-- Blanks that stay on the line. -/
def Blanks (pad : List Char) : Prop := ∀ c ∈ pad, isBlank c = true ∧ c ≠ '\n'

instance (pad : List Char) : Decidable (Blanks pad) :=
  List.decidableBAll (fun c => isBlank c = true ∧ c ≠ '\n') pad

/-- The words in their order, a blank at least between any two of them, and more
blanks anywhere. -/
inductive Spaced : List (List Char) → List Char → Prop
  | blanks {pad : List Char} (hpad : Blanks pad) : Spaced [] pad
  | last {pad word : List Char} (hpad : Blanks pad) (hword : IsWord word) :
      Spaced [word] (pad ++ word)
  | next {pad word after : List Char} {gap : Char} {words : List (List Char)}
      (hpad : Blanks pad) (hword : IsWord word) (hgap : Blanks [gap])
      (hafter : Spaced words after) :
      Spaced (word :: words) (pad ++ word ++ gap :: after)

section Words

variable {pad text word : List Char} {words : List (List Char)}

theorem Blanks.isBlank (h : Blanks pad) : ∀ c ∈ pad, isBlank c = true :=
  fun c hc => (h c hc).1

theorem Blanks.free (h : Blanks pad) : '\n' ∉ pad ∧ '#' ∉ pad := by
  constructor
  · exact fun hmem => (h _ hmem).2 rfl
  · intro hmem
    have hblank := (h _ hmem).1
    contradiction

theorem IsWord.free (h : IsWord word) : '\n' ∉ word ∧ '#' ∉ word := by
  constructor
  · intro hmem
    have hblank := (h.2 _ hmem).1
    contradiction
  · exact fun hmem => (h.2 _ hmem).2 rfl

theorem IsWord.words_eq (h : IsWord word) : Text.words word = [word] :=
  Text.words_word h.1 fun c hc => (h.2 c hc).1

theorem Spaced.words_eq (h : Spaced words text) : Text.words text = words := by
  induction h with
  | blanks hpad => exact Text.words_blanks hpad.isBlank
  | last hpad hword =>
      rw [Text.words_blanks_append hpad.isBlank, hword.words_eq]
  | next hpad hword hgap _ ih =>
      have hbreak := hgap.isBlank _ List.mem_cons_self
      rw [Text.words_append_cons hbreak, ih,
        Text.words_blanks_append hpad.isBlank, hword.words_eq]
      rfl

/-- Nothing ends the line or starts a comment. -/
theorem Spaced.free (h : Spaced words text) : '\n' ∉ text ∧ '#' ∉ text := by
  induction h with
  | blanks hpad => exact hpad.free
  | last hpad hword =>
      have hfirst := hpad.free
      have hsecond := hword.free
      simp [hfirst, hsecond]
  | next hpad hword hgap _ ih =>
      have hfirst := hpad.free
      have hsecond := hword.free
      have hthird := hgap.free
      rw [List.mem_singleton, List.mem_singleton] at hthird
      simp [hfirst, hsecond, hthird, ih]

/-- Any text can be taken apart into words, behind blanks and the beginning of a
word. -/
theorem exists_spaced (hpad : Blanks pad) (hword : Solid word)
    (hfeed : '\n' ∉ text) (hhash : '#' ∉ text) :
    ∃ words, Spaced words (pad ++ word ++ text) := by
  have hnone : Solid [] := nofun
  induction text generalizing pad word with
  | nil =>
      rw [List.append_nil]
      by_cases hempty : word = []
      · rw [hempty, List.append_nil]
        exact ⟨[], .blanks hpad⟩
      · exact ⟨[word], .last hpad ⟨hempty, hword⟩⟩
  | cons c cs ih =>
      rw [List.mem_cons, not_or] at hfeed hhash
      by_cases hblank : isBlank c = true
      · have hgap : Blanks [c] := by
          simp [Blanks, hblank, Ne.symm hfeed.1]
        by_cases hempty : word = []
        · have hlonger : Blanks (pad ++ [c]) := by
            intro d hd
            exact (List.mem_append.mp hd).elim (hpad d) (hgap d)
          simpa [hempty] using ih hlonger hnone hfeed.2 hhash.2
        · obtain ⟨words, hlater⟩ := ih (nofun : Blanks []) hnone hfeed.2 hhash.2
          exact ⟨word :: words, .next hpad ⟨hempty, hword⟩ hgap hlater⟩
      · have hlonger : Solid (word ++ [c]) := by
          intro d hd
          cases List.mem_append.mp hd with
          | inl hold => exact hword d hold
          | inr hnew =>
              rw [List.mem_singleton.mp hnew]
              exact ⟨Bool.eq_false_iff.mpr hblank, Ne.symm hhash.1⟩
        simpa using ih hpad hlonger hfeed.2 hhash.2

/-- The words of a text are those that cutting it at its blanks gives. -/
theorem spaced_iff :
    Spaced words text ↔
      Text.words text = words ∧ '\n' ∉ text ∧ '#' ∉ text := by
  constructor
  · intro h
    exact ⟨h.words_eq, h.free⟩
  · intro ⟨hwords, hfeed, hhash⟩
    obtain ⟨found, hspaced⟩ :=
      exists_spaced (nofun : Blanks []) (nofun : Solid []) hfeed hhash
    have hsame := hspaced.words_eq
    rw [List.nil_append, List.nil_append] at hspaced hsame
    rwa [← hwords, hsame]

end Words

/-! ## Lines -/

/-- A comment goes on to the end of the line. -/
inductive Comment : List Char → Prop
  | none : Comment []
  | hash {cs : List Char} (free : '\n' ∉ cs) : Comment ('#' :: cs)

/-- The line says the statement. -/
inductive Line : Statement → List Char → Prop
  | bootstrap {pad body comment : List Char} {entry : Entry}
      {words : List (List Char)} (hpad : Blanks pad) (hphrase : Phrase entry words)
      (hbody : Spaced words body) (hcomment : Comment comment) :
      Line (.bootstrap entry) (pad ++ '@' :: body ++ comment)
  | report {body comment : List Char} {entry : Entry}
      {words : List (List Char)} (hphrase : Phrase entry words)
      (hbody : Spaced words body) (hcomment : Comment comment) :
      Line (.report entry) (body ++ comment)
  | endStep {body comment : List Char} (hbody : Spaced [separator] body)
      (hcomment : Comment comment) : Line .endStep (body ++ comment)

/-- The lines say the statements, with lines between them that say nothing. -/
inductive Lines : List Statement → List (List Char) → Prop
  | nil : Lines [] []
  | silent {ss : List Statement} {ls : List (List Char)}
      {pad comment : List Char} (hpad : Blanks pad)
      (hcomment : Comment comment) (hlater : Lines ss ls) :
      Lines ss ((pad ++ comment) :: ls)
  | cons {s : Statement} {ss : List Statement} {line : List Char}
      {ls : List (List Char)} (hline : Line s line) (hlater : Lines ss ls) :
      Lines (s :: ss) (line :: ls)

section Lines

variable {body comment line : List Char} {words : List (List Char)}

theorem Comment.free (h : Comment comment) : '\n' ∉ comment := by
  cases h with
  | none => exact List.not_mem_nil
  | hash hfree => simpa using hfree

theorem statement_append (hfree : '#' ∉ body) (hcomment : Comment comment) :
    statement (body ++ comment) = Text.trim body := by
  have hbody : ∀ c ∈ body, decide (c ≠ '#') = true := by
    intro c hc
    exact decide_eq_true (ne_of_mem_of_not_mem hc hfree)
  unfold statement
  rw [List.takeWhile_append_of_pos hbody]
  cases hcomment with
  | none => rw [List.takeWhile_nil, List.append_nil]
  | hash _ => simp

/-- A text begins with its first word once it is trimmed. -/
theorem Spaced.trim {c : Char} {cs : List Char}
    (h : Spaced ((c :: cs) :: words) body) :
    ∃ rest, Text.trim body = c :: rest ∧
      Text.words (c :: rest) = (c :: cs) :: words := by
  have hwords := h.words_eq
  rw [← Text.words_trim] at hwords
  cases h with
  | last hpad hword =>
      have hfirst := (hword.2 c List.mem_cons_self).1
      rw [Text.trim_blanks_append hpad.isBlank hfirst] at hwords ⊢
      exact ⟨_, rfl, hwords⟩
  | next hpad hword hgap hafter =>
      have hfirst := (hword.2 c List.mem_cons_self).1
      rw [List.append_assoc, List.cons_append,
        Text.trim_blanks_append hpad.isBlank hfirst] at hwords ⊢
      exact ⟨_, rfl, hwords⟩

theorem Spaced.trim_separator (h : Spaced [separator] body) :
    Text.trim body = separator := by
  have hdashes : ∀ trail, Blanks trail →
      ('-' :: '-' :: trail).rdropWhile isBlank = ['-', '-'] := by
    intro trail htrail
    have hblank : ∀ c ∈ trail.reverse, isBlank c = true := by
      intro c hc
      exact htrail.isBlank c (List.mem_reverse.mp hc)
    have hreverse : ('-' :: '-' :: trail).reverse =
        trail.reverse ++ ['-', '-'] := by simp
    rw [List.rdropWhile, hreverse, List.dropWhile_append_of_pos hblank]
    rfl
  cases h with
  | last hpad _ =>
      rw [separator, Text.trim_blanks_append hpad.isBlank rfl,
        hdashes [] nofun]
  | @next pad _ after gap _ hpad _ hgap hafter =>
      cases hafter with
      | blanks hblanks =>
          have htrail : Blanks (gap :: after) := by
            rw [Blanks, List.forall_mem_cons]
            exact ⟨hgap gap List.mem_cons_self, hblanks⟩
          rw [List.append_assoc, separator, List.cons_append,
            Text.trim_blanks_append hpad.isBlank rfl]
          exact congrArg (List.cons '-') (hdashes _ htrail)

theorem Line.free {s : Statement} (h : Line s line) : '\n' ∉ line := by
  cases h with
  | bootstrap hpad _ hbody hcomment =>
      simp [hpad.free, hbody.free, hcomment.free]
  | report _ hbody hcomment => simp [hbody.free, hcomment.free]
  | endStep hbody hcomment => simp [hbody.free, hcomment.free]

theorem Lines.free {ss : List Statement} {ls : List (List Char)}
    (h : Lines ss ls) : ∀ line ∈ ls, '\n' ∉ line := by
  induction h with
  | nil => exact nofun
  | silent hpad hcomment _ ih =>
      rw [List.forall_mem_cons]
      exact ⟨by simp [hpad.free, hcomment.free], ih⟩
  | cons hline _ ih =>
      rw [List.forall_mem_cons]
      exact ⟨hline.free, ih⟩

end Lines

/-! ## Reading the lines -/

section Reading

variable {pad comment line : List Char} {ls : List (List Char)} {s : Statement}
  {ss : List Statement}

theorem readLine_silent (hpad : Blanks pad) (hcomment : Comment comment) :
    readLine (pad ++ comment) = .ok none := by
  have hline := statement_append hpad.free.2 hcomment
  rw [Text.trim_blanks hpad.isBlank] at hline
  rw [readLine, hline]

theorem Line.readLine (h : Line s line) : readLine line = .ok (some s) := by
  cases h with
  | @bootstrap pad body comment entry words hpad hphrase hbody hcomment =>
      have hfree : '#' ∉ pad ++ '@' :: body := by
        simp [hpad.free, hbody.free]
      have hline := statement_append hfree hcomment
      have hat : isBlank '@' = false := rfl
      rw [Text.trim_blanks_append hpad.isBlank hat] at hline
      have hwords : parseWords (Text.words (body.rdropWhile isBlank)) =
          .ok entry := by
        rw [Text.words_rdropWhile, hbody.words_eq, hphrase.parseWords]
      have hseparator : '@' :: body.rdropWhile isBlank ≠ separator := nofun
      rw [Script.readLine, hline]
      simp only [if_neg hseparator, hwords, if_true]
      rfl
  | @report body comment entry words hphrase hbody hcomment =>
      obtain ⟨c, cs, rest, rfl, hat, hdash⟩ := hphrase.opens
      obtain ⟨tail, htrim, hcut⟩ := hbody.trim
      have hline := statement_append hbody.free.2 hcomment
      rw [htrim] at hline
      have hwords : parseWords (Text.words (c :: tail)) = .ok entry := by
        rw [hcut, hphrase.parseWords]
      have hseparator : c :: tail ≠ separator :=
        fun heq => hdash (List.cons.inj heq).1
      rw [Script.readLine, hline]
      simp only [if_neg hseparator, if_neg hat, hwords]
      rfl
  | endStep hbody hcomment =>
      have hline := statement_append hbody.free.2 hcomment
      rw [hbody.trim_separator] at hline
      rw [Script.readLine, hline]
      rfl

theorem Lines.parseLines (h : Lines ss ls) (d : Draft) (number : Nat) :
    parseLines d.script d.step number ls = .ok (ss.foldl Draft.add d).finish := by
  induction h generalizing d number with
  | nil => rfl
  | silent hpad hcomment _ ih =>
      rw [parseLines_cons, readLine_silent hpad hcomment]
      exact ih d (number + 1)
  | cons hline _ ih =>
      rw [parseLines_cons, hline.readLine]
      exact ih (d.add _) (number + 1)

end Reading

/-! ## Scripts -/

/-- The events of the bootstrap, and then the steps with their separators. -/
def statements (s : Script) : List Statement :=
  s.bootstrap.map .bootstrap ++
    s.steps.flatMap fun step => step.map .report ++ [.endStep]

/-- The text is one of the ways to write the script.  Every text has a line at
least. -/
def WrittenAs (s : Script) (text : String) : Prop :=
  ∃ ls, ls ≠ [] ∧ Lines s.statements ls ∧ text.toList = ['\n'].intercalate ls

theorem finish_statements (s : Script) :
    (s.statements.foldl Draft.add .empty).finish = s := by
  rw [statements, List.foldl_append, Draft.foldl_bootstrap]
  simp only [Draft.empty, Draft.foldl_steps]
  rfl

theorem parse_of_writtenAs {s : Script} {text : String}
    (h : s.WrittenAs text) : parse text = .ok s := by
  obtain ⟨ls, hne, hlines, htext⟩ := h
  have hread := hlines.parseLines .empty 1
  rw [finish_statements] at hread
  rw [parse, htext, Text.lines_intercalate hne hlines.free]
  exact hread

/-! ## Every script can be written -/

theorem spaced_intercalate {words : List (List Char)}
    (h : ∀ word ∈ words, IsWord word) : Spaced words ([' '].intercalate words) := by
  have hnone : Blanks [] := nofun
  induction words with
  | nil => exact .blanks hnone
  | cons word words ih =>
      rw [List.forall_mem_cons] at h
      cases words with
      | nil =>
          rw [List.intercalate_singleton]
          exact .last hnone h.1
      | cons next words =>
          have hgap : Blanks [' '] := by
            simp [Blanks, Text.isBlank]
          rw [List.intercalate_cons_cons, List.append_assoc]
          exact .next hnone h.1 hgap (ih h.2)

def AllWritable (s : Script) : Prop :=
  ∀ entry ∈ s.bootstrap ++ s.steps.flatten, Writable entry

theorem exists_line {s : Script} (h : s.AllWritable) {t : Statement}
    (ht : t ∈ s.statements) : ∃ line, Line t line := by
  cases t with
  | bootstrap entry =>
      have hentry : entry ∈ s.bootstrap := by
        simpa [statements] using ht
      obtain ⟨words, hphrase, hwords⟩ :=
        exists_phrase (h entry (List.mem_append_left _ hentry))
      exact ⟨_, .bootstrap (nofun : Blanks []) hphrase
        (spaced_intercalate hwords) .none⟩
  | report entry =>
      have hentry : entry ∈ s.steps.flatten := by
        simpa [statements, List.mem_flatten] using ht
      obtain ⟨words, hphrase, hwords⟩ :=
        exists_phrase (h entry (List.mem_append_right _ hentry))
      exact ⟨_, .report hphrase (spaced_intercalate hwords) .none⟩
  | endStep =>
      have hseparator : IsWord separator := by decide
      exact ⟨_, .endStep (.last (nofun : Blanks []) hseparator) .none⟩

theorem exists_lines {ss : List Statement} (h : ∀ s ∈ ss, ∃ line, Line s line) :
    ∃ ls, Lines ss ls := by
  induction ss with
  | nil => exact ⟨[], .nil⟩
  | cons s ss ih =>
      rw [List.forall_mem_cons] at h
      obtain ⟨line, hline⟩ := h.1
      obtain ⟨ls, hlines⟩ := ih h.2
      exact ⟨line :: ls, .cons hline hlines⟩

/-- A script that is written down, in any of the ways to write it, is read as the
script that it was.  There is a way to write it if its entries are writable. -/
theorem written_script_is_read (s : Script) (hs : s.AllWritable) :
    (∃ text, s.WrittenAs text) ∧
      ∀ text, s.WrittenAs text → parse text = .ok s := by
  constructor
  · obtain ⟨ls, hlines⟩ := exists_lines fun _ ht => exists_line hs ht
    have hsilent : Lines s.statements ([] :: ls) :=
      .silent (nofun : Blanks []) .none hlines
    exact ⟨_, _, List.cons_ne_nil _ _, hsilent, String.toList_ofList⟩
  · exact fun text htext => parse_of_writtenAs htext

/-- The largest id, an empty classification, a label that looks like a separator,
a step that reports nothing, and an empty message. -/
def oddScript : Script where
  bootstrap :=
    [.report (.create (.plain ⟨⟨18446744073709551615⟩, some "", some "a=b",
      true⟩))]
  steps :=
    [[.report (.link none (some ⟨1⟩) "---")], [],
      [.report (.create (.either ⟨3⟩ [.object ⟨4⟩])), .throw ""]]

/-- Blanks of all kinds, and comments behind and between the lines. -/
def oddText : String :=
  "\t@ create 18446744073709551615 name=a=b\u2003object class= # odd\n" ++
  "link - 1\t---\r\n\n---# a label\n # nothing\n ---\n" ++
  "either 3\u00a04\nthrow #x\n---\n"

def oddLines : List (List Char) :=
  ["\t".toList ++ '@' ::
      " create 18446744073709551615 name=a=b\u2003object class= ".toList ++
        '#' :: " odd".toList,
    "link - 1\t---\r".toList ++ [], [] ++ [],
    "---".toList ++ '#' :: " a label".toList, " ".toList ++ '#' :: " nothing".toList,
    " ---".toList ++ [], "either 3\u00a04".toList ++ [],
    "throw ".toList ++ '#' :: "x".toList, "---".toList ++ [], [] ++ []]

theorem lines_oddLines : Lines oddScript.statements oddLines := by
  have hcreate := Phrase.create (by decide : (attributes
    ⟨⟨18446744073709551615⟩, some "", some "a=b", true⟩).Perm
      [.name "a=b", .object, .className ""])
  have hlink := Phrase.link none (some ⟨1⟩) "---"
  have heither := Phrase.either ⟨3⟩ [⟨4⟩]
  have hthrow := Phrase.throw []
  exact .cons (.bootstrap (by decide) hcreate
      (spaced_iff.mpr (by decide +kernel)) (.hash (by decide)))
    (.cons (.report hlink (spaced_iff.mpr (by decide +kernel)) .none)
    (.silent (by decide) .none
    (.cons (.endStep (spaced_iff.mpr (by decide +kernel)) (.hash (by decide)))
    (.silent (by decide) (.hash (by decide))
    (.cons (.endStep (spaced_iff.mpr (by decide +kernel)) .none)
    (.cons (.report heither (spaced_iff.mpr (by decide +kernel)) .none)
    (.cons (.report hthrow (spaced_iff.mpr (by decide +kernel))
      (.hash (by decide)))
    (.cons (.endStep (spaced_iff.mpr (by decide +kernel)) .none)
    (.silent (by decide) .none .nil)))))))))

theorem odd_script_is_read :
    oddScript.AllWritable ∧ oddScript.WrittenAs oddText ∧
      parse oddText = .ok oddScript := by
  have hwritable : oddScript.AllWritable := by
    have hcreate : Writable (.report (.create (.plain
        ⟨⟨18446744073709551615⟩, some "", some "a=b", true⟩))) := by
      simp only [Writable, Option.mem_some_iff, forall_eq']
      decide
    have hlink : Writable (.report (.link none (some ⟨1⟩) "---")) := by
      unfold Writable
      decide
    have heither : Writable (.report (.create (.either ⟨3⟩ [.object ⟨4⟩]))) :=
      ⟨rfl, by simp⟩
    have hthrow : Writable (.throw "") := ⟨[], nofun, rfl⟩
    unfold AllWritable
    simp [oddScript, hcreate, hlink, heither, hthrow]
  have hwritten : oddScript.WrittenAs oddText :=
    ⟨oddLines, List.cons_ne_nil _ _, lines_oddLines, by decide +kernel⟩
  exact ⟨hwritable, hwritten,
    (written_script_is_read oddScript hwritable).2 oddText hwritten⟩

end LiveHeap.Script
