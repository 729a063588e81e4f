import LiveHeap.Text.Words
import Mathlib.Data.List.DropRight

/-!
# Cutting texts into lines and words

A separator cuts a text into two parts that are cut further on their own.  So
lines that were joined by line feeds come apart again.  The words of a text do
not depend on the blanks around it, and trimming takes away nothing but those.
-/

namespace LiveHeap.Text

section Cut

variable {p : Char → Bool} {c : Char} {text : List Char}

theorem cutAt_ne_nil (p : Char → Bool) (text : List Char) :
    cutAt p text ≠ [] := by
  cases text with
  | nil => exact List.cons_ne_nil _ _
  | cons c cs =>
      rw [cutAt]
      split
      · exact List.cons_ne_nil _ _
      · cases cutAt p cs <;> exact List.cons_ne_nil _ _

theorem cutAt_append_cons (hc : p c = true) (left right : List Char) :
    cutAt p (left ++ c :: right) = cutAt p left ++ cutAt p right := by
  induction left with
  | nil => simp [cutAt, hc]
  | cons d left ih =>
      rw [List.cons_append, cutAt, cutAt, ih]
      by_cases hd : p d = true
      · simp [hd]
      · cases hleft : cutAt p left with
        | nil => exact absurd hleft (cutAt_ne_nil p left)
        | cons piece pieces => simp [hd]

theorem cutAt_of_whole (h : ∀ c ∈ text, p c = false) :
    cutAt p text = [text] := by
  induction text with
  | nil => rfl
  | cons c cs ih =>
      rw [List.forall_mem_cons] at h
      simp [cutAt, h.1, ih h.2]

/-- Lines without line feeds, joined by line feeds. -/
theorem lines_intercalate {ls : List (List Char)} (hne : ls ≠ [])
    (hwhole : ∀ line ∈ ls, '\n' ∉ line) :
    lines (['\n'].intercalate ls) = ls := by
  have hline : ∀ line, '\n' ∉ line → lines line = [line] := by
    intro line hfree
    apply cutAt_of_whole
    intro c hc
    have hother : c ≠ '\n' := ne_of_mem_of_not_mem hc hfree
    simp [hother]
  induction ls with
  | nil => contradiction
  | cons line ls ih =>
      rw [List.forall_mem_cons] at hwhole
      cases ls with
      | nil => simpa using hline line hwhole.1
      | cons next ls =>
          have hlater := ih (List.cons_ne_nil _ _) hwhole.2
          have hjoined : ['\n'].intercalate (line :: next :: ls) =
              line ++ '\n' :: ['\n'].intercalate (next :: ls) := by
            simp
          have hcut : lines (line ++ '\n' :: ['\n'].intercalate (next :: ls)) =
              lines line ++ lines (['\n'].intercalate (next :: ls)) :=
            cutAt_append_cons rfl _ _
          rw [hjoined, hcut, hlater, hline line hwhole.1]
          rfl

end Cut

/-! ## Words -/

section Words

variable {c : Char} {pad text word : List Char}

theorem words_append_cons (hc : isBlank c = true) (left right : List Char) :
    words (left ++ c :: right) = words left ++ words right := by
  unfold words
  rw [cutAt_append_cons hc, List.filter_append]

theorem words_blanks_append (hpad : ∀ c ∈ pad, isBlank c = true)
    (text : List Char) : words (pad ++ text) = words text := by
  induction pad with
  | nil => rfl
  | cons c pad ih =>
      rw [List.forall_mem_cons] at hpad
      exact (words_append_cons hpad.1 [] (pad ++ text)).trans (ih hpad.2)

theorem words_blanks (hpad : ∀ c ∈ pad, isBlank c = true) :
    words pad = [] := by
  have hall := words_blanks_append hpad []
  rwa [List.append_nil] at hall

theorem words_append_blanks (hpad : ∀ c ∈ pad, isBlank c = true)
    (text : List Char) : words (text ++ pad) = words text := by
  cases pad with
  | nil => rw [List.append_nil]
  | cons c pad =>
      rw [List.forall_mem_cons] at hpad
      rw [words_append_cons hpad.1, words_blanks hpad.2, List.append_nil]

theorem words_word (hne : word ≠ []) (hsolid : ∀ c ∈ word, isBlank c = false) :
    words word = [word] := by
  unfold words
  rw [cutAt_of_whole hsolid]
  simp [hne]

/-! ## Trimming -/

theorem trim_eq (text : List Char) :
    trim text = (text.dropWhile isBlank).rdropWhile isBlank := rfl

theorem words_rdropWhile (text : List Char) :
    words (text.rdropWhile isBlank) = words text := by
  have hpad : ∀ c ∈ text.rtakeWhile isBlank, isBlank c = true := by
    intro c hc
    exact List.mem_rtakeWhile_imp hc
  have hsplit := List.rdropWhile_append_rtakeWhile (p := isBlank) (l := text)
  have hwords := words_append_blanks hpad (text.rdropWhile isBlank)
  rw [hsplit] at hwords
  exact hwords.symm

theorem words_trim (text : List Char) : words (trim text) = words text := by
  have hpad : ∀ c ∈ text.takeWhile isBlank, isBlank c = true := by
    intro c hc
    exact List.mem_takeWhile_imp hc
  have hwords := words_blanks_append hpad (text.dropWhile isBlank)
  rw [List.takeWhile_append_dropWhile] at hwords
  rw [trim_eq, words_rdropWhile, hwords]

theorem trim_blanks (hpad : ∀ c ∈ pad, isBlank c = true) : trim pad = [] := by
  have hdrop := List.dropWhile_eq_nil_iff.mpr hpad
  rw [trim_eq, hdrop]
  rfl

/-- What stands behind the first character that is no blank loses only the
blanks at its end. -/
theorem trim_blanks_append (hpad : ∀ c ∈ pad, isBlank c = true)
    (hc : isBlank c = false) (text : List Char) :
    trim (pad ++ c :: text) = c :: text.rdropWhile isBlank := by
  have hfirst : (pad ++ c :: text).dropWhile isBlank = c :: text := by
    rw [List.dropWhile_append_of_pos hpad, List.dropWhile_cons]
    simp [hc]
  rw [trim_eq, hfirst, List.rdropWhile, List.rdropWhile, List.reverse_cons,
    List.dropWhile_append]
  cases hrest : text.reverse.dropWhile isBlank with
  | nil => simp [hc]
  | cons d ds => simp

end Words

end LiveHeap.Text
