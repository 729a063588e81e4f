import LiveHeap.Proofs.Graph.Stack
import LiveHeap.Proofs.Session.Schedule

/-!
# Entries that stop a playback

What an observer will refuse can be told from the entries alone.  An entry that
raises an error stops every playback.  A pop stops the playback to an observer
who keeps a stack, if as many pops as pushes came before it.  So a playback
ends before the first offending entry (`Foresees`), and the observer is left as
the entries before it made it.
-/

namespace LiveHeap

namespace Entry

def isPush : Entry → Bool
  | report (.push _) => true
  | _ => false

def isPop : Entry → Bool
  | report (.pop _) => true
  | _ => false

/-- Whether the entry stops a playback after the entries before it, for an
observer who keeps a stack or for one who does not. -/
def offends (stacked : Bool) (before : List Entry) : Entry → Bool
  | throw _ => true
  | report (.pop _) =>
      stacked && decide (before.countP isPop = before.countP isPush)
  | report _ => false

/-- The error of an entry that offends. -/
def error : Entry → EngineError
  | throw message => .execution ⟨message, none⟩
  | report _ => .graph .stackUnderflow

end Entry

/-- None of the entries offends when they follow the base. -/
def Sound (stacked : Bool) (base entries : List Entry) : Prop :=
  ∀ before entry after, entries = before ++ entry :: after →
    entry.offends stacked (base ++ before) = false

/-- The first of the entries that offends, and the entries before it. -/
structure FirstOffence (stacked : Bool) (base entries before : List Entry)
    (entry : Entry) : Prop where
  split : ∃ after, entries = before ++ entry :: after
  sound : Sound stacked base before
  offends : entry.offends stacked (base ++ before) = true

section Sound

variable {stacked : Bool} {base entries later : List Entry} {entry : Entry}

theorem sound_nil (stacked : Bool) (base : List Entry) :
    Sound stacked base [] := by
  intro before entry after hsplit
  simp at hsplit

theorem sound_cons :
    Sound stacked base (entry :: entries) ↔
      entry.offends stacked base = false ∧
        Sound stacked (base ++ [entry]) entries := by
  constructor
  · intro h
    refine ⟨by simpa using h [] entry entries rfl, ?_⟩
    intro before e after hsplit
    rw [List.append_assoc]
    exact h (entry :: before) e after (by rw [hsplit]; rfl)
  · rintro ⟨hfirst, hrest⟩ before e after hsplit
    cases before with
    | nil =>
        obtain ⟨rfl, _⟩ := List.cons.inj hsplit
        rwa [List.append_nil]
    | cons e' before =>
        obtain ⟨rfl, htail⟩ := List.cons.inj hsplit
        rw [List.append_cons]
        exact hrest before e after htail

theorem sound_append :
    Sound stacked base (entries ++ later) ↔
      Sound stacked base entries ∧ Sound stacked (base ++ entries) later := by
  induction entries generalizing base with
  | nil => simp [sound_nil]
  | cons entry entries ih =>
      rw [List.cons_append, sound_cons, sound_cons, ih, and_assoc,
        List.append_cons base entry entries]

instance decidableSound (stacked : Bool) (base : List Entry) :
    (entries : List Entry) → Decidable (Sound stacked base entries)
  | [] => isTrue (sound_nil stacked base)
  | entry :: entries =>
      have := decidableSound stacked (base ++ [entry]) entries
      decidable_of_iff _ sound_cons.symm

theorem sound_or_offence (stacked : Bool) (base entries : List Entry) :
    Sound stacked base entries ∨
      ∃ before entry, FirstOffence stacked base entries before entry := by
  induction entries generalizing base with
  | nil => exact Or.inl (sound_nil stacked base)
  | cons entry entries ih =>
      cases hoffends : entry.offends stacked base with
      | true =>
          refine Or.inr ⟨[], entry, ⟨entries, rfl⟩, sound_nil stacked base, ?_⟩
          rwa [List.append_nil]
      | false =>
          rcases ih (base ++ [entry]) with hsound | ⟨before, e, hfirst⟩
          · exact Or.inl (sound_cons.mpr ⟨hoffends, hsound⟩)
          · rcases hfirst.split with ⟨after, hsplit⟩
            refine Or.inr ⟨entry :: before, e, ⟨after, by rw [hsplit]; rfl⟩,
              sound_cons.mpr ⟨hoffends, hfirst.sound⟩, ?_⟩
            rw [List.append_cons]
            exact hfirst.offends

end Sound

/-! ## Observers -/

section Foresees

variable {σ : Type} [Observer σ]

/-- Of an observer who was told some entries after the base, the relation holds
and tells which entries it will refuse. -/
structure Foresees (stacked : Bool) (base : List Entry)
    (r : List Entry → σ → Prop) : Prop where
  answer : ∀ {told o}, r told o → ∀ entry : Entry,
    (entry.playBack o).2 =
      if entry.offends stacked (base ++ told) then some entry.error else none
  accepted : ∀ {told o}, r told o → ∀ entry : Entry,
    entry.offends stacked (base ++ told) = false →
      r (told ++ [entry]) (entry.playBack o).1
  refused : ∀ {told o}, r told o → ∀ entry : Entry,
    entry.offends stacked (base ++ told) = true → (entry.playBack o).1 = o

namespace Foresees

variable {stacked : Bool} {base : List Entry} {r : List Entry → σ → Prop}
  (h : Foresees stacked base r)

include h

theorem playBack {told : List Entry} {o : σ} (ho : r told o)
    {entries : List Entry} (hsound : Sound stacked (base ++ told) entries) :
    (LiveHeap.playBack o entries).2 = none ∧
      r (told ++ entries) (LiveHeap.playBack o entries).1 := by
  induction entries generalizing told o with
  | nil =>
      rw [List.append_nil]
      exact ⟨rfl, ho⟩
  | cons entry entries ih =>
      rw [sound_cons, List.append_assoc] at hsound
      have hanswer := h.answer ho entry
      have hnext := h.accepted ho entry hsound.1
      rw [if_neg (by simp [hsound.1])] at hanswer
      unfold LiveHeap.playBack
      cases hplayed : entry.playBack o with
      | mk o' failed =>
          rw [hplayed] at hanswer hnext
          obtain rfl : failed = none := hanswer
          rw [List.append_cons]
          exact ih hnext hsound.2

theorem playBack_offence {told : List Entry} {o : σ} (ho : r told o)
    {entries before : List Entry} {entry : Entry}
    (hfirst : FirstOffence stacked (base ++ told) entries before entry) :
    (LiveHeap.playBack o entries).2 = some entry.error ∧
      r (told ++ before) (LiveHeap.playBack o entries).1 := by
  rcases hfirst.split with ⟨after, rfl⟩
  have ⟨hnone, hbefore⟩ := h.playBack ho hfirst.sound
  have hoffends := hfirst.offends
  rw [playBack_append]
  cases hplayed : LiveHeap.playBack o before with
  | mk o' failed =>
      rw [hplayed] at hnone hbefore
      obtain rfl : failed = none := hnone
      rw [List.append_assoc] at hoffends
      have hanswer := h.answer hbefore entry
      have hsame := h.refused hbefore entry hoffends
      rw [if_pos hoffends] at hanswer
      simp only [LiveHeap.playBack]
      cases hlast : entry.playBack o' with
      | mk o'' failed =>
          rw [hlast] at hanswer hsame
          obtain rfl : failed = some entry.error := hanswer
          obtain rfl : o'' = o' := hsame
          exact ⟨rfl, hbefore⟩

theorem playSteps {told : List Entry} {o : σ} (ho : r told o)
    {steps : List (List Entry)}
    (hsound : Sound stacked (base ++ told) steps.flatten) :
    (LiveHeap.playSteps o steps).failed = none ∧
      (LiveHeap.playSteps o steps).count = steps.length ∧
      r (told ++ steps.flatten) (LiveHeap.playSteps o steps).observer := by
  have ⟨hnone, hlater⟩ := h.playBack ho hsound
  rw [playBack_flatten] at hnone hlater
  exact ⟨hnone, count_playSteps hnone, hlater⟩

theorem playSteps_offence {told : List Entry} {o : σ} (ho : r told o)
    {done : List (List Entry)} {step before : List Entry} {entry : Entry}
    (hdone : Sound stacked (base ++ told) done.flatten)
    (hfirst : FirstOffence stacked (base ++ (told ++ done.flatten)) step before
      entry) (rest : List (List Entry)) :
    (LiveHeap.playSteps o (done ++ step :: rest)).failed = some entry.error ∧
      (LiveHeap.playSteps o (done ++ step :: rest)).count = done.length ∧
      r (told ++ (done.flatten ++ before))
        (LiveHeap.playSteps o (done ++ step :: rest)).observer := by
  have ⟨hnone, hcount, hlater⟩ := h.playSteps ho hdone
  have ⟨hfailed, hend⟩ := h.playBack_offence hlater hfirst
  rw [playSteps_append, Played.andThen, hnone]
  cases hplayed : LiveHeap.playBack (LiveHeap.playSteps o done).observer step
    with
  | mk o' failed =>
      rw [hplayed] at hfailed hend
      obtain rfl : failed = some entry.error := hfailed
      simp only [playSteps_failed hplayed, hcount]
      rw [List.append_assoc] at hend
      exact ⟨trivial, rfl, hend⟩

end Foresees

end Foresees

/-- Who looks away refuses nothing. -/
theorem foresees_blind (base : List Entry) :
    Foresees false base fun _ (_ : Blind) => True where
  answer := by
    rintro told o - (e | message)
    · cases e <;> rfl
    · rfl
  accepted _ _ _ := trivial
  refused _ _ _ := rfl

/-! ## Graphs -/

namespace Graph

variable {g : Graph} {before : List Entry}

/-- The stack is as high as the pushes and pops of the entries make it. -/
def Level (g : Graph) (before : List Entry) : Prop :=
  g.frames.length + before.countP Entry.isPop = before.countP Entry.isPush

theorem Level.frames_eq_nil_iff (h : g.Level before) :
    g.frames = [] ↔
      before.countP Entry.isPop = before.countP Entry.isPush := by
  unfold Level at h
  rw [← List.length_eq_zero_iff]
  omega

theorem Level.observe (h : g.Level before) (hg : g.WellFormed) (e : Event) :
    (g.observe e).2 =
      if (Entry.report e).offends true before then some .stackUnderflow
      else none := by
  cases e with
  | pop id =>
      cases hframes : g.frames with
      | nil =>
          have hlevel := h.frames_eq_nil_iff.mp hframes
          have hrefused := deliver_pop_nil hg hframes id
          simp [Graph.observe, hrefused, Entry.offends, hlevel]
      | cons top rest =>
          have hnot : ¬ before.countP Entry.isPop =
              before.countP Entry.isPush := by
            rw [← h.frames_eq_nil_iff, hframes]
            exact List.cons_ne_nil top rest
          obtain ⟨g', hpop, _⟩ := deliver_pop_cons hg hframes id
          simp [Graph.observe, hpop, Entry.offends, hnot]
  | _ => rfl

theorem Level.apply (h : g.Level before) (hg : g.WellFormed) (e : Event)
    (hsound : (Entry.report e).offends true before = false) :
    (g.apply (.event e)).Level (before ++ [.report e]) := by
  unfold Level at h ⊢
  rw [List.countP_append, List.countP_append]
  cases e with
  | push id =>
      obtain ⟨w, v, _, _, hframes⟩ := frames_apply_push hg id
      have hpop : [Entry.report (.push id)].countP Entry.isPop = 0 := rfl
      have hpush : [Entry.report (.push id)].countP Entry.isPush = 1 := rfl
      rw [hframes, List.length_cons, hpop, hpush]
      omega
  | pop id =>
      have hframes := frames_apply_pop hg id
      have hpop : [Entry.report (.pop id)].countP Entry.isPop = 1 := rfl
      have hpush : [Entry.report (.pop id)].countP Entry.isPush = 0 := rfl
      have habove : before.countP Entry.isPop ≠
          before.countP Entry.isPush := by
        simpa [Entry.offends] using hsound
      rw [hframes, List.length_tail, hpop, hpush]
      omega
  | _ =>
      rw [frames_apply_other hg]
      · exact h
      · rfl
      · rfl

/-- The graph was opened and then told the entries, in their order and with
nothing but collections in between. -/
structure Told (opening : List Operation) (base : List Entry)
    (collects : Bool) (told : List Entry) (g : Graph) : Prop where
  made : ∃ ops, g = new.run ops ∧
    ops.filter (fun op => !op.isCollection) = opening ++ operations told ∧
    (collects = false → ops = opening ++ operations told)
  level : g.Level (base ++ told)

section Told

variable {opening : List Operation} {base told : List Entry} {collects : Bool}

theorem Told.wellFormed (h : Told opening base collects told g) :
    g.WellFormed := by
  rcases h.made with ⟨ops, rfl, _⟩
  exact wellFormed_run_new ops

theorem Told.observe (h : Told opening base collects told g) {e : Event}
    (hsound : (Entry.report e).offends true (base ++ told) = false) :
    Told opening base collects (told ++ [.report e]) (g.observe e).1 := by
  have hlevel := h.level.apply h.wellFormed e hsound
  rcases h.made with ⟨ops, hmade, hops, hall⟩
  have hnext : operations (told ++ [.report e]) =
      operations told ++ [.event e] := by
    simp [operations, Entry.operation?]
  rw [observe_fst]
  constructor
  · refine ⟨ops ++ [.event e], ?_, ?_, ?_⟩
    · rw [run_concat, ← hmade]
    · rw [List.filter_append, hops, hnext, ← List.append_assoc]
      rfl
    · intro hnever
      rw [hall hnever, hnext, List.append_assoc]
  · rwa [← List.append_assoc]

theorem Told.collect (h : Told opening base true told g) :
    Told opening base true told g.collect.1 := by
  have hframes : (g.apply .collect).frames = g.frames :=
    frames_apply_other h.wellFormed rfl rfl
  have hlevel := h.level
  unfold Level at hlevel
  rcases h.made with ⟨ops, hmade, hops, _⟩
  constructor
  · refine ⟨ops ++ [.collect], ?_, ?_, nofun⟩
    · rw [run_concat, ← hmade]
      rfl
    · rw [List.filter_append, hops]
      exact List.append_nil _
  · unfold Level
    rwa [← hframes] at hlevel

theorem foresees_told (opening : List Operation) (base : List Entry)
    (collects : Bool) : Foresees true base (Told opening base collects) where
  answer := by
    rintro told g h (e | message)
    · have hanswer := h.level.observe h.wellFormed e
      have hplayed : ((Entry.report e).playBack g).2 =
          (g.observe e).2.map EngineError.graph := rfl
      rw [hplayed, hanswer]
      split <;> rfl
    · rfl
  accepted := by
    rintro told g h (e | message) hsound
    · exact h.observe hsound
    · cases hsound
  refused := by
    rintro told g h (e | message) hoffends
    · have hanswer := h.level.observe h.wellFormed e
      rw [if_pos hoffends] at hanswer
      exact observe_of_refused hanswer
    · rfl

end Told

end Graph

end LiveHeap
