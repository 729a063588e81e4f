import LiveHeap.Proofs.Graph.Run
import LiveHeap.Session.Stepper

/-!
# What a session keeps

A machine tells its observer events, and the stepper asks it to collect.  What
these two keep is kept by every step, every batch and every session.
-/

namespace LiveHeap

variable {σ : Type} [Observer σ]

/-- The property outlives every event, refused ones included, and every
collection. -/
structure Kept (p : σ → Prop) : Prop where
  deliver : ∀ o e, p o → p (Observer.deliver o e).1
  collect : ∀ o, p o → p (Observer.collect o)

namespace Kept

variable {p : σ → Prop} {o : σ}

theorem entry (h : Kept p) (ho : p o) (entry : Entry) :
    p (entry.playBack o).1 := by
  cases entry with
  | report e => exact h.deliver o e ho
  | throw message => exact ho

theorem playBack (h : Kept p) (ho : p o) (entries : List Entry) :
    p (LiveHeap.playBack o entries).1 := by
  induction entries generalizing o with
  | nil => exact ho
  | cons entry entries ih =>
      have hfirst := h.entry ho entry
      unfold LiveHeap.playBack
      cases hplayed : entry.playBack o with
      | mk o' refused =>
          rw [hplayed] at hfirst
          cases refused with
          | none => exact ih hfirst
          | some e => exact hfirst

theorem construct (h : Kept p) (ho : p o) (engine : Engine)
    (program : Trace) : p (engine.construct program o).1 := by
  have hplayed := h.playBack ho program.bootstrap
  unfold Engine.construct
  split
  next heq =>
    rw [heq] at hplayed
    exact hplayed
  next heq =>
    rw [heq] at hplayed
    exact hplayed

/-- A session opens with its observer as it was, if the source is no program,
or as the bootstrap leaves it. -/
theorem openSession (h : Kept p) {q : σ → Prop} (ho : q o)
    (henter : p (Observer.enterBootstrap o))
    (hleave : ∀ o, p o → ∀ builtins global,
      q (Observer.leaveBootstrap o builtins global))
    (engine : Engine) (source : String) :
    q (engine.openSession source o).2 := by
  unfold Engine.openSession
  cases engine.parse source with
  | error e => exact ho
  | ok program =>
      have hbooted := h.construct henter engine program
      simp only
      split
      next heq =>
        rw [heq] at hbooted
        exact hleave _ hbooted [] none
      next m heq =>
        rw [heq] at hbooted
        exact hleave _ hbooted m.builtins m.global

theorem advance (h : Kept p) (ho : p o) (m : Machine) :
    p (m.advance o).2.1 := by
  unfold Machine.advance
  split
  next => exact ho
  next entries _ =>
    have hplayed := h.playBack ho entries
    split
    next heq =>
      rw [heq] at hplayed
      exact hplayed
    next heq =>
      rw [heq] at hplayed
      exact hplayed

theorem run (h : Kept p) (ho : p o) (limit : Nat) (m : Machine) :
    p (m.run limit o).observer := by
  induction limit generalizing m o with
  | zero => exact ho
  | succ limit ih =>
      have hstep := h.advance ho m
      unfold Machine.run
      cases hadvance : m.advance o with
      | mk m' rest =>
          rw [hadvance] at hstep
          obtain ⟨o', a⟩ := rest
          cases a with
          | moved => exact ih hstep m'
          | exhausted => exact hstep
          | failed e => exact hstep

theorem collectAtBoundary (h : Kept p) {s : Stepper σ} (hs : p s.observer) :
    p s.collectAtBoundary.observer := by
  unfold Stepper.collectAtBoundary
  split
  · exact h.collect s.observer hs
  · exact hs

theorem runMachine (h : Kept p) {s : Stepper σ} (hs : p s.observer)
    (m : Machine) : p (s.runMachine m).1.observer := by
  have hrun := h.run hs s.batchSize m
  unfold Stepper.runMachine
  simp only
  split
  next => exact hrun
  next =>
    apply h.collectAtBoundary
    exact hrun
  next =>
    apply h.collectAtBoundary
    exact hrun

theorem runBatch (h : Kept p) {s : Stepper σ} (hs : p s.observer) :
    p s.runBatch.1.observer := by
  unfold Stepper.runBatch
  split
  · exact hs
  · cases s.session with
    | error e => exact hs
    | ok m => exact h.runMachine hs m

end Kept

/-! ## Graphs as observers -/

namespace Graph

theorem observe_fst (g : Graph) (e : Event) :
    (g.observe e).1 = g.apply (.event e) := by
  unfold observe apply
  simp only
  cases g.deliver e <;> rfl

/-- What the operations for events and for collections keep. -/
theorem kept_of_apply {p : Graph → Prop}
    (hevent : ∀ g e, p g → p (g.apply (.event e)))
    (hcollect : ∀ g : Graph, p g → p (g.apply .collect)) :
    Kept p where
  deliver g e hg := by
    have hsame : (Observer.deliver g e).1 = g.apply (.event e) :=
      observe_fst g e
    rw [hsame]
    exact hevent g e hg
  collect g hg := hcollect g hg

end Graph

end LiveHeap
