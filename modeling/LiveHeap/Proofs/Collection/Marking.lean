import LiveHeap.Collection.Collector
import Mathlib.Tactic

/-!
# What marking reaches

`Scene.Traced` is the least set of vertices that the walk of a scene goes
through, and `Scene.Kept` adds the pinned vertices to it.  The invariant
`Marking` holds after the root scan and is kept by tracing one gray vertex.
Once the gray queue is empty it says that exactly the kept vertices are marked.
-/

namespace LiveHeap

/-- A vertex is visited by a root script before the script pins it, if the
script pins it at all. -/
def FirstVisit (calls : List RootCall) (v : Handle) : Prop :=
  ∃ before after, calls = before ++ .visit v :: after ∧ .pin v ∉ before

theorem not_firstVisit_nil (v : Handle) : ¬ FirstVisit [] v := by
  rintro ⟨before, after, hcalls, _⟩
  simp at hcalls

theorem firstVisit_visit_cons {calls : List RootCall} {v w : Handle} :
    FirstVisit (.visit w :: calls) v ↔ v = w ∨ FirstVisit calls v := by
  constructor
  · rintro ⟨before, after, hcalls, hpin⟩
    cases before with
    | nil =>
        left
        simpa using (List.cons.inj hcalls).1.symm
    | cons call before =>
        right
        refine ⟨before, after, (List.cons.inj hcalls).2, ?_⟩
        exact fun hmem => hpin (List.mem_cons_of_mem call hmem)
  · rintro (rfl | ⟨before, after, rfl, hpin⟩)
    · exact ⟨[], calls, rfl, List.not_mem_nil⟩
    · exact ⟨.visit w :: before, after, rfl, by simpa using hpin⟩

theorem firstVisit_pin_cons {calls : List RootCall} {v w : Handle} :
    FirstVisit (.pin w :: calls) v ↔ v ≠ w ∧ FirstVisit calls v := by
  constructor
  · rintro ⟨before, after, hcalls, hpin⟩
    cases before with
    | nil => simp at hcalls
    | cons call before =>
        obtain ⟨rfl, hrest⟩ := List.cons.inj hcalls
        rw [List.mem_cons, not_or] at hpin
        exact ⟨by simpa using hpin.1, before, after, hrest, hpin.2⟩
  · rintro ⟨hne, before, after, rfl, hpin⟩
    exact ⟨.pin w :: before, after, rfl, by simpa [hne] using hpin⟩

theorem FirstVisit.mem {calls : List RootCall} {v : Handle}
    (hfirst : FirstVisit calls v) : .visit v ∈ calls := by
  obtain ⟨before, after, rfl, _⟩ := hfirst
  simp

theorem firstVisit_of_not_pin {calls : List RootCall} {v : Handle}
    (hvisit : .visit v ∈ calls) (hpin : .pin v ∉ calls) :
    FirstVisit calls v := by
  obtain ⟨before, after, rfl⟩ := List.append_of_mem hvisit
  exact ⟨before, after, rfl, fun hmem => hpin (List.mem_append_left _ hmem)⟩

namespace Scene

def Pinned (s : Scene) (v : Handle) : Prop := .pin v ∈ s.roots

/-- The vertices whose children a collection visits. -/
inductive Traced (s : Scene) : Handle → Prop
  | root {v : Handle} : FirstVisit s.roots v → s.Traced v
  | child {v w : Handle} :
      s.Traced v → w ∈ s.childrenOf v → ¬ s.Pinned w → s.Traced w

/-- The vertices that a collection leaves marked. -/
def Kept (s : Scene) (v : Handle) : Prop := s.Traced v ∨ s.Pinned v

end Scene

namespace Marks

@[simp] theorem isMarked_empty (v : Handle) : empty.isMarked v = false := rfl

theorem isMarked_pin (m : Marks) (v w : Handle) :
    (m.pin v).isMarked w = (decide (w = v) || m.isMarked w) := by
  by_cases h : m.isMarked v
  · rw [pin, if_pos h]
    by_cases hw : w = v <;> simp [hw, h]
  · rw [pin, if_neg h]
    exact isMarked_insert m v w .black

theorem queue_pin (m : Marks) (v : Handle) : (m.pin v).queue = m.queue := by
  unfold pin
  split <;> rfl

theorem mem_queue_visit {m : Marks} {v w : Handle} :
    w ∈ (m.visit v).queue ↔
      w ∈ m.queue ∨ (w = v ∧ m.isMarked w = false) := by
  by_cases h : m.isMarked v
  · rw [visit, if_pos h]
    constructor
    · exact Or.inl
    · rintro (hw | ⟨rfl, hw⟩)
      · exact hw
      · rw [h] at hw
        contradiction
  · rw [visit, if_neg h]
    simp only [List.mem_append, List.mem_singleton]
    constructor
    · rintro (hw | rfl)
      · exact Or.inl hw
      · exact Or.inr ⟨rfl, by simpa using h⟩
    · exact fun hw => hw.imp id And.left

/-- The vertex that is taken off the queue stays marked, and all other marks
stay as they are. -/
theorem pop_eq_some {m m' : Marks} {v : Handle}
    (hpop : m.pop = some (v, m')) :
    m.queue = v :: m'.queue ∧
      ∀ w, m'.isMarked w = true ↔ w = v ∨ m.isMarked w = true := by
  unfold pop at hpop
  cases hqueue : m.queue with
  | nil => simp [hqueue] at hpop
  | cons u waiting =>
      simp only [hqueue, Option.some.injEq, Prod.mk.injEq] at hpop
      obtain ⟨rfl, rfl⟩ := hpop
      refine ⟨rfl, fun w => ?_⟩
      rw [isMarked, isMarked_insert]
      simp

theorem isMarked_visitAll (m : Marks) (vs : List Handle) (w : Handle) :
    (m.visitAll vs).isMarked w = true ↔ w ∈ vs ∨ m.isMarked w = true := by
  induction vs generalizing m with
  | nil => simp [visitAll]
  | cons v vs ih =>
      have hrest := ih (m.visit v)
      unfold visitAll at hrest ⊢
      rw [List.foldl_cons, hrest, isMarked_visit]
      simp only [Bool.or_eq_true, decide_eq_true_eq, List.mem_cons]
      tauto

theorem mem_queue_visitAll {m : Marks} {vs : List Handle} {w : Handle} :
    w ∈ (m.visitAll vs).queue ↔
      w ∈ m.queue ∨ (w ∈ vs ∧ m.isMarked w = false) := by
  induction vs generalizing m with
  | nil => simp [visitAll]
  | cons v vs ih =>
      have hrest := ih (m := m.visit v)
      unfold visitAll at hrest ⊢
      rw [List.foldl_cons, hrest, mem_queue_visit, isMarked_visit]
      simp only [Bool.or_eq_false_iff, decide_eq_false_iff_not, List.mem_cons]
      tauto

end Marks

theorem Bench.isMarked_scanRoots (m : Marks) (calls : List RootCall)
    (v : Handle) :
    (calls.foldl Bench.scanRoot m).isMarked v = true ↔
      .visit v ∈ calls ∨ .pin v ∈ calls ∨ m.isMarked v = true := by
  induction calls generalizing m with
  | nil => simp
  | cons call calls ih =>
      rw [List.foldl_cons, ih]
      cases call with
      | visit w =>
          simp only [Bench.scanRoot, Marks.isMarked_visit, Bool.or_eq_true,
            decide_eq_true_eq, List.mem_cons, RootCall.visit.injEq,
            reduceCtorEq, false_or]
          tauto
      | pin w =>
          simp only [Bench.scanRoot, Marks.isMarked_pin, Bool.or_eq_true,
            decide_eq_true_eq, List.mem_cons, RootCall.pin.injEq,
            reduceCtorEq, false_or]
          tauto

theorem Bench.mem_queue_scanRoots {m : Marks} {calls : List RootCall}
    {v : Handle} :
    v ∈ (calls.foldl Bench.scanRoot m).queue ↔
      v ∈ m.queue ∨ (m.isMarked v = false ∧ FirstVisit calls v) := by
  induction calls generalizing m with
  | nil => simp [not_firstVisit_nil]
  | cons call calls ih =>
      rw [List.foldl_cons, ih]
      cases call with
      | visit w =>
          simp only [Bench.scanRoot, Marks.mem_queue_visit,
            Marks.isMarked_visit, firstVisit_visit_cons, Bool.or_eq_false_iff,
            decide_eq_false_iff_not]
          tauto
      | pin w =>
          simp only [Bench.scanRoot, Marks.queue_pin, Marks.isMarked_pin,
            firstVisit_pin_cons, Bool.or_eq_false_iff,
            decide_eq_false_iff_not]
          tauto

/-- What holds of the marks while a scene is being marked.  A traced vertex
that is marked either waits in the gray queue or has all its children
marked. -/
structure Marking (s : Scene) (m : Marks) : Prop where
  kept : ∀ v, m.isMarked v = true → s.Kept v
  pinned : ∀ v, s.Pinned v → m.isMarked v = true
  root : ∀ v, FirstVisit s.roots v → m.isMarked v = true
  waiting : ∀ v ∈ m.queue, s.Traced v
  closed : ∀ v, s.Traced v → m.isMarked v = true → v ∉ m.queue →
    ∀ w ∈ s.childrenOf v, m.isMarked w = true

theorem Marking.scanRoots (s : Scene) :
    Marking s (s.roots.foldl Bench.scanRoot Marks.empty) := by
  have hmarked : ∀ v,
      (s.roots.foldl Bench.scanRoot Marks.empty).isMarked v = true ↔
        .visit v ∈ s.roots ∨ .pin v ∈ s.roots := by
    intro v
    simp [Bench.isMarked_scanRoots]
  have hqueue : ∀ v,
      v ∈ (s.roots.foldl Bench.scanRoot Marks.empty).queue ↔
        FirstVisit s.roots v := by
    intro v
    rw [Bench.mem_queue_scanRoots]
    simp [Marks.empty, Marks.isMarked, Table.contains]
  constructor
  · intro v hv
    by_cases hpin : s.Pinned v
    · exact Or.inr hpin
    · have hvisit := ((hmarked v).mp hv).resolve_right hpin
      exact Or.inl (.root (firstVisit_of_not_pin hvisit hpin))
  · exact fun v hpin => (hmarked v).mpr (Or.inr hpin)
  · exact fun v hfirst => (hmarked v).mpr (Or.inl hfirst.mem)
  · exact fun v hv => .root ((hqueue v).mp hv)
  · -- After the scan every traced vertex with a mark is still waiting.
    intro v htraced hv hwait
    exfalso
    apply hwait
    rw [hqueue]
    cases htraced with
    | root hfirst => exact hfirst
    | child _ _ hpin =>
        exact firstVisit_of_not_pin
          (((hmarked v).mp hv).resolve_right hpin) hpin

theorem Marking.traceNext {s : Scene} {m m' : Marks} {v : Handle}
    (hm : Marking s m) (hpop : m.pop = some (v, m')) :
    Marking s (m'.visitAll (s.childrenOf v)) := by
  obtain ⟨hqueue, hmarked⟩ := Marks.pop_eq_some hpop
  have hv : s.Traced v := hm.waiting v (by simp [hqueue])
  have hnew : ∀ w ∈ s.childrenOf v, m.isMarked w = false → s.Traced w := by
    intro w hw hwhite
    refine .child hv hw fun hpin => ?_
    rw [hm.pinned w hpin] at hwhite
    contradiction
  have hafter : ∀ w, (m'.visitAll (s.childrenOf v)).isMarked w = true ↔
      w ∈ s.childrenOf v ∨ w = v ∨ m.isMarked w = true := by
    intro w
    rw [Marks.isMarked_visitAll, hmarked]
  constructor
  · intro w hw
    by_cases hold : m.isMarked w = true
    · exact hm.kept w hold
    · rcases (hafter w).mp hw with hchild | rfl | hmark
      · exact Or.inl (hnew w hchild (by simpa using hold))
      · exact Or.inl hv
      · exact absurd hmark hold
  · exact fun w hpin => (hafter w).mpr (Or.inr (Or.inr (hm.pinned w hpin)))
  · exact fun w hfirst => (hafter w).mpr (Or.inr (Or.inr (hm.root w hfirst)))
  · intro w hw
    rcases Marks.mem_queue_visitAll.mp hw with hold | ⟨hchild, hwhite⟩
    · exact hm.waiting w (by simp [hqueue, hold])
    · refine hnew w hchild ?_
      cases hold : m.isMarked w with
      | false => rfl
      | true => rw [(hmarked w).mpr (Or.inr hold)] at hwhite; contradiction
  · intro w htraced hw hwait u hu
    rw [Marks.mem_queue_visitAll, not_or, not_and] at hwait
    by_cases hwv : w = v
    · subst hwv
      exact (hafter u).mpr (Or.inl hu)
    · -- A vertex marked in this very step would be waiting.
      have hold : m.isMarked w = true := by
        rcases (hafter w).mp hw with hchild | heq | hmark
        · have := hwait.2 hchild
          simpa [hmarked, hwv] using this
        · exact absurd heq hwv
        · exact hmark
      have hnot : w ∉ m.queue := by
        rw [hqueue, List.mem_cons, not_or]
        exact ⟨hwv, hwait.1⟩
      exact (hafter u).mpr (Or.inr (Or.inr (hm.closed w htraced hold hnot u hu)))

/-- When no gray vertex is left, the marks are exactly the kept vertices. -/
theorem Marking.isMarked_iff {s : Scene} {m : Marks} (hm : Marking s m)
    (hqueue : m.queue = []) (v : Handle) : m.isMarked v = true ↔ s.Kept v := by
  have htraced : ∀ w, s.Traced w → m.isMarked w = true := by
    intro w hw
    induction hw with
    | root hfirst => exact hm.root _ hfirst
    | @child u w hu hchild _ ih =>
        exact hm.closed u hu ih (by simp [hqueue]) w hchild
  constructor
  · exact hm.kept v
  · rintro (hv | hv)
    · exact htraced v hv
    · exact hm.pinned v hv

theorem Marking.trace {s scene : Scene} (hchildren : scene.children = s.children)
    (limit : Nat) {m : Marks} (hm : Marking s m) (traced : List Handle) :
    Marking s (Bench.trace scene limit m traced).1 := by
  induction limit generalizing m traced with
  | zero => exact hm
  | succ limit ih =>
      cases hpop : m.pop with
      | none => simpa [Bench.trace, hpop] using hm
      | some next =>
          obtain ⟨v, m'⟩ := next
          have hnext := hm.traceNext hpop
          have hsame : scene.childrenOf v = s.childrenOf v := by
            rw [Scene.childrenOf, Scene.childrenOf, hchildren]
          simp only [Bench.trace, hpop, hsame]
          exact ih hnext (traced ++ [v])

theorem Bench.queue_of_drained (scene : Scene) (limit : Nat) (m : Marks)
    (traced : List Handle) (hdrained : (trace scene limit m traced).2.2 = true) :
    (trace scene limit m traced).1.queue = [] := by
  induction limit generalizing m traced with
  | zero => simp [trace] at hdrained
  | succ limit ih =>
      cases hq : m.queue with
      | nil => simp [trace, Marks.pop, hq]
      | cons v waiting =>
          simp only [trace, Marks.pop, hq] at hdrained ⊢
          exact ih _ _ hdrained

end LiveHeap
