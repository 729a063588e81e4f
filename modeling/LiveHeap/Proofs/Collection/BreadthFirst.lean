import LiveHeap.Proofs.Collection.Drift
import LiveHeap.Proofs.Collection.Suspension
import Mathlib.Order.Bounds.Basic

/-!
# Marking goes breadth first

The distance of a vertex is the length of a shortest path that leads to it from
a visited root past the vertices that are pinned before they are visited.  A
cycle traces vertices in the order of their distance, for two reasons.  What is
traced and what waits, in this order, never comes nearer to the roots, and what
waits is at most one edge farther than the vertex that waits in front.  No
distance has to be stored for this: a vertex is as near as another one if every
path to the other one is at least as long as some path to the first.
-/

namespace LiveHeap

namespace Scene

/-- A path of so many edges leads to the vertex from a visited root and meets
only vertices that are not pinned before they are visited. -/
inductive PathTo (s : Scene) : Nat → Handle → Prop
  | root {v : Handle} : FirstVisit s.roots v → s.PathTo 0 v
  | child {n : Nat} {v w : Handle} :
      s.PathTo n v → w ∈ s.childrenOf v → ¬ FirstPin s.roots w →
      s.PathTo (n + 1) w

/-- The length of a shortest path to the vertex. -/
def Distance (s : Scene) (v : Handle) (n : Nat) : Prop :=
  IsLeast {k | s.PathTo k v} n

/-- The first vertex is at most as far from the roots as the second one. -/
def AsNear (s : Scene) (v w : Handle) : Prop :=
  ∀ n, s.PathTo n w → ∃ k ≤ n, s.PathTo k v

variable {s : Scene} {u v w : Handle}

theorem AsNear.refl (s : Scene) (v : Handle) : s.AsNear v v :=
  fun n hpath => ⟨n, Nat.le_refl n, hpath⟩

theorem AsNear.le_of_distance (h : s.AsNear v w) {m n : Nat}
    (hm : s.Distance v m) (hn : s.Distance w n) : m ≤ n := by
  obtain ⟨k, hk, hpath⟩ := h n hn.1
  exact (hm.2 hpath).trans hk

theorem exists_distance (hpath : ∃ n, s.PathTo n v) : ∃ n, s.Distance v n := by
  classical
  exact ⟨Nat.find hpath, Nat.find_spec hpath,
    fun _ hk => Nat.find_min' hpath hk⟩

/-- The traced vertices are those that a path leads to.  A child that is pinned,
but not before it is visited, is a root itself. -/
theorem traced_iff_pathTo : s.Traced v ↔ ∃ n, s.PathTo n v := by
  constructor
  · intro htraced
    induction htraced with
    | root hfirst => exact ⟨0, .root hfirst⟩
    | child _ hchild hpin ih =>
        obtain ⟨n, hpath⟩ := ih
        exact ⟨n + 1, .child hpath hchild fun hfirst => hpin hfirst.mem⟩
  · rintro ⟨n, hpath⟩
    induction hpath with
    | root hfirst => exact .root hfirst
    | @child n v w _ hchild hfree ih =>
        by_cases hpin : s.Pinned w
        · exact .root ((firstVisit_iff_not_firstPin (Or.inr hpin)).mpr hfree)
        · exact .child ih hchild hpin

theorem traced_iff_distance : s.Traced v ↔ ∃ n, s.Distance v n := by
  rw [traced_iff_pathTo]
  exact ⟨exists_distance, fun ⟨n, hn⟩ => ⟨n, hn.1⟩⟩

/-- The vertices are pairwise distinct, each of them has a distance, and none
stands before one that is nearer. -/
structure InBreadthFirstOrder (s : Scene) (traced : List Handle) : Prop where
  nodup : traced.Nodup
  distance : ∀ v ∈ traced, ∃ n, s.Distance v n
  ordered : traced.Pairwise fun v w =>
    ∀ m n, s.Distance v m → s.Distance w n → m ≤ n

end Scene

namespace Marks

theorem queue_prefix_visit (m : Marks) (v : Handle) :
    m.queue <+: (m.visit v).queue := by
  unfold visit
  split
  · exact List.prefix_refl _
  · exact List.prefix_append _ _

theorem queue_prefix_visitAll (m : Marks) (vs : List Handle) :
    m.queue <+: (m.visitAll vs).queue := by
  induction vs generalizing m with
  | nil => exact List.prefix_refl _
  | cons v vs ih => exact (m.queue_prefix_visit v).trans (ih (m.visit v))

/-- What visits put behind the waiting vertices had no mark. -/
theorem Consistent.exists_queue_visitAll {m : Marks} (hm : m.Consistent)
    (vs : List Handle) :
    ∃ new, (m.visitAll vs).queue = m.queue ++ new ∧
      ∀ w ∈ new, w ∈ vs ∧ m.isMarked w = false := by
  obtain ⟨new, hqueue⟩ := m.queue_prefix_visitAll vs
  refine ⟨new, hqueue.symm, fun w hw => ?_⟩
  have hnodup := (hm.visitAll vs).nodup
  rw [← hqueue, List.nodup_append'] at hnodup
  have hwaits : w ∈ (m.visitAll vs).queue := by
    rw [← hqueue]
    exact List.mem_append_right _ hw
  exact (mem_queue_visitAll.mp hwaits).resolve_left
    fun hold => hnodup.2.2 hold hw

end Marks

/-! ## The queue -/

/-- What is traced and what waits come in the order of their distance, and what
waits is at most one edge farther than the vertex in front. -/
structure BreadthFirst (s : Scene) (m : Marks) (traced : List Handle) : Prop
    extends TracedOnce s m traced where
  ordered : (traced ++ m.queue).Pairwise s.AsNear
  span : ∀ v waiting, m.queue = v :: waiting → ∀ w ∈ waiting, ∀ n,
    s.PathTo n v → ∃ k ≤ n + 1, s.PathTo k w

theorem BreadthFirst.scanRoots (s : Scene) :
    BreadthFirst s (s.roots.foldl Bench.scanRoot Marks.empty) [] := by
  have hroot : ∀ v ∈ (s.roots.foldl Bench.scanRoot Marks.empty).queue,
      s.PathTo 0 v := by
    intro v hv
    rcases Bench.mem_queue_scanRoots.mp hv with hnone | ⟨_, hfirst⟩
    · exact absurd hnone List.not_mem_nil
    · exact .root hfirst
  refine ⟨.scanRoots s, ?_, ?_⟩
  · rw [List.nil_append]
    apply List.pairwise_of_forall_mem_list
    intro v hv w _ n _
    exact ⟨0, Nat.zero_le n, hroot v hv⟩
  · intro v waiting hqueue w hw n _
    refine ⟨0, Nat.zero_le _, hroot w ?_⟩
    rw [hqueue]
    exact List.mem_cons_of_mem v hw

/-- A path to a vertex without a mark goes through a waiting vertex. -/
theorem Marking.exists_waiting {s : Scene} {m : Marks} (hm : Marking s m)
    {n : Nat} {w : Handle} (hpath : s.PathTo n w)
    (hwhite : m.isMarked w = false) : ∃ v ∈ m.queue, ∃ k < n, s.PathTo k v := by
  induction hpath with
  | root hfirst =>
      rw [hm.root _ hfirst] at hwhite
      contradiction
  | @child n u w hu hchild _ ih =>
      cases hmarked : m.isMarked u with
      | false =>
          obtain ⟨v, hv, k, hk, hpath⟩ := ih hmarked
          exact ⟨v, hv, k, hk.trans (Nat.lt_succ_self n), hpath⟩
      | true =>
          refine ⟨u, ?_, n, Nat.lt_succ_self n, hu⟩
          by_contra hwait
          have htraced := Scene.traced_iff_pathTo.mpr ⟨n, hu⟩
          rw [hm.closed u htraced hmarked hwait w hchild] at hwhite
          contradiction

section Next

variable {s : Scene} {m m' : Marks} {v w : Handle} {traced : List Handle}
  (hb : BreadthFirst s m traced) (hm : Marking s m)
  (hpop : m.pop = some (v, m'))

include hb hpop

theorem BreadthFirst.front_asNear {u : Handle} (hu : u ∈ m.queue) :
    s.AsNear v u := by
  have hqueue := (Marks.pop_eq_some hpop).1
  have hordered := (List.pairwise_append.mp hb.ordered).2.1
  rw [hqueue, List.pairwise_cons] at hordered
  rw [hqueue, List.mem_cons] at hu
  rcases hu with rfl | hu
  · exact .refl s u
  · exact hordered.1 u hu

include hm

/-- A path to a vertex without a mark is longer than some path to the vertex in
front. -/
theorem BreadthFirst.front_nearer (hwhite : m.isMarked w = false) {n : Nat}
    (hpath : s.PathTo n w) : ∃ k < n, s.PathTo k v := by
  obtain ⟨u, hu, j, hj, hpath⟩ := hm.exists_waiting hpath hwhite
  obtain ⟨k, hk, hpath⟩ := hb.front_asNear hpop hu j hpath
  exact ⟨k, hk.trans_lt hj, hpath⟩

/-- All that is traced or waits is as near as a vertex without a mark. -/
theorem BreadthFirst.asNear_white (hwhite : m.isMarked w = false) {u : Handle}
    (hu : u ∈ traced ++ m.queue) : s.AsNear u w := by
  have hqueue := (Marks.pop_eq_some hpop).1
  intro n hpath
  obtain ⟨k, hk, hfront⟩ := hb.front_nearer hm hpop hwhite hpath
  rcases List.mem_append.mp hu with htraced | hwait
  · have hfront' : v ∈ m.queue := by simp [hqueue]
    have hnear := (List.pairwise_append.mp hb.ordered).2.2 u htraced v hfront'
    obtain ⟨j, hj, hpath⟩ := hnear k hfront
    exact ⟨j, hj.trans hk.le, hpath⟩
  · rw [hqueue, List.mem_cons] at hwait
    rcases hwait with rfl | hwait
    · exact ⟨k, hk.le, hfront⟩
    · obtain ⟨j, hj, hpath⟩ := hb.span v m'.queue hqueue u hwait k hfront
      exact ⟨j, hj.trans hk, hpath⟩

theorem BreadthFirst.traceNext :
    BreadthFirst s (m'.visitAll (s.childrenOf v)) (traced ++ [v]) := by
  have ⟨hqueue, hmarked⟩ := Marks.pop_eq_some hpop
  obtain ⟨new, hafter, hnew⟩ :=
    (hb.consistent.pop hpop).1.exists_queue_visitAll (s.childrenOf v)
  have hwhite : ∀ w ∈ new, m.isMarked w = false := by
    intro w hw
    have hfresh := (hnew w hw).2
    rw [← Bool.not_eq_true, hmarked, not_or, Bool.not_eq_true] at hfresh
    exact hfresh.2
  -- A new vertex is one edge farther than the vertex in front.
  have hchild : ∀ w ∈ new, ∀ k, s.PathTo k v → s.PathTo (k + 1) w := by
    intro w hw k hpath
    refine .child hpath (hnew w hw).1 fun hfirst => ?_
    have hmark := hm.pinned w hfirst.mem
    rw [hwhite w hw] at hmark
    contradiction
  have hsplit : traced ++ [v] ++ (m'.visitAll (s.childrenOf v)).queue =
      (traced ++ m.queue) ++ new := by
    rw [hafter, hqueue]
    simp
  have hold : ∀ u ∈ traced ++ m.queue, ∀ w ∈ new, s.AsNear u w :=
    fun u hu w hw => hb.asNear_white hm hpop (hwhite w hw) hu
  refine ⟨hb.toTracedOnce.traceNext hm hpop, ?_, ?_⟩
  · rw [hsplit, List.pairwise_append]
    refine ⟨hb.ordered, ?_, hold⟩
    apply List.pairwise_of_forall_mem_list
    intro u hu w hw n hpath
    obtain ⟨k, hk, hfront⟩ := hb.front_nearer hm hpop (hwhite w hw) hpath
    exact ⟨k + 1, hk, hchild u hu k hfront⟩
  · -- The vertex that waits in front now is as far as the one taken off.
    intro q waiting hfront w hw n hpath
    have hmem : ∀ u ∈ q :: waiting, u ∈ m'.queue ∨ u ∈ new := by
      intro u hu
      rwa [← hfront, hafter, List.mem_append] at hu
    have hnear : s.AsNear v q := by
      rcases hmem q List.mem_cons_self with hq | hq
      · exact hb.front_asNear hpop (by simp [hqueue, hq])
      · exact hold v (by simp [hqueue]) q hq
    obtain ⟨k, hk, hfirst⟩ := hnear n hpath
    rcases hmem w (List.mem_cons_of_mem q hw) with hwait | hlast
    · obtain ⟨j, hj, hpath⟩ := hb.span v m'.queue hqueue w hwait k hfirst
      exact ⟨j, hj.trans (Nat.succ_le_succ hk), hpath⟩
    · exact ⟨k + 1, Nat.succ_le_succ hk, hchild w hlast k hfirst⟩

end Next

theorem BreadthFirst.trace {s scene : Scene}
    (hchildren : scene.children = s.children) (limit : Nat) {m : Marks}
    {traced : List Handle} (hb : BreadthFirst s m traced) (hm : Marking s m)
    (before : List Handle) :
    ∃ traced', (Bench.trace scene limit m (before ++ traced)).2.1 =
        before ++ traced' ∧
      BreadthFirst s (Bench.trace scene limit m (before ++ traced)).1
        traced' := by
  induction limit generalizing m traced with
  | zero => exact ⟨traced, rfl, hb⟩
  | succ limit ih =>
      cases hpop : m.pop with
      | none =>
          simp only [Bench.trace, hpop]
          exact ⟨traced, rfl, hb⟩
      | some next =>
          have hsame : scene.childrenOf next.1 = s.childrenOf next.1 := by
            rw [Scene.childrenOf, Scene.childrenOf, hchildren]
          have hrest := ih (hb.traceNext hm hpop) (hm.traceNext hpop)
          simp only [Bench.trace, hpop, List.append_assoc, hsame]
          exact hrest

theorem BreadthFirst.inOrder {s : Scene} {m : Marks} {traced : List Handle}
    (hb : BreadthFirst s m traced) : s.InBreadthFirstOrder traced where
  nodup := hb.nodup
  distance v hv :=
    Scene.traced_iff_distance.mp ((hb.mem_iff v).mp hv).1
  ordered := by
    have hordered := (List.pairwise_append.mp hb.ordered).1
    exact hordered.imp fun hnear _ _ => hnear.le_of_distance

namespace Bench

/-! ## A cycle in pieces -/

/-- The operations that leave the scene alone, but for what they release. -/
def Operation.isCall : Operation → Bool
  | .start | .step | .finish | .collect | .takeRemoved => true
  | _ => false

/-- Each of the operations finds the collector in a cycle. -/
def InCycle (b : Bench) : List Operation → Prop
  | [] => True
  | op :: ops =>
      b.collector.inProgress = true ∧ InCycle (b.perform op).1 ops

instance decidableInCycle :
    (b : Bench) → (ops : List Operation) → Decidable (b.InCycle ops)
  | _, [] => isTrue trivial
  | b, op :: ops =>
      have := decidableInCycle (b.perform op).1 ops
      inferInstanceAs (Decidable (_ ∧ _))

/-- What holds throughout a cycle on a scene, whatever is taken from the
collector in between. -/
structure BreadthFirstOn (s : Scene) (log : List Handle) (b : Bench) :
    Prop where
  children : b.scene.children = s.children
  scanned : b.collector.phase ≠ .rootScanning
  marking : Marking s b.collector.marks
  traced : ∃ traced, b.traced = log ++ traced ∧
    BreadthFirst s b.collector.marks traced
  drained : b.collector.phase ≠ .marking → b.collector.marks.queue = []

theorem breadthFirstOn_start (b : Bench) (hidle : b.collector.phase = .idle) :
    BreadthFirstOn b.scene b.traced b.start := by
  have hcycle := cycleOn_start b hidle
  have hmarks : b.start.collector.marks =
      b.scene.roots.foldl scanRoot Marks.empty := by
    simp [start, Collector.inProgress, hidle]
  have hlog : b.start.traced = b.traced := by
    simp [start, Collector.inProgress, hidle]
  constructor
  · rw [hcycle.scene]
    rfl
  · exact hcycle.scanned
  · exact hcycle.marking
  · refine ⟨[], hlog.trans (List.append_nil _).symm, ?_⟩
    rw [hmarks]
    exact .scanRoots b.scene
  · exact hcycle.drained

namespace BreadthFirstOn

variable {s : Scene} {log : List Handle} {b : Bench}

theorem markStep (h : BreadthFirstOn s log b)
    (hphase : b.collector.phase = .marking) :
    BreadthFirstOn s log b.markStep := by
  obtain ⟨traced, hlog, hb⟩ := h.traced
  have hmarking := h.marking.trace h.children Collector.stepSize b.traced
  have htraced := hb.trace h.children Collector.stepSize h.marking log
  rw [← hlog] at htraced
  have hqueue := queue_of_drained b.scene Collector.stepSize b.collector.marks
    b.traced
  unfold Bench.markStep
  simp only
  split
  next hend =>
    exact ⟨h.children, nofun, hmarking, htraced, fun _ => hqueue hend⟩
  next =>
    exact ⟨h.children, h.scanned, hmarking, htraced,
      fun hnot => absurd hphase hnot⟩

theorem sweepStep (h : BreadthFirstOn s log b)
    (hphase : b.collector.phase = .sweeping) :
    BreadthFirstOn s log b.sweepStep := by
  have hqueue := h.drained (by simp [hphase])
  unfold Bench.sweepStep
  simp only
  split
  next => exact ⟨h.children, nofun, h.marking, h.traced, fun _ => hqueue⟩
  next => exact ⟨h.children, h.scanned, h.marking, h.traced, fun _ => hqueue⟩

theorem step (h : BreadthFirstOn s log b) : BreadthFirstOn s log b.step.1 := by
  unfold Bench.step
  cases hphase : b.collector.phase with
  | idle => exact h
  | rootScanning => exact absurd hphase h.scanned
  | marking => exact h.markStep hphase
  | sweeping => exact h.sweepStep hphase

theorem finish (h : BreadthFirstOn s log b) :
    BreadthFirstOn s log b.finish.1 := by
  induction b using Bench.finish.induct with
  | case1 b hmore ih =>
      rw [Bench.finish, dif_pos hmore]
      exact ih h.step
  | case2 b hover =>
      rw [Bench.finish, dif_neg hover]
      exact h.step

theorem takeRemoved (h : BreadthFirstOn s log b) :
    BreadthFirstOn s log b.takeRemoved.1 :=
  ⟨h.children, h.scanned, h.marking, h.traced, h.drained⟩

theorem perform (h : BreadthFirstOn s log b)
    (hrunning : b.collector.inProgress = true) {op : Operation}
    (hop : op.isCall = true) : BreadthFirstOn s log (b.perform op).1 := by
  cases op with
  | start =>
      change BreadthFirstOn s log b.start
      rwa [start_of_inProgress hrunning]
  | step => exact h.step
  | finish => exact h.finish
  | collect =>
      change BreadthFirstOn s log b.start.finish.1.takeRemoved.1
      rw [start_of_inProgress hrunning]
      exact h.finish.takeRemoved
  | takeRemoved => exact h.takeRemoved
  | addLive v => contradiction
  | setChildren v children => contradiction
  | setRoots roots => contradiction

theorem run (h : BreadthFirstOn s log b) {ops : List Operation}
    (hops : ∀ op ∈ ops, op.isCall = true) (hcycle : b.InCycle ops) :
    BreadthFirstOn s log (b.run ops) := by
  induction ops generalizing b with
  | nil => exact h
  | cons op ops ih =>
      rw [List.forall_mem_cons] at hops
      exact ih (h.perform hcycle.1 hops.1) hops.2 hcycle.2

end BreadthFirstOn

/-- A cycle traces vertices in the order of their distance and none of them
twice, wherever it is cut into pieces.  Once it no longer marks, all vertices
that have a distance are traced. -/
theorem marking_breadth_first (b : Bench) (hidle : b.collector.phase = .idle)
    (ops : List Operation) (hops : ∀ op ∈ ops, op.isCall = true)
    (hcycle : b.start.InCycle ops) :
    ∃ traced, (b.start.run ops).traced = b.traced ++ traced ∧
      b.scene.InBreadthFirstOrder traced ∧
      ((b.start.run ops).collector.phase ≠ .marking →
        ∀ v, v ∈ traced ↔ ∃ n, b.scene.Distance v n) := by
  have hrun := (breadthFirstOn_start b hidle).run hops hcycle
  obtain ⟨traced, hlog, hb⟩ := hrun.traced
  refine ⟨traced, hlog, hb.inOrder, fun hphase v => ?_⟩
  have hqueue := hrun.drained hphase
  rw [hb.mem_iff, hqueue, hrun.marking.isMarked_iff hqueue,
    ← Scene.traced_iff_distance]
  simp only [List.not_mem_nil, not_false_eq_true, and_true]
  exact and_iff_left_of_imp Or.inl

/-- From 0 one edge leads to 2 and to each of 10 to 109, and two edges lead to 4
and to 3.  The edge from 1 to 3 has no part in it, for 1 is pinned before it is
visited. -/
def broadScene : Bench :=
  new ⟨[.visit ⟨0⟩, .pin ⟨1⟩, .visit ⟨1⟩],
    .ofList [(⟨0⟩, [⟨0⟩, ⟨1⟩, ⟨2⟩] ++ (List.range 100).map fun i => ⟨10 + i⟩),
      (⟨1⟩, [⟨3⟩]), (⟨2⟩, [⟨4⟩, ⟨0⟩, ⟨4⟩]), (⟨109⟩, [⟨3⟩]), (⟨4⟩, [⟨3⟩])],
    (List.range 110).map Handle.mk⟩

/-- The first step stops before it comes to 108. -/
theorem marking_breadth_first_broadScene :
    let ops := [.step, .start, .step, .takeRemoved, .step]
    broadScene.collector.phase = .idle ∧
      (∀ op ∈ ops, op.isCall = true) ∧ broadScene.start.InCycle ops ∧
      ∃ traced, (broadScene.start.run ops).traced =
          broadScene.traced ++ traced ∧
        broadScene.scene.InBreadthFirstOrder traced ∧
        (∀ v, v ∈ traced ↔ ∃ n, broadScene.scene.Distance v n) ∧
        traced.drop 100 = [⟨108⟩, ⟨109⟩, ⟨4⟩, ⟨3⟩] := by
  intro ops
  have hidle : broadScene.collector.phase = .idle := rfl
  have hops : ∀ op ∈ ops, op.isCall = true := by
    simp [ops, Operation.isCall]
  obtain ⟨hcycle, hphase, hlog⟩ : broadScene.start.InCycle ops ∧
      (broadScene.start.run ops).collector.phase ≠ .marking ∧
      (broadScene.start.run ops).traced.drop 100 =
        [⟨108⟩, ⟨109⟩, ⟨4⟩, ⟨3⟩] := by
    decide +kernel
  obtain ⟨traced, htraced, horder, hall⟩ :=
    marking_breadth_first broadScene hidle ops hops hcycle
  refine ⟨hidle, hops, hcycle, traced, htraced, horder, hall hphase, ?_⟩
  rw [htraced] at hlog
  exact hlog

end Bench

end LiveHeap
