import LiveHeap.Table
import LiveHeap.Handle

/-!
# Marks of a collection cycle

Marking gives every vertex it reaches a shade.  A gray vertex waits in the
queue until its children are visited; a black vertex is done with, or was
pinned and keeps its children out of the walk.  A vertex without a shade is
white.  The queue is first in, first out, so marking goes breadth first.
-/

namespace LiveHeap

inductive Color where
  | white
  | gray
  | black
  deriving DecidableEq, Inhabited

/-- What marking stores of a vertex that it has reached. -/
inductive Shade where
  | gray
  | black
  deriving DecidableEq, Inhabited

structure Marks where
  shades : Table Handle Shade
  queue : List Handle
  /-- The length of the queue when it was longest in this cycle. -/
  highWater : Nat
  deriving Inhabited

namespace Marks

def empty : Marks := ⟨Table.empty, [], 0⟩

def isMarked (m : Marks) (v : Handle) : Bool := m.shades.contains v

def color (m : Marks) (v : Handle) : Color :=
  match m.shades.get? v with
  | none => .white
  | some .gray => .gray
  | some .black => .black

/-- The first visit of a white vertex makes it gray and queues it. -/
def visit (m : Marks) (v : Handle) : Marks :=
  if m.isMarked v then m
  else
    { shades := m.shades.insert v .gray
      queue := m.queue ++ [v]
      highWater := max m.highWater (m.queue.length + 1) }

def visitAll (m : Marks) (vs : List Handle) : Marks := vs.foldl visit m

def pin (m : Marks) (v : Handle) : Marks :=
  if m.isMarked v then m
  else { m with shades := m.shades.insert v .black }

/-- Takes the vertex that waited longest off the queue and makes it black. -/
def pop (m : Marks) : Option (Handle × Marks) :=
  match m.queue with
  | [] => none
  | v :: waiting =>
      some (v, { m with shades := m.shades.insert v .black, queue := waiting })

theorem isMarked_insert (m : Marks) (v w : Handle) (s : Shade) :
    (m.shades.insert v s).contains w = (decide (w = v) || m.isMarked w) := by
  rw [Table.contains, Table.get?_insert, isMarked, Table.contains]
  by_cases h : w = v <;> simp [h]

theorem isMarked_visit (m : Marks) (v w : Handle) :
    (m.visit v).isMarked w = (decide (w = v) || m.isMarked w) := by
  by_cases h : m.isMarked v
  · rw [visit, if_pos h]
    by_cases hw : w = v <;> simp [hw, h]
  · rw [visit, if_neg h]
    exact isMarked_insert m v w .gray

def unmarkedIn (m : Marks) (vs : List Handle) : Nat :=
  vs.countP (fun v => !m.isMarked v)

theorem unmarkedIn_visit_le (m : Marks) (v : Handle) (vs : List Handle) :
    (m.visit v).unmarkedIn vs ≤ m.unmarkedIn vs := by
  refine List.countP_mono_left fun w _ => ?_
  rw [isMarked_visit]
  simp

/-- A visit moves at most one unit of work from the white vertices to the
queue. -/
theorem work_visit_le (m : Marks) {v : Handle} {vs : List Handle}
    (hv : v ∈ vs) :
    (m.visit v).unmarkedIn vs + (m.visit v).queue.length ≤
      m.unmarkedIn vs + m.queue.length := by
  by_cases h : m.isMarked v
  · exact Nat.le_of_eq (by rw [visit, if_pos h])
  · have hlt : (m.visit v).unmarkedIn vs < m.unmarkedIn vs := by
      obtain ⟨before, after, rfl⟩ := List.append_of_mem hv
      have hb := unmarkedIn_visit_le m v before
      have ha := unmarkedIn_visit_le m v after
      have hself : (m.visit v).isMarked v = true := by
        rw [isMarked_visit]
        simp
      unfold unmarkedIn at *
      rw [List.countP_append, List.countP_append, List.countP_cons,
        List.countP_cons, hself]
      simp only [h, Bool.not_true, Bool.not_false]
      simp only [Bool.false_eq_true, if_false, if_true]
      omega
    have hq : (m.visit v).queue.length = m.queue.length + 1 := by
      rw [visit, if_neg h]
      simp
    omega

theorem work_visitAll_le (m : Marks) {ws vs : List Handle} (h : ws ⊆ vs) :
    (m.visitAll ws).unmarkedIn vs + (m.visitAll ws).queue.length ≤
      m.unmarkedIn vs + m.queue.length := by
  induction ws generalizing m with
  | nil => exact Nat.le_refl _
  | cons w ws ih =>
      have hw := work_visit_le m (h (List.mem_cons_self))
      have hws := ih (m.visit w) (fun _ hx => h (List.mem_cons_of_mem w hx))
      exact Nat.le_trans hws hw

end Marks

end LiveHeap
