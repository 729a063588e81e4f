/-!
# Vertex handles

A handle addresses a place in the arena of the graph.  A handle is good for as
long as the vertex it was issued for; the place of a popped frame is issued
again later.
-/

namespace LiveHeap

structure Handle where
  index : Nat
  deriving DecidableEq, Inhabited

namespace Handle

instance : LT Handle := ⟨fun a b => a.index < b.index⟩

instance : LE Handle := ⟨fun a b => a.index ≤ b.index⟩

instance (a b : Handle) : Decidable (a < b) := Nat.decLt a.index b.index

instance (a b : Handle) : Decidable (a ≤ b) := Nat.decLe a.index b.index

/-- The short name that log lines use, such as `v3`. -/
def name (v : Handle) : String := "v" ++ toString v.index

/-- The long name that diagnostics use, such as `VertexId(3)`. -/
def longName (v : Handle) : String := "VertexId(" ++ toString v.index ++ ")"

/-- Puts a handle into an ascending list, unless it is already there. -/
def insertAscending (v : Handle) : List Handle → List Handle
  | [] => [v]
  | w :: ws =>
      if v < w then v :: w :: ws
      else if v = w then w :: ws
      else w :: insertAscending v ws

theorem mem_insertAscending {v w : Handle} {ws : List Handle} :
    w ∈ v.insertAscending ws ↔ w = v ∨ w ∈ ws := by
  induction ws with
  | nil => simp [insertAscending]
  | cons u ws ih =>
      unfold insertAscending
      split
      next => exact List.mem_cons
      next =>
        split
        next heq => simp [heq]
        next =>
          rw [List.mem_cons, ih, List.mem_cons]
          exact or_left_comm

theorem pairwise_insertAscending (v : Handle) {ws : List Handle}
    (hws : ws.Pairwise (· < ·)) : (v.insertAscending ws).Pairwise (· < ·) := by
  induction ws with
  | nil => exact List.pairwise_singleton _ v
  | cons w ws ih =>
      obtain ⟨hfirst, hrest⟩ := List.pairwise_cons.mp hws
      unfold insertAscending
      split
      next hlt =>
        refine List.pairwise_cons.mpr ⟨fun u hu => ?_, hws⟩
        rcases List.mem_cons.mp hu with rfl | hu
        · exact hlt
        · exact Nat.lt_trans hlt (hfirst u hu)
      next hnot =>
        split
        next => exact hws
        next hne =>
          have hlt : w < v := by
            have hindex : v.index ≠ w.index := fun h =>
              hne (congrArg Handle.mk h)
            exact Nat.lt_of_le_of_ne (Nat.le_of_not_lt hnot) hindex.symm
          refine List.pairwise_cons.mpr ⟨fun u hu => ?_, ih hrest⟩
          rcases mem_insertAscending.mp hu with rfl | hu
          · exact hlt
          · exact hfirst u hu

/-- The list is in order and names no handle twice.  Every way to change such
a list has an instance here, so a structure that holds one need not prove it
again. -/
class Ascending (vs : List Handle) : Prop where
  pairwise : vs.Pairwise (· < ·)

namespace Ascending

instance : Ascending [] := ⟨.nil⟩

instance (n : Nat) : Ascending ((List.range n).map Handle.mk) where
  pairwise := List.pairwise_map.mpr List.pairwise_lt_range

instance (p : Handle → Bool) (vs : List Handle) [h : Ascending vs] :
    Ascending (vs.filter p) where
  pairwise := h.pairwise.filter p

instance (v : Handle) (vs : List Handle) [h : Ascending vs] :
    Ascending (v.insertAscending vs) where
  pairwise := pairwise_insertAscending v h.pairwise

theorem nodup {vs : List Handle} (h : Ascending vs) : vs.Nodup := by
  refine h.pairwise.imp fun {v w} hlt heq => ?_
  subst heq
  exact Nat.lt_irrefl v.index hlt

end Ascending

end Handle

end LiveHeap
