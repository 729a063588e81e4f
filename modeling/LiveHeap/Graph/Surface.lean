import LiveHeap.Graph.Links

/-!
# Surfacing builtins

A builtin is hidden until the program refers to it.  Surfacing a vertex makes
it live, and with it every hidden builtin that can be reached from it through
hidden builtins.  The loop ends because a hidden builtin that was made live is
no longer hidden, and the label index stays as it is.
-/

namespace LiveHeap.Graph

/-- A builtin that is not part of the live set. -/
def isHidden (g : Graph) (v : Handle) : Bool := g.isBuiltin v && !g.isLive v

def hiddenCount (g : Graph) : Nat :=
  g.slots.countP fun slot => slot.any fun s => s.flags.builtin && !s.flags.live

theorem countP_modify_lt {α : Type} (p : α → Bool) (f : α → α) {l : List α}
    {i : Nat} {x : α} (hx : l[i]? = some x) (hp : p x = true)
    (hf : p (f x) = false) : (l.modify i f).countP p < l.countP p := by
  induction l generalizing i with
  | nil => simp at hx
  | cons y l ih =>
      cases i with
      | zero =>
          obtain rfl : y = x := by simpa using hx
          simp [hp, hf]
      | succ i =>
          have := ih (i := i) (by simpa using hx)
          simp only [List.modify_succ_cons, List.countP_cons]
          omega

theorem hiddenCount_setLive_lt {g : Graph} {v : Handle}
    (h : g.isHidden v = true) : (g.setLive v true).hiddenCount < g.hiddenCount := by
  simp only [isHidden, isBuiltin, isLive, slot?] at h
  cases hs : g.slots[v.index]? with
  | none => simp [hs] at h
  | some o =>
      cases o with
      | none => simp [hs] at h
      | some s =>
          simp only [hs, Option.join_some] at h
          exact countP_modify_lt _ _ hs (by simpa using h) (by simp)

theorem length_successors_le (g : Graph) (v : Handle) :
    (g.successors v).length ≤ g.index.size := by
  rw [successors, List.length_map]
  exact List.length_filter_le _ _

/-- Makes the hidden builtins among the pending vertices live, and those that
become reachable through them. -/
def revealPending (g : Graph) : List Handle → Graph
  | [] => g
  | v :: pending =>
      if _h : g.isHidden v = true then
        let g' := g.setLive v true
        revealPending g' (g'.successors v ++ pending)
      else revealPending g pending
termination_by pending => g.hiddenCount * (g.index.size + 1) + pending.length
decreasing_by
  · have hc := hiddenCount_setLive_lt _h
    have hs := length_successors_le (g.setLive v true) v
    have hi : (g.setLive v true).index = g.index := rfl
    rw [hi] at hs ⊢
    have hm : ((g.setLive v true).hiddenCount + 1) * (g.index.size + 1) ≤
        g.hiddenCount * (g.index.size + 1) := Nat.mul_le_mul_right _ hc
    rw [Nat.add_mul] at hm
    simp only [List.length_append, List.length_cons]
    omega
  · simp

/-- Makes a vertex live, and with it every hidden builtin below it. -/
def surface (g : Graph) (v : Handle) : Graph :=
  let g := g.setLive v true
  g.revealPending (g.successors v)

end LiveHeap.Graph
