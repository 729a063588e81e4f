import LiveHeap.Graph.Operation
import Mathlib.Tactic

/-!
# The arena seen through its slots

Each operation that writes to the arena is described by what it does to
`slot?` and `vertex?`.  A vertex that stands for an engine value is found by
`valueAt?`, and the frames of the stack by the relation `Chain`, which follows
parent links down to the stack sentinel.  A chain repeats no frame, so the
arena bounds its length and `frames` never stops short of the sentinel.
-/

namespace LiveHeap

/-- The engine value that a vertex stands for. -/
def Vertex.valueId? (x : Vertex) : Option ValueId := x.profile?.map Profile.id

theorem Vertex.valueId?_isSome (x : Vertex) :
    x.valueId?.isSome = x.isValue := by
  cases x <;> rfl

theorem Vertex.valueId?_eq_none_iff {x : Vertex} :
    x.valueId? = none ↔ x.isValue = false := by
  rw [← Option.not_isSome_iff_eq_none, x.valueId?_isSome]
  simp

namespace Graph

def valueAt? (g : Graph) (v : Handle) : Option ValueId :=
  (g.vertex? v).bind Vertex.valueId?

/-- The place holds a plain value or a union. -/
def HoldsValue (g : Graph) (v : Handle) : Prop :=
  ∃ x, g.vertex? v = some x ∧ x.isValue = true

theorem holdsValue_iff {g : Graph} {v : Handle} :
    g.HoldsValue v ↔ ∃ id, g.valueAt? v = some id := by
  unfold HoldsValue valueAt?
  cases hx : g.vertex? v with
  | none => simp
  | some x =>
      rw [Option.bind_some, ← Option.isSome_iff_exists, x.valueId?_isSome]
      simp

theorem holdsValue_of_valueAt? {g : Graph} {v : Handle} {id : ValueId}
    (hv : g.valueAt? v = some id) : g.HoldsValue v :=
  holdsValue_iff.mpr ⟨id, hv⟩

theorem vertex?_eq_some_iff {g : Graph} {v : Handle} {x : Vertex} :
    g.vertex? v = some x ↔ ∃ s, g.slot? v = some s ∧ s.vertex = x :=
  Option.map_eq_some_iff

theorem vertex?_of_slot? {g : Graph} {v : Handle} {s : Slot}
    (hs : g.slot? v = some s) : g.vertex? v = some s.vertex :=
  vertex?_eq_some_iff.mpr ⟨s, hs, rfl⟩

/-! Membership is read off the slot. -/

theorem isLive_of_slot? {g : Graph} {v : Handle} {s : Slot}
    (hs : g.slot? v = some s) : g.isLive v = s.flags.live := by
  simp [isLive, hs]

theorem isBuiltin_of_slot? {g : Graph} {v : Handle} {s : Slot}
    (hs : g.slot? v = some s) : g.isBuiltin v = s.flags.builtin := by
  simp [isBuiltin, hs]

theorem isBuiltin_of_empty {g : Graph} {v : Handle} (hs : g.slot? v = none) :
    g.isBuiltin v = false := by
  simp [isBuiltin, hs]

theorem isLive_congr {g g' : Graph} {v : Handle}
    (hs : g'.slot? v = g.slot? v) : g'.isLive v = g.isLive v := by
  simp [isLive, hs]

theorem isBuiltin_congr {g g' : Graph} {v : Handle}
    (hs : g'.slot? v = g.slot? v) : g'.isBuiltin v = g.isBuiltin v := by
  simp [isBuiltin, hs]

theorem HoldsValue.slot?_ne_none {g : Graph} {v : Handle}
    (hv : g.HoldsValue v) : g.slot? v ≠ none := by
  have ⟨x, hx, _⟩ := hv
  have ⟨s, hs, _⟩ := vertex?_eq_some_iff.mp hx
  simp [hs]

@[simp] theorem mem_handles {g : Graph} {v : Handle} :
    v ∈ g.handles ↔ v.index < g.slots.length := by
  unfold handles
  rw [List.mem_map]
  constructor
  · rintro ⟨i, hi, rfl⟩
    exact List.mem_range.mp hi
  · exact fun hv => ⟨v.index, List.mem_range.mpr hv, rfl⟩

theorem lt_of_slot? {g : Graph} {v : Handle} {s : Slot}
    (hs : g.slot? v = some s) : v.index < g.slots.length := by
  by_contra hle
  simp [slot?, List.getElem?_eq_none (Nat.le_of_not_lt hle)] at hs

theorem lt_of_vertex? {g : Graph} {v : Handle} {x : Vertex}
    (hx : g.vertex? v = some x) : v.index < g.slots.length := by
  obtain ⟨s, hs, _⟩ := vertex?_eq_some_iff.mp hx
  exact lt_of_slot? hs

theorem slot?_fresh (g : Graph) : g.slot? ⟨g.slots.length⟩ = none := by
  simp [slot?]

/-! ## What the writers do to a slot -/

theorem slot?_append {g g' : Graph} {s : Slot}
    (hslots : g'.slots = g.slots ++ [some s]) (w : Handle) :
    g'.slot? w = if w = ⟨g.slots.length⟩ then some s else g.slot? w := by
  obtain ⟨i⟩ := w
  simp only [slot?, hslots, Handle.mk.injEq]
  by_cases hi : i = g.slots.length
  · simp [hi]
  · rw [if_neg hi]
    by_cases hlt : i < g.slots.length
    · rw [List.getElem?_append_left hlt]
    · rw [List.getElem?_eq_none (by simp; omega),
        List.getElem?_eq_none (by omega)]

theorem slot?_set {g g' : Graph} {v : Handle} {o : Option Slot}
    (hv : v.index < g.slots.length)
    (hslots : g'.slots = g.slots.set v.index o) (w : Handle) :
    g'.slot? w = if w = v then o else g.slot? w := by
  obtain ⟨i⟩ := v
  obtain ⟨j⟩ := w
  simp only [slot?, hslots, Handle.mk.injEq, List.getElem?_set]
  by_cases hij : i = j
  · subst hij
    simp_all
  · simp [hij, Ne.symm hij]

theorem slot?_allocValue (g : Graph) (id : ValueId) (x : Vertex)
    (flags : Flags) (w : Handle) :
    (g.allocValue id x flags).1.slot? w =
      if w = ⟨g.slots.length⟩ then some ⟨x, flags⟩ else g.slot? w :=
  slot?_append rfl w

theorem slots_length_modifySlot (g : Graph) (v : Handle) (f : Slot → Slot) :
    (g.modifySlot v f).slots.length = g.slots.length := by
  simp [modifySlot]

/-! ## The chain of frames -/

/-- Parent links lead from a handle through the frames to the sentinel. -/
inductive Chain (g : Graph) : Handle → List (Handle × Frame) → Prop
  | bottom : g.vertex? stack = some .stack → g.Chain stack []
  | frame {v : Handle} {f : Frame} {frames : List (Handle × Frame)} :
      g.vertex? v = some (.frame f) → g.Chain f.parent frames →
      g.Chain v ((v, f) :: frames)

namespace Chain

variable {g g' : Graph} {v : Handle} {frames frames' : List (Handle × Frame)}

theorem head (h : g.Chain v frames) :
    (frames.head?.map Prod.fst).getD stack = v := by
  cases h <;> rfl

theorem unique (h : g.Chain v frames) (h' : g.Chain v frames') :
    frames = frames' := by
  induction h generalizing frames' with
  | bottom hstack =>
      cases h' with
      | bottom => rfl
      | frame hv _ => rw [hstack] at hv; simp at hv
  | @frame v f frames hv _ ih =>
      cases h' with
      | bottom hstack => rw [hv] at hstack; simp at hstack
      | frame hv' hrest =>
          rw [hv] at hv'
          obtain rfl : f = _ := by simpa using hv'
          rw [ih hrest]

theorem vertex?_of_mem (h : g.Chain v frames) {w : Handle} {f : Frame}
    (hmem : (w, f) ∈ frames) : g.vertex? w = some (.frame f) := by
  induction h with
  | bottom => simp at hmem
  | frame hv _ ih =>
      rcases List.mem_cons.mp hmem with heq | hrest
      · obtain ⟨rfl, rfl⟩ := Prod.mk.inj heq
        exact hv
      · exact ih hrest

/-- Every frame of a chain is the head of a chain that is no longer. -/
theorem from_mem (h : g.Chain v frames) {w : Handle}
    (hmem : w ∈ frames.map Prod.fst) :
    ∃ rest, g.Chain w rest ∧ rest.length ≤ frames.length := by
  induction h with
  | bottom => simp at hmem
  | @frame v f frames hv hrest ih =>
      rcases List.mem_cons.mp hmem with rfl | htail
      · exact ⟨_, .frame hv hrest, Nat.le_refl _⟩
      · obtain ⟨rest, hchain, hle⟩ := ih htail
        exact ⟨rest, hchain, Nat.le_succ_of_le hle⟩

theorem nodup (h : g.Chain v frames) : (frames.map Prod.fst).Nodup := by
  induction h with
  | bottom => simp
  | @frame v f frames hv hrest ih =>
      rw [List.map_cons, List.nodup_cons]
      refine ⟨fun hmem => ?_, ih⟩
      obtain ⟨rest, hchain, hle⟩ := hrest.from_mem hmem
      have hsame := hchain.unique (.frame hv hrest)
      rw [hsame, List.length_cons] at hle
      omega

theorem length_le (h : g.Chain v frames) :
    frames.length ≤ g.slots.length := by
  have hnodup : (frames.map fun e => e.1.index).Nodup := by
    have hmap := h.nodup.map (f := Handle.index)
      (fun a b hab => by cases a; cases b; simpa using hab)
    simpa [List.map_map, Function.comp_def] using hmap
  have hsub : (frames.map fun e => e.1.index) ⊆ List.range g.slots.length := by
    intro i hi
    obtain ⟨⟨w, f⟩, hmem, rfl⟩ := List.mem_map.mp hi
    exact List.mem_range.mpr (lt_of_vertex? (h.vertex?_of_mem hmem))
  simpa using (hnodup.subperm hsub).length_le

/-- Any limit that the chain fits into finds the whole chain. -/
theorem framesFrom_eq (h : g.Chain v frames) {limit : Nat}
    (hlimit : frames.length ≤ limit) : g.framesFrom limit v = frames := by
  induction h generalizing limit with
  | bottom hstack =>
      cases limit with
      | zero => rfl
      | succ limit => simp [framesFrom, hstack]
  | frame hv _ ih =>
      cases limit with
      | zero => simp at hlimit
      | succ limit =>
          rw [List.length_cons] at hlimit
          simp only [framesFrom, hv]
          rw [ih (by omega)]

theorem frames_eq (h : g.Chain g.stackTop frames) : g.frames = frames :=
  h.framesFrom_eq h.length_le

/-- A chain survives every change that keeps its frames and the sentinel. -/
theorem transfer (h : g.Chain v frames)
    (hstack : g.vertex? stack = some .stack → g'.vertex? stack = some .stack)
    (hframe : ∀ w f, (w, f) ∈ frames → g'.vertex? w = some (.frame f)) :
    g'.Chain v frames := by
  induction h with
  | bottom hbottom => exact .bottom (hstack hbottom)
  | @frame v f frames hv _ ih =>
      refine .frame (hframe v f (List.mem_cons_self ..)) (ih ?_)
      exact fun w e hmem => hframe w e (List.mem_cons_of_mem _ hmem)

end Chain

end Graph

end LiveHeap
