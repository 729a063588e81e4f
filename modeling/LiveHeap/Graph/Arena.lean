import LiveHeap.Graph.Basic

/-!
# The arena

Allocation, release and membership of vertices.  Every operation is described
by what it does to `slot?`.
-/

namespace LiveHeap.Graph

def modifySlot (g : Graph) (v : Handle) (f : Slot → Slot) : Graph :=
  { g with slots := g.slots.modify v.index (Option.map f) }

def setLive (g : Graph) (v : Handle) (live : Bool) : Graph :=
  g.modifySlot v fun s => { s with flags := { s.flags with live } }

def setBuiltin (g : Graph) (v : Handle) : Graph :=
  g.modifySlot v fun s => { s with flags := { s.flags with builtin := true } }

def setVertex (g : Graph) (v : Handle) (vertex : Vertex) : Graph :=
  g.modifySlot v fun s => { s with vertex }

def allocValue (g : Graph) (id : ValueId) (vertex : Vertex) (flags : Flags) :
    Graph × Handle :=
  let v : Handle := ⟨g.slots.length⟩
  ({ g with
      slots := g.slots ++ [some ⟨vertex, flags⟩]
      values := g.values.insert id v },
    v)

/-- Puts a frame into the slot that was freed last, or at the end of the arena
if no slot is free. -/
def allocFrame (g : Graph) (frame : Frame) : Graph × Handle :=
  let slot : Slot := ⟨.frame frame, ⟨true, false⟩⟩
  match g.freeSlots with
  | v :: free =>
      ({ g with slots := g.slots.set v.index (some slot), freeSlots := free },
        v)
  | [] =>
      ({ g with slots := g.slots ++ [some slot] }, ⟨g.slots.length⟩)

def freeSlot (g : Graph) (v : Handle) : Graph :=
  { g with
    slots := g.slots.set v.index none
    freeSlots := v :: g.freeSlots }

def registrationFlags (g : Graph) : Flags :=
  if g.bootstrapping then ⟨false, true⟩ else ⟨true, false⟩

def markChanged (g : Graph) : Graph :=
  { g with changed := true, mutated := true }

theorem slot?_modifySlot (g : Graph) (v w : Handle) (f : Slot → Slot) :
    (g.modifySlot v f).slot? w =
      if w = v then (g.slot? w).map f else g.slot? w := by
  obtain ⟨i⟩ := v
  obtain ⟨j⟩ := w
  simp only [slot?, modifySlot, List.getElem?_modify, Handle.mk.injEq]
  by_cases h : i = j
  · subst h
    cases g.slots[i]? with
    | none => simp
    | some s => cases s <;> simp
  · simp [h, Ne.symm h]

end LiveHeap.Graph
