import LiveHeap.Graph.Links

/-!
# Registration of values

A value gets a vertex when it is announced or first mentioned.  Announcing it
again refreshes what is known of it and keeps its membership.  A union is
registered with all its outcomes, which may mention any value again, the union
included; its outcome list is stored after the outcomes are registered.
-/

namespace LiveHeap.Graph

def announce (g : Graph) (id : ValueId) (vertex : Vertex) : Graph × Handle :=
  match g.vertexFor? id with
  | some v => ((g.retireOutcomes v).setVertex v vertex, v)
  | none => g.allocValue id vertex g.registrationFlags

/-- Stores the outcome list, if the vertex is still a union. -/
def setOutcomes (g : Graph) (v : Handle) (outcomes : List Handle) : Graph :=
  g.modifySlot v fun s =>
    match s.vertex with
    | .union about _ => { s with vertex := .union about outcomes }
    | _ => s

mutual

def register (g : Graph) : Value → Graph × Handle
  | .plain about => g.announce about.id (.plain about)
  | .union about outcomes =>
      let (g, v) := g.announce about.id (.union about [])
      let (g, targets) := g.registerOutcomes v 0 outcomes
      (g.setOutcomes v targets, v)

/-- Registers the outcomes of a union from a position on, and installs a maybe
edge to each. -/
def registerOutcomes (g : Graph) (union : Handle) (position : Nat) :
    List Value → Graph × List Handle
  | [] => (g, [])
  | outcome :: outcomes =>
      let (g, target) := g.register outcome
      let g := g.install ⟨union, target, .maybe position⟩
      let (g, targets) := g.registerOutcomes union (position + 1) outcomes
      (g, target :: targets)

end

/-- The vertex of a mentioned value, registered now if it was never mentioned
before. -/
def resolve (g : Graph) (id : ValueId) : Graph × Handle :=
  match g.vertexFor? id with
  | some v => (g, v)
  | none => g.allocValue id (.plain (.unannounced id)) g.registrationFlags

def resolveEnd (g : Graph) : Option ValueId → Graph × Handle
  | none => (g, root)
  | some id => g.resolve id

/-- Adds one value to the builtins.  A value never mentioned before stays out
of the live set. -/
def registerBuiltin (g : Graph) (id : ValueId) : Graph :=
  match g.vertexFor? id with
  | some v => g.setBuiltin v
  | none => (g.allocValue id (.plain (.unannounced id)) ⟨false, true⟩).1

def registerBuiltins (g : Graph) (ids : List ValueId) : Graph :=
  ids.foldl registerBuiltin g

def setGlobal (g : Graph) : Option ValueId → Graph
  | none => { g with global := none }
  | some id =>
      let (g, v) := g.resolve id
      { g with global := some v }

def beginBootstrap (g : Graph) : Graph := { g with bootstrapping := true }

def endBootstrap (g : Graph) : Graph := { g with bootstrapping := false }

end LiveHeap.Graph
