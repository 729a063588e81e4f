import LiveHeap.Snapshot.Basic
import LiveHeap.Json.Skip

/-!
# Snapshots as JSON

A vertex is written as an object and an edge as a list of three.  The builtins
and the root are left out when there are none.  Vertex ids have 32 bits.
-/

namespace LiveHeap

namespace Snapshot

def idJson (id : Handle) : Json := .number (.natural (UInt64.ofNat id.index))

def vertexJson (v : SeenVertex) : Json :=
  .object [("id", idJson v.id), ("label", .string v.label)]

def edgeJson (e : SeenEdge) : Json :=
  .list [idJson e.source, idJson e.target, .string e.label]

def toJson (s : Snapshot) : Json :=
  .object
    ([("vertices", .list (s.vertices.map vertexJson)),
        ("edges", .list (s.edges.map edgeJson))] ++
      s.builtins.toList.map (fun vs => ("builtins", .list (vs.map vertexJson))) ++
      s.root.toList.map fun v => ("root", vertexJson v))

def render (s : Snapshot) : String := s.toJson.render

open Json (Cause Reader)

def readHandle : Reader Handle := fun text => do
  let (n, rest) ← Json.readNatural UInt32.size "u32" text
  return (⟨n.toNat⟩, rest)

structure PartialVertex where
  id : Option Handle
  label : Option String

def PartialVertex.finish (p : PartialVertex) : Except Cause SeenVertex :=
  match p.id, p.label with
  | none, _ => .error (.missingField "id")
  | some _, none => .error (.missingField "label")
  | some id, some label => .ok ⟨id, label⟩

def readVertexMember (p : PartialVertex) (key : String) :
    Reader PartialVertex := fun text => do
  if key = "id" then
    let (x, rest) ← Json.named key p.id readHandle text
    return ({ p with id := some x }, rest)
  else if key = "label" then
    let (x, rest) ← Json.named key p.label Json.readString text
    return ({ p with label := some x }, rest)
  else
    let rest ← Json.skipField text
    return (p, rest)

/-- Ends a record at its closing brace. -/
def finished {α : Type} (result : Except Cause α) : Reader α := fun rest =>
  match result with
  | .ok x => .ok (x, rest)
  | .error cause => .error (.unplaced cause rest)

def readVertexMembers : Reader SeenVertex := fun text => do
  let (p, rest) ←
    Json.members readVertexMember (text.length + 1) true ⟨none, none⟩ text
  finished p.finish rest

def missing {α : Type} (position : Nat) (expected : String) : Except Cause α :=
  .error (.wrongLength position expected)

def readVertexFields : Reader SeenVertex := fun text => do
  let expected := "struct SnapshotVertex with 2 elements"
  let (id, text) ← Json.positional true (missing 0 expected) readHandle text
  let (label, text) ←
    Json.positional false (missing 1 expected) Json.readString text
  return (⟨id, label⟩, text)

def readVertex : Reader SeenVertex :=
  Json.readRecord "struct SnapshotVertex" readVertexFields readVertexMembers

def readEdgeFields : Reader SeenEdge := fun text => do
  let expected := "tuple struct SnapshotEdge with 3 elements"
  let (source, text) ← Json.positional true (missing 0 expected) readHandle text
  let (target, text) ← Json.positional false (missing 1 expected) readHandle text
  let (label, text) ←
    Json.positional false (missing 2 expected) Json.readString text
  return (⟨source, target, label⟩, text)

/-- Reads an edge, which has no form as an object. -/
def readEdge : Reader SeenEdge := fun text =>
  match Json.skipBlanks text with
  | [] => .error (.atEnd .endInValue)
  | c :: cs =>
      if c = '[' then Json.inList readEdgeFields cs
      else .error (Json.wrongTypeFault "tuple struct SnapshotEdge" (c :: cs))

def readVertices : Reader (List SeenVertex) := Json.readList readVertex

def readEdges : Reader (List SeenEdge) := Json.readList readEdge

def readBuiltins : Reader (Option (List SeenVertex)) :=
  Json.readNullable readVertices

def readRoot : Reader (Option SeenVertex) := Json.readNullable readVertex

structure PartialSnapshot where
  vertices : Option (List SeenVertex)
  edges : Option (List SeenEdge)
  builtins : Option (Option (List SeenVertex))
  root : Option (Option SeenVertex)

def PartialSnapshot.finish (p : PartialSnapshot) : Except Cause Snapshot :=
  match p.vertices, p.edges with
  | none, _ => .error (.missingField "vertices")
  | some _, none => .error (.missingField "edges")
  | some vertices, some edges =>
      .ok { vertices, edges, builtins := p.builtins.join, root := p.root.join }

def readMember (p : PartialSnapshot) (key : String) : Reader PartialSnapshot :=
  fun text => do
    if key = "vertices" then
      let (x, rest) ← Json.named key p.vertices readVertices text
      return ({ p with vertices := some x }, rest)
    else if key = "edges" then
      let (x, rest) ← Json.named key p.edges readEdges text
      return ({ p with edges := some x }, rest)
    else if key = "builtins" then
      let (x, rest) ← Json.named key p.builtins readBuiltins text
      return ({ p with builtins := some x }, rest)
    else if key = "root" then
      let (x, rest) ← Json.named key p.root readRoot text
      return ({ p with root := some x }, rest)
    else
      let rest ← Json.skipField text
      return (p, rest)

def readMembers : Reader Snapshot := fun text => do
  let (p, rest) ←
    Json.members readMember (text.length + 1) true
      ⟨none, none, none, none⟩ text
  finished p.finish rest

def readFields : Reader Snapshot := fun text => do
  let expected := "struct Snapshot with 4 elements"
  let (vertices, text) ←
    Json.positional true (missing 0 expected) readVertices text
  let (edges, text) ← Json.positional false (missing 1 expected) readEdges text
  let (builtins, text) ← Json.positional false (.ok none) readBuiltins text
  let (root, text) ← Json.positional false (.ok none) readRoot text
  return ({ vertices, edges, builtins, root }, text)

def readSnapshot : Reader Snapshot :=
  Json.readRecord "struct Snapshot" readFields readMembers

def parse (source : String) : Except Json.Diagnosis Snapshot :=
  match Json.readDocument readSnapshot source.toList with
  | .ok s => .ok s
  | .error e => .error (e.diagnose source.toList)

end Snapshot

end LiveHeap
