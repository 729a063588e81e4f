import LiveHeap.Proofs.Json.Values
import LiveHeap.Snapshot.Json

/-!
# Snapshots survive JSON

A consumer who reads the text of a snapshot gets the snapshot back, with all its
labels, and with the builtins and the root exactly if they were there.  Vertices
are objects and edges are lists of three, so both ways to write a record are
read here.
-/

namespace LiveHeap.Snapshot

open Json (ReadsBack ReadsMembers)

/-- Every id that occurs in the snapshot. -/
def ids (s : Snapshot) : List Handle :=
  s.vertices.map SeenVertex.id ++
    s.edges.flatMap (fun e => [e.source, e.target]) ++
    (s.builtins.getD []).map SeenVertex.id ++
    s.root.toList.map SeenVertex.id

/-- The ids fit into the 32 bits that a vertex id has. -/
def Addressed (ids : List Handle) : Prop :=
  ∀ id ∈ ids, id.index < UInt32.size

/-! ## Vertices -/

theorem readsBack_readHandle {id : Handle} (hid : id.index < UInt32.size) :
    ReadsBack readHandle (idJson id).text id := by
  intro rest hrest
  have hword : (UInt64.ofNat id.index).toNat = id.index := by
    apply UInt64.toNat_ofNat_of_lt
    exact hid.trans (by decide)
  have hread := Json.readsBack_readNatural (n := UInt64.ofNat id.index)
    (hword.symm ▸ hid) "u32" rest hrest
  rw [idJson, readHandle, hread]
  simp [bind, Except.bind, pure, Except.pure, hword]

theorem opens_idJson (id : Handle) : Json.Opens (idJson id).text :=
  Json.opens_decimal _

theorem opens_string (s : String) : Json.Opens (Json.text (.string s)) :=
  ⟨_, _, rfl, rfl, by decide⟩

def vertexFields (v : SeenVertex) : List (String × Json) :=
  [("id", idJson v.id), ("label", .string v.label)]

theorem readsMembers_vertex {v : SeenVertex}
    (hid : v.id.index < UInt32.size) :
    ReadsMembers readVertexMember ⟨none, none⟩ (vertexFields v)
      ⟨some v.id, some v.label⟩ := by
  have hfirst := Json.readsBack_field readVertexMember
    ⟨none, none⟩ "id" (readsBack_readHandle hid) (⟨some ·, none⟩) fun _ => rfl
  have hsecond := Json.readsBack_field readVertexMember
    ⟨some v.id, none⟩ "label" (Json.readsBack_readString v.label)
    (⟨some v.id, some ·⟩) fun _ => rfl
  exact .cons hfirst (.cons hsecond .nil)

theorem readsBack_readVertex {v : SeenVertex}
    (hid : v.id.index < UInt32.size) :
    ReadsBack readVertex (vertexJson v).text v := by
  intro rest _
  have hread := Json.members_commaSeparated (readsMembers_vertex hid) rest
  have hinside : readVertexMembers (Json.commaSeparated
      ((vertexFields v).map Json.memberText) ++ '\x7d' :: rest) =
        .ok (v, '\x7d' :: rest) := by
    rw [readVertexMembers, hread]
    rfl
  have hopen (cs : List Char) : readVertex ('\x7b' :: cs) =
      Json.inObject readVertexMembers cs := rfl
  have htext : vertexJson v = .object (vertexFields v) := rfl
  rw [htext, Json.text_object_append, hopen]
  exact Json.inObject_of_closed hinside

theorem opens_vertexJson (v : SeenVertex) : Json.Opens (vertexJson v).text :=
  ⟨_, _, rfl, rfl, by decide⟩

theorem readsBack_readVertices {vs : List SeenVertex}
    (hids : Addressed (vs.map SeenVertex.id)) :
    ReadsBack readVertices (Json.text (.list (vs.map vertexJson))) vs := by
  apply Json.readsBack_readList
  · intro v _
    exact opens_vertexJson v
  · intro v hv
    exact readsBack_readVertex (hids v.id (List.mem_map_of_mem hv))

/-! ## Edges -/

theorem readEdgeFields_append {e : SeenEdge}
    (hsource : e.source.index < UInt32.size)
    (htarget : e.target.index < UInt32.size) (rest : List Char) :
    readEdgeFields (Json.commaSeparated ([idJson e.source, idJson e.target,
      .string e.label].map Json.text) ++ ']' :: rest) =
        .ok (e, ']' :: rest) := by
  have htext : Json.commaSeparated ([idJson e.source, idJson e.target,
      .string e.label].map Json.text) ++ ']' :: rest =
        (idJson e.source).text ++ ',' :: ((idJson e.target).text ++
          ',' :: (Json.text (.string e.label) ++ ']' :: rest)) := by
    simp [Json.commaSeparated]
  have hfirst := readsBack_readHandle hsource _ (Json.delimited_comma
    ((idJson e.target).text ++ ',' :: (Json.text (.string e.label) ++
      ']' :: rest)))
  have hsecond := readsBack_readHandle htarget _ (Json.delimited_comma
    (Json.text (.string e.label) ++ ']' :: rest))
  have hthird := Json.readsBack_readString e.label _
    (Json.delimited_bracket rest)
  rw [htext, readEdgeFields, Json.positional_first (opens_idJson e.source),
    hfirst]
  simp only [bind, Except.bind, Json.positional_later (opens_idJson e.target),
    hsecond, Json.positional_later (opens_string e.label), hthird]
  rfl

theorem readsBack_readEdge {e : SeenEdge}
    (hsource : e.source.index < UInt32.size)
    (htarget : e.target.index < UInt32.size) :
    ReadsBack readEdge (edgeJson e).text e := by
  intro rest _
  have hopen (cs : List Char) : readEdge ('[' :: cs) =
      Json.inList readEdgeFields cs := rfl
  rw [edgeJson, Json.text_list_append, hopen]
  exact Json.inList_of_closed (readEdgeFields_append hsource htarget rest)

theorem readsBack_readEdges {es : List SeenEdge}
    (hids : Addressed (es.flatMap fun e => [e.source, e.target])) :
    ReadsBack readEdges (Json.text (.list (es.map edgeJson))) es := by
  apply Json.readsBack_readList
  · intro e _
    exact ⟨_, _, rfl, rfl, by decide⟩
  · intro e he
    apply readsBack_readEdge
    · exact hids e.source (List.mem_flatMap.mpr ⟨e, he, by simp⟩)
    · exact hids e.target (List.mem_flatMap.mpr ⟨e, he, by simp⟩)

/-! ## The whole snapshot -/

def required (s : Snapshot) : List (String × Json) :=
  [("vertices", .list (s.vertices.map vertexJson)),
    ("edges", .list (s.edges.map edgeJson))]

def builtinsMember (s : Snapshot) : List (String × Json) :=
  s.builtins.toList.map fun vs => ("builtins", .list (vs.map vertexJson))

def rootMember (s : Snapshot) : List (String × Json) :=
  s.root.toList.map fun v => ("root", vertexJson v)

theorem toJson_eq (s : Snapshot) :
    s.toJson = .object (s.required ++ s.builtinsMember ++ s.rootMember) := rfl

section Members

variable {s : Snapshot} (hids : Addressed s.ids)

include hids

theorem readsMembers_required :
    ReadsMembers readMember ⟨none, none, none, none⟩ s.required
      ⟨some s.vertices, some s.edges, none, none⟩ := by
  have hvertexIds : Addressed (s.vertices.map SeenVertex.id) := by
    intro id hid
    exact hids id (by simp [ids, hid])
  have hedgeIds :
      Addressed (s.edges.flatMap fun e => [e.source, e.target]) := by
    intro id hid
    exact hids id (by simp only [ids, List.mem_append, hid, true_or, or_true])
  have hvertices := Json.readsBack_field readMember
    ⟨none, none, none, none⟩ "vertices" (readsBack_readVertices hvertexIds)
    (⟨some ·, none, none, none⟩) fun _ => rfl
  have hedges := Json.readsBack_field readMember
    ⟨some s.vertices, none, none, none⟩ "edges" (readsBack_readEdges hedgeIds)
    (⟨some s.vertices, some ·, none, none⟩) fun _ => rfl
  exact .cons hvertices (.cons hedges .nil)

theorem readsMembers_builtins :
    ReadsMembers readMember ⟨some s.vertices, some s.edges, none, none⟩
      s.builtinsMember
      ⟨some s.vertices, some s.edges, s.builtins.map some, none⟩ := by
  unfold builtinsMember
  cases hbuiltins : s.builtins with
  | none => exact .nil
  | some vs =>
      have hvs : Addressed (vs.map SeenVertex.id) := by
        intro id hid
        exact hids id (by simp [ids, hbuiltins, hid])
      have hread : ReadsBack readBuiltins
          (Json.text (.list (vs.map vertexJson))) (some vs) :=
        Json.readsBack_readNullable rfl (by decide)
          (readsBack_readVertices hvs)
      have hmember := Json.readsBack_field readMember
        ⟨some s.vertices, some s.edges, none, none⟩ "builtins" hread
        (⟨some s.vertices, some s.edges, some ·, none⟩) fun _ => rfl
      exact .cons hmember .nil

theorem readsMembers_root :
    ReadsMembers readMember
      ⟨some s.vertices, some s.edges, s.builtins.map some, none⟩ s.rootMember
      ⟨some s.vertices, some s.edges, s.builtins.map some,
        s.root.map some⟩ := by
  unfold rootMember
  cases hroot : s.root with
  | none => exact .nil
  | some v =>
      have hid : v.id.index < UInt32.size :=
        hids v.id (by simp [ids, hroot])
      have hread : ReadsBack readRoot (vertexJson v).text (some v) :=
        Json.readsBack_readNullable rfl (by decide) (readsBack_readVertex hid)
      have hmember := Json.readsBack_field readMember
        ⟨some s.vertices, some s.edges, s.builtins.map some, none⟩ "root" hread
        (⟨some s.vertices, some s.edges, s.builtins.map some, some ·⟩)
        fun _ => rfl
      exact .cons hmember .nil

theorem readsBack_readSnapshot : ReadsBack readSnapshot s.toJson.text s := by
  intro rest _
  have hmembers := ((readsMembers_required hids).append
    (readsMembers_builtins hids)).append (readsMembers_root hids)
  have hread := Json.members_commaSeparated hmembers rest
  have hinside : readMembers (Json.commaSeparated
      ((s.required ++ s.builtinsMember ++ s.rootMember).map Json.memberText) ++
        '\x7d' :: rest) = .ok (s, '\x7d' :: rest) := by
    rw [readMembers, hread]
    rcases s with ⟨vertices, edges, builtins, root⟩
    cases builtins <;> cases root <;> rfl
  have hopen (cs : List Char) : readSnapshot ('\x7b' :: cs) =
      Json.inObject readMembers cs := rfl
  rw [toJson_eq, Json.text_object_append, hopen]
  exact Json.inObject_of_closed hinside

end Members

/-- A snapshot is read back from its text, so what is asked of the snapshot that
was read has the same answer as before. -/
theorem parse_rendered_snapshot (s : Snapshot) (hids : Addressed s.ids) :
    parse s.render = .ok s ∧
      (parse s.render).map isFinal = .ok s.isFinal ∧
      (parse s.render).map visibleEdges = .ok s.visibleEdges ∧
      (parse s.render).map summary = .ok s.summary := by
  have hread := readsBack_readSnapshot hids [] Json.delimited_nil
  rw [List.append_nil] at hread
  have htext : s.render.toList = s.toJson.text := String.toList_ofList
  have hdocument : Json.readDocument readSnapshot s.render.toList = .ok s := by
    rw [htext, Json.readDocument, hread]
    rfl
  have hparse : parse s.render = .ok s := by
    rw [parse, hdocument]
  rw [hparse]
  exact ⟨rfl, rfl, rfl, rfl⟩

/-- The least and the largest id, an edge whose ends are not shown, a root but no
builtins, and labels with characters of all kinds. -/
def exotic : Snapshot where
  vertices := [⟨⟨0⟩, "Root"⟩, ⟨⟨4294967295⟩, "a\"b\\c\n☃\x1b"⟩]
  edges := [⟨⟨0⟩, ⟨4294967295⟩, ""⟩, ⟨⟨7⟩, ⟨0⟩, "\x00\x7f]"⟩]
  builtins := none
  root := some ⟨⟨0⟩, "Root"⟩

theorem parse_rendered_exotic :
    Addressed exotic.ids ∧ parse exotic.render = .ok exotic := by
  have hids : Addressed exotic.ids := by
    unfold Addressed
    decide
  exact ⟨hids, (parse_rendered_snapshot exotic hids).1⟩

end LiveHeap.Snapshot
