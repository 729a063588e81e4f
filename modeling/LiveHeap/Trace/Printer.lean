import LiveHeap.Event
import LiveHeap.Json.Basic

/-!
# The written form of traces

A trace is written as a JSON object.  What a value does not have is left out;
an absent end of a link is written as null.
-/

namespace LiveHeap

def ValueId.toJson (id : ValueId) : Json := .number (.natural id.word)

/-- The members of a profile in front of its enumerability. -/
def Profile.nameMembers (about : Profile) : List (String × Json) :=
  (about.className.toList.map fun s => ("class", Json.string s)) ++
    about.name.toList.map fun s => ("name", Json.string s)

def Profile.members (about : Profile) : List (String × Json) :=
  ("id", about.id.toJson) ::
    (about.nameMembers ++ [("enumerable", .bool about.enumerable)])

mutual

def Value.toJson : Value → Json
  | .plain about => .object about.members
  | .union about outcomes =>
      .object (about.members ++ [("outcomes", .list (Value.toJsons outcomes))])

def Value.toJsons : List Value → List Json
  | [] => []
  | v :: vs => v.toJson :: Value.toJsons vs

end

/-- An end of a link; the root is null. -/
def endJson : Option ValueId → Json
  | none => .null
  | some id => id.toJson

def linkMembers (source target : Option ValueId) (label : String) :
    List (String × Json) :=
  [("from", endJson source), ("to", endJson target), ("label", .string label)]

namespace Entry

def tag : Entry → String
  | .report (.create _) => "create"
  | .report (.push _) => "push"
  | .report (.pop _) => "pop"
  | .report (.link _ _ _) => "link"
  | .report (.unlink _ _ _) => "unlink"
  | .report .callBoundary => "call_boundary"
  | .throw _ => "throw"

def members : Entry → List (String × Json)
  | .report (.create v) => [("value", v.toJson)]
  | .report (.push id) => [("value", id.toJson)]
  | .report (.pop id) => [("value", id.toJson)]
  | .report (.link source target label) => linkMembers source target label
  | .report (.unlink source target label) => linkMembers source target label
  | .report .callBoundary => []
  | .throw message => [("message", .string message)]

def toJson (e : Entry) : Json := .object (("op", .string e.tag) :: e.members)

end Entry

namespace Trace

def toJson (t : Trace) : Json :=
  .object
    [("bootstrap", .list (t.bootstrap.map Entry.toJson)),
      ("steps", .list (t.steps.map fun step => .list (step.map Entry.toJson))),
      ("builtins", .list (t.builtins.map ValueId.toJson)),
      ("global", endJson t.global)]

def render (t : Trace) : String := t.toJson.render

end Trace

end LiveHeap
