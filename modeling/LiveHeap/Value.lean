/-!
# Values announced by an engine

The engine under observation names its values by 64 bit words.  What it tells
of a value is optional: a classification, a name, and whether the value can
enumerate its named children.  A union value may resolve to any of its
outcomes, which are announced along with it.
-/

namespace LiveHeap

structure ValueId where
  word : UInt64
  deriving DecidableEq, Inhabited

/-- What the engine tells of one value. -/
structure Profile where
  id : ValueId
  className : Option String
  name : Option String
  /-- Whether the walk may follow the property links of the value. -/
  enumerable : Bool
  deriving DecidableEq, Inhabited

/-- The profile of a value that the engine mentioned without announcing it. -/
def Profile.unannounced (id : ValueId) : Profile := ⟨id, none, none, false⟩

/-- An announced value.  A union with no outcomes is still a union. -/
inductive Value where
  | plain (about : Profile)
  | union (about : Profile) (outcomes : List Value)
  deriving Inhabited

namespace Value

def profile : Value → Profile
  | plain about => about
  | union about _ => about

def isUnion : Value → Bool
  | plain _ => false
  | union _ _ => true

def mapProfile (f : Profile → Profile) : Value → Value
  | plain about => plain (f about)
  | union about outcomes => union (f about) outcomes

/-- A value without capabilities, such as a primitive. -/
def primitive (id : ValueId) : Value := plain (.unannounced id)

/-- A value whose named children can be enumerated. -/
def object (id : ValueId) : Value :=
  plain { Profile.unannounced id with enumerable := true }

/-- A value that may resolve to any of some outcomes. -/
def either (id : ValueId) (outcomes : List Value) : Value :=
  union (.unannounced id) outcomes

def withClass (v : Value) (className : String) : Value :=
  v.mapProfile fun about => { about with className := some className }

def withName (v : Value) (name : String) : Value :=
  v.mapProfile fun about => { about with name := some name }

end Value

end LiveHeap
