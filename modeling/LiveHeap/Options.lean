/-!
# Options

The settings of a session, and the buffer that collects dumped lines.
-/

namespace LiveHeap

structure Options where
  /-- How many steps run before control goes back to the host. -/
  batchSize : Nat
  /-- The least time between two snapshots, in milliseconds. -/
  snapshotInterval : Nat
  /-- Whether call boundaries lead to collections. -/
  collectGarbage : Bool
  /-- Collects dumped lines.  Without a buffer they go to standard output. -/
  dumpBuffer : Option String
  deriving DecidableEq, Inhabited

namespace Options

def defaultBatchSize : Nat := 1000

def defaultSnapshotInterval : Nat := 1000

def default : Options where
  batchSize := defaultBatchSize
  snapshotInterval := defaultSnapshotInterval
  collectGarbage := true
  dumpBuffer := none

/-- A batch runs at least one step. -/
def withBatchSize (o : Options) (batchSize : Nat) : Options :=
  { o with batchSize := max batchSize 1 }

def withSnapshotInterval (o : Options) (snapshotInterval : Nat) : Options :=
  { o with snapshotInterval }

def withCollectGarbage (o : Options) (collectGarbage : Bool) : Options :=
  { o with collectGarbage }

def withDumpBuffer (o : Options) (dumpBuffer : Option String) : Options :=
  { o with dumpBuffer }

def dumpLine (o : Options) (line : String) : Options :=
  { o with dumpBuffer := o.dumpBuffer.map fun b => b ++ line ++ "\n" }

end Options

end LiveHeap
