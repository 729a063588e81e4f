import LiveHeap.CommandLine.Playback

/-!
# The program

Plays back the files that the command line names and prints the lines of their
snapshots.  The clock of the machine is read before every batch.
-/

namespace LiveHeap.Playback

def printStream (json : Bool) (s : Stream) : IO (Option SessionError) := do
  let now ← IO.monoMsNow
  match _h : s.tick now with
  | (s', .pending) => printStream json s'
  | (s', .snapshot snapshot) => do
      IO.println (line json snapshot)
      printStream json s'
  | (_, .finished snapshot) => do
      IO.println (line json snapshot)
      return none
  | (_, .failed e) => return some e
  | (_, .closed) => return none
termination_by s.rank
decreasing_by
  all_goals
    have hlt := Stream.rank_tick_lt (s := s) (n := now) (by rw [_h]; nofun)
    rwa [_h] at hlt

def printFile (json : Bool) (options : Options) (file : String) :
    IO (Option String) := do
  match ← (IO.FS.readFile file).toBaseIO with
  | .ok source => do
      let stream := Stream.new Engine.replay source options
      let failed ← printStream json stream
      return failed.map fun e => failure file e.text
  | .error (.noFileOrDirectory ..) => return some (failure file noSuchFile)
  | .error e => return some (failure file (toString e))

def printFiles (json : Bool) (options : Options) :
    List String → IO (Option String)
  | [] => return none
  | file :: files => do
      match ← printFile json options file with
      | none => printFiles json options files
      | some message => return some message

end LiveHeap.Playback

open LiveHeap in
def main (arguments : List String) : IO UInt32 := do
  match Arguments.parse arguments with
  | .error fault => do
      IO.eprintln fault.message
      return fault.exitCode
  | .ok a => do
      match ← Playback.printFiles a.json a.options a.files with
      | none => return 0
      | some message => do
          IO.eprintln message
          return 1
