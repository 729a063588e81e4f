import LiveHeap.CommandLine.Arguments
import LiveHeap.Session.Stream
import LiveHeap.Snapshot.Json

/-!
# Playing back files

Every file holds a trace.  The snapshots of its session are dumped line by
line, as a summary or as JSON.  The first file that fails ends the run.
-/

namespace LiveHeap.Playback

def line (json : Bool) (s : Snapshot) : String :=
  if json then s.render else s.summary

def failure (file : String) (reason : String) : String := file ++ ": " ++ reason

def noSuchFile : String := "No such file or directory (os error 2)"

/-- Dumps items up to the first error, and answers its message. -/
def dumpItems (file : String) (json : Bool) (options : Options) :
    List (Except SessionError Snapshot) → Options × Option String
  | [] => (options, none)
  | .ok s :: items =>
      dumpItems file json (options.dumpLine (line json s)) items
  | .error e :: _ => (options, some (failure file e.text))

/-- Plays back one file, while the clock stands still. -/
def playFile (file : String) (contents : Option String) (json : Bool)
    (options : Options) : Options × Option String :=
  match contents with
  | none => (options, some (failure file noSuchFile))
  | some source =>
      let stream := Stream.new Engine.replay source options
      dumpItems file json options (stream.drain 0 0).2.1

def playFiles (read : String → Option String) (json : Bool)
    (options : Options) : List String → Options × Option String
  | [] => (options, none)
  | file :: files =>
      match playFile file (read file) json options with
      | (options, none) => playFiles read json options files
      | (options, some message) => (options, some message)

end LiveHeap.Playback
