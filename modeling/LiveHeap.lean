import LiveHeap.Collection.Operation
import LiveHeap.Graph.Operation
import LiveHeap.Main
import LiveHeap.Session.Recording
import LiveHeap.Session.Timed
import LiveHeap.Trace.Printer
import LiveHeap.Proofs.Collection.Cycle
import LiveHeap.Proofs.Collection.FullCycle
import LiveHeap.Proofs.Collection.Drift
import LiveHeap.Proofs.Graph.Slots
import LiveHeap.Proofs.Graph.WellFormed
import LiveHeap.Proofs.Graph.Edit
import LiveHeap.Proofs.Graph.Frames
import LiveHeap.Proofs.Graph.Run
import LiveHeap.Proofs.Graph.Edges
import LiveHeap.Proofs.Graph.Identity
import LiveHeap.Proofs.Graph.Stack
import LiveHeap.Proofs.Graph.Walk
import LiveHeap.Proofs.Graph.Collect
import LiveHeap.Proofs.Graph.Announce
import LiveHeap.Proofs.Graph.Outcomes
import LiveHeap.Proofs.Graph.Registration
import LiveHeap.Proofs.Graph.Liveness
import LiveHeap.Proofs.Graph.Changes
import LiveHeap.Proofs.Graph.Congruence
import LiveHeap.Proofs.Graph.Flags
import LiveHeap.Proofs.Graph.Core
import LiveHeap.Proofs.Graph.Opening
import LiveHeap.Proofs.Graph.Surfacing
import LiveHeap.Proofs.Graph.Properties
import LiveHeap.Proofs.Graph.Uncovering
import LiveHeap.Proofs.Graph.Vocabulary
import LiveHeap.Proofs.Graph.SurfacingLoop
import LiveHeap.Proofs.Graph.Commuting
import LiveHeap.Proofs.Graph.Creation
import LiveHeap.Proofs.Graph.Aftermath
import LiveHeap.Proofs.Json.Scalars
import LiveHeap.Proofs.Json.Values
import LiveHeap.Proofs.Trace.RoundTrip
import LiveHeap.Proofs.Snapshot.RoundTrip
import LiveHeap.Proofs.Text.Words
import LiveHeap.Proofs.Script.Phrases
import LiveHeap.Proofs.Script.Lines
import LiveHeap.Proofs.Script.Layout
import LiveHeap.Proofs.Session.Kept
import LiveHeap.Proofs.Session.Emission
import LiveHeap.Proofs.Session.Playback
import LiveHeap.Proofs.Session.Lockstep
import LiveHeap.Proofs.Session.Schedule
import LiveHeap.Proofs.Session.Cadence
import LiveHeap.Proofs.Session.Settings
import LiveHeap.Proofs.Collection.Suspension
import LiveHeap.Proofs.Session.Protocol
import LiveHeap.Proofs.Session.Offence
import LiveHeap.Proofs.Session.Accounting
import LiveHeap.Proofs.Session.Outcome
import LiveHeap.Proofs.Session.Course
import LiveHeap.Proofs.Session.Underflow
import LiveHeap.Proofs.Collection.Counting
import LiveHeap.Proofs.Collection.StepCount
import LiveHeap.Proofs.Session.Spacing
import LiveHeap.Proofs.Snapshot.Contents
import LiveHeap.Proofs.Collection.BreadthFirst
import LiveHeap.Proofs.Collection.GrayQueue
import LiveHeap.Proofs.Graph.Substitution
import LiveHeap.Proofs.Script.Sentences
import LiveHeap.Proofs.Script.Segments
