import GlPlayback.Trace.Basic
import GlPlayback.Viewer.Session

/-!
Replaying a trace: its batches are sent to a fresh viewer, one after the other, and a summary says
what became of them.
-/
namespace GlPlayback

structure TraceFailure where
  batch : Nat
  failure : Failure
  deriving DecidableEq, Repr

structure Summary where
  executed : Nat := 0
  failures : List TraceFailure := []
  drawCalls : Nat := 0
  updates : Nat := 0
  records : List ResourceRecord := []
  deriving DecidableEq, Repr

inductive ReplayError where
  | payload (cause : PayloadError)
  | viewer (cause : ViewerError)
  deriving DecidableEq, Repr

namespace Summary

def add (s : Summary) (batch : Nat) (report : Report) : Summary :=
  { s with
    executed := s.executed + report.executed
    failures := s.failures ++ report.failures.map fun failure => ⟨batch, failure⟩ }

def finish (s : Summary) (v : Viewer) : Summary :=
  { s with
    drawCalls := v.context.elim 0 (·.draws.size)
    updates := v.journal.size
    records := v.registry.resources.map (·.record) }

def toJson (s : Summary) : Json :=
  .object
    [("executed", .nat s.executed),
     ("failures", .list (fun f : TraceFailure => .object
       [("batch", .nat f.batch), ("index", .nat f.failure.index),
        ("cmd", .string f.failure.command), ("error", .string f.failure.error.message)])
       s.failures),
     ("draw_calls", .nat s.drawCalls),
     ("info_updates", .nat s.updates),
     ("resources", .list (fun (record, uid) => .object
       [("uid", .nat uid), ("info", ResourceRecord.toJson record)]) s.records.zipIdx)]

end Summary

namespace Trace

/-- The viewer that a trace is replayed on, before any batch. -/
def viewer (trace : Trace) (config : Option ViewerConfig) (checks : Bool) :
    Except ViewerError Viewer := do
  let config := (config <|> trace.config).getD {}
  let v ← Viewer.new (some (Context.new config.width config.height)) config checks
  (List.range trace.resources).foldlM (fun v uid =>
    match v.register uid with
    | (.ok _, v) => .ok v
    | (.error e, _) => .error e) v

def send (state : Summary × Viewer) (numbered : (Batch × List (List UInt8)) × Nat) :
    Except ViewerError (Summary × Viewer) :=
  let ((batch, payloads), index) := numbered
  match state.2.receive batch payloads with
  | (.ok report, v) => .ok (state.1.add index report, v)
  | (.error e, _) => .error e

/-- Replays a trace. A config that is given overrides the trace's own. Nothing runs if a payload
cannot be decoded. -/
def replay (trace : Trace) (config : Option ViewerConfig) (checks : Bool) :
    Except ReplayError (Summary × Viewer) := do
  let batches ← trace.decode.mapError .payload
  let v ← (trace.viewer config checks).mapError .viewer
  let (summary, v) ← (batches.zipIdx.foldlM send ({}, v)).mapError .viewer
  return (summary.finish v, v)

end Trace

end GlPlayback
