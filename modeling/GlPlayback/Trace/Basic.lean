import GlPlayback.Command.Decode
import GlPlayback.Text.Base64
import GlPlayback.Viewer.Error

/-!
A trace is a recorded session: a config, how many resources the host registered, and the batches
that it sent, their payloads in base64.
-/
namespace GlPlayback

structure TraceBatch where
  batch : Batch
  /-- The payloads, encoded. -/
  buffers : List String
  deriving DecidableEq, Repr

structure Trace where
  config : Option ViewerConfig
  resources : Nat
  batches : List TraceBatch

/-- Payload number `buffer` of batch number `batch` is no base64. -/
structure PayloadError where
  batch : Nat
  buffer : Nat
  deriving DecidableEq, Repr

namespace TraceBatch

/-- How deep brackets may nest inside a command of a trace. -/
def commandLevels : Nat := 123

/-- A command in a trace. All of it but the payload reference has to be held while its kind is
not known yet, whether it is used in the end or not. -/
def commandOfJson? (value : Json) : Option Command :=
  match value with
  | .object members =>
      let held := members.filter fun m => m.1 ≠ "buffer_metadata"
      if Json.isHeld commandLevels (.object held) then Command.ofJson? value else none
  | _ => none

open Json in
def ofJson? (value : Json) : Option TraceBatch := do
  let [clear, onlyOnce, commands, buffers] ←
    fields? [["clear"], ["only_once"], ["commands"], ["buffers"]] value | none
  return {
    batch := {
      clear := ← withDefault false asBool? clear
      onlyOnce := ← withDefault false asBool? onlyOnce
      commands := ← withDefault [] (asList? commandOfJson?) commands }
    buffers := ← withDefault [] (asList? asString?) buffers }

def payloads (recorded : TraceBatch) (batch : Nat) :
    Except PayloadError (List (List UInt8)) :=
  recorded.buffers.zipIdx.mapM fun (encoded, buffer) =>
    match Base64.decode? encoded.toList with
    | some bytes => .ok bytes
    | none => .error ⟨batch, buffer⟩

end TraceBatch

namespace Trace

open Json in
def ofJson? (value : Json) : Option Trace := do
  let [config, resources, batches] ← fields? [["config"], ["resources"], ["batches"]] value | none
  return {
    config := ← optional ViewerConfig.ofJson? config
    resources := (← withDefault 0 asUInt32? resources).toNat
    batches := ← withDefault [] (asList? TraceBatch.ofJson?) batches }

def read? (text : String) : Option Trace :=
  (Json.read? text).bind ofJson?

def decode (trace : Trace) : Except PayloadError (List (Batch × List (List UInt8))) :=
  trace.batches.zipIdx.mapM fun (recorded, index) =>
    (recorded.payloads index).map fun payloads => (recorded.batch, payloads)

end Trace

end GlPlayback
