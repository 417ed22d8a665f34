import GlPlayback.Logging
import GlPlayback.Trace.Replay

/-!
What the command line asks for, and what is said about it. Traces are replayed, or only checked.
-/
namespace GlPlayback.CommandLine

inductive Task where
  | replay
  | check
  deriving DecidableEq, Repr

structure Request where
  task : Option Task := none
  trace : Option String := none
  config : Option String := none
  output : Option String := none
  /-- Whether commands that leave an error behind count as failed. -/
  checks : Bool := false
  /-- Whether skipped commands make the whole run fail. -/
  strict : Bool := false
  log : LogConfig := { level := .warn, format := .compact }
  deriving DecidableEq, Repr

def usage : String :=
  "usage: glplayback replay TRACE [--config FILE] [--check-gl-errors] [--output FILE] [--strict]\n" ++
    "       glplayback check TRACE [--config FILE]\n" ++
    "       [--log-level error|warn|info|debug|trace] [--log-format pretty|compact|json]"

/-- Sets an option that takes a value. -/
def setOption (r : Request) (name value : String) : Except String Request :=
  if name = "--config" ∨ name = "-c" then .ok { r with config := some value }
  else if name = "--output" ∨ name = "-o" then .ok { r with output := some value }
  else if name = "--log-level" then
    match LogLevel.ofName? value with
    | some level => .ok { r with log.level := level }
    | none => .error ("unknown log level '" ++ value ++ "'")
  else if name = "--log-format" then
    match LogFormat.ofName value with
    | .ok format => .ok { r with log := r.log.withFormat format }
    | .error e => .error e.message
  else .error ("unknown option '" ++ name ++ "'")

/-- Takes an argument that stands alone. -/
def setWord (r : Request) (word : String) : Except String Request :=
  if word = "--check-gl-errors" then .ok { r with checks := true }
  else if word = "--strict" then .ok { r with strict := true }
  else match r.task, r.trace with
    | none, _ =>
        if word = "replay" then .ok { r with task := some .replay }
        else if word = "check" then .ok { r with task := some .check }
        else .error ("unknown command '" ++ word ++ "'")
    | some _, none => .ok { r with trace := some word }
    | some _, some _ => .error ("unexpected argument '" ++ word ++ "'")

def valued : List String :=
  ["--config", "-c", "--output", "-o", "--log-level", "--log-format"]

def parse (r : Request) : List String → Except String Request
  | [] => .ok r
  | name :: value :: rest =>
      if valued.contains name then do parse (← setOption r name value) rest
      else do parse (← setWord r name) (value :: rest)
  | [word] =>
      if valued.contains word then .error ("option '" ++ word ++ "' needs a value")
      else setWord r word

def skipped (f : TraceFailure) : String :=
  "Command skipped: " ++ f.failure.command ++ " (batch " ++ toString f.batch ++ ", index " ++
    toString f.failure.index ++ "): " ++ f.failure.error.message

def counts (s : Summary) : String :=
  toString s.executed ++ " commands executed, " ++ toString s.failures.length ++ " skipped, " ++
    toString s.drawCalls ++ " draw calls"

def contents (file : String) (t : Trace) : String :=
  file ++ ": " ++ toString t.resources ++ " resources, " ++ toString t.batches.length ++
    " batches, " ++ toString (t.batches.flatMap (·.batch.commands)).length ++ " commands"

def payloadMessage (e : PayloadError) : String :=
  "Batch " ++ toString e.batch ++ ", buffer " ++ toString e.buffer ++ ": invalid base64"

def replayMessage : ReplayError → String
  | .payload e => payloadMessage e
  | .viewer e => e.message ++ (e.source?.map (": " ++ ·)).getD ""

end GlPlayback.CommandLine
