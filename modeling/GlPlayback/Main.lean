import GlPlayback.CommandLine

/-!
The command line: reads the files, and prints what the library makes of them.
-/
namespace GlPlayback.CommandLine

def readText (file : String) : IO (Option String) :=
  try
    return some (← IO.FS.readFile file)
  catch _ => return none

def fail (message : String) : IO UInt32 := do
  IO.eprintln ("Error: " ++ message)
  return 1

def loadConfig : Option String → IO (Except String (Option ViewerConfig))
  | none => return .ok none
  | some file => do
      let config := ((← readText file).map ViewerConfig.read).getD (.error .missing)
      return (config.map some).mapError fun e =>
        "failed to load config " ++ file ++ ": " ++ e.message

def runReplay (r : Request) (trace : Trace) : IO UInt32 := do
  match ← loadConfig r.config with
  | .error message => fail message
  | .ok config =>
      match trace.replay config r.checks with
      | .error e => fail (replayMessage e)
      | .ok (summary, _) =>
          for f in summary.failures do
            for line in (r.log.line? .warn (skipped f)).toList do IO.eprintln line
          match r.output with
          | some file =>
              IO.FS.writeFile file summary.toJson.pretty
              IO.println ("Report written to: " ++ file)
          | none => IO.println summary.toJson.pretty
          IO.eprintln (counts summary)
          return if r.strict && !summary.failures.isEmpty then 1 else 0

def runCheck (r : Request) (file : String) (trace : Trace) : IO UInt32 := do
  match trace.decode with
  | .error e => fail (payloadMessage e)
  | .ok _ =>
      match ← loadConfig r.config with
      | .error message => fail message
      | .ok _ =>
          IO.println (contents file trace)
          return 0

end GlPlayback.CommandLine

open GlPlayback GlPlayback.CommandLine in
def main (args : List String) : IO UInt32 := do
  match parse {} args with
  | .error message =>
      IO.eprintln (message ++ "\n" ++ usage)
      return 2
  | .ok r =>
      match r.task, r.trace with
      | some task, some file =>
          match (← readText file).map Trace.read? with
          | none => fail ("failed to load trace " ++ file ++ ": no such file")
          | some none => fail ("failed to load trace " ++ file ++ ": not a trace")
          | some (some trace) =>
              match task with
              | .replay => runReplay r trace
              | .check => runCheck r file trace
      | _, _ =>
          IO.eprintln usage
          return 2
