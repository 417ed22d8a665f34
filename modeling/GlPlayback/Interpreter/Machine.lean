import GlPlayback.Interpreter.Asking
import GlPlayback.Interpreter.Report

/-!
Commands change three things: the context, the registry, and what is bound. A command is resolved
before it touches any of them. Carrying its operation out can still fail, where the registry is
asked again after the context was changed.
-/
namespace GlPlayback

structure Machine where
  context : Context
  registry : Registry := {}
  bindings : BindingState := {}
  deriving DecidableEq

namespace Machine

def issue (m : Machine) (call : Call) : Machine :=
  { m with context := m.context.issue call }

def asking {α : Type} (m : Machine) (conversation : Asking α) : α × Machine :=
  let (answer, context) := conversation.run m.context
  (answer, { m with context })

/-- What a command of this machine is resolved against. -/
def surroundings (m : Machine) (payloads : List (List UInt8)) : Surroundings :=
  ⟨m.registry, m.bindings, payloads⟩

/-- Takes over a change of the registry, if it could be made. -/
def settle (m : Machine) :
    Except RegistryError Registry → Except CommandError Unit × Machine
  | .ok registry => (.ok (), { m with registry })
  | .error e => (.error (.registry e), m)

/-- Notes an object that the context was asked to make, with its first record. -/
def place (m : Machine) (h : Handle) (object : NewObject) (record : ResourceRecord) :
    Option ObjectId → Except CommandError Unit × Machine
  | none => (.error (.createFailed object.name), m)
  | some id => m.settle (m.registry.create h id record)

def perform (m : Machine) : Operation → Except CommandError Unit × Machine
  | .nothing => (.ok (), m)
  | .issue call => (.ok (), m.issue call)
  | .create h object =>
      let (made, m) := m.asking (Asking.make object)
      m.place h object object.record made
  | .compile h shader =>
      let (message, m) := m.asking (Asking.compile shader)
      m.settle (m.registry.changeRecord h fun
        | .shader stage _ => .shader stage ⟨some message⟩
        | record => record)
  | .link h program =>
      let ((), m) := m.asking (Asking.link program)
      match (m.surroundings []).programRecord h with
      | .error e => (.error e, m)
      | .ok before =>
          let (record, m) := m.asking (Asking.linked program before)
          m.settle (m.registry.setRecord h (.program record))
  | .useProgram program =>
      (.ok (), { m.issue (.useProgram (program.map (·.2))) with
        bindings := { m.bindings with program := program.map (·.1) } })
  | .bindVertexArray array =>
      (.ok (), { m.issue (.bindVertexArray (array.map (·.2))) with
        bindings := { m.bindings with vertexArray := array.map (·.1) } })
  | .bindBuffer target buffer =>
      (.ok (), { m.issue (.bindBuffer target.code (buffer.map (·.2))) with
        bindings := { m.bindings with
          buffers := m.bindings.buffers.set target (buffer.map (·.1)) } })
  | .bufferData target contents usage shown =>
      let (size, m) := m.asking (Asking.fill target.code usage contents)
      match shown with
      | none => (.ok (), m)
      | some h =>
          m.settle (m.registry.setRecord h (.buffer { size := some size, target := some target }))
  | .createUniformBuffer h block usage =>
      let (made, m) := m.asking (Asking.makeBlockBuffer block usage)
      let m := if made.isSome then
        { m with bindings := { m.bindings with buffers := m.bindings.buffers.erase .uniform } }
        else m
      m.place h .buffer (.buffer ⟨some (.bytes block.size.toInt), some .uniform, some block⟩) made
  | .setPointer call place pointer =>
      let m := m.issue call
      match place with
      | none => (.ok (), m)
      | some (array, buffer) => m.settle (m.registry.addPointer array buffer pointer)

/-- Asks the context for an error, which a command then left behind. -/
def poll (m : Machine) : Except CommandError Unit × Machine :=
  let (code, m) := m.asking (Asking.ask .getError)
  match GlError.ofCode? code with
  | none => (.ok (), m)
  | some e => (.error (.gl e), m)

/-- Runs a single command. With `checks`, a command that leaves an error behind has failed. -/
def executeCommand (checks : Bool) (payloads : List (List UInt8)) (m : Machine)
    (command : Command) : Except CommandError Unit × Machine :=
  match Operation.resolve (m.surroundings payloads) command with
  | .error e => (.error e, m)
  | .ok operation =>
      match m.perform operation with
      | (.error e, m) => (.error e, m)
      | (.ok (), m) => if checks then m.poll else (.ok (), m)

/-- Runs the command at a place of a list, and adds what became of it to the report. -/
def step (checks : Bool) (payloads : List (List UInt8)) (state : Report × Machine)
    (numbered : Command × Nat) : Report × Machine :=
  let (report, m) := state
  let (command, index) := numbered
  match m.executeCommand checks payloads command with
  | (.ok (), m) => ({ report with executed := report.executed + 1 }, m)
  | (.error error, m) =>
      ({ report with failures := report.failures ++ [⟨index, command.name, error⟩] }, m)

/-- Before a list of commands runs with `checks`, an old error is read away. -/
def readAway (checks : Bool) (m : Machine) : Machine :=
  if checks then m.issue .getError else m

/-- Runs a list of commands; those behind a failing one still run. With `checks`, an error that
was there before counts for none of them. -/
def execute (checks : Bool) (m : Machine) (commands : List Command)
    (payloads : List (List UInt8)) : Report × Machine :=
  commands.zipIdx.foldl (step checks payloads) ({}, m.readAway checks)

end Machine

end GlPlayback
