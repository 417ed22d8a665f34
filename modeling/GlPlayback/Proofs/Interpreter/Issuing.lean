import GlPlayback.Proofs.Gl.Flag
import GlPlayback.Proofs.Interpreter.Calling

/-!
What a command comes to that puts at most one call to the context and needs no answer to it.
-/
namespace GlPlayback.Machine

/-- What a command answers that leaves this flag up. With `checks`, an error makes it fail. -/
def answer (checks : Bool) (flag : Option GlError) : Except CommandError Unit :=
  match checks, flag with
  | true, some e => .error (.gl e)
  | _, _ => .ok ()

/-- A command puts these calls to the context, which raise these errors and leave these objects. It
fails only if an error stands then and is asked for. Beside the objects, the flag and the counts of
calls nothing changes. -/
structure ComesTo (m : Machine) (checks : Bool) (payloads : List (List UInt8)) (command : Command)
    (calls : List Call) (raised : List GlError) (objects : ObjectTables) : Prop where
  calls_eq : m.callsOf payloads command = calls
  raised_eq : m.context.errorsOf calls = raised
  answer_eq : (m.executeCommand checks payloads command).1 =
    answer checks (m.context.error.or raised.head?)
  left : ∃ counts, (m.executeCommand checks payloads command).2 =
    { m with context := { m.context with
        objects, calls := counts
        error := if checks then none else m.context.error.or raised.head? } }

variable {m m' : Machine} {checks : Bool} {payloads : List (List UInt8)} {command : Command}
  {op : Operation}

theorem executeCommand_eq (hresolve : Operation.resolve (m.surroundings payloads) command = .ok op)
    (hperform : m.perform op = (.ok (), m')) :
    m.executeCommand checks payloads command =
      (answer checks m'.context.error, m'.readAway checks) := by
  simp only [executeCommand, hresolve, hperform]
  cases checks with
  | false => rfl
  | true =>
      rw [if_pos rfl, poll_eq]
      cases m'.context.error <;> rfl

/-- A command that is passed over. -/
theorem comesTo_nothing
    (hresolve : Operation.resolve (m.surroundings payloads) command = .ok .nothing) :
    m.ComesTo checks payloads command [] [] m.context.objects := by
  have hexecute : m.executeCommand checks payloads command =
      (answer checks m.context.error, m.readAway checks) := executeCommand_eq hresolve rfl
  refine ⟨by rw [callsOf, hresolve]; rfl, rfl, ?_, ?_⟩
  · rw [hexecute, List.head?_nil, Option.or_none]
  · rw [hexecute, List.head?_nil, Option.or_none]
    cases checks <;> exact ⟨_, rfl⟩

/-- A command that puts one call to the context. -/
theorem comesTo_issue {call : Call} {raised : Option GlError} {objects : ObjectTables}
    (hresolve : Operation.resolve (m.surroundings payloads) command = .ok (.issue call))
    (hcall : m.context.Effect call raised objects) :
    m.ComesTo checks payloads command [call] raised.toList objects := by
  have hexecute : m.executeCommand checks payloads command =
      (answer checks (m.issue call).context.error, (m.issue call).readAway checks) :=
    executeCommand_eq hresolve rfl
  have hhead : raised.toList.head? = raised := by cases raised <;> rfl
  have herror : (m.issue call).context.error = m.context.error.or raised := by
    rw [issue, hcall.issue_eq]
  refine ⟨by rw [callsOf, hresolve]; rfl, ?_, ?_, ?_⟩
  · rw [Context.errorsOf_singleton, hcall.raises_eq]
  · rw [hexecute, hhead, herror]
  · rw [hexecute, hhead, issue, hcall.issue_eq]
    cases checks <;> exact ⟨_, rfl⟩

end GlPlayback.Machine
