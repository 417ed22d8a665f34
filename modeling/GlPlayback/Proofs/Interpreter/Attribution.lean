import GlPlayback.Proofs.Interpreter.Calling

/-!
Which command an error of the context is charged to. With error checks the flag is clear whenever a
command begins, so what is read from it afterwards is the first error of the command's own calls.
-/
namespace GlPlayback

namespace Machine

variable {m : Machine} {payloads : List (List UInt8)}

/-- The first error that the calls of a command raise. -/
def firstError (m : Machine) (payloads : List (List UInt8)) (command : Command) :
    Option GlError :=
  (m.context.errorsOf (m.callsOf payloads command)).head?

/-- A machine in which no error stands and nothing is bound that was not created. -/
structure Ready (m : Machine) : Prop where
  bindsCreated : m.BindsCreated
  clear : m.context.error = none

theorem Ready.perform_error (hm : m.Ready) {op : Operation}
    (hop : op.Resolved (m.surroundings payloads)) :
    (m.perform op).2.context.error =
      (m.context.errorsOf (op.calls m.registry m.context)).head? := by
  rw [perform_context, Context.error_issueAll fun call => hop.ne_getError, hm.clear]
  exact Option.none_or

/-- With error checks a command is charged with the first error of its own calls, and with no
other. -/
theorem Ready.charged (hm : m.Ready) (command : Command) :
    (∀ e, (m.executeCommand true payloads command).1 = .error (.gl e) ↔
      m.firstError payloads command = some e) ∧
    (m.executeCommand true payloads command).2.Ready := by
  have hbound := executeCommand_bindsCreated hm.bindsCreated true payloads command
  have hresolves := Operation.resolve_yields (m.surroundings payloads) command
  cases hresolve : Operation.resolve (m.surroundings payloads) command with
  | error e =>
      have hfailed : m.executeCommand true payloads command = (.error e, m) :=
        executeCommand_of_error hresolve
      have hown := (hresolves.failure hresolve).own
      rw [hfailed]
      refine ⟨fun cause => ?_, hm⟩
      simp [firstError, callsOf, hresolve, Context.errorsOf, hown cause]
  | ok op =>
      have hop := hresolves.value hresolve
      obtain ⟨m', hcarried⟩ := exists_carriesOut hm.bindsCreated hop
      have herror : m'.context.error = m.firstError payloads command := by
        have hperformed := hm.perform_error hop
        rw [hcarried.performed] at hperformed
        simpa only [firstError, callsOf, hresolve] using hperformed
      have hdone : m.executeCommand true payloads command = m'.poll := by
        simp only [executeCommand, hresolve, hcarried.performed, if_true]
      rw [hdone, poll_eq] at hbound ⊢
      refine ⟨fun e => ?_, hbound, Context.exec_getError.2⟩
      rw [herror]
      cases m.firstError payloads command <;> simp

theorem Ready.runNumbered (hm : m.Ready) (commands : List Command) (k : Nat) :
    (runNumbered true payloads m (commands.zipIdx k)).2.Ready := by
  induction commands generalizing m k with
  | nil => exact hm
  | cons command rest ih =>
      rw [List.zipIdx_cons, (runNumbered_cons m command k _).1]
      exact ih (hm.charged command).2 (k + 1)

section Report

variable {checks : Bool}

theorem executed_add_failures (commands : List Command) (k : Nat) (m : Machine) :
    let report := (Machine.runNumbered checks payloads m (commands.zipIdx k)).1
    report.executed + report.failures.length = commands.length := by
  induction commands generalizing m k with
  | nil => rfl
  | cons command rest ih =>
      rw [List.zipIdx_cons, List.length_cons]
      cases h : m.executeCommand checks payloads command with
      | mk result m' =>
          have hrest := ih (k + 1) m'
          cases result with
          | ok _ =>
              rw [runNumbered_cons_of_ok _ h]
              simp only [Report.merge, List.nil_append]
              omega
          | error e =>
              rw [runNumbered_cons_of_error _ h]
              simp only [Report.merge, List.singleton_append, List.length_cons]
              omega

theorem failures_pairwise (commands : List Command) (k : Nat) (m : Machine) :
    (Machine.runNumbered checks payloads m (commands.zipIdx k)).1.failures.Pairwise
      (·.index < ·.index) := by
  induction commands generalizing m k with
  | nil => exact .nil
  | cons command rest ih =>
      rw [List.zipIdx_cons]
      cases h : m.executeCommand checks payloads command with
      | mk result m' =>
          cases result with
          | ok _ =>
              rw [runNumbered_cons_of_ok _ h]
              exact ih (k + 1) m'
          | error e =>
              rw [runNumbered_cons_of_error _ h]
              exact .cons (fun f hf => le_index_of_mem_failures rest (k + 1) m' hf) (ih (k + 1) m')

end Report

end Machine

end GlPlayback
