import GlPlayback.Proofs.Interpreter.Runs

/-!
Which records a list of commands writes and which resources it creates, command by command. A
record that no command wrote is what it was, and every written one is marked as changed.
-/
namespace GlPlayback

namespace Machine

variable {m : Machine} (checks : Bool) (payloads : List (List UInt8))

def written? (m : Machine) (payloads : List (List UInt8)) (command : Command) : Option Handle :=
  match Operation.resolve (m.surroundings payloads) command with
  | .ok op => op.written? m.registry
  | .error _ => none

def created? (m : Machine) (payloads : List (List UInt8)) (command : Command) : Option Handle :=
  match Operation.resolve (m.surroundings payloads) command with
  | .ok op => op.created?
  | .error _ => none

/-- Runs commands one after the other, whatever becomes of each. -/
def run (m : Machine) (commands : List Command) : Machine :=
  commands.foldl (fun m command => (m.executeCommand checks payloads command).2) m

def writtenBy (m : Machine) : List Command → List Handle
  | [] => []
  | command :: rest =>
      (m.written? payloads command).toList ++
        writtenBy (m.executeCommand checks payloads command).2 rest

def createdBy (m : Machine) : List Command → List Handle
  | [] => []
  | command :: rest =>
      (m.created? payloads command).toList ++
        createdBy (m.executeCommand checks payloads command).2 rest

variable {checks payloads}

theorem step_machine (report : Report) (m : Machine) (numbered : Command × Nat) :
    (step checks payloads (report, m) numbered).2 =
      (m.executeCommand checks payloads numbered.1).2 := by
  obtain ⟨command, k⟩ := numbered
  rcases h : m.executeCommand checks payloads command with ⟨_ | _, m'⟩ <;> simp [step, h]

theorem execute_machine (m : Machine) (commands : List Command) :
    (m.execute checks commands payloads).2 =
      (m.readAway checks).run checks payloads commands := by
  have hfold (numbered : List (Command × Nat)) (state : Report × Machine) :
      (numbered.foldl (step checks payloads) state).2 =
        state.2.run checks payloads (numbered.map (·.1)) := by
    induction numbered generalizing state with
    | nil => rfl
    | cons c rest ih =>
        obtain ⟨report, m⟩ := state
        rw [List.foldl_cons, ih, step_machine]
        rfl
  rw [execute, hfold, List.zipIdx_map_fst]

theorem run_append (m : Machine) (before rest : List Command) :
    m.run checks payloads (before ++ rest) =
      (m.run checks payloads before).run checks payloads rest :=
  List.foldl_append

theorem writtenBy_append (m : Machine) (before rest : List Command) :
    m.writtenBy checks payloads (before ++ rest) =
      m.writtenBy checks payloads before ++
        (m.run checks payloads before).writtenBy checks payloads rest := by
  induction before generalizing m with
  | nil => rfl
  | cons command before ih =>
      simp only [List.cons_append, writtenBy, ih, List.append_assoc]
      rfl

section Command

variable (checks payloads) (hbound : m.BindsCreated) (command : Command)
include hbound

theorem executeCommand_step : m.registry.Step (m.written? payloads command)
    (m.executeCommand checks payloads command).2.registry := by
  rcases executeCommand_moves hbound checks payloads command with
    ⟨e, hresolve, hleft⟩ | ⟨op, m', hresolve, hop, hleft⟩
  · simp only [written?, hresolve, hleft]
    exact .none
  · simp only [written?, hresolve, hleft, (readAway_calls checks m').registry_eq]
    exact hop.writes.step

theorem executeCommand_isCreated_iff (h : Handle) :
    (m.executeCommand checks payloads command).2.registry.IsCreated h ↔
      m.registry.IsCreated h ∨ m.created? payloads command = some h := by
  rcases executeCommand_moves hbound checks payloads command with
    ⟨e, hresolve, hleft⟩ | ⟨op, m', hresolve, hop, hleft⟩
  · simp [created?, hresolve, hleft]
  · simp only [created?, hresolve, hleft, (readAway_calls checks m').registry_eq]
    exact hop.writes.isCreated_iff h

end Command

section Run

variable (checks payloads) (hbound : m.BindsCreated) (commands : List Command)
include hbound

theorem run_bindsCreated : (m.run checks payloads commands).BindsCreated := by
  induction commands generalizing m with
  | nil => exact hbound
  | cons command rest ih => exact ih (executeCommand_bindsCreated hbound checks payloads command)

/-- Exactly the written records are marked as changed, besides those that were. -/
theorem mem_dirty_run (h : Handle) :
    h ∈ (m.run checks payloads commands).registry.dirty.keys ↔
      h ∈ m.writtenBy checks payloads commands ∨ h ∈ m.registry.dirty.keys := by
  induction commands generalizing m with
  | nil => simp [run, writtenBy]
  | cons command rest ih =>
      have hrest := ih (executeCommand_bindsCreated hbound checks payloads command)
      have hstep := executeCommand_step checks payloads hbound command
      rw [hstep.mem_dirty] at hrest
      refine hrest.trans ?_
      simp only [writtenBy, List.mem_append, Option.mem_toList]
      exact or_left_comm.trans or_assoc.symm

theorem ascending_dirty_run (hdirty : m.registry.dirty.Ascending) :
    (m.run checks payloads commands).registry.dirty.Ascending := by
  induction commands generalizing m with
  | nil => exact hdirty
  | cons command rest ih =>
      exact ih (executeCommand_bindsCreated hbound checks payloads command)
        ((executeCommand_step checks payloads hbound command).ascending hdirty)

theorem isCreated_run_iff (h : Handle) :
    (m.run checks payloads commands).registry.IsCreated h ↔
      m.registry.IsCreated h ∨ h ∈ m.createdBy checks payloads commands := by
  induction commands generalizing m with
  | nil => simp [run, createdBy]
  | cons command rest ih =>
      have hrest := ih (executeCommand_bindsCreated hbound checks payloads command)
      rw [executeCommand_isCreated_iff checks payloads hbound] at hrest
      refine hrest.trans ?_
      simp only [createdBy, List.mem_append, Option.mem_toList]
      exact or_assoc

theorem isCreated_run_of_mem {h : Handle} (hh : h ∈ m.writtenBy checks payloads commands) :
    (m.run checks payloads commands).registry.IsCreated h := by
  induction commands generalizing m with
  | nil => cases hh
  | cons command rest ih =>
      have hbound' := executeCommand_bindsCreated hbound checks payloads command
      have hstep := executeCommand_step checks payloads hbound command
      simp only [writtenBy, List.mem_append, Option.mem_toList] at hh
      rcases hh with hwritten | hrest
      · rw [hwritten] at hstep
        exact (isCreated_run_iff checks payloads hbound' rest h).mpr
          (.inl hstep.isCreated_written)
      · exact ih hbound' hrest

theorem record_run_eq {h : Handle} (hh : h ∉ m.writtenBy checks payloads commands) :
    (m.run checks payloads commands).registry.record h = m.registry.record h := by
  induction commands generalizing m with
  | nil => rfl
  | cons command rest ih =>
      simp only [writtenBy, List.mem_append, Option.mem_toList, not_or] at hh
      have hstep := executeCommand_step checks payloads hbound command
      exact (ih (executeCommand_bindsCreated hbound checks payloads command) hh.2).trans
        (hstep.record_eq hh.1)

/-- Wherever a record changes in a list of commands, the list writes it. -/
theorem mem_writtenBy_of_record_ne {before rest : List Command} {command : Command} {h : Handle}
    (hne : (m.run checks payloads (before ++ [command])).registry.record h ≠
      (m.run checks payloads before).registry.record h) :
    h ∈ m.writtenBy checks payloads (before ++ command :: rest) := by
  refine Classical.byContradiction fun hh => hne ?_
  simp only [writtenBy_append, writtenBy, List.mem_append, not_or] at hh
  rw [run_append]
  refine record_run_eq checks payloads (run_bindsCreated checks payloads hbound before) [command] ?_
  simpa [writtenBy] using hh.2.1

end Run

end Machine

end GlPlayback
