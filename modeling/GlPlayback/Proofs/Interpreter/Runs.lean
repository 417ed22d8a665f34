import GlPlayback.Proofs.Gl.Flag
import GlPlayback.Proofs.Interpreter.Performance

/-!
Single commands and whole histories of a machine. A command either fails before it touches
anything or is carried out, so what carrying out keeps is kept by every history.
-/
namespace GlPlayback

namespace Machine

variable {m m' : Machine}

/-- A call changes the context and nothing else. -/
structure Calls (m m' : Machine) : Prop where
  grows : m.context.Grows m'.context
  registry_eq : m'.registry = m.registry
  bindings_eq : m'.bindings = m.bindings

theorem Calls.refl (m : Machine) : m.Calls m :=
  ⟨.refl _, rfl, rfl⟩

theorem issue_calls (m : Machine) (call : Call) : m.Calls (m.issue call) :=
  ⟨m.context.issue_grows call, rfl, rfl⟩

/-- Asking for an error answers with the one that stands and reads it away. -/
theorem poll_eq (m : Machine) :
    m.poll = (match m.context.error with
      | none => .ok ()
      | some e => .error (.gl e), m.issue .getError) := by
  have hcode : ((Asking.ask .getError).run m.context).1 = GlError.flagCode m.context.error := rfl
  have hcontext : ((Asking.ask .getError).run m.context).2 = m.context.issue .getError := rfl
  simp only [poll, asking, hcode, hcontext, GlError.ofCode?_flagCode, issue]
  cases m.context.error <;> rfl

theorem poll_cases (m : Machine) : m.poll = (.ok (), m.issue .getError) ∨
    ∃ cause, m.poll = (.error (.gl cause), m.issue .getError) := by
  rw [poll_eq]
  cases m.context.error with
  | none => exact .inl rfl
  | some cause => exact .inr ⟨cause, rfl⟩

theorem readAway_calls (checks : Bool) (m : Machine) : m.Calls (m.readAway checks) := by
  cases checks with
  | false => exact .refl m
  | true => exact m.issue_calls .getError

section Blame

variable {e : CommandError}

theorem not_blames_of_settle {result : Except RegistryError Registry}
    (h : m.settle result = (.error e, m')) : ¬ e.BlamesReference := by
  cases result with
  | ok registry => cases h
  | error cause =>
      cases h
      exact id

theorem not_blames_of_place {h : Handle} {object : NewObject} {record : ResourceRecord}
    {made : Option ObjectId} (hplace : m.place h object record made = (.error e, m')) :
    ¬ e.BlamesReference := by
  cases made with
  | none =>
      cases hplace
      exact id
  | some id => exact not_blames_of_settle hplace

/-- What goes wrong while an operation is carried out has nothing to do with payloads. -/
theorem not_blames_of_perform {op : Operation} (h : m.perform op = (.error e, m')) :
    ¬ e.BlamesReference := by
  cases op with
  | nothing | issue _ | useProgram _ | bindVertexArray _ | bindBuffer _ _ => cases h
  | create _ _ => exact not_blames_of_place h
  | compile _ _ => exact not_blames_of_settle h
  | createUniformBuffer _ _ _ =>
      simp only [perform] at h
      exact not_blames_of_place h
  | link handle program =>
      simp only [perform] at h
      split at h
      · next cause hcause =>
          cases h
          -- A record that is looked up for a command without a payload cannot blame one.
          intro hblames
          have hblamed : Surroundings.Blames _ ⟨.unknown, none⟩ e :=
            ((Surroundings.programRecord_yields handle).failure hcause).blames
          cases hblamed hblames
      · exact not_blames_of_settle h
  | bufferData _ _ _ shown =>
      cases shown with
      | none => cases h
      | some _ => exact not_blames_of_settle h
  | setPointer _ place _ =>
      cases place with
      | none => cases h
      | some place => exact not_blames_of_settle h

end Blame

section Command

variable {checks : Bool} {payloads : List (List UInt8)} {command : Command}

theorem executeCommand_of_error {e : CommandError}
    (hresolve : Operation.resolve (m.surroundings payloads) command = .error e) :
    m.executeCommand checks payloads command = (.error e, m) := by
  simp only [executeCommand, hresolve]

/-- A command that was carried out. At most the context's own error can make it fail then. -/
theorem executeCommand_of_perform {op : Operation}
    (hresolve : Operation.resolve (m.surroundings payloads) command = .ok op)
    (hperform : m.perform op = (.ok (), m')) :
    m.executeCommand checks payloads command = (.ok (), m'.readAway checks) ∨
      ∃ cause, m.executeCommand checks payloads command =
        (.error (.gl cause), m'.readAway checks) := by
  simp only [executeCommand, hresolve, hperform]
  cases checks with
  | false => exact .inl rfl
  | true => exact m'.poll_cases

/-- What a command leaves behind that was carried out, whatever it answers. -/
theorem executeCommand_machine {op : Operation}
    (hresolve : Operation.resolve (m.surroundings payloads) command = .ok op)
    (hperform : m.perform op = (.ok (), m')) :
    (m.executeCommand checks payloads command).2 = m'.readAway checks := by
  rcases executeCommand_of_perform hresolve hperform with hdone | ⟨cause, hdone⟩
  · exact congrArg Prod.snd hdone
  · exact congrArg Prod.snd hdone

/-- A command that succeeds was carried out, and with checks it has left no error behind. -/
theorem performed_of_ok (hok : m.executeCommand checks payloads command = (.ok (), m')) :
    ∃ op m₁, Operation.resolve (m.surroundings payloads) command = .ok op ∧
      m.perform op = (.ok (), m₁) ∧ m' = m₁.readAway checks ∧
      (checks = true → m'.context.error = none) := by
  cases hresolve : Operation.resolve (m.surroundings payloads) command with
  | error e => cases (executeCommand_of_error hresolve).symm.trans hok
  | ok op =>
      cases hperform : m.perform op with
      | mk result m₁ =>
          have hexecute := hok
          simp only [executeCommand, hresolve, hperform] at hexecute
          cases result with
          | error e => cases hexecute
          | ok _ =>
              have hleft : m' = m₁.readAway checks :=
                (congrArg Prod.snd hok).symm.trans (executeCommand_machine hresolve hperform)
              refine ⟨op, m₁, rfl, hperform, hleft, fun hchecks => ?_⟩
              rw [hleft, hchecks]
              rfl

/-- A failing command blames a payload reference only if its own leads nowhere. -/
theorem executeCommand_blames {e : CommandError}
    (h : m.executeCommand checks payloads command = (.error e, m')) :
    (m.surroundings payloads).Blames command e := by
  simp only [executeCommand] at h
  cases hresolve : Operation.resolve (m.surroundings payloads) command with
  | error e' =>
      rw [hresolve] at h
      cases h
      exact ((Operation.resolve_yields (m.surroundings payloads) command).failure hresolve).blames
  | ok op =>
      rw [hresolve] at h
      intro hblames
      cases hperform : m.perform op with
      | mk result m₁ =>
          simp only [hperform] at h
          cases result with
          | error e' =>
              cases h
              exact absurd hblames (not_blames_of_perform hperform)
          | ok _ =>
              cases checks with
              | false => cases h
              | true =>
                  rcases m₁.poll_cases with hpoll | ⟨cause, hpoll⟩
                  · cases hpoll.symm.trans h
                  · cases hpoll.symm.trans h
                    exact hblames.elim

/-- Either a command fails and leaves the machine, or its operation is carried out. -/
theorem executeCommand_cases (hbound : m.bindings.BoundIn m.registry) (checks : Bool)
    (payloads : List (List UInt8)) (command : Command) :
    (∃ e, Operation.resolve (m.surroundings payloads) command = .error e ∧
      m.executeCommand checks payloads command = (.error e, m)) ∨
    ∃ op m', Operation.resolve (m.surroundings payloads) command = .ok op ∧
      m.CarriesOut op m' ∧
      (m.executeCommand checks payloads command = (.ok (), m'.readAway checks) ∨
        ∃ cause, m.executeCommand checks payloads command =
          (.error (.gl cause), m'.readAway checks)) := by
  cases hresolve : Operation.resolve (m.surroundings payloads) command with
  | error e => exact .inl ⟨e, rfl, executeCommand_of_error hresolve⟩
  | ok op =>
      have hresolved := (Operation.resolve_yields (m.surroundings payloads) command).value hresolve
      obtain ⟨m', hop⟩ := exists_carriesOut hbound hresolved
      exact .inr ⟨op, m', rfl, hop, executeCommand_of_perform hresolve hop.performed⟩

/-- The machine that a command leaves behind, whatever it answers. -/
theorem executeCommand_moves (hbound : m.bindings.BoundIn m.registry) (checks : Bool)
    (payloads : List (List UInt8)) (command : Command) :
    (∃ e, Operation.resolve (m.surroundings payloads) command = .error e ∧
      (m.executeCommand checks payloads command).2 = m) ∨
    ∃ op m', Operation.resolve (m.surroundings payloads) command = .ok op ∧
      m.CarriesOut op m' ∧
      (m.executeCommand checks payloads command).2 = m'.readAway checks := by
  rcases executeCommand_cases hbound checks payloads command with
    ⟨e, hresolve, hfailed⟩ | ⟨op, m', hresolve, hop, -⟩
  · exact .inl ⟨e, hresolve, congrArg Prod.snd hfailed⟩
  · exact .inr ⟨op, m', hresolve, hop, executeCommand_machine hresolve hop.performed⟩

end Command

section List

variable {checks : Bool} {payloads : List (List UInt8)} {command : Command} {k : Nat}

def runNumbered (checks : Bool) (payloads : List (List UInt8)) (m : Machine)
    (numbered : List (Command × Nat)) : Report × Machine :=
  numbered.foldl (step checks payloads) ({}, m)

theorem step_report (report : Report) (m : Machine) (numbered : Command × Nat) :
    step checks payloads (report, m) numbered =
      (report.merge (step checks payloads ({}, m) numbered).1,
        (step checks payloads ({}, m) numbered).2) := by
  obtain ⟨command, k⟩ := numbered
  rcases h : m.executeCommand checks payloads command with ⟨_ | _, m'⟩ <;>
    simp [step, h, Report.merge]

theorem foldl_step (numbered : List (Command × Nat)) (report : Report) (m : Machine) :
    numbered.foldl (step checks payloads) (report, m) =
      (report.merge (runNumbered checks payloads m numbered).1,
        (runNumbered checks payloads m numbered).2) := by
  induction numbered generalizing report m with
  | nil => simp [runNumbered, Report.merge]
  | cons c rest ih =>
      simp only [runNumbered, List.foldl_cons]
      rw [step_report]
      generalize step checks payloads ({}, m) c = stepped
      obtain ⟨first, m'⟩ := stepped
      rw [ih, ih first]
      simp [Report.merge, Nat.add_assoc]

theorem runNumbered_cons_of_ok (rest : List (Command × Nat))
    (h : m.executeCommand checks payloads command = (.ok (), m')) :
    runNumbered checks payloads m ((command, k) :: rest) =
      (Report.merge ⟨1, []⟩ (runNumbered checks payloads m' rest).1,
        (runNumbered checks payloads m' rest).2) := by
  rw [← foldl_step]
  simp only [runNumbered, List.foldl_cons, step, h, Nat.zero_add]

theorem runNumbered_cons_of_error {e : CommandError} (rest : List (Command × Nat))
    (h : m.executeCommand checks payloads command = (.error e, m')) :
    runNumbered checks payloads m ((command, k) :: rest) =
      (Report.merge ⟨0, [⟨k, command.name, e⟩]⟩ (runNumbered checks payloads m' rest).1,
        (runNumbered checks payloads m' rest).2) := by
  rw [← foldl_step]
  simp only [runNumbered, List.foldl_cons, step, h, List.nil_append]

theorem runNumbered_cons (m : Machine) (command : Command) (k : Nat)
    (rest : List (Command × Nat)) :
    let m' := (m.executeCommand checks payloads command).2
    (runNumbered checks payloads m ((command, k) :: rest)).2 =
        (runNumbered checks payloads m' rest).2 ∧
      ∀ f, f ∈ (runNumbered checks payloads m ((command, k) :: rest)).1.failures ↔
        (f.index = k ∧ f.command = command.name ∧
          (m.executeCommand checks payloads command).1 = .error f.error) ∨
        f ∈ (runNumbered checks payloads m' rest).1.failures := by
  cases h : m.executeCommand checks payloads command with
  | mk result m' =>
      cases result with
      | ok _ =>
          rw [runNumbered_cons_of_ok rest h]
          simp [Report.merge]
      | error e =>
          rw [runNumbered_cons_of_error rest h]
          refine ⟨rfl, fun f => ?_⟩
          obtain ⟨index, name, error⟩ := f
          simp only [Report.merge, List.singleton_append, List.mem_cons, Failure.mk.injEq,
            Except.error.injEq, eq_comm]

/-- The report names exactly the commands that fail, each where the commands before it lead. -/
theorem mem_failures_iff (commands : List Command) (k : Nat) (m : Machine) (f : Failure) :
    f ∈ (runNumbered checks payloads m (commands.zipIdx k)).1.failures ↔
      ∃ (i : Nat) (command : Command), commands[i]? = some command ∧ f.index = k + i ∧
        f.command = command.name ∧
        ((runNumbered checks payloads m ((commands.take i).zipIdx k)).2.executeCommand checks
          payloads command).1 = .error f.error := by
  induction commands generalizing k m with
  | nil => simp [runNumbered]
  | cons command rest ih =>
      rw [List.zipIdx_cons, (runNumbered_cons m command k _).2, ih]
      refine Iff.trans ?_ Nat.or_exists_add_one
      refine or_congr ?_ (exists_congr fun i => exists_congr fun other => ?_)
      · simp [runNumbered]
      · rw [List.take_succ_cons, List.zipIdx_cons, (runNumbered_cons m command k _).1,
          List.getElem?_cons_succ, Nat.add_assoc, Nat.add_comm 1 i]

theorem command_of_mem_failures (commands : List Command) (k : Nat) (m : Machine) {f : Failure}
    (hf : f ∈ (runNumbered checks payloads m (commands.zipIdx k)).1.failures) :
    ∃ (i : Nat) (command : Command) (m' m'' : Machine), commands[i]? = some command ∧
      f.index = k + i ∧ f.command = command.name ∧
      m'.executeCommand checks payloads command = (.error f.error, m'') := by
  obtain ⟨i, command, hcommand, hindex, hname, hfailed⟩ :=
    (mem_failures_iff commands k m f).mp hf
  exact ⟨i, command, _, _, hcommand, hindex, hname, Prod.ext hfailed rfl⟩

theorem le_index_of_mem_failures (commands : List Command) (k : Nat) (m : Machine) {f : Failure}
    (hf : f ∈ (runNumbered checks payloads m (commands.zipIdx k)).1.failures) : k ≤ f.index := by
  obtain ⟨i, command, m', m'', -, hindex, -⟩ := command_of_mem_failures commands k m hf
  omega

end List

/-- What can happen to a machine: the host registers a resource or sends a command, somebody else
makes a call, the changed records are taken, or the interpreter starts over. -/
inductive Event where
  | register (uid : Nat)
  | command (checks : Bool) (payloads : List (List UInt8)) (command : Command)
  | call (call : Call)
  | takeDirty
  | restart
  deriving DecidableEq, Repr

/-- What an event makes of a machine. A registration out of order changes nothing. -/
def react (m : Machine) : Event → Machine
  | .register uid =>
      match m.registry.register uid with
      | .ok (_, registry) => { m with registry }
      | .error _ => m
  | .command checks payloads command => (m.executeCommand checks payloads command).2
  | .call call => m.issue call
  | .takeDirty => { m with registry := m.registry.takeDirty.2 }
  | .restart => { m with bindings := {} }

/-- A machine to which nothing happened yet. -/
def fresh (width height : UInt32) : Machine :=
  { context := Context.new width height }

def after (m : Machine) (events : List Event) : Machine :=
  events.foldl react m

abbrev BindsCreated (m : Machine) : Prop :=
  m.bindings.BoundIn m.registry

theorem Calls.bindsCreated (h : m.Calls m') (hbound : m.BindsCreated) : m'.BindsCreated := by
  simp only [BindsCreated, h.registry_eq, h.bindings_eq]
  exact hbound

theorem CarriesOut.bindsCreated {op : Operation} (h : m.CarriesOut op m') : m'.BindsCreated :=
  h.boundIn.mono fun _ => h.writes.step.isCreated

theorem executeCommand_bindsCreated (hbound : m.BindsCreated) (checks : Bool)
    (payloads : List (List UInt8)) (command : Command) :
    (m.executeCommand checks payloads command).2.BindsCreated := by
  rcases executeCommand_moves hbound checks payloads command with
    ⟨e, -, hleft⟩ | ⟨op, m', -, hop, hleft⟩
  · rw [hleft]
    exact hbound
  · rw [hleft]
    exact (readAway_calls checks m').bindsCreated hop.bindsCreated

theorem react_bindsCreated (hbound : m.BindsCreated) (event : Event) :
    (m.react event).BindsCreated := by
  cases event with
  | register uid =>
      simp only [react]
      cases hregister : m.registry.register uid with
      | error e => exact hbound
      | ok registered =>
          exact hbound.mono fun _ ⟨x, hx, hset⟩ =>
            ⟨x, Registry.get_register_of_get hregister hx, hset⟩
  | command checks payloads command => exact executeCommand_bindsCreated hbound _ _ _
  | call call => exact (m.issue_calls call).bindsCreated hbound
  | takeDirty => exact hbound
  | restart => exact BindingState.boundIn_empty _

theorem fresh_bindsCreated (width height : UInt32) : (fresh width height).BindsCreated :=
  BindingState.boundIn_empty _

theorem after_bindsCreated (hbound : m.BindsCreated) (events : List Event) :
    (m.after events).BindsCreated := by
  induction events generalizing m with
  | nil => exact hbound
  | cons event rest ih => exact ih (react_bindsCreated hbound event)

end Machine

end GlPlayback
