import GlPlayback.Proofs.Interpreter.Runs

/-!
The calls by which an operation is carried out. What none of them touches the operation leaves as it
was, and so does the command behind it.
-/
namespace GlPlayback

/-- The parts that no plain call changes. -/
def Part.IsReserved : Part → Prop
  | error | program | vertexArray => True
  | _ => False

theorem Call.IsPlain.not_mem_touches {call : Call} (hcall : call.IsPlain) {part : Part}
    (hpart : part.IsReserved) : part ∉ call.touches := by
  intro hmem
  cases part with
  | error =>
      cases call.error_mem_touches_iff.mp hmem
      exact hcall
  | program =>
      obtain ⟨program, rfl⟩ := call.program_mem_touches_iff.mp hmem
      exact hcall
  | vertexArray =>
      obtain ⟨array, rfl⟩ := call.vertexArray_mem_touches_iff.mp hmem
      exact hcall
  | _ => exact hpart

namespace Operation

/-- The calls that an operation puts to a context, in their order. -/
def calls (r : Registry) (ctx : Context) : Operation → List Call
  | nothing => []
  | issue call | setPointer call _ _ => [call]
  | create _ what => (Asking.make what).calls ctx
  | compile _ shader => (Asking.compile shader).calls ctx
  | link h program =>
      (Asking.link program).calls ctx ++
        match r.record h with
        | .program before =>
            (Asking.linked program before).calls ((Asking.link program).run ctx).2
        | _ => []
  | useProgram program => [.useProgram (program.map (·.2))]
  | bindVertexArray array => [.bindVertexArray (array.map (·.2))]
  | bindBuffer target buffer => [.bindBuffer target.code (buffer.map (·.2))]
  | bufferData target contents usage _ => (Asking.fill target.code usage contents).calls ctx
  | createUniformBuffer _ block usage => (Asking.makeBlockBuffer block usage).calls ctx

/-- The parts of a context that an operation may change. -/
def touches : Operation → List Part
  | nothing => []
  | issue call | setPointer call _ _ => call.touches
  | create _ what => (Asking.creation what).touches
  | compile _ _ => [.shaderObjects]
  | link _ _ => [.programObjects]
  | useProgram _ => [.program]
  | bindVertexArray _ => [.vertexArray]
  | bindBuffer _ _ | createUniformBuffer _ _ _ =>
      [.bufferObjects, .buffers, .vertexArrayObjects, .defaultVertexArray]
  | bufferData _ _ _ _ => [.bufferObjects]

theorem touches_of_mem_calls (op : Operation) {r : Registry} {ctx : Context} {call : Call}
    (hcall : call ∈ op.calls r ctx) : call.touches ⊆ op.touches := by
  cases op with
  | nothing => cases hcall
  | issue _ | setPointer _ _ _ | useProgram _ | bindVertexArray _ | bindBuffer _ _ =>
      cases List.mem_singleton.mp hcall
      exact List.Subset.refl _
  | create h what =>
      rw [calls, Asking.calls_make] at hcall
      cases List.mem_singleton.mp hcall
      exact List.Subset.refl _
  | compile h shader =>
      rcases (Asking.only_compile shader).mem_calls ctx call hcall with rfl | hquestion
      · exact List.Subset.refl _
      · rw [hquestion]
        exact List.nil_subset _
  | link h program =>
      rcases List.mem_append.mp hcall with hlink | hlinked
      · rcases (Asking.only_link program).mem_calls ctx call hlink with rfl | rfl <;>
          exact List.Subset.refl _
      · cases hrecord : r.record h with
        | program before =>
            rw [hrecord] at hlinked
            rcases (Asking.only_linked program before).mem_calls _ call hlinked with
              hquestion | ⟨block, binding, rfl⟩
            · rw [hquestion]
              exact List.nil_subset _
            · exact List.Subset.refl _
        | unset | buffer _ | shader _ _ | vertexArray _ | texture | framebuffer =>
            simp [hrecord] at hlinked
  | bufferData target contents usage shown =>
      exact (Asking.only_fill target.code usage contents).mem_calls ctx call hcall
  | createUniformBuffer h block usage =>
      rcases (Asking.only_makeBlockBuffer block usage).mem_calls ctx call hcall with
        htouches | ⟨buffer, rfl⟩
      · exact List.Subset.trans htouches (by simp [touches])
      · exact List.Subset.refl _

/-- A reserved part is changed only by what takes a program or a vertex array into use. -/
theorem Resolved.reserved_cases {s : Surroundings} {op : Operation} (hop : op.Resolved s)
    {part : Part} (hmem : part ∈ op.touches) (hpart : part.IsReserved) :
    (part = .program ∧ ∃ program, op = .useProgram program) ∨
      (part = .vertexArray ∧ ∃ array, op = .bindVertexArray array) := by
  cases op with
  | useProgram program => exact .inl ⟨List.mem_singleton.mp hmem, program, rfl⟩
  | bindVertexArray array => exact .inr ⟨List.mem_singleton.mp hmem, array, rfl⟩
  | issue call => exact absurd hmem (hop.not_mem_touches hpart)
  | setPointer call place record => exact absurd hmem (hop.1.not_mem_touches hpart)
  | create h what => cases what <;> cases List.mem_singleton.mp hmem <;> exact hpart.elim
  | nothing => cases hmem
  | compile _ _ | link _ _ | bufferData _ _ _ _ =>
      cases List.mem_singleton.mp hmem
      exact hpart.elim
  | bindBuffer _ _ | createUniformBuffer _ _ _ =>
      simp only [touches, List.mem_cons, List.not_mem_nil, or_false] at hmem
      rcases hmem with rfl | rfl | rfl | rfl <;> exact hpart.elim

/-- No command that is resolved reads the error away. -/
theorem Resolved.error_not_mem_touches {s : Surroundings} {op : Operation} (hop : op.Resolved s) :
    .error ∉ op.touches := by
  intro hmem
  rcases hop.reserved_cases hmem trivial with ⟨hpart, -⟩ | ⟨hpart, -⟩ <;> cases hpart

theorem Resolved.ne_getError {s : Surroundings} {op : Operation} (hop : op.Resolved s)
    {r : Registry} {ctx : Context} {call : Call} (hcall : call ∈ op.calls r ctx) :
    call ≠ .getError := by
  intro hreads
  have herror : .error ∈ call.touches := call.error_mem_touches_iff.mpr hreads
  exact hop.error_not_mem_touches (op.touches_of_mem_calls hcall herror)

/-- What is bound after an operation, by handle, whether or not the context took part. -/
def bindingsAfter (b : BindingState) : Operation → BindingState
  | useProgram program => { b with program := program.map (·.1) }
  | bindVertexArray array => { b with vertexArray := array.map (·.1) }
  | bindBuffer target buffer => { b with buffers := b.buffers.set target (buffer.map (·.1)) }
  | createUniformBuffer _ _ _ => { b with buffers := b.buffers.erase .uniform }
  | _ => b

end Operation

namespace Machine

variable {m m' : Machine}

theorem asking_context {α : Type} (m : Machine) (conversation : Asking α) :
    (m.asking conversation).2.context = m.context.issueAll (conversation.calls m.context) :=
  conversation.run_context m.context

theorem settle_context (m : Machine) (result : Except RegistryError Registry) :
    (m.settle result).2.context = m.context := by
  cases result <;> rfl

theorem place_context (m : Machine) (h : Handle) (what : NewObject) (record : ResourceRecord)
    (made : Option ObjectId) : (m.place h what record made).2.context = m.context := by
  cases made with
  | none => rfl
  | some id => exact settle_context m _

theorem link_context (m : Machine) (h : Handle) (program : ObjectId) :
    (m.perform (.link h program)).2.context =
      m.context.issueAll ((Operation.link h program).calls m.registry m.context) := by
  simp only [Operation.calls, Context.issueAll_append, ← Asking.run_context]
  generalize hlink : ((Asking.link program).run m.context).2 = context
  cases hrecord : m.registry.record h with
  | program before =>
      simp only [← Asking.run_context]
      generalize hlinked : (Asking.linked program before).run context = answered
      obtain ⟨after, context'⟩ := answered
      rw [perform_link hrecord hlink hlinked, settle_context]
  | unset | buffer _ | shader _ _ | vertexArray _ | texture | framebuffer =>
      rw [perform_link_of_ne fun before hbefore => nomatch hrecord.symm.trans hbefore]
      exact hlink

/-- An operation changes the context by its calls and by nothing else. -/
theorem perform_context (m : Machine) (op : Operation) :
    (m.perform op).2.context = m.context.issueAll (op.calls m.registry m.context) := by
  cases op with
  | nothing | issue _ | useProgram _ | bindVertexArray _ | bindBuffer _ _ => rfl
  | create _ _ => simp only [perform, place_context, asking_context, Operation.calls]
  | compile _ _ => simp only [perform, settle_context, asking_context, Operation.calls]
  | link h program => exact link_context m h program
  | bufferData _ _ _ shown =>
      cases shown <;> simp only [perform, settle_context, asking_context, Operation.calls]
  | createUniformBuffer _ block usage =>
      simp only [perform, place_context, Operation.calls]
      rw [← asking_context]
      split <;> rfl
  | setPointer call place pointer =>
      cases place with
      | none => rfl
      | some place => exact settle_context _ _

theorem settle_bindings (m : Machine) (result : Except RegistryError Registry) :
    (m.settle result).2.bindings = m.bindings := by
  cases result <;> rfl

theorem place_bindings (m : Machine) (h : Handle) (what : NewObject) (record : ResourceRecord)
    (made : Option ObjectId) : (m.place h what record made).2.bindings = m.bindings := by
  cases made with
  | none => rfl
  | some id => exact settle_bindings m _

theorem asking_bindings {α : Type} (m : Machine) (conversation : Asking α) :
    (m.asking conversation).2.bindings = m.bindings :=
  rfl

theorem perform_bindings (m : Machine) (op : Operation) :
    (m.perform op).2.bindings = op.bindingsAfter m.bindings := by
  cases op with
  | nothing | issue _ | useProgram _ | bindVertexArray _ | bindBuffer _ _ => rfl
  | create _ _ => simp only [perform, place_bindings, asking_bindings, Operation.bindingsAfter]
  | compile _ _ => simp only [perform, settle_bindings, asking_bindings, Operation.bindingsAfter]
  | link h program =>
      simp only [perform, Operation.bindingsAfter]
      split
      · simp only [asking_bindings]
      · simp only [settle_bindings, asking_bindings]
  | bufferData _ _ _ shown =>
      cases shown <;>
        simp only [perform, settle_bindings, asking_bindings, Operation.bindingsAfter]
  | createUniformBuffer _ block usage =>
      obtain ⟨hmade, -⟩ := Asking.makeBlockBuffer_run block usage m.context
      have hasked : (m.asking (Asking.makeBlockBuffer block usage)).1.isSome = true :=
        congrArg Option.isSome hmade
      simp only [perform, place_bindings, hasked, if_true, asking_bindings,
        Operation.bindingsAfter]
  | setPointer _ place _ =>
      cases place with
      | none => rfl
      | some place => exact settle_bindings _ _

theorem perform_part {op : Operation} {part : Part} (hpart : part ∉ op.touches)
    (herror : part ≠ .error) : (m.perform op).2.context.part part = m.context.part part := by
  rw [perform_context]
  exact Context.issueAll_part
    (fun call hcall hmem => hpart (op.touches_of_mem_calls hcall hmem)) herror

theorem CarriesOut.bindings_eq {op : Operation} (hop : m.CarriesOut op m') :
    m'.bindings = op.bindingsAfter m.bindings := by
  rw [← perform_bindings, hop.performed]

theorem CarriesOut.context_eq {op : Operation} (hop : m.CarriesOut op m') :
    m'.context = m.context.issueAll (op.calls m.registry m.context) := by
  rw [← perform_context, hop.performed]

theorem CarriesOut.part_eq {op : Operation} (hop : m.CarriesOut op m') {part : Part}
    (hpart : part ∉ op.touches) (herror : part ≠ .error) :
    m'.context.part part = m.context.part part := by
  rw [← m.perform_part hpart herror, hop.performed]

/-- The calls that a command puts to the context. A command that cannot be resolved puts none. -/
def callsOf (m : Machine) (payloads : List (List UInt8)) (command : Command) : List Call :=
  match Operation.resolve (m.surroundings payloads) command with
  | .ok op => op.calls m.registry m.context
  | .error _ => []

/-- A command changes the context by its calls and by nothing else, if nobody asks for errors. -/
theorem executeCommand_context (m : Machine) (payloads : List (List UInt8)) (command : Command) :
    (m.executeCommand false payloads command).2.context =
      m.context.issueAll (m.callsOf payloads command) := by
  simp only [executeCommand, callsOf]
  cases Operation.resolve (m.surroundings payloads) command with
  | error e => rfl
  | ok op =>
      simp only [← perform_context]
      rcases m.perform op with ⟨_ | _, m'⟩ <;> rfl

/-- Whatever a command answers, it changes the context by calls only. -/
theorem executeCommand_issues (m : Machine) (checks : Bool) (payloads : List (List UInt8))
    (command : Command) :
    ∃ calls, (m.executeCommand checks payloads command).2.context = m.context.issueAll calls := by
  simp only [executeCommand]
  cases Operation.resolve (m.surroundings payloads) command with
  | error e => exact ⟨[], rfl⟩
  | ok op =>
      have hperformed := m.perform_context op
      simp only
      generalize m.perform op = performed at hperformed
      obtain ⟨_ | _, m'⟩ := performed
      · exact ⟨_, hperformed⟩
      · cases checks with
        | false => exact ⟨_, hperformed⟩
        | true =>
            refine ⟨op.calls m.registry m.context ++ [.getError], ?_⟩
            rw [Context.issueAll_append, ← hperformed]
            exact congrArg (·.2.context) m'.poll_eq

theorem react_issues (m : Machine) (event : Event) :
    ∃ calls, (m.react event).context = m.context.issueAll calls := by
  cases event with
  | register uid =>
      refine ⟨[], ?_⟩
      simp only [react]
      cases m.registry.register uid <;> rfl
  | command checks payloads command => exact m.executeCommand_issues checks payloads command
  | call call => exact ⟨[call], rfl⟩
  | takeDirty | restart => exact ⟨[], rfl⟩

end Machine

/-- What every call keeps is kept by every history. -/
theorem KeptByCalls.after {R : Context → Context → Prop} (hR : KeptByCalls R) (m : Machine)
    (events : List Machine.Event) : R m.context (m.after events).context := by
  induction events generalizing m with
  | nil => exact hR.refl m.context
  | cons event rest ih =>
      obtain ⟨calls, hcalls⟩ := m.react_issues event
      have hfirst : R m.context (m.react event).context := by
        rw [hcalls]
        exact hR.issueAll m.context calls
      exact hR.trans hfirst (ih (m.react event))

end GlPlayback
