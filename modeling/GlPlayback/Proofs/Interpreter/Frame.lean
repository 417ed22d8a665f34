import GlPlayback.Proofs.Interpreter.Calling

/-!
What a command leaves alone, in every state and whatever it answers. What is bound changes by four
commands only, the registry by those that own one of its resources, and the log of draws by those
that draw.
-/
namespace GlPlayback

namespace Action

/-- Commands after which something else may be bound, by handle. -/
def Rebinds : Action → Prop
  | useProgram _ | bindVertexArray _ | bindBuffer _ _ | createUniformBuffer _ _ _ _ => True
  | _ => False

def Draws : Action → Prop
  | clear _ _ _ | drawArrays _ _ _ | drawArraysInstanced _ _ _ _ | drawElements _ _ _ _
  | drawElementsInstanced _ _ _ _ _ => True
  | _ => False

end Action

def Call.Draws : Call → Prop
  | clear _ | drawArrays _ _ _ | drawArraysInstanced _ _ _ _ | drawElements _ _ _ _
  | drawElementsInstanced _ _ _ _ _ => True
  | _ => False

theorem Call.draws_mem_touches_iff (call : Call) : .draws ∈ call.touches ↔ call.Draws := by
  cases call <;> simp [touches, Draws]

namespace Context

/-- The other context has logged the same draws, and one more at most. -/
def LogsOnto (ctx ctx' : Context) : Prop :=
  ctx'.draws = ctx.draws ∨ ∃ draw, ctx'.draws = ctx.draws.push draw

theorem drawArrays_logs (ctx : Context) (mode : UInt32) (first count instances : Int32) :
    Yields ctx.LogsOnto (fun _ => True) (ctx.drawArrays mode first count instances) :=
  (Yields.any _).bind fun _ _ => (Yields.any _).bind fun _ _ => .inr ⟨_, rfl⟩

theorem drawElements_logs (ctx : Context) (mode : UInt32) (count : Int32) (type : UInt32)
    (offset instances : Int32) :
    Yields ctx.LogsOnto (fun _ => True) (ctx.drawElements mode count type offset instances) :=
  (Yields.any _).bind fun _ _ => (Yields.any _).bind fun _ _ => (Yields.any _).bind fun _ _ =>
    (Yields.any _).bind fun _ _ => .inr ⟨_, rfl⟩

/-- A call logs at most one draw, behind those that were logged before. -/
theorem exec_logs (ctx : Context) (call : Call) : ctx.LogsOnto (ctx.exec call).2 := by
  by_cases hdraws : call.Draws
  · refine exec_of_attempt ctx.LogsOnto ?_ fun error lost => .inl rfl
    cases call with
    | clear mask => exact .inr ⟨_, rfl⟩
    | drawArrays mode first count => exact (drawArrays_logs _ mode first count 1).map fun _ => id
    | drawArraysInstanced mode first count instances =>
        exact (drawArrays_logs _ mode first count instances).map fun _ => id
    | drawElements mode count type offset =>
        exact (drawElements_logs _ mode count type offset 1).map fun _ => id
    | drawElementsInstanced mode count type offset instances =>
        exact (drawElements_logs _ mode count type offset instances).map fun _ => id
    | _ => exact hdraws.elim
  · rw [← call.draws_mem_touches_iff] at hdraws
    exact .inl (exec_part hdraws (by simp))

end Context

/-- The resource that a command may write: the one that it creates, compiles or links, or the buffer
or the vertex array that is bound. Other commands have none. -/
def Surroundings.owned? (s : Surroundings) : Action → Option Handle
  | .create _ raw | .createUniformBuffer raw _ _ _ | .compileShader raw | .linkProgram raw =>
      (s.registry.handle raw).toOption
  | .bufferData word _ true _ => (BufferTarget.ofToken? word).bind s.bindings.buffers.get?
  | .attributePointer _ _ | .attributeIPointer _ => s.bindings.vertexArray
  | _ => none

namespace Operation

variable {s : Surroundings} {action : Action}

/-- An operation does no more than its command may: it binds and draws only for a command that does
so, and writes only the resource that the command owns. -/
def Heeds (s : Surroundings) (action : Action) : Operation → Prop
  | nothing => True
  | issue call => call.Draws → action.Draws
  | create h _ | compile h _ | link h _ => s.owned? action = some h
  | useProgram _ | bindVertexArray _ | bindBuffer _ _ => action.Rebinds
  | bufferData _ _ _ shown => ∀ h, shown = some h → s.owned? action = some h
  | createUniformBuffer h _ _ => action.Rebinds ∧ s.owned? action = some h
  | setPointer call place _ =>
      ¬ call.Draws ∧ ∀ array buffer, place = some (array, buffer) → s.owned? action = some array

/-- An attempt that, if it succeeds, gives an operation that heeds the command. -/
abbrev Heeding (s : Surroundings) (action : Action) : Except CommandError Operation → Prop :=
  Yields (Heeds s action) fun _ => True

theorem Heeding.bind {α : Type} (x : Except CommandError α) {f : α → Except CommandError Operation}
    (hf : ∀ a, Heeding s action (f a)) : Heeding s action (x >>= f) :=
  (Yields.any x).bind fun a _ => hf a

theorem handle_named (raw : Int) :
    Yields (fun h => (s.registry.handle raw).toOption = some h) (fun _ => True) (s.handle raw) := by
  simp only [Surroundings.handle]
  cases s.registry.handle raw with
  | ok h => rfl
  | error e => trivial

theorem resource_named (raw : Int) (kind : ResourceKind) :
    Yields (fun x => (s.registry.handle raw).toOption = some x.1) (fun _ => True)
      (s.resource raw kind) :=
  (handle_named raw).bind fun _ hnamed => (Yields.any _).bind fun _ _ => hnamed

theorem IsUpload.heeds {op : Operation} (hop : op.IsUpload) : op.Heeds s action := by
  cases op with
  | nothing => trivial
  | issue call =>
      intro hdraws
      cases call with
      | clear _ | drawArrays _ _ _ | drawArraysInstanced _ _ _ _ | drawElements _ _ _ _
      | drawElementsInstanced _ _ _ _ _ => exact hop.elim
      | _ => exact hdraws.elim
  | _ => exact hop.elim

theorem Uploading.heeds (command : Command) {x : Except CommandError Operation}
    (hx : Uploading s command x) : Heeding s action x :=
  hx.imp (fun _ hop => hop.heeds) fun _ _ => trivial

theorem resolve_heeds (s : Surroundings) (command : Command) :
    Heeding s command.action (resolve s command) := by
  simp only [resolve]
  cases command.action with
  | create what raw =>
      exact (handle_named raw).bind fun h hnamed => Heeding.bind _ fun _ => hnamed
  | createUniformBuffer raw program name usage =>
      refine (handle_named raw).bind fun h hnamed => Heeding.bind _ fun found =>
        Heeding.bind _ fun record => ?_
      split
      · trivial
      · exact Heeding.bind _ fun _ => ⟨trivial, hnamed⟩
  | compileShader raw | linkProgram raw =>
      exact (resource_named raw _).bind fun _ hnamed => hnamed
  | bufferData word usage update size =>
      have htarget : Yields (fun target => BufferTarget.ofToken? word = some target)
          (fun _ => True) (bufferTarget word) := by
        simp only [bufferTarget]
        cases BufferTarget.ofToken? word <;> trivial
      refine htarget.bind fun target hword => Heeding.bind _ fun _ => Heeding.bind _ fun _ => ?_
      intro h hshown
      cases update with
      | true => exact (congrArg (·.bind s.bindings.buffers.get?) hword).trans hshown
      | false => cases hshown
  | attributePointer args _ | attributeIPointer args =>
      exact .bind _ fun _ => .bind _ fun _ =>
        ⟨id, fun _ _ hplace => Surroundings.vertexArray_of_pointerPlace hplace⟩
  | clear _ _ _ => exact fun _ => trivial
  | drawArrays _ _ _ | drawArraysInstanced _ _ _ _ => exact .bind _ fun _ _ => trivial
  | drawElements _ _ _ _ | drawElementsInstanced _ _ _ _ _ =>
      exact .bind _ fun _ => .bind _ fun _ _ => trivial
  | useProgram _ | bindVertexArray _ => exact .bind _ fun _ => trivial
  | bindBuffer _ _ => exact .bind _ fun _ => .bind _ fun _ => trivial
  | viewport _ | clearColor _ | depthMask _ | depthRange _ _ | blendColor _ => exact False.elim
  | enable _ | disable _ | frontFace _ | cullFace _ | depthFunc _ | blendEquation _
  | generateMipmap _ | shaderSource _ _ | deleteShader _ | bindAttributeLocation _ _ _
  | enableAttribute _ | disableAttribute _ | drawBuffers _ =>
      exact .bind _ fun _ => False.elim
  | blendEquationSeparate _ _ | blendFunc _ _ | texStorage2D _ _ _ _ _ | texStorage3D _ _ _ _ _ _
  | texParameterInt _ _ _ | texParameterFloat _ _ _ | pixelStore _ _ | bindTexture _ _
  | bindFramebuffer _ _ | bindBufferBase _ _ _ =>
      exact .bind _ fun _ => .bind _ fun _ => False.elim
  | texImage2D _ _ | texImage3D _ _ | texParameterToken _ _ _ =>
      exact .bind _ fun _ => .bind _ fun _ => .bind _ fun _ => False.elim
  | blendFuncSeparate _ | attachShader _ _ | framebufferTexture2D _ _ _ _ _ =>
      exact .bind _ fun _ => .bind _ fun _ => .bind _ fun _ => .bind _ fun _ => False.elim
  | activeTexture unit =>
      simp only
      split
      · exact False.elim
      · trivial
  | uniform name => exact (upload_yields name vectorCall_yields).heeds command
  | uniformMatrix name => exact (upload_yields name matrixCall_yields).heeds command
  | uniformBlockBinding raw name _ =>
      refine .bind _ fun found => .bind _ fun record => ?_
      split
      · trivial
      · exact False.elim
  | bufferSubData _ _ _ _ =>
      exact .bind _ fun target => .bind _ fun p => (subData_yields target _ _ _ p).heeds command
  | bufferSubDataAt _ _ _ =>
      exact .bind _ fun target => .bind _ fun start => .bind _ fun p =>
        (subData_yields target start _ _ p).heeds command
  | attributeFloats _ =>
      exact .bind _ fun index => .bind _ fun p => (attributeFloats_yields index p).heeds command
  | attributeInts _ =>
      exact .bind _ fun index => .bind _ fun p => (attributeInts_yields index p).heeds command
  | unknown => trivial

/-- The calls of an operation draw only where its command does. -/
theorem Heeds.draws_mem_touches {op : Operation} (hop : op.Heeds s action)
    (hdraws : .draws ∈ op.touches) : ∃ call, op = issue call ∧ action.Draws := by
  cases op with
  | issue call => exact ⟨call, rfl, hop (call.draws_mem_touches_iff.mp hdraws)⟩
  | setPointer call place record => exact absurd (call.draws_mem_touches_iff.mp hdraws) hop.1
  | create h what =>
      rw [touches] at hdraws
      cases what <;> simp [Asking.creation, Call.touches] at hdraws
  | nothing | compile _ _ | link _ _ | useProgram _ | bindVertexArray _ | bindBuffer _ _
  | bufferData _ _ _ _ | createUniformBuffer _ _ _ => simp [touches] at hdraws

theorem Heeds.bindings {op : Operation} (hop : op.Heeds s action) (b : BindingState) :
    op.bindingsAfter b = b ∨ action.Rebinds := by
  cases op with
  | useProgram _ | bindVertexArray _ | bindBuffer _ _ => exact .inr hop
  | createUniformBuffer _ _ _ => exact .inr hop.1
  | nothing | issue _ | create _ _ | compile _ _ | link _ _ | bufferData _ _ _ _
  | setPointer _ _ _ => exact .inl rfl

end Operation

/-- The other registry differs at most in one resource, which is this one. -/
def Registry.DiffersAt (r : Registry) (owned : Option Handle) (r' : Registry) : Prop :=
  r' = r ∨ ∃ h change, owned = some h ∧ r' = r.write h change

namespace Registry

variable {r r' : Registry} {h : Handle}

theorem create_differs {object : ObjectId} {record : ResourceRecord}
    (hr : r.create h object record = .ok r') : r.DiffersAt (some h) r' := by
  obtain ⟨-, rfl⟩ := create_eq_ok hr
  exact .inr ⟨h, _, rfl, rfl⟩

theorem changeRecord_differs {change : ResourceRecord → ResourceRecord}
    (hr : r.changeRecord h change = .ok r') : r.DiffersAt (some h) r' := by
  obtain ⟨-, rfl⟩ := changeRecord_eq_ok hr
  exact .inr ⟨h, _, rfl, rfl⟩

theorem addPointer_differs {buffer : Handle} {pointer : PointerRecord}
    (hr : r.addPointer h buffer pointer = .ok r') : r.DiffersAt (some h) r' := by
  obtain ⟨x, -, hadded⟩ := bind_eq_ok_iff.mp hr
  split at hadded
  · exact changeRecord_differs hadded
  · cases hadded
    exact .inl rfl

end Registry

namespace Machine

theorem asking_registry {α : Type} (m : Machine) (conversation : Asking α) :
    (m.asking conversation).2.registry = m.registry :=
  rfl

theorem settle_differs (m : Machine) {owned : Option Handle}
    {result : Except RegistryError Registry}
    (hresult : ∀ r', result = .ok r' → m.registry.DiffersAt owned r') :
    m.registry.DiffersAt owned (m.settle result).2.registry := by
  cases result with
  | ok r' => exact hresult r' rfl
  | error e => exact .inl rfl

theorem changeRecord_differs (m : Machine) (h : Handle) (change : ResourceRecord → ResourceRecord) :
    m.registry.DiffersAt (some h) (m.settle (m.registry.changeRecord h change)).2.registry :=
  m.settle_differs fun _ => Registry.changeRecord_differs

theorem place_differs (m : Machine) (h : Handle) (what : NewObject) (record : ResourceRecord)
    (made : Option ObjectId) :
    m.registry.DiffersAt (some h) (m.place h what record made).2.registry := by
  cases made with
  | none => exact .inl rfl
  | some id => exact m.settle_differs fun _ => Registry.create_differs

section Perform

variable {s : Surroundings} {action : Action} {op : Operation}

theorem perform_differs (m : Machine) (hop : op.Heeds s action) :
    m.registry.DiffersAt (s.owned? action) (m.perform op).2.registry := by
  cases op with
  | nothing | issue _ | useProgram _ | bindVertexArray _ | bindBuffer _ _ => exact .inl rfl
  | create h what =>
      rw [show s.owned? action = some h from hop, ← m.asking_registry (Asking.make what)]
      exact place_differs _ h what _ _
  | compile h shader =>
      rw [show s.owned? action = some h from hop, ← m.asking_registry (Asking.compile shader)]
      exact changeRecord_differs _ h _
  | link h program =>
      rw [show s.owned? action = some h from hop, ← m.asking_registry (Asking.link program)]
      simp only [perform]
      split
      · exact .inl rfl
      · next before _ =>
          generalize (m.asking (Asking.link program)).2 = linked
          rw [← linked.asking_registry (Asking.linked program before)]
          exact changeRecord_differs _ h _
  | bufferData target contents usage shown =>
      rw [← m.asking_registry (Asking.fill target.code usage contents)]
      cases shown with
      | none => exact .inl rfl
      | some h =>
          rw [hop h rfl]
          exact changeRecord_differs _ h _
  | createUniformBuffer h block usage =>
      rw [hop.2, ← m.asking_registry (Asking.makeBlockBuffer block usage)]
      simp only [perform]
      split
      · exact place_differs _ h .buffer _ _
      · exact place_differs _ h .buffer _ _
  | setPointer call place pointer =>
      cases place with
      | none => exact .inl rfl
      | some place =>
          rw [hop.2 place.1 place.2 rfl]
          exact settle_differs _ fun r' => Registry.addPointer_differs

theorem perform_logs (m : Machine) (hop : op.Heeds s action) :
    (m.perform op).2.context.draws = m.context.draws ∨
      action.Draws ∧ m.context.LogsOnto (m.perform op).2.context := by
  by_cases hdraws : .draws ∈ op.touches
  · obtain ⟨call, rfl, haction⟩ := hop.draws_mem_touches hdraws
    exact .inr ⟨haction, m.context.exec_logs call⟩
  · exact .inl (m.perform_part hdraws (by simp))

end Perform

/-- A command that is not resolved leaves the machine. Of another one, its operation is carried out
and at most the error is then read away. -/
theorem executeCommand_left (m : Machine) (checks : Bool) (payloads : List (List UInt8))
    (command : Command) :
    (m.executeCommand checks payloads command).2 = m ∨
      ∃ op, Operation.resolve (m.surroundings payloads) command = .ok op ∧
        ∃ checks', (m.executeCommand checks payloads command).2 =
          (m.perform op).2.readAway checks' := by
  simp only [executeCommand]
  cases Operation.resolve (m.surroundings payloads) command with
  | error e => exact .inl rfl
  | ok op =>
      refine .inr ⟨op, rfl, ?_⟩
      simp only
      generalize m.perform op = performed
      obtain ⟨_ | _, m'⟩ := performed
      · exact ⟨false, rfl⟩
      · cases checks with
        | false => exact ⟨false, rfl⟩
        | true => exact ⟨true, congrArg Prod.snd m'.poll_eq⟩

theorem readAway_draws (checks : Bool) (m : Machine) :
    (m.readAway checks).context.draws = m.context.draws := by
  cases checks with
  | false => rfl
  | true => rfl

/-- In every state, whatever a command answers, it changes what is bound only if it is a command
that binds, and the registry only at the resource that it owns; it logs at most one draw, behind
those that were logged before, and only if it is a command that draws. -/
theorem executeCommand_frame (m : Machine) (checks : Bool) (payloads : List (List UInt8))
    (command : Command) :
    let m' := (m.executeCommand checks payloads command).2
    (m'.bindings ≠ m.bindings → command.action.Rebinds) ∧
    (m'.registry ≠ m.registry → ∃ h, (m.surroundings payloads).owned? command.action = some h ∧
      ∀ other, other ≠ h → m'.registry.get other = m.registry.get other ∧
        (other ∈ m'.registry.dirty.keys ↔ other ∈ m.registry.dirty.keys)) ∧
    (m'.context.draws ≠ m.context.draws → command.action.Draws ∧
      ∃ draw, m'.context.draws = m.context.draws.push draw) := by
  intro m'
  rcases m.executeCommand_left checks payloads command with hleft | ⟨op, hresolve, checks', hleft⟩
  · rw [show m' = m from hleft]
    exact ⟨(absurd rfl ·), (absurd rfl ·), (absurd rfl ·)⟩
  have hop : op.Heeds (m.surroundings payloads) command.action :=
    (Operation.resolve_heeds (m.surroundings payloads) command).value hresolve
  have hcalls : (m.perform op).2.Calls m' := by
    rw [show m' = (m.perform op).2.readAway checks' from hleft]
    exact readAway_calls checks' _
  refine ⟨fun hchanged => ?_, fun hchanged => ?_, fun hchanged => ?_⟩
  · rw [hcalls.bindings_eq, perform_bindings] at hchanged
    exact (hop.bindings m.bindings).resolve_left hchanged
  · rw [hcalls.registry_eq] at hchanged ⊢
    obtain ⟨h, change, howned, hregistry⟩ := (m.perform_differs hop).resolve_left hchanged
    refine ⟨h, howned, fun other hne => ?_⟩
    rw [hregistry, Registry.get_write_of_ne _ _ _ hne, Registry.mem_dirty_write]
    exact ⟨rfl, by simp [hne]⟩
  · have hdraws : m'.context.draws = (m.perform op).2.context.draws := by
      rw [show m' = (m.perform op).2.readAway checks' from hleft]
      exact readAway_draws checks' _
    rw [hdraws] at hchanged ⊢
    obtain ⟨haction, hlogs⟩ := (m.perform_logs hop).resolve_left hchanged
    exact ⟨haction, hlogs.resolve_left hchanged⟩

end Machine

end GlPlayback
