import GlPlayback.Proofs.Command.Element
import GlPlayback.Proofs.Gl.Bound
import GlPlayback.Proofs.Interpreter.Lasting

/-!
The buffer in whose record an upload shows, beside the one whose store the context fills. A binding
to an indexed point and a change of the vertex array also rebind a target, and the interpreter takes
note of neither.
-/
namespace GlPlayback

namespace BufferTarget

theorem code_inj {a b : BufferTarget} (h : a.code = b.code) : a = b := by
  cases a <;> cases b <;> first | rfl | exact absurd h (by decide)

theorem contains_code (target : BufferTarget) : Context.bufferTargets.contains target.code := by
  cases target <;> decide

end BufferTarget

theorem Call.Rebinds.touches {call : Call} {target : UInt32} (h : call.Rebinds target) :
    .buffers ∈ call.touches ∨ .vertexArray ∈ call.touches := by
  cases call with
  | bindBuffer _ _ | bindBufferBase _ _ _ => exact .inl (by simp [Call.touches])
  | bindVertexArray _ => exact .inr (by simp [Call.touches])
  | _ => exact h.elim

/-- A binding to an indexed point, by which a target is bound as well. -/
def Call.bindsBase (target : BufferTarget) : Call → Bool
  | bindBufferBase code _ _ =>
      code = target.code && (target = .uniform || target = .transformFeedback)
  | _ => false

/-- A plain call rebinds a target only along with an indexed point. -/
theorem Call.IsPlain.bindsBase_of_rebinds {call : Call} (hcall : call.IsPlain)
    {target : BufferTarget} (h : call.Rebinds target.code) : call.bindsBase target = true := by
  cases call with
  | bindBufferBase code index buffer =>
      obtain ⟨rfl, hindexed⟩ := h
      have htarget : target = .uniform ∨ target = .transformFeedback :=
        hindexed.imp BufferTarget.code_inj BufferTarget.code_inj
      simp [bindsBase, htarget]
  | bindBuffer _ _ | bindVertexArray _ => exact hcall.elim
  | _ => exact h.elim

namespace Operation

variable {op : Operation} {target : BufferTarget}

/-- The interpreter takes note of what an operation binds to a target. -/
def bindsAt (op : Operation) (target : BufferTarget) : Bool :=
  match op with
  | bindBuffer other _ => other = target
  | createUniformBuffer _ _ _ => target = .uniform
  | _ => false

/-- An operation rebinds a target without the interpreter's taking note of it. -/
def rebindsAt (op : Operation) (target : BufferTarget) : Bool :=
  match op with
  | issue call | setPointer call _ _ => call.bindsBase target
  | bindVertexArray _ => target = .elementArray
  | _ => false

theorem buffers_bindingsAfter (b : BindingState) (hbinds : op.bindsAt target = false) :
    (op.bindingsAfter b).buffers.get? target = b.buffers.get? target := by
  cases op with
  | bindBuffer other buffer =>
      have hne : other ≠ target := by simpa [bindsAt] using hbinds
      simp only [bindingsAfter, Table.get?_set, if_neg hne]
  | createUniformBuffer _ _ _ =>
      have hne : BufferTarget.uniform ≠ target := by
        rintro rfl
        cases hbinds
      simp only [bindingsAfter, Table.get?_erase, if_neg hne]
  | _ => rfl

/-- No call of an operation rebinds a target, unless the operation does. -/
theorem Resolved.not_rebinds {s : Surroundings} (hop : op.Resolved s)
    (hbinds : op.bindsAt target = false) (hrebinds : op.rebindsAt target = false)
    {r : Registry} {ctx : Context} {call : Call} (hcall : call ∈ op.calls r ctx) :
    ¬ call.Rebinds target.code := by
  have hframe (hbuffers : .buffers ∉ op.touches) (harray : .vertexArray ∉ op.touches) :
      ¬ call.Rebinds target.code := fun h =>
    have htouches := op.touches_of_mem_calls hcall
    h.touches.elim (fun hmem => hbuffers (htouches hmem)) fun hmem => harray (htouches hmem)
  have hplain {other : Call} (hother : call = other) (hplain : other.IsPlain)
      (hbase : other.bindsBase target = false) : ¬ call.Rebinds target.code := by
    subst hother
    intro h
    cases hbase.symm.trans (hplain.bindsBase_of_rebinds h)
  cases op with
  | issue other => exact hplain (List.mem_singleton.mp hcall) hop hrebinds
  | setPointer other place pointer => exact hplain (List.mem_singleton.mp hcall) hop.1 hrebinds
  | bindVertexArray array =>
      cases List.mem_singleton.mp hcall
      intro h
      cases (BufferTarget.code_inj h : target = .elementArray)
      cases hrebinds
  | bindBuffer other buffer =>
      cases List.mem_singleton.mp hcall
      intro h
      cases (BufferTarget.code_inj h : other = target)
      simp [bindsAt] at hbinds
  | createUniformBuffer h block usage =>
      rcases (Asking.only_makeBlockBuffer block usage).mem_calls ctx call hcall with
        htouches | ⟨buffer, rfl⟩
      · intro h
        rcases h.touches with hmem | hmem <;> cases List.mem_singleton.mp (htouches hmem)
      · intro h
        cases (BufferTarget.code_inj h : .uniform = target)
        cases hbinds
  | create h what =>
      refine hframe ?_ ?_ <;> cases what <;> simp [touches, Asking.creation, Call.touches]
  | nothing | compile _ _ | link _ _ | useProgram _ | bufferData _ _ _ _ =>
      exact hframe (by simp [touches]) (by simp [touches])

end Operation

namespace Surroundings

variable {s : Surroundings} {ref : PayloadRef} {bytes : List UInt8}

/-- A payload that can be decoded has the bytes that were sent. -/
theorem payload?_bytes (hbytes : s.payloads[ref.index]? = some bytes) (action : Action) :
    Yields (fun found => ∃ p, found = some p ∧ p.elements.bytes = bytes) (fun _ => True)
      (s.payload? ⟨action, some ref⟩) := by
  simp only [payload?, hbytes]
  have htype : Yields (fun _ => True) (fun _ => True)
      ((ElementType.ofName ref.type).mapError CommandError.element) :=
    Yields.of_forall _ (fun _ _ => trivial) (fun _ _ => trivial)
  have helements (type : ElementType) : Yields (fun e => e.bytes = bytes) (fun _ => True)
      ((Elements.decode type bytes).mapError CommandError.element) :=
    (Yields.of_forall (Elements.decode type bytes) (fun _ h => Elements.decode_bytes h)
      (fun _ _ => trivial)).mapError fun _ _ => trivial
  exact htype.bind fun type _ => (helements type).bind fun elements h => ⟨_, rfl, h⟩

theorem payload?_eq_ok {type : ElementType} {elements : Elements}
    (hbytes : s.payloads[ref.index]? = some bytes) (htype : ElementType.ofName ref.type = .ok type)
    (hdecode : Elements.decode type bytes = .ok elements) (action : Action) :
    s.payload? ⟨action, some ref⟩ = .ok (some ⟨elements, ref.shape⟩) := by
  simp only [payload?, hbytes, htype, Except.mapError, bind, Except.bind, hdecode]
  rfl

end Surroundings

/-- An upload that is to show in a record shows in that of the buffer taken to be bound. -/
theorem Operation.resolve_bufferData {s : Surroundings} {ref : PayloadRef} {bytes : List UInt8}
    (hbytes : s.payloads[ref.index]? = some bytes) (word usage : String) (size : Option Nat) :
    Yields (fun op => ∃ target code, BufferTarget.ofToken? word = some target ∧
        op = bufferData target (.bytes bytes) code (s.bindings.buffers.get? target))
      (fun _ => True) (resolve s ⟨.bufferData word usage true size, some ref⟩) := by
  have htarget : Yields (fun target => BufferTarget.ofToken? word = some target)
      (fun _ => True) (bufferTarget word) := by
    simp only [bufferTarget]
    split
    · assumption
    · trivial
  have htoken : Yields (fun _ => True) (fun _ => True) (token .usageHint usage) :=
    Yields.of_forall _ (fun _ _ => trivial) (fun _ _ => trivial)
  refine htarget.bind fun target hword => htoken.bind fun code _ =>
    (Surroundings.payload?_bytes hbytes _).bind ?_
  rintro _ ⟨p, rfl, hp⟩
  exact ⟨target, code, hword, by rw [← hp]; rfl⟩

namespace Asking

variable {ctx : Context} {target : UInt32} {id : ObjectId}

/-- The bytes go to the bound buffer, and as many are reported. -/
theorem fill_bound (htarget : Context.bufferTargets.contains target)
    (hbound : ctx.boundBuffer? target = some id) (hhas : ctx.objects.Has .buffer id)
    (usage : UInt32) {data : List UInt8} (hlength : data.length < 0x80000000) :
    ((fill target usage (.bytes data)).run ctx).1 = .bytes data.length ∧
      ((fill target usage (.bytes data)).run ctx).2.store? id = some data := by
  have hstore : (ctx.issue (.bufferData target data usage)).store? id = some data :=
    ctx.exec_bufferData_store data usage htarget hbound hhas
  have hstill : (ctx.issue (.bufferData target data usage)).boundBuffer? target = some id :=
    (congrFun (Context.exec_boundBuffer? (List.Subset.refl _)) target).trans hbound
  have hsize := Context.exec_bufferSize data hstill hstore
  have hanswer : ((fill target usage (.bytes data)).run ctx).1 =
      ((ctx.issue (.bufferData target data usage)).exec
        (.getBufferParameter target Enumerant.bufferSize)).1.elim .undefined
          fun n : Int32 => .bytes n.toInt := rfl
  refine ⟨?_, ?_⟩
  · rw [hanswer, hsize]
    exact congrArg StoreSize.bytes (Int32.toInt_ofNat_of_lt hlength)
  · refine (congrFun (Context.store?_of_part ?_) id).trans hstore
    exact Context.exec_part (by simp [Call.touches]) (by simp)

/-- The store of no other buffer is changed. -/
theorem fill_other (hother : ctx.boundBuffer? target ≠ some id) (usage : UInt32)
    (data : List UInt8) :
    ((fill target usage (.bytes data)).run ctx).2.store? id = ctx.store? id := by
  refine (congrFun (Context.store?_of_part ?_) id).trans
    (ctx.exec_bufferData_other data usage hother)
  exact Context.exec_part (by simp [Call.touches]) (by simp)

end Asking

theorem keptByCalls_holdsArray : KeptByCalls fun ctx ctx' =>
    ctx.Numbered → ctx.HoldsArray → ctx'.Numbered ∧ ctx'.HoldsArray where
  refl _ hn hheld := ⟨hn, hheld⟩
  trans h h' hn hheld := h' (h hn hheld).1 (h hn hheld).2
  exec ctx call hn hheld := ⟨(ctx.exec_grows call).numbered hn, hheld.exec hn call⟩

namespace Machine

variable {m m' : Machine} {event : Event} {target : BufferTarget}

/-- The buffer taken to be bound to a target is the one that the context has bound to it. -/
def AgreesAt (m : Machine) (target : BufferTarget) : Prop :=
  m.context.boundBuffer? target.code =
    (m.bindings.buffers.get? target).bind m.registry.objectOf?

/-- Whether a target may be rebound behind the interpreter's back after an event, if that is so or
not before it. -/
def moved (m : Machine) (target : BufferTarget) (before : Bool) (event : Event) : Bool :=
  match m.operation? event with
  | some op => !op.bindsAt target && (before || op.rebindsAt target)
  | none => before

/-- Since a command last bound a buffer to a target, another command rebound it behind the
interpreter's back. -/
def movedAfter (target : BufferTarget) (m : Machine) (before : Bool) : List Event → Bool
  | [] => before
  | event :: rest => movedAfter target (m.react event) (m.moved target before event) rest

/-- Targets without indexed points, other than that of the element buffer, are never rebound
behind the interpreter's back. -/
theorem movedAfter_eq_false (htarget : target ≠ .elementArray ∧ target ≠ .uniform ∧
    target ≠ .transformFeedback) (m : Machine) (events : List Event) :
    movedAfter target m false events = false := by
  obtain ⟨helement, huniform, hfeedback⟩ := htarget
  have hbase (call : Call) : call.bindsBase target = false := by
    cases call <;> simp [Call.bindsBase, huniform, hfeedback]
  have hrebinds (op : Operation) : op.rebindsAt target = false := by
    cases op <;> simp [Operation.rebindsAt, hbase, helement]
  induction events generalizing m with
  | nil => rfl
  | cons event rest ih =>
      have hstill : m.moved target false event = false := by
        simp only [moved]
        split <;> simp [hrebinds]
      rw [movedAfter, hstill]
      exact ih (m.react event)

theorem Quiet.boundBuffer?_eq (hquiet : m.Quiet m') :
    m'.context.boundBuffer? = m.context.boundBuffer? :=
  Context.boundBuffer?_of_parts fun part hpart =>
    hquiet.part_eq (by rintro rfl; simp at hpart)

theorem Quiet.store?_eq (hquiet : m.Quiet m') : m'.context.store? = m.context.store? :=
  Context.store?_of_part (hquiet.part_eq (by simp))

section Step

variable (hm : m.Sound) (hheld : m.context.HoldsArray) (hevent : m.Admits event)
include hm hevent

theorem Sound.agreesAt_kept (hagrees : m.AgreesAt target)
    (hcontext : (m.react event).context.boundBuffer? target.code =
      m.context.boundBuffer? target.code)
    (hbindings : (m.react event).bindings.buffers.get? target =
      m.bindings.buffers.get? target) : (m.react event).AgreesAt target := by
  have hcreated (h : Handle) (hh : m.bindings.buffers.get? target = some h) :
      m.registry.IsCreated h := hm.bindsCreated h (.inr (.inr ⟨target, hh⟩))
  rw [AgreesAt, hcontext, hbindings, hevent.bind_objectOf?_eq hm.bindsCreated hcreated]
  exact hagrees

/-- A command that binds to a target binds the same buffer on both sides. -/
theorem Sound.agreesAt_bound {op : Operation} {payloads : List (List UInt8)}
    (hop : op.Resolved (m.surroundings payloads)) (hbinds : op.bindsAt target = true)
    (hcontext : (m.react event).context.boundBuffer? target.code =
      (m.perform op).2.context.boundBuffer? target.code)
    (hbindings : (m.react event).bindings = op.bindingsAfter m.bindings) :
    (m.react event).AgreesAt target := by
  rw [AgreesAt, hcontext, hbindings]
  cases op with
  | bindBuffer other buffer =>
      cases (by simpa [Operation.bindsAt] using hbinds : other = target)
      have hhas (id : ObjectId) (hid : buffer.map (·.2) = some id) :
          m.context.objects.Has .buffer id := by
        obtain ⟨⟨h, id'⟩, rfl, rfl⟩ := Option.map_eq_some_iff.mp hid
        exact hm.has (Registry.what?_of_buffer (hop h id' rfl))
          (Registry.objectOf?_of_object (hop h id' rfl))
      have hexec : (m.perform (.bindBuffer target buffer)).2.context.boundBuffer? target.code =
          buffer.map (·.2) := Context.exec_bindBuffer target.contains_code hhas
      simp only [hexec, Operation.bindingsAfter, Table.get?_set, if_true]
      exact (hevent.bind_objectOf?_of_object hm.bindsCreated hop).symm
  | createUniformBuffer h block usage =>
      cases (by simpa [Operation.bindsAt] using hbinds : target = .uniform)
      obtain ⟨ctx', hlast⟩ := Asking.makeBlockBuffer_context block usage m.context
      rw [perform_context, Operation.calls, ← Asking.run_context, hlast]
      have hexec : (ctx'.issue (.bindBuffer Enumerant.uniformBuffer none)).boundBuffer?
          Enumerant.uniformBuffer = none :=
        Context.exec_bindBuffer BufferTarget.uniform.contains_code (by simp)
      simp only [Operation.bindingsAfter, Table.get?_erase, if_true]
      exact hexec
  | nothing | issue _ | create _ _ | compile _ _ | link _ _ | useProgram _ | bindVertexArray _
  | bufferData _ _ _ _ | setPointer _ _ _ => cases hbinds

include hheld

/-- Where a target is bound as the interpreter takes it to be, it stays so until it is rebound
behind the interpreter's back. -/
theorem Sound.agreesAt_react {before : Bool} (hagrees : before = false → m.AgreesAt target)
    (hmoved : m.moved target before event = false) : (m.react event).AgreesAt target := by
  have hkept := fun hbefore => hm.agreesAt_kept hevent (hagrees hbefore)
  rcases hevent.react_cases hm.bindsCreated with
    ⟨hresolve, hquiet⟩ | ⟨payloads, op, m', hresolve, hresolved, hop, hquiet⟩
  · simp only [moved, hresolve] at hmoved
    refine hkept hmoved (congrFun hquiet.boundBuffer?_eq target.code) ?_
    rw [hquiet.bindings_eq]
  · simp only [moved, hresolve, Bool.and_eq_false_iff, Bool.or_eq_false_iff,
      Bool.not_eq_false'] at hmoved
    have hcontext : (m.react event).context.boundBuffer? target.code =
        m'.context.boundBuffer? target.code := congrFun hquiet.boundBuffer?_eq target.code
    have hbindings : (m.react event).bindings = op.bindingsAfter m.bindings := by
      rw [hquiet.bindings_eq, hop.bindings_eq]
    cases hbinds : op.bindsAt target with
    | true =>
        refine hm.agreesAt_bound hevent hresolved hbinds ?_ hbindings
        rw [hcontext, hop.performed]
    | false =>
        have hbefore : before = false ∧ op.rebindsAt target = false := by simpa [hbinds] using hmoved
        refine hkept hbefore.1 ?_ ?_
        · rw [hcontext, hop.context_eq]
          exact Context.issueAll_bound hm.accounted.numbered hheld fun call =>
            hresolved.not_rebinds hbinds hbefore.2
        · rw [hbindings, Operation.buffers_bindingsAfter _ hbinds]

end Step

theorem agreesAt_after (hm : m.Sound) (hheld : m.context.HoldsArray) {events : List Event}
    (hevents : m.Along Admits events) {before : Bool}
    (hagrees : before = false → m.AgreesAt target)
    (hmoved : movedAfter target m before events = false) : (m.after events).AgreesAt target := by
  induction events generalizing m before with
  | nil => exact hagrees hmoved
  | cons event rest ih =>
      obtain ⟨hevent, hrest⟩ := hevents
      have hheld' := (keptByCalls_holdsArray.after m [event] hm.accounted.numbered hheld).2
      exact ih (hm.react hevent) hheld' hrest
        (fun hnow => hm.agreesAt_react hheld hevent hagrees hnow) hmoved

/-- A buffer is bound to none of the targets at first. -/
theorem fresh_agreesAt (width height : UInt32) (target : BufferTarget) :
    (fresh width height).AgreesAt target := by
  cases target <;> rfl

end Machine

end GlPlayback
