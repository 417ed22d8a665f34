import GlPlayback.Proofs.Gl.Footprint

/-!
Which buffer is bound to a target, and whose store an upload to the target fills. The element buffer
belongs to the vertex array in use, so it also changes with that.
-/
namespace GlPlayback

open Attempt

/-- The calls that may change what is bound to a target. -/
def Call.Rebinds (target : UInt32) : Call → Prop
  | bindBuffer other _ => other = target
  | bindBufferBase other _ _ =>
      other = target ∧
        (other = Enumerant.uniformBuffer ∨ other = Enumerant.transformFeedbackBuffer)
  | bindVertexArray _ => target = Enumerant.elementArrayBuffer
  | _ => False

theorem Attempt.check_yields (condition : Bool) (e : GlError) :
    Yields (fun _ => condition = true) (fun _ => True) (check condition e) := by
  cases condition with
  | false => trivial
  | true => rfl

namespace Context

variable {ctx ctx' : Context} {target : UInt32}

/-- The vertex array in use exists. -/
def HoldsArray (ctx : Context) : Prop :=
  ∀ id, ctx.bindings.vertexArray = some id → ctx.objects.Has .vertexArray id

theorem holdsArray_new (width height : UInt32) : (new width height).HoldsArray :=
  fun _ hid => nomatch hid

theorem bindVertexArray_holds (array : Option ObjectId) :
    Yields HoldsArray (fun _ => True) (ctx.bindVertexArray array) := by
  cases array with
  | none => exact fun id hid => nomatch hid
  | some id =>
      refine (check_yields _ _).bind fun _ hcontains => ?_
      intro other hother
      cases hother
      exact hcontains

/-- A vertex array is taken into use only if it exists, and then it goes on to exist. -/
theorem HoldsArray.exec (hn : ctx.Numbered) (hheld : ctx.HoldsArray) (call : Call) :
    (ctx.exec call).2.HoldsArray := by
  by_cases hbinds : ∃ array, call = .bindVertexArray array
  · obtain ⟨array, rfl⟩ := hbinds
    refine exec_of_attempt HoldsArray ?_ fun _ _ => hheld
    exact (bindVertexArray_holds array).map fun _ h => h
  · intro id hid
    have hpart : .vertexArray ∉ call.touches := by
      rwa [call.vertexArray_mem_touches_iff]
    have hsame : (ctx.exec call).2.bindings.vertexArray = ctx.bindings.vertexArray :=
      exec_part hpart nofun
    exact (ctx.exec_grows call).has hn (hheld id (hsame.symm.trans hid))

theorem vertexArray_changeVertexArray (change : VertexArrayObject → VertexArrayObject) :
    (ctx.changeVertexArray change).vertexArray = change ctx.vertexArray := by
  simp only [changeVertexArray, vertexArray]
  cases hbound : ctx.bindings.vertexArray with
  | none => simp [hbound]
  | some id =>
      cases hget : ctx.objects.vertexArrays.get? id with
      | none => simp [hbound, hget]
      | some array => simp [hbound, hget, Table.get?_insert]

theorem bindings_changeVertexArray (change : VertexArrayObject → VertexArrayObject) :
    (ctx.changeVertexArray change).bindings = ctx.bindings := by
  simp only [changeVertexArray]
  split
  · rfl
  · split <;> rfl

theorem boundBuffer?_changeVertexArray (change : VertexArrayObject → VertexArrayObject)
    (target : UInt32) : (ctx.changeVertexArray change).boundBuffer? target =
      if target = Enumerant.elementArrayBuffer then (change ctx.vertexArray).elementBuffer
      else ctx.boundBuffer? target := by
  simp only [boundBuffer?, vertexArray_changeVertexArray, bindings_changeVertexArray]
  split <;> rfl

/-- What a bound buffer is looked up in. -/
theorem boundBuffer?_of_parts
    (hparts : ∀ part ∈ [Part.buffers, .vertexArray, .vertexArrayObjects, .defaultVertexArray],
      ctx'.part part = ctx.part part) : ctx'.boundBuffer? = ctx.boundBuffer? := by
  have hbuffers : ctx'.bindings.buffers = ctx.bindings.buffers := hparts .buffers (by simp)
  have harray : ctx'.bindings.vertexArray = ctx.bindings.vertexArray :=
    hparts .vertexArray (by simp)
  have harrays : ctx'.objects.vertexArrays = ctx.objects.vertexArrays :=
    hparts .vertexArrayObjects (by simp)
  have hdefault : ctx'.objects.defaultVertexArray = ctx.objects.defaultVertexArray :=
    hparts .defaultVertexArray (by simp)
  funext target
  simp only [boundBuffer?, vertexArray, hbuffers, harray, harrays, hdefault]

/-- An attempt that, if it is not refused, binds a buffer to one target and to no other. -/
abbrev Binds (ctx : Context) (target : UInt32) (buffer : Option ObjectId) :
    Attempt Context → Prop :=
  Yields (fun ctx' => ∀ other, ctx'.boundBuffer? other =
    if target = other then buffer else ctx.boundBuffer? other) fun _ => True

theorem bindBuffer_binds (ctx : Context) (target : UInt32) (buffer : Option ObjectId) :
    ctx.Binds target buffer (ctx.bindBuffer target buffer) := by
  have hbound {ctx₁ : Context} (hsame : ctx₁.boundBuffer? = ctx.boundBuffer?) :
      ctx.Binds target buffer (if target = Enumerant.elementArrayBuffer then
          return ctx₁.changeVertexArray fun array => { array with elementBuffer := buffer }
        else
          return { ctx₁ with bindings.buffers := ctx₁.bindings.buffers.set target buffer }) := by
    split
    · next helement =>
        intro other
        rw [boundBuffer?_changeVertexArray, hsame, helement]
        simp only [eq_comm]
    · next helement =>
        intro other
        rw [← hsame]
        simp only [boundBuffer?, Table.get?_set]
        by_cases hother : other = Enumerant.elementArrayBuffer
        · have hne : target ≠ other := fun heq => helement (heq.trans hother)
          simp only [if_pos hother, if_neg hne]
          rfl
        · simp only [if_neg hother]
  refine (any_attempt _).bind fun _ _ => ?_
  cases buffer with
  | none => exact hbound rfl
  | some id =>
      simp only
      cases ctx.objects.buffers.get? id with
      | none => trivial
      | some b => exact hbound rfl

/-- Only two targets have indexed points. -/
theorem bindBufferBase_target (ctx : Context) (target index : UInt32)
    (buffer : Option ObjectId) :
    Yields (fun _ => target = Enumerant.uniformBuffer ∨
        target = Enumerant.transformFeedbackBuffer) (fun _ => True)
      (ctx.bindBufferBase target index buffer) := by
  refine (check_yields _ _).bind fun _ htarget => (any_attempt _).bind fun _ _ => ?_
  have hindexed : target = Enumerant.uniformBuffer ∨
      target = Enumerant.transformFeedbackBuffer := by simpa using htarget
  exact hindexed

theorem bindBufferBase_binds (ctx : Context) (target index : UInt32)
    (buffer : Option ObjectId) :
    ctx.Binds target buffer (ctx.bindBufferBase target index buffer) := by
  refine (check_yields _ _).bind fun _ htarget => (any_attempt _).bind fun _ _ => ?_
  have hne : target ≠ Enumerant.elementArrayBuffer := by
    rintro rfl
    cases htarget
  intro other
  simp only [boundBuffer?, Table.get?_set]
  by_cases hother : other = Enumerant.elementArrayBuffer
  · have hne' : target ≠ other := fun heq => hne (heq.trans hother)
    simp only [if_pos hother, if_neg hne']
    rfl
  · simp only [if_neg hother]

theorem createVertexArray_bound (hn : ctx.Numbered) (hheld : ctx.HoldsArray) :
    ctx.createVertexArray.2.boundBuffer? = ctx.boundBuffer? := by
  funext target
  simp only [boundBuffer?, vertexArray, createVertexArray, takeId]
  cases hbound : ctx.bindings.vertexArray with
  | none => rfl
  | some id =>
      have hne : ctx.nextId ≠ id := by
        rintro rfl
        exact hn.nextId_free .vertexArray (hheld _ hbound)
      simp only [Option.bind_some, Table.get?_insert, if_neg hne]

theorem changeSlot_bound (slot : Fin attributeSlots)
    (change : AttributePointer → AttributePointer) :
    (ctx.changeSlot slot change).boundBuffer? = ctx.boundBuffer? := by
  funext target
  rw [changeSlot, boundBuffer?_changeVertexArray, boundBuffer?]
  split <;> rfl

/-- Every call that does not rebind a target leaves what is bound to it. -/
theorem attempt_bound (hn : ctx.Numbered) (hheld : ctx.HoldsArray) {call : Call}
    (hcall : ¬ call.Rebinds target) :
    Yields (fun answered => answered.2.boundBuffer? target = ctx.boundBuffer? target)
      (fun _ => True) (ctx.attempt call) := by
  have hframe (hparts : ∀ part ∈
      [Part.buffers, .vertexArray, .vertexArrayObjects, .defaultVertexArray],
      part ∉ call.touches) :
      Yields (fun answered => answered.2.boundBuffer? target = ctx.boundBuffer? target)
        (fun _ => True) (ctx.attempt call) :=
    Yields.of_forall _ (fun answered hanswered =>
      congrFun (boundBuffer?_of_parts fun part hpart =>
        (ctx.attempt_within call).value hanswered part (hparts part hpart)) target)
      fun _ _ => trivial
  have heffect {changed : Attempt Context}
      (h : Yields (fun ctx' => ctx'.boundBuffer? target = ctx.boundBuffer? target)
        (fun _ => True) changed) :
      Yields (fun answered => answered.2.boundBuffer? target = ctx.boundBuffer? target)
        (fun _ => True) (effect changed) := h.map fun _ h => h
  cases call with
  | bindBuffer other buffer =>
      refine heffect (Yields.of_forall _ (fun ctx' h => ?_) fun _ _ => trivial)
      have hne : other ≠ target := hcall
      rw [(ctx.bindBuffer_binds other buffer).value h, if_neg hne]
  | bindBufferBase other index buffer =>
      refine heffect (Yields.of_forall _ (fun ctx' h => ?_) fun _ _ => trivial)
      have hne : other ≠ target := fun heq =>
        hcall ⟨heq, (ctx.bindBufferBase_target other index buffer).value h⟩
      rw [(ctx.bindBufferBase_binds other index buffer).value h, if_neg hne]
  | createVertexArray => exact congrFun (createVertexArray_bound hn hheld) target
  | bindVertexArray array =>
      refine heffect (Yields.of_forall _ (fun ctx' h => ?_) fun _ _ => trivial)
      have hparts := (ctx.bindVertexArray_within array).value h
      have hbuffers : ctx'.bindings.buffers = ctx.bindings.buffers := hparts .buffers (by decide)
      have hne : target ≠ Enumerant.elementArrayBuffer := hcall
      simp only [boundBuffer?, if_neg hne, hbuffers]
  | attributePointer _ _ _ _ _ _ =>
      exact heffect ((any_attempt _).bind fun slot _ => (any_attempt _).bind fun _ _ =>
        (any_attempt _).bind fun _ _ => congrFun (changeSlot_bound slot _) target)
  | attributeIPointer _ _ _ _ _ =>
      exact heffect ((any_attempt _).bind fun slot _ => (any_attempt _).bind fun _ _ =>
        congrFun (changeSlot_bound slot _) target)
  | enableAttribute _ | disableAttribute _ =>
      exact heffect ((any_attempt _).bind fun slot _ => congrFun (changeSlot_bound slot _) target)
  | _ => exact hframe (by simp [Call.touches])

theorem exec_bound (hn : ctx.Numbered) (hheld : ctx.HoldsArray) {call : Call}
    (hcall : ¬ call.Rebinds target) :
    (ctx.exec call).2.boundBuffer? target = ctx.boundBuffer? target := by
  have hcounted : (ctx.countCall call.name).Numbered := ⟨hn.below, hn.alone⟩
  exact exec_of_attempt (fun ctx' => ctx'.boundBuffer? target = ctx.boundBuffer? target)
    (attempt_bound hcounted hheld hcall) fun _ _ => rfl

/-- What is bound stays bound while only buffers themselves are changed. -/
theorem exec_boundBuffer? {call : Call} (hcall : call.touches ⊆ [.bufferObjects]) :
    (ctx.exec call).2.boundBuffer? = ctx.boundBuffer? := by
  refine boundBuffer?_of_parts fun part hpart => exec_part (fun hmem => ?_) ?_
  · cases List.mem_singleton.mp (hcall hmem)
    simp at hpart
  · rintro rfl
    simp at hpart

theorem issueAll_bound (hn : ctx.Numbered) (hheld : ctx.HoldsArray) {calls : List Call}
    (hcalls : ∀ call ∈ calls, ¬ call.Rebinds target) :
    (ctx.issueAll calls).boundBuffer? target = ctx.boundBuffer? target := by
  induction calls generalizing ctx with
  | nil => rfl
  | cons call rest ih =>
      have hrest : ((ctx.issue call).issueAll rest).boundBuffer? target =
          (ctx.issue call).boundBuffer? target :=
        ih ((ctx.exec_grows call).numbered hn) (hheld.exec hn call) fun other hother =>
          hcalls other (List.mem_cons_of_mem call hother)
      exact hrest.trans (exec_bound hn hheld (hcalls call List.mem_cons_self))

/-- A buffer that exists can be bound to every target, and it takes nothing to bind none. -/
theorem bindBuffer_eq_ok (htarget : bufferTargets.contains target) {buffer : Option ObjectId}
    (hbuffer : ∀ id, buffer = some id → ctx.objects.Has .buffer id) :
    ∃ ctx', ctx.bindBuffer target buffer = .ok ctx' := by
  have hbound (ctx₁ : Context) : ∃ ctx', (if target = Enumerant.elementArrayBuffer then
      return ctx₁.changeVertexArray fun array => { array with elementBuffer := buffer }
    else return { ctx₁ with bindings.buffers := ctx₁.bindings.buffers.set target buffer } :
      Attempt Context) = .ok ctx' := by
    split <;> exact ⟨_, rfl⟩
  cases buffer with
  | none =>
      simp only [bindBuffer, check, htarget, if_true]
      exact hbound ctx
  | some id =>
      obtain ⟨b, hb⟩ := Option.isSome_iff_exists.mp (hbuffer id rfl)
      simp only [bindBuffer, check, htarget, if_true, hb]
      exact hbound _

theorem exec_bindBuffer (htarget : bufferTargets.contains target) {buffer : Option ObjectId}
    (hbuffer : ∀ id, buffer = some id → ctx.objects.Has .buffer id) :
    (ctx.exec (.bindBuffer target buffer)).2.boundBuffer? target = buffer := by
  have hcounted : ∀ id, buffer = some id →
      (ctx.countCall "bind_buffer").objects.Has .buffer id := hbuffer
  obtain ⟨ctx', hbind⟩ := bindBuffer_eq_ok htarget hcounted
  have hexec : ctx.exec (.bindBuffer target buffer) = ((), ctx') := by
    simp only [exec, Call.name, attempt, hbind]
    rfl
  rw [hexec, (bindBuffer_binds _ target buffer).value hbind, if_pos rfl]

section Store

/-- The data store of a buffer. -/
def store? (ctx : Context) (id : ObjectId) : Option (List UInt8) :=
  (ctx.objects.buffers.get? id).map (·.data)

theorem store?_of_part (h : ctx'.part .bufferObjects = ctx.part .bufferObjects) :
    ctx'.store? = ctx.store? := by
  have hbuffers : ctx'.objects.buffers = ctx.objects.buffers := h
  funext id
  simp only [store?, hbuffers]

theorem changeBuffer_store {id : ObjectId} (hother : ctx.boundBuffer? target ≠ some id)
    (change : BufferObject → Attempt BufferObject) :
    Yields (fun ctx' => ctx'.store? id = ctx.store? id) (fun _ => True)
      (ctx.changeBuffer target change) := by
  refine (any_attempt _).bind fun _ _ => ?_
  split
  · trivial
  · next bound hbound =>
      split
      · rfl
      · refine (any_attempt _).bind fun changed _ => ?_
        have hne : bound ≠ id := by
          rintro rfl
          exact hother hbound
        change Option.map _ _ = _
        rw [Table.get?_insert, if_neg hne]
        rfl

variable {id : ObjectId} (data : List UInt8) (usage : UInt32)

/-- An upload fills no store but that of the bound buffer. -/
theorem exec_bufferData_other (hother : ctx.boundBuffer? target ≠ some id) :
    (ctx.exec (.bufferData target data usage)).2.store? id = ctx.store? id := by
  have hcounted : (ctx.countCall "buffer_data").boundBuffer? target ≠ some id := hother
  exact exec_of_attempt (fun ctx' => ctx'.store? id = ctx.store? id)
    ((changeBuffer_store hcounted _).map fun _ h => h) fun _ _ => rfl

/-- An upload fills the store of the bound buffer. -/
theorem exec_bufferData_store (htarget : bufferTargets.contains target)
    (hbound : ctx.boundBuffer? target = some id) (hhas : ctx.objects.Has .buffer id) :
    (ctx.exec (.bufferData target data usage)).2.store? id = some data := by
  obtain ⟨b, hb⟩ := Option.isSome_iff_exists.mp hhas
  have hcounted : (ctx.countCall "buffer_data").boundBuffer? target = some id := hbound
  have hexec : (ctx.exec (.bufferData target data usage)).2 =
      { ctx.countCall "buffer_data" with
        objects.buffers := ctx.objects.buffers.insert id { b with usage, data } } := by
    simp only [exec, Call.name, attempt, bufferData, changeBuffer, check, htarget, if_true,
      hcounted]
    simp only [countCall, hb]
    rfl
  rw [hexec, store?, Table.get?_insert, if_pos rfl]
  rfl

/-- Room that is made in the bound buffer is filled with zeros. -/
theorem exec_bufferDataSize_store (htarget : bufferTargets.contains target)
    (hbound : ctx.boundBuffer? target = some id) (hhas : ctx.objects.Has .buffer id) {size : Nat}
    (hsize : size < 0x8000000000000000) :
    (ctx.exec (.bufferDataSize target size usage)).2.store? id = some (List.replicate size 0) := by
  obtain ⟨b, hb⟩ := Option.isSome_iff_exists.mp hhas
  have hcounted : (ctx.countCall "buffer_data_size").boundBuffer? target = some id := hbound
  have hexec : (ctx.exec (.bufferDataSize target size usage)).2 =
      { ctx.countCall "buffer_data_size" with
        objects.buffers := ctx.objects.buffers.insert id
          { b with usage, data := List.replicate size 0 } } := by
    simp only [exec, Call.name, attempt, bufferDataSize, changeBuffer, check, htarget, if_true,
      hcounted]
    simp only [countCall, hb, hsize, if_true]
    rfl
  rw [hexec, store?, Table.get?_insert, if_pos rfl]
  rfl

theorem exec_bufferSize (hbound : ctx.boundBuffer? target = some id)
    (hstore : ctx.store? id = some data) :
    (ctx.exec (.getBufferParameter target Enumerant.bufferSize)).1 =
      some (Int32.ofNat data.length) := by
  obtain ⟨b, hb, rfl⟩ := Option.map_eq_some_iff.mp hstore
  have hcounted : (ctx.countCall "get_buffer_parameter").boundBuffer? target = some id := hbound
  simp only [exec, Call.name, attempt, bufferParameter, hcounted, Option.bind_some]
  simp only [countCall, hb]
  rfl

theorem exec_bufferSize_of_none
    (h : (ctx.boundBuffer? target).bind ctx.objects.buffers.get? = none) (name : UInt32) :
    (ctx.exec (.getBufferParameter target name)).1 = none := by
  have hcounted : ((ctx.countCall "get_buffer_parameter").boundBuffer? target).bind
      (ctx.countCall "get_buffer_parameter").objects.buffers.get? = none := h
  simp only [exec, Call.name, attempt, bufferParameter, hcounted]
  rfl

end Store

end Context

end GlPlayback
