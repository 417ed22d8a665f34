import GlPlayback.Proofs.Gl.Bound

/-!
Where a buffer is bound at all. Calls that do not bind it spread it nowhere, and the store of a
buffer that is bound nowhere is out of reach.
-/
namespace GlPlayback

open Attempt

/-- The call binds a buffer to a target. -/
def Call.Binds (target : UInt32) (buffer : ObjectId) : Call → Prop
  | bindBuffer other bound | bindBufferBase other _ bound => other = target ∧ bound = some buffer
  | _ => False

theorem Call.Binds.touches {call : Call} {target : UInt32} {buffer : ObjectId}
    (h : call.Binds target buffer) : .buffers ∈ call.touches := by
  cases call with
  | bindBuffer _ _ | bindBufferBase _ _ _ => simp [Call.touches]
  | _ => exact h.elim

namespace Context

variable {ctx ctx' : Context} {buffer : ObjectId} {targets : List UInt32}

/-- A buffer is bound to no targets but these, and is the element buffer of no vertex array. -/
structure BoundWithin (ctx : Context) (buffer : ObjectId) (targets : List UInt32) : Prop where
  target : ∀ {target}, ctx.bindings.buffers.get? target = some buffer → target ∈ targets
  array : ∀ {id array}, ctx.objects.vertexArrays.get? id = some array →
    array.elementBuffer ≠ some buffer
  defaultArray : ctx.objects.defaultVertexArray.elementBuffer ≠ some buffer

/-- A buffer is bound nowhere. -/
abbrev Unbound (ctx : Context) (buffer : ObjectId) : Prop :=
  ctx.BoundWithin buffer []

theorem unbound_new (width height : UInt32) (buffer : ObjectId) :
    (new width height).Unbound buffer := by
  refine ⟨?_, ?_, ?_⟩
  · exact fun hbound => nomatch hbound
  · exact fun harray => nomatch harray
  · exact fun hdefault => nomatch hdefault

theorem BoundWithin.mono {more : List UInt32} (h : ctx.BoundWithin buffer targets)
    (hmore : targets ⊆ more) : ctx.BoundWithin buffer more :=
  ⟨fun hbound => hmore (h.target hbound), h.array, h.defaultArray⟩

/-- Once another buffer, or none, is bound to its only target, a buffer is bound nowhere. -/
theorem BoundWithin.unbound {target : UInt32} (h : ctx.BoundWithin buffer [target])
    (htarget : target ≠ Enumerant.elementArrayBuffer)
    (hother : ctx.boundBuffer? target ≠ some buffer) : ctx.Unbound buffer := by
  refine ⟨?_, h.array, h.defaultArray⟩
  intro other hbound
  cases List.mem_singleton.mp (h.target hbound)
  rw [boundBuffer?, if_neg htarget] at hother
  exact absurd hbound hother

theorem BoundWithin.vertexArray_ne (h : ctx.BoundWithin buffer targets) :
    ctx.vertexArray.elementBuffer ≠ some buffer := by
  rw [vertexArray]
  cases hused : ctx.bindings.vertexArray.bind ctx.objects.vertexArrays.get? with
  | none => exact h.defaultArray
  | some array =>
      obtain ⟨id, -, harray⟩ := Option.bind_eq_some_iff.mp hused
      exact h.array harray

theorem BoundWithin.boundBuffer?_ne (h : ctx.BoundWithin buffer targets) {target : UInt32}
    (htarget : target ∉ targets) : ctx.boundBuffer? target ≠ some buffer := by
  rw [boundBuffer?]
  split
  · exact h.vertexArray_ne
  · exact fun hbound => htarget (h.target hbound)

theorem boundWithin_of_parts
    (hparts : ∀ part ∈ [Part.buffers, .vertexArrayObjects, .defaultVertexArray],
      ctx'.part part = ctx.part part) (h : ctx.BoundWithin buffer targets) :
    ctx'.BoundWithin buffer targets := by
  have hbuffers : ctx'.bindings.buffers = ctx.bindings.buffers := hparts .buffers (by simp)
  have harrays : ctx'.objects.vertexArrays = ctx.objects.vertexArrays :=
    hparts .vertexArrayObjects (by simp)
  have hdefault : ctx'.objects.defaultVertexArray = ctx.objects.defaultVertexArray :=
    hparts .defaultVertexArray (by simp)
  refine ⟨?_, ?_, ?_⟩
  · intro target hbound
    exact h.target (hbuffers ▸ hbound)
  · intro id array harray
    exact h.array (harrays ▸ harray)
  · rw [hdefault]
    exact h.defaultArray

theorem BoundWithin.changeVertexArray (h : ctx.BoundWithin buffer targets)
    {change : VertexArrayObject → VertexArrayObject}
    (hchange : ∀ array, array.elementBuffer ≠ some buffer →
      (change array).elementBuffer ≠ some buffer) :
    (ctx.changeVertexArray change).BoundWithin buffer targets := by
  simp only [Context.changeVertexArray]
  split
  · exact ⟨h.target, h.array, hchange _ h.defaultArray⟩
  · split
    · next id array harray =>
        refine ⟨h.target, ?_, h.defaultArray⟩
        intro other changed hget
        rw [Table.get?_insert] at hget
        split at hget
        · cases hget
          exact hchange array (h.array harray)
        · exact h.array hget
    · exact ⟨h.target, h.array, hchange _ h.defaultArray⟩

theorem BoundWithin.set (h : ctx.BoundWithin buffer targets) {target : UInt32}
    {bound : Option ObjectId} (hbound : bound = some buffer → target ∈ targets) {other : UInt32}
    (hother : (ctx.bindings.buffers.set target bound).get? other = some buffer) :
    other ∈ targets := by
  rw [Table.get?_set] at hother
  split at hother
  · next heq =>
      subst heq
      exact hbound hother
  · exact h.target hother

section Calls

variable (h : ctx.BoundWithin buffer targets)
  (helement : Enumerant.elementArrayBuffer ∉ targets)
include h helement

theorem BoundWithin.bindBuffer {target : UInt32} {bound : Option ObjectId}
    (hbound : bound = some buffer → target ∈ targets) :
    Yields (·.BoundWithin buffer targets) (fun _ => True) (ctx.bindBuffer target bound) := by
  have hset {ctx₁ : Context} (h₁ : ctx₁.BoundWithin buffer targets) :
      Yields (·.BoundWithin buffer targets) (fun _ => True)
        (if target = Enumerant.elementArrayBuffer then
          return ctx₁.changeVertexArray fun array => { array with elementBuffer := bound }
        else return { ctx₁ with bindings.buffers := ctx₁.bindings.buffers.set target bound } :
          Attempt Context) := by
    split
    · next heq => exact h₁.changeVertexArray fun _ _ hself => helement (heq ▸ hbound hself)
    · exact ⟨h₁.set hbound, h₁.array, h₁.defaultArray⟩
  refine (any_attempt _).bind fun _ _ => ?_
  cases bound with
  | none => exact hset h
  | some id =>
      simp only
      cases ctx.objects.buffers.get? id with
      | none => trivial
      | some b => exact hset ⟨h.target, h.array, h.defaultArray⟩

theorem BoundWithin.attempt {call : Call}
    (hcall : ∀ target, call.Binds target buffer → target ∈ targets) :
    Yields (fun answered => answered.2.BoundWithin buffer targets) (fun _ => True)
      (ctx.attempt call) := by
  have hframe (hparts : ∀ part ∈ [Part.buffers, .vertexArrayObjects, .defaultVertexArray],
      part ∉ call.touches) :
      Yields (fun answered => answered.2.BoundWithin buffer targets) (fun _ => True)
        (ctx.attempt call) :=
    Yields.of_forall _ (fun answered hanswered => boundWithin_of_parts (fun part hpart =>
      (ctx.attempt_within call).value hanswered part (hparts part hpart)) h) fun _ _ => trivial
  have heffect {changed : Attempt Context}
      (h : Yields (·.BoundWithin buffer targets) (fun _ => True) changed) :
      Yields (fun answered => answered.2.BoundWithin buffer targets) (fun _ => True)
        (effect changed) := h.map fun _ h => h
  have hslot (slot : Fin attributeSlots) (change : AttributePointer → AttributePointer) :
      (ctx.changeSlot slot change).BoundWithin buffer targets :=
    h.changeVertexArray fun _ hother => hother
  cases call with
  | bindBuffer target bound =>
      exact heffect (h.bindBuffer helement fun hbound => hcall target ⟨rfl, hbound⟩)
  | bindBufferBase target index bound =>
      exact heffect ((any_attempt _).bind fun _ _ => (any_attempt _).bind fun _ _ =>
        ⟨h.set fun hbound => hcall target ⟨rfl, hbound⟩, h.array, h.defaultArray⟩)
  | createVertexArray =>
      refine ⟨h.target, ?_, h.defaultArray⟩
      intro id array harray
      change Table.get? (Table.insert ctx.objects.vertexArrays ctx.nextId {}) id = _ at harray
      rw [Table.get?_insert] at harray
      split at harray
      · cases harray
        exact (Option.some_ne_none buffer).symm
      · exact h.array harray
  | attributePointer _ _ _ _ _ _ =>
      exact heffect ((any_attempt _).bind fun slot _ => (any_attempt _).bind fun _ _ =>
        (any_attempt _).bind fun _ _ => hslot slot _)
  | attributeIPointer _ _ _ _ _ =>
      exact heffect ((any_attempt _).bind fun slot _ => (any_attempt _).bind fun _ _ =>
        hslot slot _)
  | enableAttribute _ | disableAttribute _ =>
      exact heffect ((any_attempt _).bind fun slot _ => hslot slot _)
  | _ => exact hframe (by simp [Call.touches])

/-- Calls that bind a buffer to no other targets spread it no further. -/
theorem BoundWithin.exec {call : Call}
    (hcall : ∀ target, call.Binds target buffer → target ∈ targets) :
    (ctx.exec call).2.BoundWithin buffer targets := by
  have hcounted : (ctx.countCall call.name).BoundWithin buffer targets :=
    ⟨h.target, h.array, h.defaultArray⟩
  exact exec_of_attempt (·.BoundWithin buffer targets) (hcounted.attempt helement hcall)
    fun _ _ => ⟨h.target, h.array, h.defaultArray⟩

theorem BoundWithin.issueAll {calls : List Call}
    (hcalls : ∀ call ∈ calls, ∀ target, call.Binds target buffer → target ∈ targets) :
    (ctx.issueAll calls).BoundWithin buffer targets := by
  induction calls generalizing ctx with
  | nil => exact h
  | cons call rest ih =>
      obtain ⟨hfirst, hrest⟩ := List.forall_mem_cons.mp hcalls
      exact ih (h.exec helement hfirst) hrest

end Calls

section Store

/-- Binding a buffer marks it and leaves its data. -/
theorem bindBuffer_store (target : UInt32) (bound : Option ObjectId) :
    Yields (fun ctx' => ctx'.store? = ctx.store?) (fun _ => True)
      (ctx.bindBuffer target bound) := by
  have hset {ctx₁ : Context} (h₁ : ctx₁.store? = ctx.store?) :
      Yields (fun ctx' => ctx'.store? = ctx.store?) (fun _ => True)
        (if target = Enumerant.elementArrayBuffer then
          return ctx₁.changeVertexArray fun array => { array with elementBuffer := bound }
        else return { ctx₁ with bindings.buffers := ctx₁.bindings.buffers.set target bound } :
          Attempt Context) := by
    split
    · exact (store?_of_part (changeVertexArray_within _ .bufferObjects (by simp))).trans h₁
    · exact h₁
  refine (any_attempt _).bind fun _ _ => ?_
  cases bound with
  | none => exact hset rfl
  | some id =>
      simp only
      cases hb : ctx.objects.buffers.get? id with
      | none => trivial
      | some b =>
          refine hset (funext fun other => ?_)
          simp only [store?, Table.get?_insert]
          split
          · next heq => rw [← heq, hb, Option.map_some, Option.map_some]
          · rfl

theorem exec_bindBuffer_store (ctx : Context) (target : UInt32) (bound : Option ObjectId) :
    (ctx.exec (.bindBuffer target bound)).2.store? = ctx.store? :=
  exec_of_attempt (·.store? = ctx.store?) ((bindBuffer_store target bound).map fun _ h => h)
    fun _ _ => rfl

variable (hn : ctx.Numbered) (hhas : ctx.objects.Has .buffer buffer)
include hn hhas

theorem store?_createBuffer : ctx.createBuffer.2.store? buffer = ctx.store? buffer := by
  have hne : ctx.nextId ≠ buffer := fun heq => hn.nextId_free .buffer (heq ▸ hhas)
  simp only [createBuffer, takeId, store?, Table.get?_insert, if_neg hne]

variable (h : ctx.Unbound buffer)
include h

theorem Unbound.store?_attempt (call : Call) :
    Yields (fun answered => answered.2.store? buffer = ctx.store? buffer) (fun _ => True)
      (ctx.attempt call) := by
  have hframe (hpart : .bufferObjects ∉ call.touches) :
      Yields (fun answered => answered.2.store? buffer = ctx.store? buffer) (fun _ => True)
        (ctx.attempt call) :=
    Yields.of_forall _ (fun answered hanswered => congrFun (store?_of_part
      ((ctx.attempt_within call).value hanswered .bufferObjects hpart)) buffer) fun _ _ => trivial
  have heffect {changed : Attempt Context}
      (h : Yields (fun ctx' => ctx'.store? buffer = ctx.store? buffer) (fun _ => True) changed) :
      Yields (fun answered => answered.2.store? buffer = ctx.store? buffer) (fun _ => True)
        (effect changed) := h.map fun _ h => h
  have hchange (target : UInt32) (change : BufferObject → Attempt BufferObject) :=
    heffect (changeBuffer_store (h.boundBuffer?_ne (List.not_mem_nil (a := target))) change)
  cases call with
  | createBuffer => exact store?_createBuffer hn hhas
  | bindBuffer target bound =>
      exact heffect (Yields.of_forall _ (fun _ hok =>
        congrFun ((bindBuffer_store target bound).value hok) buffer) fun _ _ => trivial)
  | bufferData target _ _ | bufferDataSize target _ _ | bufferSubData target _ _ =>
      exact hchange target _
  | _ => exact hframe (by simp [Call.touches])

/-- No call reaches the store of a buffer that is bound nowhere. -/
theorem Unbound.store?_exec (call : Call) :
    (ctx.exec call).2.store? buffer = ctx.store? buffer := by
  have hn' : (ctx.countCall call.name).Numbered := ⟨hn.below, hn.alone⟩
  have h' : (ctx.countCall call.name).Unbound buffer := ⟨h.target, h.array, h.defaultArray⟩
  exact exec_of_attempt (fun ctx' => ctx'.store? buffer = ctx.store? buffer)
    (Unbound.store?_attempt hn' hhas h' call) fun _ _ => rfl

theorem Unbound.store?_issueAll {calls : List Call}
    (hcalls : ∀ call ∈ calls, ∀ target, ¬ call.Binds target buffer) :
    (ctx.issueAll calls).store? buffer = ctx.store? buffer := by
  induction calls generalizing ctx with
  | nil => rfl
  | cons call rest ih =>
      obtain ⟨hfirst, hrest⟩ := List.forall_mem_cons.mp hcalls
      have hgrows := ctx.issue_grows call
      have hnext : (ctx.issue call).Unbound buffer :=
        h.exec List.not_mem_nil fun target hbinds => absurd hbinds (hfirst target)
      exact (ih (hgrows.numbered hn) (hgrows.has hn hhas) hnext hrest).trans
        (Unbound.store?_exec hn hhas h call)

end Store

end Context

end GlPlayback
