import GlPlayback.Gl.Call
import GlPlayback.Interpreter.Operation
import GlPlayback.Proofs.Outcome

/-!
The objects of a context under their numbers. Calls take no object away and change none into one
of another kind; a new object gets a number that no other has.
-/
namespace GlPlayback

/-- There is an object of this kind under a number. -/
def ObjectTables.Has (objects : ObjectTables) : NewObject → ObjectId → Prop
  | .texture, id => (objects.textures.get? id).isSome
  | .shader stage, id => (objects.shaders.get? id).map (·.stage) = some stage
  | .program, id => (objects.programs.get? id).isSome
  | .buffer, id => (objects.buffers.get? id).isSome
  | .vertexArray, id => (objects.vertexArrays.get? id).isSome
  | .framebuffer, id => (objects.framebuffers.get? id).isSome

namespace Context

/-- The other context has the same objects, up to what is in them. -/
structure SameObjects (ctx ctx' : Context) : Prop where
  nextId_eq : ctx'.nextId = ctx.nextId
  has_iff : ∀ what id, ctx'.objects.Has what id ↔ ctx.objects.Has what id

/-- All numbers are below the next one, and each is that of one object only. -/
structure Numbered (ctx : Context) : Prop where
  below : ∀ {what id}, ctx.objects.Has what id → id < ctx.nextId
  alone : ∀ {what what' id}, ctx.objects.Has what id → ctx.objects.Has what' id → what = what'

/-- The other context has one object more, under the next number. -/
structure Makes (ctx : Context) (what : NewObject) (ctx' : Context) : Prop where
  nextId_eq : ctx'.nextId = ctx.nextId + 1
  has_iff : ctx.Numbered → ∀ what' id, ctx'.objects.Has what' id ↔
    ctx.objects.Has what' id ∨ (what' = what ∧ id = ctx.nextId)

/-- No object is taken away, no number that was given out becomes that of a new object, and numbers
stay those of one object. -/
structure Grows (ctx ctx' : Context) : Prop where
  nextId_le : ctx.nextId ≤ ctx'.nextId
  has_iff : ctx.Numbered → ∀ {what id}, id < ctx.nextId →
    (ctx'.objects.Has what id ↔ ctx.objects.Has what id)
  numbered : ctx.Numbered → ctx'.Numbered

variable {ctx ctx' ctx'' : Context} {what : NewObject}

theorem numbered_new (width height : UInt32) : (Context.new width height).Numbered where
  below {what id} h := by cases what <;> simp [Context.new, ObjectTables.Has] at h
  alone {what what' id} h := by cases what <;> simp [Context.new, ObjectTables.Has] at h

/-- Nothing but the objects themselves and their numbers matters. -/
theorem SameObjects.of_eq (hnext : ctx'.nextId = ctx.nextId)
    (hobjects : ctx'.objects = ctx.objects) : ctx.SameObjects ctx' := by
  refine ⟨hnext, fun what id => ?_⟩
  rw [hobjects]

theorem SameObjects.refl (ctx : Context) : ctx.SameObjects ctx :=
  .of_eq rfl rfl

theorem SameObjects.trans (h : ctx.SameObjects ctx') (h' : ctx'.SameObjects ctx'') :
    ctx.SameObjects ctx'' :=
  ⟨h'.nextId_eq.trans h.nextId_eq,
    fun what id => (h'.has_iff what id).trans (h.has_iff what id)⟩

/-- Numbers may be given out to what is no object. -/
theorem grows_of_has_iff (hnext : ctx.nextId ≤ ctx'.nextId)
    (hhas : ∀ what id, ctx'.objects.Has what id ↔ ctx.objects.Has what id) : ctx.Grows ctx' where
  nextId_le := hnext
  has_iff _ _ _ _ := hhas _ _
  numbered hn :=
    { below := fun hid => Nat.lt_of_lt_of_le (hn.below ((hhas _ _).mp hid)) hnext
      alone := fun hid hid' => hn.alone ((hhas _ _).mp hid) ((hhas _ _).mp hid') }

theorem SameObjects.grows (h : ctx.SameObjects ctx') : ctx.Grows ctx' :=
  grows_of_has_iff (Nat.le_of_eq h.nextId_eq.symm) h.has_iff

theorem Numbered.nextId_free (hn : ctx.Numbered) (what : NewObject) :
    ¬ ctx.objects.Has what ctx.nextId :=
  fun hid => Nat.lt_irrefl _ (hn.below hid)

theorem Makes.grows (h : ctx.Makes what ctx') : ctx.Grows ctx' where
  nextId_le := by
    rw [h.nextId_eq]
    exact Nat.le_succ _
  has_iff hn _ _ hlt := by
    rw [h.has_iff hn]
    exact or_iff_left fun hnew => Nat.ne_of_lt hlt hnew.2
  numbered hn := by
    refine ⟨?_, ?_⟩
    · intro w id hid
      rw [h.nextId_eq]
      rcases (h.has_iff hn w id).mp hid with hid | ⟨-, rfl⟩
      · exact Nat.lt_succ_of_lt (hn.below hid)
      · exact Nat.lt_succ_self _
    · intro w w' id hid hid'
      rcases (h.has_iff hn w id).mp hid with hold | ⟨hw, hnew⟩ <;>
        rcases (h.has_iff hn w' id).mp hid' with hold' | ⟨hw', hnew'⟩
      · exact hn.alone hold hold'
      · exact absurd (hnew' ▸ hold) (hn.nextId_free w)
      · exact absurd (hnew ▸ hold') (hn.nextId_free w')
      · rw [hw, hw']

theorem Grows.refl (ctx : Context) : ctx.Grows ctx :=
  (SameObjects.refl ctx).grows

theorem Grows.trans (h : ctx.Grows ctx') (h' : ctx'.Grows ctx'') : ctx.Grows ctx'' :=
  ⟨Nat.le_trans h.nextId_le h'.nextId_le,
    fun hn _ _ hlt => (h'.has_iff (h.numbered hn) (Nat.lt_of_lt_of_le hlt h.nextId_le)).trans
      (h.has_iff hn hlt),
    fun hn => h'.numbered (h.numbered hn)⟩

theorem Grows.has (h : ctx.Grows ctx') (hn : ctx.Numbered) {id : ObjectId}
    (hid : ctx.objects.Has what id) : ctx'.objects.Has what id :=
  (h.has_iff hn (hn.below hid)).mpr hid

/-- The other context has an object of this kind under the number that was the next one. -/
structure Gains (ctx : Context) (what : NewObject) (ctx' : Context) : Prop where
  grows : ctx.Grows ctx'
  has : ctx.Numbered → ctx'.objects.Has what ctx.nextId

theorem Makes.gains (h : ctx.Makes what ctx') : ctx.Gains what ctx' :=
  ⟨h.grows, fun hn => (h.has_iff hn _ _).mpr (.inr ⟨rfl, rfl⟩)⟩

theorem Gains.trans (h : ctx.Gains what ctx') (h' : ctx'.Grows ctx'') : ctx.Gains what ctx'' :=
  ⟨h.grows.trans h', fun hn => h'.has (h.grows.numbered hn) (h.has hn)⟩

section Tables

variable {α : Type} {t : Table ObjectId α} {id other : ObjectId} {a b : α}

theorem isSome_get?_replace (h : t.get? id = some a) :
    ((t.insert id b).get? other).isSome ↔ (t.get? other).isSome := by
  rw [Table.get?_insert]
  split
  · next heq =>
      subst heq
      simp [h]
  · rfl

theorem isSome_get?_insert :
    ((t.insert id b).get? other).isSome ↔ (t.get? other).isSome ∨ other = id := by
  rw [Table.get?_insert]
  split
  · next heq => simp [heq]
  · next hne => simp [Ne.symm hne]

end Tables

section Replace

variable {id : ObjectId}

theorem SameObjects.replaceBuffer {b : BufferObject} (h : ctx.objects.buffers.get? id = some b)
    (b' : BufferObject) : ctx.SameObjects
      { ctx with objects.buffers := ctx.objects.buffers.insert id b' } := by
  refine ⟨rfl, fun what _ => ?_⟩
  cases what with
  | buffer => exact isSome_get?_replace h
  | texture | shader _ | program | vertexArray | framebuffer => rfl

theorem SameObjects.replaceTexture {t : TextureObject}
    (h : ctx.objects.textures.get? id = some t) (t' : TextureObject) : ctx.SameObjects
      { ctx with objects.textures := ctx.objects.textures.insert id t' } := by
  refine ⟨rfl, fun what _ => ?_⟩
  cases what with
  | texture => exact isSome_get?_replace h
  | shader _ | program | buffer | vertexArray | framebuffer => rfl

theorem SameObjects.replaceVertexArray {v : VertexArrayObject}
    (h : ctx.objects.vertexArrays.get? id = some v) (v' : VertexArrayObject) : ctx.SameObjects
      { ctx with objects.vertexArrays := ctx.objects.vertexArrays.insert id v' } := by
  refine ⟨rfl, fun what _ => ?_⟩
  cases what with
  | vertexArray => exact isSome_get?_replace h
  | texture | shader _ | program | buffer | framebuffer => rfl

theorem SameObjects.replaceFramebuffer {f : FramebufferObject}
    (h : ctx.objects.framebuffers.get? id = some f) (f' : FramebufferObject) : ctx.SameObjects
      { ctx with objects.framebuffers := ctx.objects.framebuffers.insert id f' } := by
  refine ⟨rfl, fun what _ => ?_⟩
  cases what with
  | framebuffer => exact isSome_get?_replace h
  | texture | shader _ | program | buffer | vertexArray => rfl

theorem SameObjects.replaceProgram {p : ProgramObject}
    (h : ctx.objects.programs.get? id = some p) (p' : ProgramObject) : ctx.SameObjects
      { ctx with objects.programs := ctx.objects.programs.insert id p' } := by
  refine ⟨rfl, fun what _ => ?_⟩
  cases what with
  | program => exact isSome_get?_replace h
  | texture | shader _ | buffer | vertexArray | framebuffer => rfl

theorem SameObjects.replaceShader {s s' : ShaderObject}
    (h : ctx.objects.shaders.get? id = some s) (hstage : s'.stage = s.stage) : ctx.SameObjects
      { ctx with objects.shaders := ctx.objects.shaders.insert id s' } := by
  refine ⟨rfl, fun what other => ?_⟩
  cases what with
  | shader stage =>
      simp only [ObjectTables.Has, Table.get?_insert]
      split
      · next heq =>
          subst heq
          simp [h, hstage]
      · rfl
  | texture | program | buffer | vertexArray | framebuffer => rfl

end Replace

end Context

end GlPlayback
