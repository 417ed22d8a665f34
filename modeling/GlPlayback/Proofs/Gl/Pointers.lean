import GlPlayback.Proofs.Gl.Bound
import GlPlayback.Proofs.Gl.Flag

/-!
The calls that point a vertex attribute into a buffer: which of them a context takes, and what it
keeps of one. A call that it does not take leaves every object as it was.
-/
namespace GlPlayback

open Attempt

/-- The attribute that a call points, and all of the pointer but its buffer. -/
def Call.pointer? : Call → Option (UInt32 × AttributePointer)
  | attributePointer index size type normalized stride offset =>
      some (index, { size, type, normalized, stride, offset })
  | attributeIPointer index size type stride offset =>
      some (index, { size, type, integer := true, stride, offset })
  | _ => none

/-- Points a slot into a buffer. The slot is on or off as it was before. -/
def VertexArrayObject.point (array : VertexArrayObject) (slot : Fin attributeSlots)
    (pointer : AttributePointer) (buffer : Option ObjectId) : VertexArrayObject :=
  { array with
    slots := array.slots.set slot.val
      { pointer with enabled := (array.slots.get slot).enabled, buffer } slot.isLt }

namespace Context

variable {ctx : Context} {call : Call} {index : UInt32} {pointer : AttributePointer}

/-- What a context asks of a pointer: a slot, and else little of one that is for integers. -/
def Takes (ctx : Context) (index : UInt32) (pointer : AttributePointer) : Prop :=
  index.toNat < attributeSlots ∧
    if pointer.integer then
      pointer.type ≠ Enumerant.float ∧ pointer.type ≠ Enumerant.halfFloat
    else
      1 ≤ pointer.size ∧ pointer.size ≤ 4 ∧ 0 ≤ pointer.stride ∧ 0 ≤ pointer.offset ∧
        ((ctx.boundBuffer? Enumerant.arrayBuffer).isSome ∨ pointer.offset = 0)

instance (ctx : Context) (index : UInt32) (pointer : AttributePointer) :
    Decidable (ctx.Takes index pointer) :=
  inferInstanceAs (Decidable (_ ∧ _))

theorem objects_changeVertexArray_countCall (name : String)
    (change : VertexArrayObject → VertexArrayObject) :
    ((ctx.countCall name).changeVertexArray change).objects =
      (ctx.changeVertexArray change).objects := by
  simp only [changeVertexArray, countCall]
  split
  · rfl
  · split <;> rfl

/-- Of the vertex arrays only the one that the context uses is changed. -/
theorem objects_changeVertexArray {id : ObjectId} {old : VertexArrayObject}
    (hbound : ctx.bindings.vertexArray = some id)
    (hold : ctx.objects.vertexArrays.get? id = some old)
    (change : VertexArrayObject → VertexArrayObject) :
    (ctx.changeVertexArray change).objects = { ctx.objects with
      vertexArrays := ctx.objects.vertexArrays.insert id (change old) } := by
  simp only [changeVertexArray, hbound, hold]

/-- What an attempt to point an attribute comes to. -/
def Points (ctx : Context) (index : UInt32) (pointer : AttributePointer)
    (x : Attempt Context) : Prop :=
  (ctx.Takes index pointer ∧ ∃ slot : Fin attributeSlots, slot.val = index.toNat ∧
      x = .ok (ctx.changeVertexArray
        (·.point slot pointer (ctx.boundBuffer? Enumerant.arrayBuffer)))) ∨
    (¬ ctx.Takes index pointer ∧ ∃ e, x = .error (.error e))

theorem attributePointer_points (ctx : Context) (index : UInt32) (size : Int32) (type : UInt32)
    (normalized : Bool) (stride offset : Int32) :
    ctx.Points index { size, type, normalized, stride, offset }
      (ctx.attributePointer index size type normalized stride offset) := by
  have hvalues : (1 ≤ size && size ≤ 4 && 0 ≤ stride && 0 ≤ offset) = true ↔
      1 ≤ size ∧ size ≤ 4 ∧ 0 ≤ stride ∧ 0 ≤ offset := by
    simp only [Bool.and_eq_true, decide_eq_true_eq, and_assoc]
  have hbuffer : ((ctx.bindings.buffers.get? Enumerant.arrayBuffer).isSome || offset == 0) =
      true ↔ (ctx.boundBuffer? Enumerant.arrayBuffer).isSome = true ∨ offset = 0 := by
    rw [Bool.or_eq_true, beq_iff_eq]
    rfl
  have htakes : ctx.Takes index { size, type, normalized, stride, offset } ↔
      index.toNat < attributeSlots ∧
        (1 ≤ size && size ≤ 4 && 0 ≤ stride && 0 ≤ offset) = true ∧
        ((ctx.bindings.buffers.get? Enumerant.arrayBuffer).isSome || offset == 0) = true := by
    rw [hvalues, hbuffer, and_assoc, and_assoc, and_assoc]
    rfl
  rw [Points, htakes]
  by_cases hslot : index.toNat < attributeSlots
  · simp only [attributePointer, slot, dif_pos hslot, bind, Except.bind]
    cases (1 ≤ size && size ≤ 4 && 0 ≤ stride && 0 ≤ offset) with
    | false => exact .inr ⟨fun h => Bool.false_ne_true h.2.1, .invalidValue, rfl⟩
    | true =>
        cases ((ctx.bindings.buffers.get? Enumerant.arrayBuffer).isSome || offset == 0) with
        | false => exact .inr ⟨fun h => Bool.false_ne_true h.2.2, .invalidOperation, rfl⟩
        | true => exact .inl ⟨⟨hslot, rfl, rfl⟩, ⟨_, hslot⟩, rfl, rfl⟩
  · simp only [attributePointer, slot, dif_neg hslot]
    exact .inr ⟨fun h => hslot h.1, .invalidValue, rfl⟩

theorem attributeIPointer_points (ctx : Context) (index : UInt32) (size : Int32) (type : UInt32)
    (stride offset : Int32) :
    ctx.Points index { size, type, integer := true, stride, offset }
      (ctx.attributeIPointer index size type stride offset) := by
  have htakes : ctx.Takes index { size, type, integer := true, stride, offset } ↔
      index.toNat < attributeSlots ∧
        (type != Enumerant.float && type != Enumerant.halfFloat) = true := by
    rw [Bool.and_eq_true, bne_iff_ne, bne_iff_ne]
    rfl
  rw [Points, htakes]
  by_cases hslot : index.toNat < attributeSlots
  · simp only [attributeIPointer, slot, dif_pos hslot, bind, Except.bind]
    cases (type != Enumerant.float && type != Enumerant.halfFloat) with
    | false => exact .inr ⟨fun h => Bool.false_ne_true h.2, .invalidEnum, rfl⟩
    | true => exact .inl ⟨⟨hslot, rfl⟩, ⟨_, hslot⟩, rfl, rfl⟩
  · simp only [attributeIPointer, slot, dif_neg hslot]
    exact .inr ⟨fun h => hslot h.1, .invalidValue, rfl⟩

/-- A context points a slot of the vertex array that it uses, or it refuses the call. -/
theorem attempt_points (ctx : Context) (hcall : call.pointer? = some (index, pointer)) :
    ctx.Points index pointer ((ctx.attempt call).map (·.2)) := by
  have heffect (x : Attempt Context) : (effect x).map (·.2) = x := by cases x <;> rfl
  cases call with
  | attributePointer index size type normalized stride offset =>
      cases hcall
      have hpoints := ctx.attributePointer_points index size type normalized stride offset
      rw [← heffect (ctx.attributePointer index size type normalized stride offset)] at hpoints
      exact hpoints
  | attributeIPointer index size type stride offset =>
      cases hcall
      have hpoints := ctx.attributeIPointer_points index size type stride offset
      rw [← heffect (ctx.attributeIPointer index size type stride offset)] at hpoints
      exact hpoints
  | _ => cases hcall

/-- A pointer is taken without an error and kept in the vertex array that the context uses, or it is
refused with one and nothing is kept. -/
theorem issue_pointer_cases (ctx : Context) (hcall : call.pointer? = some (index, pointer)) :
    (ctx.Takes index pointer ∧ ctx.raises call = none ∧
      ∃ slot : Fin attributeSlots, slot.val = index.toNat ∧
        (ctx.issue call).objects = (ctx.changeVertexArray
          (·.point slot pointer (ctx.boundBuffer? Enumerant.arrayBuffer))).objects) ∨
    (¬ ctx.Takes index pointer ∧ (∃ e, ctx.raises call = some e) ∧
      (ctx.issue call).objects = ctx.objects) := by
  have hpoints := (ctx.countCall call.name).attempt_points hcall
  simp only [raises, issue, exec]
  generalize (ctx.countCall call.name).attempt call = answered at hpoints
  rcases hpoints with ⟨htakes, slot, hslot, hanswered⟩ | ⟨hrefuses, e, hanswered⟩
  · cases answered with
    | error _ => cases hanswered
    | ok answered =>
        refine .inl ⟨htakes, rfl, slot, hslot, ?_⟩
        rw [← objects_changeVertexArray_countCall call.name]
        exact congrArg Context.objects (Except.ok.inj hanswered)
  · cases answered with
    | ok _ => cases hanswered
    | error _ =>
        cases hanswered
        exact .inr ⟨hrefuses, ⟨e, rfl⟩, rfl⟩

theorem vertexArray_congr {ctx' : Context} (hobjects : ctx'.objects = ctx.objects)
    (hbound : ctx'.bindings.vertexArray = ctx.bindings.vertexArray) :
    ctx'.vertexArray = ctx.vertexArray := by
  simp only [vertexArray, hobjects, hbound]

/-- Pointing an attribute takes no other vertex array into use. -/
theorem issue_pointer_bound (ctx : Context) (hcall : call.pointer? = some (index, pointer)) :
    (ctx.issue call).bindings.vertexArray = ctx.bindings.vertexArray := by
  have hpart : .vertexArray ∉ call.touches := by
    rw [call.vertexArray_mem_touches_iff]
    rintro ⟨array, rfl⟩
    cases hcall
  exact exec_part hpart nofun

theorem raises_pointer_iff (hcall : call.pointer? = some (index, pointer)) :
    ctx.raises call = none ↔ ctx.Takes index pointer := by
  rcases ctx.issue_pointer_cases hcall with ⟨htakes, hnone, -⟩ | ⟨hrefuses, ⟨e, hsome⟩, -⟩
  · exact iff_of_true hnone htakes
  · exact iff_of_false (fun hnone => nomatch hnone.symm.trans hsome) hrefuses

/-- A vertex array that exists can be taken into use, and it takes nothing to use none. -/
theorem exec_bindVertexArray {array : Option ObjectId}
    (harray : ∀ id, array = some id → ctx.objects.Has .vertexArray id) :
    (ctx.exec (.bindVertexArray array)).2.bindings.vertexArray = array := by
  cases array with
  | none => rfl
  | some id =>
      have hcontains : (ctx.countCall "bind_vertex_array").objects.vertexArrays.contains id = true :=
        harray id rfl
      simp only [exec, Call.name, attempt, bindVertexArray, check, hcontains]
      rfl

end Context

end GlPlayback
