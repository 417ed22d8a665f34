import GlPlayback.Proofs.Gl.Pointers

/-!
The slots of the vertex arrays, all along a sequence of calls. What holds of a slot that was never
pointed and of each pointer that a context takes holds of every slot of every vertex array. A
pointer for integers is taken with any size, stride and offset, and without a buffer; each of the
others is checked.
-/
namespace GlPlayback

open Attempt

/-- A slot that was never pointed, but may be on, or one that points to one to four components. It
does not point backwards, and to the beginning only if there is no buffer. Integers are not read as
floating-point numbers. -/
structure AttributePointer.IsValid (s : AttributePointer) : Prop where
  size : s = { enabled := s.enabled } ∨ 1 ≤ s.size ∧ s.size ≤ 4
  stride : 0 ≤ s.stride
  offset : 0 ≤ s.offset
  start : s.buffer = none → s.offset = 0
  type : s.integer = true → s.type ≠ Enumerant.float ∧ s.type ≠ Enumerant.halfFloat

namespace AttributePointer

theorem isValid_fresh : IsValid {} :=
  ⟨.inl rfl, by decide, by decide, fun _ => rfl, nofun⟩

theorem IsValid.switch {s : AttributePointer} (h : s.IsValid) (enabled : Bool) :
    IsValid { s with enabled } where
  size := h.size.imp_left fun hfresh => by rw [hfresh]
  stride := h.stride
  offset := h.offset
  start := h.start
  type := h.type

end AttributePointer

namespace Context

variable {ctx ctx' : Context} {P : AttributePointer → Prop}

/-- The vertex arrays of a context: the default one and those that have numbers. -/
def Keeps (ctx : Context) (array : VertexArrayObject) : Prop :=
  array = ctx.objects.defaultVertexArray ∨ ∃ id, ctx.objects.vertexArrays.get? id = some array

/-- Every slot of every vertex array is like this. -/
def AllSlots (P : AttributePointer → Prop) (ctx : Context) : Prop :=
  ∀ array, ctx.Keeps array → ∀ s ∈ array.slots, P s

theorem keeps_vertexArray (ctx : Context) : ctx.Keeps ctx.vertexArray := by
  rw [vertexArray]
  cases hused : ctx.bindings.vertexArray.bind ctx.objects.vertexArrays.get? with
  | none => exact .inl rfl
  | some array =>
      obtain ⟨id, -, harray⟩ := Option.bind_eq_some_iff.mp hused
      exact .inr ⟨id, harray⟩

theorem allSlots_congr (harrays : ctx'.objects.vertexArrays = ctx.objects.vertexArrays)
    (hdefault : ctx'.objects.defaultVertexArray = ctx.objects.defaultVertexArray) :
    ctx'.AllSlots P ↔ ctx.AllSlots P := by
  simp only [AllSlots, Keeps, harrays, hdefault]

theorem AllSlots.changeVertexArray (h : ctx.AllSlots P)
    {change : VertexArrayObject → VertexArrayObject}
    (hchange : ∀ array, ctx.Keeps array → ∀ s ∈ (change array).slots, P s) :
    (ctx.changeVertexArray change).AllSlots P := by
  have hdefault : AllSlots P { ctx with
      objects.defaultVertexArray := change ctx.objects.defaultVertexArray } := by
    rintro array (rfl | harray)
    · exact hchange _ (.inl rfl)
    · exact h array (.inr harray)
  simp only [Context.changeVertexArray]
  split
  · exact hdefault
  · next id _ =>
      split
      · next old hold =>
          rintro array (harray | ⟨other, hother⟩)
          · exact h array (.inl harray)
          · rw [Table.get?_insert] at hother
            split at hother
            · cases hother
              exact hchange old (.inr ⟨id, hold⟩)
            · exact h array (.inr ⟨other, hother⟩)
      · exact hdefault

theorem AllSlots.set (h : ctx.AllSlots P) {array : VertexArrayObject} (harray : ctx.Keeps array)
    (slot : Fin attributeSlots) {s : AttributePointer} (hs : P s) :
    ∀ t ∈ array.slots.set slot.val s slot.isLt, P t := by
  intro t ht
  rcases Vector.mem_or_eq_of_mem_set ht with hold | rfl
  · exact h array harray t hold
  · exact hs

theorem allSlots_new (width height : UInt32) (hfresh : P {}) :
    (new width height).AllSlots P := by
  rintro array (rfl | ⟨id, hid⟩) s hs
  · rw [Vector.eq_of_mem_replicate hs]
    exact hfresh
  · cases hid

section Calls

variable (hfresh : P {}) (hswitch : ∀ s enabled, P s → P { s with enabled })
include hfresh hswitch

theorem AllSlots.attempt (h : ctx.AllSlots P) {call : Call}
    (hpointed : ∀ index pointer, call.pointer? = some (index, pointer) →
      ctx.Takes index pointer → ∀ enabled,
        P { pointer with enabled, buffer := ctx.boundBuffer? Enumerant.arrayBuffer }) :
    Yields (fun answered => answered.2.AllSlots P) (fun _ => True) (ctx.attempt call) := by
  have hframe (harrays : .vertexArrayObjects ∉ call.touches)
      (hdefault : .defaultVertexArray ∉ call.touches) :
      Yields (fun answered => answered.2.AllSlots P) (fun _ => True) (ctx.attempt call) :=
    Yields.of_forall _ (fun answered hanswered => (allSlots_congr
      ((ctx.attempt_within call).value hanswered _ harrays)
      ((ctx.attempt_within call).value hanswered _ hdefault)).mpr h) fun _ _ => trivial
  have heffect {changed : Attempt Context}
      (hchanged : Yields (AllSlots P) (fun _ => True) changed) :
      Yields (fun answered => answered.2.AllSlots P) (fun _ => True) (effect changed) :=
    hchanged.map fun _ h => h
  have hpoints {index : UInt32} {pointer : AttributePointer}
      (hpointer : call.pointer? = some (index, pointer)) :
      Yields (fun answered => answered.2.AllSlots P) (fun _ => True) (ctx.attempt call) := by
    refine Yields.of_forall _ (fun answered hanswered => ?_) fun _ _ => trivial
    rcases ctx.attempt_points hpointer with ⟨htakes, slot, -, hok⟩ | ⟨-, e, hrefused⟩
    · rw [hanswered] at hok
      have hleft : answered.2 = _ := Except.ok.inj hok
      rw [hleft]
      exact h.changeVertexArray fun array harray =>
        h.set harray slot (hpointed index pointer hpointer htakes _)
    · rw [hanswered] at hrefused
      cases hrefused
  cases call with
  | bindBuffer target buffer =>
      have hbound {ctx₁ : Context} (h₁ : ctx₁.AllSlots P) :
          Yields (AllSlots P) (fun _ => True)
            (if target = Enumerant.elementArrayBuffer then
              return ctx₁.changeVertexArray fun array => { array with elementBuffer := buffer }
            else return { ctx₁ with bindings.buffers := ctx₁.bindings.buffers.set target buffer } :
              Attempt Context) := by
        split
        · exact h₁.changeVertexArray fun array harray => h₁ array harray
        · exact h₁
      refine heffect ((any_attempt _).bind fun _ _ => ?_)
      cases buffer with
      | none => exact hbound h
      | some id =>
          simp only
          cases ctx.objects.buffers.get? id with
          | none => trivial
          | some b => exact hbound h
  | createVertexArray =>
      rintro array (harray | ⟨id, hid⟩)
      · exact h array (.inl harray)
      · change Table.get? (Table.insert ctx.objects.vertexArrays ctx.nextId {}) id = _ at hid
        rw [Table.get?_insert] at hid
        split at hid
        · cases hid
          intro s hs
          rw [Vector.eq_of_mem_replicate hs]
          exact hfresh
        · exact h array (.inr ⟨id, hid⟩)
  | attributePointer _ _ _ _ _ _ | attributeIPointer _ _ _ _ _ => exact hpoints rfl
  | enableAttribute _ | disableAttribute _ =>
      refine heffect ((any_attempt _).bind fun slot _ => h.changeVertexArray fun array harray => ?_)
      exact h.set harray slot (hswitch _ _ (h array harray _ (Vector.getElem_mem _)))
  | _ => exact hframe (by simp [Call.touches]) (by simp [Call.touches])

/-- What holds of every slot before a call, and of the pointer that it sets, holds of every slot
after it. -/
theorem AllSlots.exec (h : ctx.AllSlots P) {call : Call}
    (hpointed : ∀ index pointer, call.pointer? = some (index, pointer) →
      ctx.Takes index pointer → ∀ enabled,
        P { pointer with enabled, buffer := ctx.boundBuffer? Enumerant.arrayBuffer }) :
    (ctx.exec call).2.AllSlots P := by
  have hcounted : (ctx.countCall call.name).AllSlots P := h
  exact exec_of_attempt (AllSlots P) (hcounted.attempt hfresh hswitch hpointed) fun _ _ => h

/-- The same of a sequence of calls, each of whose pointers is looked at where it is set. -/
theorem AllSlots.issueAll (h : ctx.AllSlots P) {calls : List Call}
    (hpointed : ∀ before call after, calls = before ++ call :: after → ∀ index pointer,
      call.pointer? = some (index, pointer) → (ctx.issueAll before).Takes index pointer →
      ∀ enabled, P { pointer with
        enabled, buffer := (ctx.issueAll before).boundBuffer? Enumerant.arrayBuffer }) :
    (ctx.issueAll calls).AllSlots P := by
  induction calls generalizing ctx with
  | nil => exact h
  | cons call rest ih =>
      have hfirst : (ctx.issue call).AllSlots P :=
        h.exec hfresh hswitch (hpointed [] call rest rfl)
      exact ih hfirst fun before other after hrest =>
        hpointed (call :: before) other after (congrArg (call :: ·) hrest)

end Calls

variable {index : UInt32} {pointer : AttributePointer}

/-- A pointer that the context would take as well if it were not for integers is valid. -/
theorem Takes.isValid (h : ctx.Takes index pointer)
    (hchecked : ctx.Takes index { pointer with integer := false }) (enabled : Bool) :
    AttributePointer.IsValid
      { pointer with enabled, buffer := ctx.boundBuffer? Enumerant.arrayBuffer } := by
  obtain ⟨-, hlower, hupper, hstride, hoffset, hstart⟩ := hchecked
  refine ⟨.inr ⟨hlower, hupper⟩, hstride, hoffset, fun hnone => ?_, fun hinteger => ?_⟩
  · exact hstart.resolve_left fun hsome => Option.isSome_iff_ne_none.mp hsome hnone
  · have htype := h.2
    rwa [if_pos hinteger] at htype

/-- A pointer for integers that is valid would have been taken as well if it were not for
integers. -/
theorem Takes.of_isValid (h : ctx.Takes index pointer) (hinteger : pointer.integer = true)
    {enabled : Bool} (hvalid : AttributePointer.IsValid
      { pointer with enabled, buffer := ctx.boundBuffer? Enumerant.arrayBuffer }) :
    ctx.Takes index { pointer with integer := false } := by
  obtain ⟨hlower, hupper⟩ := hvalid.size.resolve_left fun hfresh => by
    have hfalse : pointer.integer = false := congrArg AttributePointer.integer hfresh
    cases hinteger.symm.trans hfalse
  refine ⟨h.1, hlower, hupper, hvalid.stride, hvalid.offset, ?_⟩
  cases hbuffer : ctx.boundBuffer? Enumerant.arrayBuffer with
  | none => exact .inr (hvalid.start hbuffer)
  | some buffer => exact .inl rfl

/-- What is true of every slot after a pointer was taken is true of that pointer. -/
theorem AllSlots.of_pointer {call : Call} (hcall : call.pointer? = some (index, pointer))
    (htakes : ctx.Takes index pointer) (h : (ctx.issue call).AllSlots P) :
    ∃ enabled, P { pointer with
      enabled, buffer := ctx.boundBuffer? Enumerant.arrayBuffer } := by
  obtain ⟨-, -, slot, -, hobjects⟩ :=
    (ctx.issue_pointer_cases hcall).resolve_right fun hrefused => hrefused.1 htakes
  have hused : (ctx.issue call).vertexArray = ctx.vertexArray.point slot pointer
      (ctx.boundBuffer? Enumerant.arrayBuffer) := by
    refine (vertexArray_congr hobjects ?_).trans (vertexArray_changeVertexArray _)
    rw [bindings_changeVertexArray, issue_pointer_bound ctx hcall]
  have hslots := h _ (ctx.issue call).keeps_vertexArray
  rw [hused] at hslots
  exact ⟨_, hslots _ (Vector.mem_set slot.isLt)⟩

section Reached

variable (width height : UInt32) {calls : List Call}

/-- Whatever pointers are set, no slot for integers reads floating-point numbers, and every other
slot is valid. -/
theorem allSlots_typed (calls : List Call) :
    ((new width height).issueAll calls).AllSlots fun s =>
      (s.integer = true → s.type ≠ Enumerant.float ∧ s.type ≠ Enumerant.halfFloat) ∧
        (s.integer = false → s.IsValid) := by
  refine (allSlots_new width height ?fresh).issueAll ?fresh ?switch ?pointed
  case fresh =>
    exact ⟨nofun, fun _ => AttributePointer.isValid_fresh⟩
  case switch =>
    intro s enabled hs
    exact ⟨hs.1, fun hother => (hs.2 hother).switch enabled⟩
  case pointed =>
    intro before call after _ index pointer _ htakes enabled
    refine ⟨fun hinteger => ?_, fun hother => htakes.isValid ?_ enabled⟩
    · have htype := htakes.2
      rwa [if_pos hinteger] at htype
    · rwa [← (hother : pointer.integer = false)]

/-- All slots are valid if each pointer for integers was taken as any other would have been. -/
theorem allSlots_isValid
    (hchecked : ∀ before call after, calls = before ++ call :: after → ∀ index pointer,
      call.pointer? = some (index, pointer) → pointer.integer = true →
      ((new width height).issueAll before).Takes index pointer →
      ((new width height).issueAll before).Takes index { pointer with integer := false }) :
    ((new width height).issueAll calls).AllSlots AttributePointer.IsValid := by
  refine (allSlots_new width height AttributePointer.isValid_fresh).issueAll
    AttributePointer.isValid_fresh (fun s enabled hs => hs.switch enabled) ?_
  intro before call after hcalls index pointer hpointer htakes enabled
  refine htakes.isValid ?_ enabled
  cases hinteger : pointer.integer with
  | true => exact hchecked before call after hcalls index pointer hpointer hinteger htakes
  | false => rwa [← hinteger]

end Reached

/-- After every sequence of calls, every vertex array has its sixteen slots, no slot for integers
reads floating-point numbers, and every other slot is valid. All slots are valid all along the
sequence exactly if each pointer for integers that was taken would have been taken as well if it
were not for integers. -/
theorem slots_valid_iff (width height : UInt32) (calls : List Call) :
    let reached := (new width height).issueAll
    (∀ array, (reached calls).Keeps array →
      array.slots.toList.length = 16 ∧ ∀ s ∈ array.slots,
        (s.integer = true → s.type ≠ Enumerant.float ∧ s.type ≠ Enumerant.halfFloat) ∧
        (s.integer = false → s.IsValid)) ∧
    ((∀ before after, calls = before ++ after →
        (reached before).AllSlots AttributePointer.IsValid) ↔
      ∀ before call after, calls = before ++ call :: after → ∀ index pointer,
        call.pointer? = some (index, pointer) → pointer.integer = true →
        (reached before).Takes index pointer →
        (reached before).Takes index { pointer with integer := false }) := by
  intro reached
  have htyped := allSlots_typed width height calls
  refine ⟨fun array harray => ⟨Vector.length_toList, htyped array harray⟩, ?valid, ?checked⟩
  case valid =>
    intro hvalid before call after hcalls index pointer hpointer hinteger htakes
    have hafter := hvalid (before ++ [call]) after (by simp [hcalls])
    have hissued : reached (before ++ [call]) = (reached before).issue call :=
      issueAll_append _ _ _
    rw [hissued] at hafter
    obtain ⟨enabled, hset⟩ := hafter.of_pointer hpointer htakes
    exact htakes.of_isValid hinteger hset
  case checked =>
    intro hchecked before after hcalls
    refine allSlots_isValid width height fun first call rest hbefore => ?_
    refine hchecked first call (rest ++ after) ?_
    rw [hcalls, hbefore, List.append_assoc, List.cons_append]

/-- A pointer to five integers that lie before one another and before the beginning, without a
buffer, is taken. -/
theorem integer_pointer_unchecked :
    let ctx := (new 1 1).issueAll [.attributeIPointer 0 5 0x1404 (-1) (-1)]
    ctx.error = none ∧
      ctx.vertexArray.slots.get 0 = ⟨false, 5, 0x1404, false, true, -1, -1, none⟩ ∧
      ¬ ctx.AllSlots AttributePointer.IsValid := by
  intro ctx
  have hslot : ctx.vertexArray.slots.get 0 =
      ⟨false, 5, 0x1404, false, true, -1, -1, none⟩ := by
    decide +kernel
  refine ⟨by decide +kernel, hslot, fun hvalid => ?_⟩
  have hs : (ctx.vertexArray.slots.get 0).IsValid :=
    hvalid _ ctx.keeps_vertexArray _ (Vector.getElem_mem (by decide : 0 < attributeSlots))
  rw [hslot] at hs
  exact absurd hs.offset (by decide)

end Context

end GlPlayback
