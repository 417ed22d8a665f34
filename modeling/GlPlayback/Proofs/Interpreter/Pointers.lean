import GlPlayback.Proofs.Gl.Pointers
import GlPlayback.Proofs.Interpreter.BoundBuffers
import GlPlayback.Proofs.Resource.PointerGroups

/-!
The pointers that are recorded of vertex arrays, beside those that the context keeps. A pointer is
recorded whenever a vertex array and a buffer are bound, whether or not the context takes it. One
that it takes is what the record says, in the vertex array and with the buffer that the record
names.
-/
namespace GlPlayback

/-- The two kinds of commands that set a pointer. -/
inductive PointerKind where
  | float (normalized : Bool)
  | integer
  deriving DecidableEq, Repr

def PointerKind.setting : PointerKind → PointerSetting
  | float normalized => .float normalized
  | integer => .integer

/-- The command that sets a pointer of one kind. -/
def PointerArgs.action (args : PointerArgs) : PointerKind → Action
  | .float normalized => .attributePointer args normalized
  | .integer => .attributeIPointer args

/-- What is recorded of a command that sets a pointer. -/
def PointerArgs.record (args : PointerArgs) (kind : PointerKind) (index : UInt32) :
    PointerRecord :=
  ⟨kind.setting, index, args.size, args.type, args.stride, args.offset⟩

namespace PointerRecord

/-- The call by which a pointer is set, its type by its code. -/
def call (p : PointerRecord) (type : UInt32) : Call :=
  match p.setting.normalized with
  | some normalized => .attributePointer p.index p.size type normalized p.stride p.offset
  | none => .attributeIPointer p.index p.size type p.stride p.offset

/-- What a record says of a pointer. One for integers is not normalized. -/
def pointer (p : PointerRecord) (type : UInt32) : AttributePointer where
  size := p.size
  type := type
  normalized := p.setting.normalized.getD false
  integer := p.setting.normalized.isNone
  stride := p.stride
  offset := p.offset

theorem pointer?_call (p : PointerRecord) (type : UInt32) :
    (p.call type).pointer? = some (p.index, p.pointer type) := by
  obtain ⟨⟨_, normalized⟩, index, size, _, stride, offset⟩ := p
  cases normalized <;> rfl

end PointerRecord

theorem Operation.resolve_pointer (s : Surroundings) (args : PointerArgs) (kind : PointerKind)
    (payload : Option PayloadRef) :
    resolve s ⟨args.action kind, payload⟩ = (do
      let index ← s.attributeLocation args.index
      let type ← token .vertexType args.type
      return .setPointer ((args.record kind index).call type) s.pointerPlace
        (args.record kind index)) := by
  cases kind <;> rfl

namespace Operation

variable {op : Operation}

theorem Resolved.vertexArray_not_mem_touches {s : Surroundings} (hop : op.Resolved s)
    (hbinds : ∀ array, op ≠ .bindVertexArray array) : .vertexArray ∉ op.touches := by
  intro hmem
  rcases hop.reserved_cases hmem trivial with ⟨hpart, -⟩ | ⟨-, array, heq⟩
  · cases hpart
  · exact hbinds array heq

theorem vertexArray_bindingsAfter (b : BindingState)
    (hbinds : ∀ array, op ≠ .bindVertexArray array) :
    (op.bindingsAfter b).vertexArray = b.vertexArray := by
  cases op with
  | bindVertexArray array => exact absurd rfl (hbinds array)
  | _ => rfl

end Operation

namespace Machine

variable {m m' : Machine} {event : Event}

/-- Where pointers are recorded: the vertex array and the buffer that are bound, and what is
recorded of the array so far. -/
def recordsAt? (m : Machine) : Option (Handle × Handle × VertexArrayRecord) :=
  (m.surroundings []).pointerPlace.bind fun place =>
    match m.registry.record place.1 with
    | .vertexArray v => some (place.1, place.2, v)
    | _ => none

/-- The registry after a pointer was recorded, if there is a place for it. -/
def recording (m : Machine) (p : PointerRecord) : Registry :=
  match m.recordsAt? with
  | none => m.registry
  | some (array, buffer, v) =>
      m.registry.write array fun x => { x with record := .vertexArray (v.add buffer p) }

theorem recordsAt?_eq_some {array buffer : Handle} {v : VertexArrayRecord}
    (h : m.recordsAt? = some (array, buffer, v)) :
    m.bindings.vertexArray = some array ∧ m.bindings.buffers.get? .array = some buffer ∧
      m.registry.record array = .vertexArray v := by
  obtain ⟨⟨array', buffer'⟩, hplace, hrecord⟩ := Option.bind_eq_some_iff.mp h
  obtain ⟨_, harray, hplace⟩ := Option.bind_eq_some_iff.mp hplace
  obtain ⟨_, hbuffer, hplace⟩ := Option.bind_eq_some_iff.mp hplace
  cases hplace
  simp only at hrecord
  split at hrecord
  · next v' hv =>
      cases hrecord
      exact ⟨harray, hbuffer, hv⟩
  · cases hrecord

section Recording

variable {array buffer : Handle} {v : VertexArrayRecord} (p : PointerRecord)

theorem recording_of_none (hplace : m.recordsAt? = none) : m.recording p = m.registry := by
  rw [recording, hplace]

/-- A pointer is added to the record of one array, which is reported, and no other record
changes. -/
theorem recording_of_some (hplace : m.recordsAt? = some (array, buffer, v)) :
    (m.recording p).record array = .vertexArray (v.add buffer p) ∧
      array ∈ (m.recording p).dirty.keys ∧
      (∀ other, other ≠ array → (m.recording p).record other = m.registry.record other) ∧
      (m.recording p).objectOf? = m.registry.objectOf? := by
  obtain ⟨-, -, hrecord⟩ := recordsAt?_eq_some hplace
  obtain ⟨x, hx, -⟩ := Registry.isCreated_iff.mpr fun hunset => nomatch hunset.symm.trans hrecord
  simp only [recording, hplace]
  refine ⟨Registry.record_write_of_get hx, (Registry.mem_dirty_write _ _ _).mpr (.inl rfl),
    fun other hother => Registry.record_write_of_ne _ _ _ hother, ?_⟩
  funext other
  exact Registry.objectOf?_rewrite (fun _ => .vertexArray (v.add buffer p)) other

theorem recording_eq_iff : m.recording p = m.registry ↔ m.recordsAt? = none := by
  cases hplace : m.recordsAt? with
  | none => exact iff_of_true (recording_of_none p hplace) rfl
  | some place =>
      obtain ⟨array, buffer, v⟩ := place
      refine iff_of_false (fun hsame => ?_) nofun
      obtain ⟨hrecorded, -⟩ := recording_of_some p hplace
      rw [hsame, (recordsAt?_eq_some hplace).2.2] at hrecorded
      exact VertexArrayRecord.add_ne v buffer p (ResourceRecord.vertexArray.inj hrecorded).symm

/-- Setting a pointer does not fail, whatever the context makes of it. -/
theorem perform_pointer (hbound : m.BindsCreated) (call : Call) (payloads : List (List UInt8)) :
    m.perform (.setPointer call (m.surroundings payloads).pointerPlace p) =
      (.ok (), { m.issue call with registry := m.recording p }) := by
  have hsame : (m.surroundings payloads).pointerPlace = (m.surroundings []).pointerPlace := rfl
  rw [hsame]
  cases hplace : (m.surroundings []).pointerPlace with
  | none =>
      have hnone : m.recordsAt? = none := by rw [recordsAt?, hplace]; rfl
      rw [recording_of_none p hnone]
      rfl
  | some place =>
      obtain ⟨array, buffer⟩ := place
      have harray : m.bindings.vertexArray = some array :=
        Surroundings.vertexArray_of_pointerPlace hplace
      obtain ⟨⟨object, record⟩, hx, -⟩ := hbound array (.inr (.inl harray))
      have hrecord := Registry.record_of_get hx
      have hperform : m.perform (.setPointer call (some (array, buffer)) p) =
          (m.issue call).settle (m.registry.addPointer array buffer p) := rfl
      rw [hperform]
      cases record with
      | vertexArray v =>
          have hsome : m.recordsAt? = some (array, buffer, v) := by
            simp only [recordsAt?, hplace, Option.bind_some, hrecord]
          rw [Registry.addPointer_vertexArray hx rfl, recording, hsome]
          exact settle_changeRecord ⟨_, hx⟩ (m.issue call).context _
      | unset | buffer _ | shader _ _ | program _ | texture | framebuffer =>
          have hnone : m.recordsAt? = none := by
            simp only [recordsAt?, hplace, Option.bind_some, hrecord]
          rw [Registry.addPointer_of_ne hx nofun, recording_of_none p hnone]
          rfl

end Recording

/-- A pointer command either cannot be resolved and leaves everything, or it puts one call to the
context and is recorded. -/
theorem executeCommand_pointer (hbound : m.BindsCreated) (checks : Bool)
    (payloads : List (List UInt8)) (args : PointerArgs) (kind : PointerKind)
    (payload : Option PayloadRef) :
    (m.callsOf payloads ⟨args.action kind, payload⟩ = [] ∧
      (m.executeCommand checks payloads ⟨args.action kind, payload⟩).2 = m) ∨
    ∃ index type, (m.surroundings payloads).attributeLocation args.index = .ok index ∧
      TokenFamily.vertexType.resolve? args.type = some type ∧
      m.callsOf payloads ⟨args.action kind, payload⟩ = [(args.record kind index).call type] ∧
      (m.executeCommand checks payloads ⟨args.action kind, payload⟩).2 =
        readAway checks { m.issue ((args.record kind index).call type) with
          registry := m.recording (args.record kind index) } := by
  cases hresolve : Operation.resolve (m.surroundings payloads) ⟨args.action kind, payload⟩ with
  | error e =>
      refine .inl ⟨by rw [callsOf, hresolve], ?_⟩
      rw [executeCommand_of_error hresolve]
  | ok op =>
      obtain ⟨index, hindex, hop⟩ :=
        bind_eq_ok_iff.mp ((Operation.resolve_pointer _ args kind payload).symm.trans hresolve)
      obtain ⟨type, htype, hop⟩ := bind_eq_ok_iff.mp hop
      cases hop
      refine .inr ⟨index, type, hindex, ?_, by rw [callsOf, hresolve]; rfl, ?_⟩
      · simp only [Operation.token] at htype
        split at htype
        · next code hcode =>
            cases htype
            exact hcode
        · cases htype
      · exact executeCommand_machine hresolve (perform_pointer _ hbound _ payloads)

theorem readAway_objects (checks : Bool) (m : Machine) :
    (m.readAway checks).context.objects = m.context.objects := by
  cases checks <;> rfl

/-- What becomes of a pointer with this type: the context takes it or refuses it, and in either case
it is recorded where there is a place for it. -/
structure SetsPointer (m : Machine) (p : PointerRecord) (type : UInt32) (m' : Machine) :
    Prop where
  accepted_iff : m.context.errorsOf [p.call type] = [] ↔
    m.context.Takes p.index (p.pointer type)
  taken : m.context.Takes p.index (p.pointer type) →
    ∃ slot : Fin attributeSlots, slot.val = p.index.toNat ∧
      m'.context.vertexArray = m.context.vertexArray.point slot (p.pointer type)
        (m.context.boundBuffer? Enumerant.arrayBuffer)
  refused : ¬ m.context.Takes p.index (p.pointer type) → m'.context.objects = m.context.objects
  recorded : ∀ {array buffer v}, m.recordsAt? = some (array, buffer, v) →
    m'.registry.record array = .vertexArray (v.add buffer p) ∧
      array ∈ m'.registry.dirty.keys ∧
      ∀ other, other ≠ array → m'.registry.record other = m.registry.record other
  unrecorded : m.recordsAt? = none → m'.registry = m.registry
  /-- A refused pointer leaves the records only where there is no place for one. -/
  spares_iff : (m.context.errorsOf [p.call type] ≠ [] → m'.registry = m.registry) ↔
    m.context.Takes p.index (p.pointer type) ∨ m.recordsAt? = none

theorem setsPointer (m : Machine) (checks : Bool) (p : PointerRecord) (type : UInt32) :
    m.SetsPointer p type
      (readAway checks { m.issue (p.call type) with registry := m.recording p }) := by
  have haccepted : m.context.errorsOf [p.call type] = [] ↔
      m.context.Takes p.index (p.pointer type) := by
    rw [← Context.raises_pointer_iff (p.pointer?_call type), Context.errorsOf, Context.errorsOf,
      List.append_nil, Option.toList_eq_nil_iff]
  have hcalls := readAway_calls checks
    { m.issue (p.call type) with registry := m.recording p }
  have hobjects := readAway_objects checks
    { m.issue (p.call type) with registry := m.recording p }
  have hbound : (readAway checks { m.issue (p.call type) with
      registry := m.recording p }).context.bindings.vertexArray =
        m.context.bindings.vertexArray :=
    ((readAway_quiet checks _).part_eq (by decide : Part.vertexArray ≠ .error)).trans
      (m.context.issue_pointer_bound (p.pointer?_call type))
  have hcases := m.context.issue_pointer_cases (p.pointer?_call type)
  refine ⟨haccepted, fun htakes => ?_, fun hrefuses => ?_, fun hplace => ?_, fun hplace => ?_, ?_⟩
  · obtain ⟨-, -, slot, hslot, hpointed⟩ := hcases.resolve_right fun h => h.1 htakes
    refine ⟨slot, hslot, (Context.vertexArray_congr (hobjects.trans hpointed) ?_).trans
      (Context.vertexArray_changeVertexArray _)⟩
    rw [Context.bindings_changeVertexArray, hbound]
  · obtain ⟨-, -, hsame⟩ := hcases.resolve_left fun h => hrefuses h.1
    exact hobjects.trans hsame
  · obtain ⟨hrecord, hdirty, hothers, -⟩ := recording_of_some p hplace
    rw [hcalls.registry_eq]
    exact ⟨hrecord, hdirty, hothers⟩
  · rw [hcalls.registry_eq]
    exact recording_of_none p hplace
  · rw [Ne, haccepted, hcalls.registry_eq]
    simp only [recording_eq_iff]
    tauto

/-- After every history, a pointer command that can be resolved puts one call to the context. The
context takes what it asks of a pointer and keeps that in the vertex array it uses; what it refuses
leaves its objects. Whatever the context makes of it, the pointer is recorded of the vertex array
that commands bound, if they bound one and a buffer; so a refusal shows in no record exactly if they
did not. -/
theorem pointer_recorded (width height : UInt32) (events : List Event) (checks : Bool)
    (payloads : List (List UInt8)) (args : PointerArgs) (kind : PointerKind)
    (payload : Option PayloadRef) :
    let m := (fresh width height).after events
    let command : Command := ⟨args.action kind, payload⟩
    let m' := (m.executeCommand checks payloads command).2
    (m.callsOf payloads command = [] ∧ m' = m) ∨
      ∃ index type, (m.surroundings payloads).attributeLocation args.index = .ok index ∧
        TokenFamily.vertexType.resolve? args.type = some type ∧
        m.callsOf payloads command = [(args.record kind index).call type] ∧
        m.SetsPointer (args.record kind index) type m' := by
  intro m command m'
  have hbound : m.BindsCreated := after_bindsCreated (fresh_bindsCreated width height) events
  rcases executeCommand_pointer hbound checks payloads args kind payload with
    hfailed | ⟨index, type, hindex, htype, hcalls, hleft⟩
  · exact .inl hfailed
  · refine .inr ⟨index, type, hindex, htype, hcalls, ?_⟩
    change m.SetsPointer _ _ (m.executeCommand checks payloads command).2
    rw [hleft]
    exact setsPointer m checks _ type

/-- A pointer of five components fails with an error, and is recorded all the same. -/
theorem refused_pointer_recorded :
    let events : List Event := [.register 0, .register 1,
      .command true [] ⟨.create .vertexArray 0, none⟩,
      .command true [] ⟨.create .buffer 1, none⟩,
      .command true [] ⟨.bindVertexArray 0, none⟩,
      .command true [] ⟨.bindBuffer "ARRAY_BUFFER" 1, none⟩, .takeDirty]
    let command : Command := ⟨.attributePointer ⟨.location 0, 5, "FLOAT", 0, 0⟩ false, none⟩
    let m := (fresh 1 1).after events
    let m' := (m.executeCommand true [] command).2
    m.context.errorsOf (m.callsOf [] command) = [.invalidValue] ∧
      (m.executeCommand true [] command).1 = .error (.gl .invalidValue) ∧
      m'.context.objects = m.context.objects ∧
      m.registry.record ⟨0⟩ = .vertexArray {} ∧ m.registry.dirty.keys = [] ∧
      m'.registry.record ⟨0⟩ =
        .vertexArray ⟨[⟨⟨1⟩, [⟨.float false, 0, 5, "FLOAT", 0, 0⟩]⟩]⟩ ∧
      m'.registry.dirty.keys = [⟨0⟩] := by
  intro events command m m'
  decide +kernel

/-- The vertex array in use is the one that commands bound. -/
def ArrayAgrees (m : Machine) : Prop :=
  m.context.bindings.vertexArray = m.bindings.vertexArray.bind m.registry.objectOf?

theorem fresh_arrayAgrees (width height : UInt32) : (fresh width height).ArrayAgrees :=
  rfl

section Step

variable (hm : m.Sound) (hevent : m.Admits event)
include hm hevent

/-- What neither the context nor the interpreter binds leaves the vertex arrays in step. -/
theorem Sound.arrayAgrees_kept (hagrees : m.ArrayAgrees)
    (hcontext : (m.react event).context.bindings.vertexArray = m.context.bindings.vertexArray)
    (hbindings : (m.react event).bindings.vertexArray = m.bindings.vertexArray) :
    (m.react event).ArrayAgrees := by
  have hcreated (h : Handle) (hh : m.bindings.vertexArray = some h) : m.registry.IsCreated h :=
    hm.bindsCreated h (.inr (.inl hh))
  rw [ArrayAgrees, hcontext, hbindings, hevent.bind_objectOf?_eq hm.bindsCreated hcreated]
  exact hagrees

/-- A vertex array that a command binds exists, so the context takes it into use. -/
theorem Sound.arrayAgrees_bound {array : Option (Handle × ObjectId)}
    (hop : ∀ h id, array = some (h, id) → m.registry.object h .vertexArray = .ok id)
    (hcontext : (m.react event).context.bindings.vertexArray =
      (m.context.issue (.bindVertexArray (array.map (·.2)))).bindings.vertexArray)
    (hbindings : (m.react event).bindings.vertexArray = array.map (·.1)) :
    (m.react event).ArrayAgrees := by
  have hhas (id : ObjectId) (hid : array.map (·.2) = some id) :
      m.context.objects.Has .vertexArray id := by
    obtain ⟨⟨h, id'⟩, rfl, rfl⟩ := Option.map_eq_some_iff.mp hid
    obtain ⟨what, hwhat, hkind⟩ := Registry.what?_of_object (hop h id' rfl)
    have hhas := hm.has hwhat (Registry.objectOf?_of_object (hop h id' rfl))
    cases what with
    | vertexArray => exact hhas
    | texture | shader _ | program | buffer | framebuffer => cases hkind
  rw [ArrayAgrees, hcontext, hbindings, Context.issue, Context.exec_bindVertexArray hhas,
    hevent.bind_objectOf?_of_object hm.bindsCreated hop]

theorem Sound.arrayAgrees_react (hagrees : m.ArrayAgrees) : (m.react event).ArrayAgrees := by
  have hkept := hm.arrayAgrees_kept hevent hagrees
  rcases hevent.react_cases hm.bindsCreated with
    ⟨-, hquiet⟩ | ⟨payloads, op, m', hresolve, hresolved, hop, hquiet⟩
  · refine hkept (hquiet.part_eq (nofun : Part.vertexArray ≠ .error)) ?_
    rw [hquiet.bindings_eq]
  · have hcontext : (m.react event).context.bindings.vertexArray =
        m'.context.bindings.vertexArray :=
      hquiet.part_eq (nofun : Part.vertexArray ≠ .error)
    have hbindings : (m.react event).bindings.vertexArray =
        (op.bindingsAfter m.bindings).vertexArray := by
      rw [hquiet.bindings_eq, hop.bindings_eq]
    by_cases hbinds : ∃ array, op = .bindVertexArray array
    · obtain ⟨array, rfl⟩ := hbinds
      rw [hop.context_eq] at hcontext
      exact hm.arrayAgrees_bound hevent hresolved hcontext hbindings
    · have hother : ∀ array, op ≠ .bindVertexArray array :=
        fun array heq => hbinds ⟨array, heq⟩
      refine hkept ?_ ?_
      · rw [hcontext]
        exact hop.part_eq (hresolved.vertexArray_not_mem_touches hother) nofun
      · rw [hbindings, Operation.vertexArray_bindingsAfter _ hother]

end Step

theorem arrayAgrees_after (width height : UInt32) {events : List Event}
    (hevents : (fresh width height).Along Admits events) :
    ((fresh width height).after events).ArrayAgrees := by
  have hstep (m : Machine) (event : Event) (h : m.Sound ∧ m.ArrayAgrees)
      (hevent : m.Admits event) : (m.react event).Sound ∧ (m.react event).ArrayAgrees :=
    ⟨h.1.react hevent, h.1.arrayAgrees_react hevent h.2⟩
  exact (hevents.invariant hstep ⟨fresh_sound width height, fresh_arrayAgrees width height⟩).2

/-- Where a record gains a pointer, pointers are recorded. -/
theorem recordsAt?_of_recording {p p' : PointerRecord} {array buffer : Handle}
    {v : VertexArrayRecord} (hbefore : m.registry.record array = .vertexArray v)
    (hafter : (m.recording p).record array = .vertexArray (v.add buffer p')) :
    m.recordsAt? = some (array, buffer, v) ∧ p' = p := by
  have hkept : (m.recording p).record array ≠ m.registry.record array := by
    rw [hbefore, hafter]
    exact fun h => VertexArrayRecord.add_ne v buffer p' (ResourceRecord.vertexArray.inj h)
  cases hplace : m.recordsAt? with
  | none => exact absurd (by rw [recording_of_none p hplace]) hkept
  | some place =>
      obtain ⟨array', buffer', v'⟩ := place
      obtain ⟨hrecorded, -, hothers, -⟩ := recording_of_some p hplace
      by_cases hsame : array = array'
      · subst hsame
        cases hbefore.symm.trans (recordsAt?_eq_some hplace).2.2
        obtain ⟨rfl, rfl⟩ := VertexArrayRecord.add_inj
          (ResourceRecord.vertexArray.inj (hafter.symm.trans hrecorded))
        exact ⟨rfl, rfl⟩
      · exact absurd (hothers array hsame) hkept

section Kept

variable (width height : UInt32) {events : List Event}
  (hevents : (fresh width height).Along Admits events)
include hevents

/-- Where pointers are recorded the context keeps them: it uses the vertex array that they are
recorded of, and has the buffer that they are recorded with bound. -/
theorem place_bound {array buffer : Handle} {v : VertexArrayRecord}
    (hplace : ((fresh width height).after events).recordsAt? = some (array, buffer, v)) :
    let m := (fresh width height).after events
    ∃ arrayId bufferId old, m.registry.objectOf? array = some arrayId ∧
      m.registry.objectOf? buffer = some bufferId ∧
      m.context.bindings.vertexArray = some arrayId ∧
      m.context.objects.vertexArrays.get? arrayId = some old ∧
      m.context.boundBuffer? Enumerant.arrayBuffer = some bufferId := by
  intro m
  have hm : m.Sound := after_sound width height hevents
  obtain ⟨harray, hbuffer, hrecord⟩ := recordsAt?_eq_some hplace
  obtain ⟨arrayId, harrayId⟩ := hm.objectOf?_isSome (hm.bindsCreated array (.inr (.inl harray)))
  obtain ⟨bufferId, hbufferId⟩ :=
    hm.objectOf?_isSome (hm.bindsCreated buffer (.inr (.inr ⟨.array, hbuffer⟩)))
  have hhas : m.context.objects.Has .vertexArray arrayId :=
    hm.has (congrArg ResourceRecord.what? hrecord) harrayId
  obtain ⟨old, hold⟩ := Option.isSome_iff_exists.mp hhas
  have hused : m.ArrayAgrees := arrayAgrees_after width height hevents
  have hbound : m.AgreesAt .array := agreesAt_after (fresh_sound width height)
    (Context.holdsArray_new width height) hevents
    (fun _ => fresh_agreesAt width height .array) (movedAfter_eq_false (by decide) _ _)
  rw [ArrayAgrees, harray, Option.bind_some, harrayId] at hused
  rw [AgreesAt, hbuffer, Option.bind_some, hbufferId] at hbound
  exact ⟨arrayId, bufferId, old, harrayId, hbufferId, hused, hold, hbound⟩

/-- In a history of commands that creates nothing twice, a pointer that the context takes and that
is recorded is what the record says: in the vertex array and with the buffer that the record names,
and of the type that it names. Its slot stays on or off, and no other vertex array changes. -/
theorem recorded_pointer_kept (checks : Bool) (payloads : List (List UInt8)) (args : PointerArgs)
    (kind : PointerKind) (payload : Option PayloadRef) :
    let m := (fresh width height).after events
    let command : Command := ⟨args.action kind, payload⟩
    let m' := (m.executeCommand checks payloads command).2
    m.context.errorsOf (m.callsOf payloads command) = [] →
      ∀ array buffer v p, m.registry.record array = .vertexArray v →
        m'.registry.record array = .vertexArray (v.add buffer p) →
        ∃ index type slot arrayId bufferId old, p = args.record kind index ∧
          TokenFamily.vertexType.resolve? p.type = some type ∧ slot.val = p.index.toNat ∧
          m'.registry.objectOf? array = some arrayId ∧
          m'.registry.objectOf? buffer = some bufferId ∧
          m.context.objects.vertexArrays.get? arrayId = some old ∧
          m'.context.objects.vertexArrays.get? arrayId =
            some (old.point slot (p.pointer type) (some bufferId)) ∧
          (∀ other, other ≠ arrayId → m'.context.objects.vertexArrays.get? other =
            m.context.objects.vertexArrays.get? other) ∧
          m'.context.objects.defaultVertexArray = m.context.objects.defaultVertexArray := by
  intro m command m' haccepted array buffer v p hbefore hafter
  have hm : m.Sound := after_sound width height hevents
  rcases executeCommand_pointer hm.bindsCreated checks payloads args kind payload with
    ⟨-, hleft⟩ | ⟨index, type, -, htype, hcalls, hleft⟩
  · have hsame : m' = m := hleft
    rw [hsame, hbefore] at hafter
    exact absurd (ResourceRecord.vertexArray.inj hafter).symm
      (VertexArrayRecord.add_ne v buffer p)
  · have hregistry : m'.registry = m.recording (args.record kind index) :=
      (congrArg (·.registry) hleft).trans (readAway_calls checks _).registry_eq
    have hobjects : m'.context.objects =
        (m.context.issue ((args.record kind index).call type)).objects :=
      (congrArg (·.context.objects) hleft).trans (readAway_objects checks _)
    rw [hregistry] at hafter
    obtain ⟨hplace, rfl⟩ := recordsAt?_of_recording hbefore hafter
    obtain ⟨arrayId, bufferId, old, harrayId, hbufferId, hused, hold, hbound⟩ :=
      place_bound width height hevents hplace
    obtain ⟨-, -, -, hlasting⟩ := recording_of_some (args.record kind index) hplace
    have hpointer := (args.record kind index).pointer?_call type
    have hraises : m.context.raises ((args.record kind index).call type) = none := by
      rw [hcalls] at haccepted
      simpa [Context.errorsOf] using haccepted
    have htakes := (Context.raises_pointer_iff hpointer).mp hraises
    obtain ⟨-, -, slot, hslot, hpointed⟩ :=
      (m.context.issue_pointer_cases hpointer).resolve_right fun h => h.1 htakes
    rw [Context.objects_changeVertexArray hused hold, hbound, ← hobjects] at hpointed
    refine ⟨index, type, slot, arrayId, bufferId, old, rfl, htype, hslot, ?_, ?_, hold, ?_,
      fun other hother => ?_, ?_⟩
    · rw [hregistry, hlasting]
      exact harrayId
    · rw [hregistry, hlasting]
      exact hbufferId
    · rw [hpointed, Table.get?_insert, if_pos rfl]
    · rw [hpointed, Table.get?_insert, if_neg (Ne.symm hother)]
    · rw [hpointed]

end Kept

/-- A pointer in a slot that was turned on before. -/
theorem recorded_pointer_kept_enabled :
    let events : List Event := [.register 0, .register 1,
      .command true [] ⟨.create .vertexArray 0, none⟩,
      .command true [] ⟨.create .buffer 1, none⟩,
      .command true [] ⟨.bindVertexArray 0, none⟩,
      .command true [] ⟨.bindBuffer "ARRAY_BUFFER" 1, none⟩,
      .command true [] ⟨.enableAttribute (.location 2), none⟩]
    let args : PointerArgs := ⟨.location 2, 3, "UNSIGNED_BYTE", 12, 4⟩
    let m' := (((fresh 1 1).after events).executeCommand true []
      ⟨args.action (.float true), none⟩).2
    m'.registry.record ⟨0⟩ =
        .vertexArray ⟨[⟨⟨1⟩, [⟨.float true, 2, 3, "UNSIGNED_BYTE", 12, 4⟩]⟩]⟩ ∧
      m'.registry.objectOf? ⟨0⟩ = some 1 ∧ m'.registry.objectOf? ⟨1⟩ = some 2 ∧
      (m'.context.objects.vertexArrays.get? 1).map (·.slots[2]) =
        some ⟨true, 3, 0x1401, true, false, 12, 4, some 2⟩ := by
  intro events args m'
  have hevents : (fresh 1 1).Along Admits events := by decide
  have haccepted : ((fresh 1 1).after events).context.errorsOf
      (((fresh 1 1).after events).callsOf [] ⟨args.action (.float true), none⟩) = [] := by
    decide +kernel
  have hbefore : ((fresh 1 1).after events).registry.record ⟨0⟩ = .vertexArray {} := by
    decide +kernel
  have hafter : m'.registry.record ⟨0⟩ =
      .vertexArray (VertexArrayRecord.add {} ⟨1⟩ (args.record (.float true) 2)) := by
    decide +kernel
  have harray : m'.registry.objectOf? ⟨0⟩ = some 1 := by
    decide +kernel
  have hbuffer : m'.registry.objectOf? ⟨1⟩ = some 2 := by
    decide +kernel
  have hcode : TokenFamily.vertexType.resolve? "UNSIGNED_BYTE" = some 0x1401 := by
    decide +kernel
  have hon : (((fresh 1 1).after events).context.objects.vertexArrays.get? 1).map
      (fun array => array.slots[2].enabled) = some true := by
    decide +kernel
  obtain ⟨index, type, slot, arrayId, bufferId, old, -, htype, hslot, harray', hbuffer', hold,
    hkept, -⟩ := recorded_pointer_kept 1 1 hevents true [] args (.float true) none haccepted ⟨0⟩
      ⟨1⟩ _ _ hbefore hafter
  cases harray.symm.trans harray'
  cases hbuffer.symm.trans hbuffer'
  cases hcode.symm.trans htype
  obtain rfl : slot = 2 := Fin.ext hslot
  have hold' : old.slots[2].enabled = true := by
    rw [hold] at hon
    exact Option.some.inj hon
  refine ⟨hafter, harray, hbuffer, ?_⟩
  have hslot' : (old.point 2 ((args.record (.float true) 2).pointer 0x1401) (some 2)).slots[2] =
      ⟨old.slots[2].enabled, 3, 0x1401, true, false, 12, 4, some 2⟩ :=
    Vector.getElem_set_self _
  rw [hold'] at hslot'
  exact (congrArg (Option.map (·.slots[2])) hkept).trans (congrArg some hslot')

end Machine

end GlPlayback
