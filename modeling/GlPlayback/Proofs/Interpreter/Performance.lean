import GlPlayback.Interpreter.Machine
import GlPlayback.Proofs.Interpreter.Conversation
import GlPlayback.Proofs.Interpreter.Resolution

/-!
What carrying an operation out does. What is bound was created, and so a resolved operation is
always carried out; it writes at most one resource, in one of three ways.
-/
namespace GlPlayback

def ResourceRecord.what? : ResourceRecord → Option NewObject
  | unset => none
  | buffer _ => some .buffer
  | shader stage _ => some (.shader stage)
  | program _ => some .program
  | vertexArray _ => some .vertexArray
  | texture => some .texture
  | framebuffer => some .framebuffer

/-- The record after a compilation with this message. Only that of a shader changes. -/
def ResourceRecord.logged (message : String) : ResourceRecord → ResourceRecord
  | shader stage _ => .shader stage ⟨some message⟩
  | record => record

theorem ResourceRecord.what?_logged (message : String) (record : ResourceRecord) :
    (record.logged message).what? = record.what? := by
  cases record <;> rfl

def NewObject.kind : NewObject → ResourceKind
  | texture => .texture
  | shader _ => .shader
  | program => .program
  | buffer => .buffer
  | vertexArray => .vertexArray
  | framebuffer => .framebuffer

theorem ResourceRecord.kind?_eq (record : ResourceRecord) :
    record.kind? = record.what?.map NewObject.kind := by
  cases record <;> rfl

theorem ResourceRecord.what?_eq_none_iff {record : ResourceRecord} :
    record.what? = none ↔ record = .unset := by
  cases record <;> simp [what?]

theorem NewObject.what?_record (object : NewObject) : object.record.what? = some object := by
  cases object <;> rfl

namespace BindingState

/-- A handle is bound, to whatever. -/
def Binds (b : BindingState) (h : Handle) : Prop :=
  b.program = some h ∨ b.vertexArray = some h ∨ ∃ target, b.buffers.get? target = some h

/-- Everything that is bound was created. -/
def BoundIn (b : BindingState) (r : Registry) : Prop :=
  ∀ h, b.Binds h → r.IsCreated h

variable {b : BindingState} {r r' : Registry}

theorem boundIn_empty (r : Registry) : BoundIn {} r := by
  rintro h (hprogram | harray | ⟨target, hbuffer⟩)
  · cases hprogram
  · cases harray
  · cases hbuffer

theorem BoundIn.mono (hb : b.BoundIn r) (hr : ∀ h, r.IsCreated h → r'.IsCreated h) :
    b.BoundIn r' :=
  fun h hbinds => hr h (hb h hbinds)

theorem BoundIn.bindProgram (hb : b.BoundIn r) {program : Option Handle}
    (hnew : ∀ h, program = some h → r.IsCreated h) : BoundIn { b with program } r := by
  rintro h (hprogram | harray | hbuffer)
  · exact hnew h hprogram
  · exact hb h (.inr (.inl harray))
  · exact hb h (.inr (.inr hbuffer))

theorem BoundIn.bindVertexArray (hb : b.BoundIn r) {vertexArray : Option Handle}
    (hnew : ∀ h, vertexArray = some h → r.IsCreated h) : BoundIn { b with vertexArray } r := by
  rintro h (hprogram | harray | hbuffer)
  · exact hb h (.inl hprogram)
  · exact hnew h harray
  · exact hb h (.inr (.inr hbuffer))

theorem BoundIn.bindBuffers (hb : b.BoundIn r) {buffers : Table BufferTarget Handle}
    (hnew : ∀ target h, buffers.get? target = some h →
      b.buffers.get? target = some h ∨ r.IsCreated h) : BoundIn { b with buffers } r := by
  rintro h (hprogram | harray | ⟨target, hbuffer⟩)
  · exact hb h (.inl hprogram)
  · exact hb h (.inr (.inl harray))
  · rcases hnew target h hbuffer with hold | hcreated
    · exact hb h (.inr (.inr ⟨target, hold⟩))
    · exact hcreated

theorem BoundIn.bindBuffer (hb : b.BoundIn r) (target : BufferTarget) {buffer : Option Handle}
    (hnew : ∀ h, buffer = some h → r.IsCreated h) :
    BoundIn { b with buffers := b.buffers.set target buffer } r := by
  refine hb.bindBuffers fun other h hother => ?_
  rw [Table.get?_set] at hother
  split at hother
  · exact .inr (hnew h hother)
  · exact .inl hother

end BindingState

def Operation.created? : Operation → Option Handle
  | create h _ | createUniformBuffer h _ _ => some h
  | _ => none

/-- The resource whose record an operation writes. -/
def Operation.written? (op : Operation) (r : Registry) : Option Handle :=
  match op with
  | create h _ | createUniformBuffer h _ _ | compile h _ | link h _ => some h
  | bufferData _ _ _ shown => shown
  | setPointer _ (some (array, _)) _ =>
      match r.record array with
      | .vertexArray _ => some array
      | _ => none
  | _ => none

/-- The resource in whose record an upload shows. -/
def Operation.shown? : Operation → Option Handle
  | bufferData _ _ _ shown => shown
  | _ => none

namespace Machine

variable {m m' : Machine} {op : Operation}

/-- What the registry is after an operation was carried out. -/
inductive Writes (m : Machine) (op : Operation) (m' : Machine) : Prop where
  | nothing (hwritten : op.written? m.registry = none) (hcreated : op.created? = none)
      (hshown : op.shown? = none) (hregistry : m'.registry = m.registry)
  /-- A new object with its first record. -/
  | creation {h : Handle} {what : NewObject} {record : ResourceRecord}
      (hwritten : op.written? m.registry = some h) (hcreated : op.created? = some h)
      (hshown : op.shown? = none) (hh : m.registry.IsRegistered h)
      (hwhat : record.what? = some what) (hgains : m.context.Gains what m'.context)
      (hregistry : m'.registry = m.registry.write h fun _ => ⟨some m.context.nextId, record⟩)
  /-- Something new about the object that the record was about before. -/
  | revision {h : Handle} {x : Resource} {change : ResourceRecord → ResourceRecord}
      (hwritten : op.written? m.registry = some h) (hcreated : op.created? = none)
      (hshown : op.shown? = none) (hx : m.registry.get h = .ok x) (hset : x.record ≠ .unset)
      (hwhat : (change x.record).what? = x.record.what?)
      (hregistry : m'.registry =
        m.registry.write h fun x => { x with record := change x.record })
  /-- A buffer's record, whatever the record was about before. -/
  | upload {h : Handle} {record : BufferRecord}
      (hwritten : op.written? m.registry = some h) (hcreated : op.created? = none)
      (hshown : op.shown? = some h) (hh : m.registry.IsCreated h)
      (hregistry : m'.registry =
        m.registry.write h fun x => { x with record := .buffer record })

structure CarriesOut (m : Machine) (op : Operation) (m' : Machine) : Prop where
  performed : m.perform op = (.ok (), m')
  grows : m.context.Grows m'.context
  boundIn : m'.bindings.BoundIn m.registry
  writes : m.Writes op m'

theorem Writes.step (hw : m.Writes op m') :
    m.registry.Step (op.written? m.registry) m'.registry := by
  cases hw with
  | nothing hwritten _ _ hregistry =>
      rw [hwritten, hregistry]
      exact .none
  | creation hwritten _ _ hh hwhat _ hregistry =>
      rw [hwritten, hregistry]
      refine .write _ hh fun _ _ hunset => ?_
      cases (ResourceRecord.what?_eq_none_iff.mpr hunset).symm.trans hwhat
  | @revision h x change hwritten _ _ hx hset hwhat hregistry =>
      rw [hwritten, hregistry]
      refine .write _ ⟨x, hx⟩ fun y hy hunset => hset ?_
      cases hx.symm.trans hy
      exact ResourceRecord.what?_eq_none_iff.mp
        (hwhat.symm.trans (ResourceRecord.what?_eq_none_iff.mpr hunset))
  | upload hwritten _ _ hh hregistry =>
      rw [hwritten, hregistry]
      exact .write _ hh.isRegistered fun _ _ hunset => nomatch hunset

theorem Writes.written?_of_created? (hw : m.Writes op m') {h : Handle}
    (hop : op.created? = some h) : op.written? m.registry = some h := by
  cases hw with
  | creation hwritten hcreated =>
      cases hcreated.symm.trans hop
      exact hwritten
  | nothing _ hcreated | revision _ hcreated | upload _ hcreated => cases hcreated.symm.trans hop

/-- Only a creation makes a resource that was not created before. -/
theorem Writes.isCreated_iff (hw : m.Writes op m') (h : Handle) :
    m'.registry.IsCreated h ↔ m.registry.IsCreated h ∨ op.created? = some h := by
  constructor
  · intro hh
    by_cases hwritten : op.written? m.registry = some h
    · cases hw with
      | nothing hnone => cases hnone.symm.trans hwritten
      | creation hother hcreated =>
          cases hother.symm.trans hwritten
          exact .inr hcreated
      | revision hother _ _ hx hset =>
          cases hother.symm.trans hwritten
          exact .inl ⟨_, hx, hset⟩
      | upload hother _ _ hcreated =>
          cases hother.symm.trans hwritten
          exact .inl hcreated
    · refine .inl (Registry.isCreated_iff.mpr ?_)
      rw [← hw.step.record_eq hwritten]
      exact Registry.isCreated_iff.mp hh
  · rintro (hh | hcreated)
    · exact hw.step.isCreated hh
    · have hstep := hw.step
      rw [hw.written?_of_created? hcreated] at hstep
      exact hstep.isCreated_written

theorem isCreated_of_resource {r : Registry} {kind : ResourceKind}
    {resource : Option (Handle × ObjectId)}
    (hop : ∀ h id, resource = some (h, id) → r.object h kind = .ok id) (h : Handle)
    (hh : resource.map (·.1) = some h) : r.IsCreated h := by
  obtain ⟨⟨h', id⟩, hresource, rfl⟩ := Option.map_eq_some_iff.mp hh
  exact Registry.isCreated_of_object (hop _ _ hresource)

theorem asking_of_run {α : Type} {conversation : Asking α} {answer : α} {context : Context}
    (hrun : conversation.run m.context = (answer, context)) :
    m.asking conversation = (answer, { m with context }) := by
  simp only [asking, hrun]

theorem settle_changeRecord {h : Handle} (hh : m.registry.IsRegistered h) (context : Context)
    (change : ResourceRecord → ResourceRecord) :
    settle { m with context } (m.registry.changeRecord h change) = (.ok (), { m with
      context
      registry := m.registry.write h fun x => { x with record := change x.record } }) := by
  rw [Registry.changeRecord_of_isRegistered hh]
  rfl

theorem perform_bufferData {h : Handle} (hh : m.registry.IsRegistered h) {target : BufferTarget}
    {contents : StoreContents} {usage : UInt32} {size : StoreSize} {context : Context}
    (hrun : (Asking.fill target.code usage contents).run m.context = (size, context)) :
    m.perform (.bufferData target contents usage (some h)) = (.ok (), { m with
      context
      registry := m.registry.write h fun x =>
        { x with record := .buffer { size := some size, target := some target } } }) := by
  simp only [perform, asking_of_run hrun, Registry.setRecord]
  exact settle_changeRecord hh context _

theorem perform_create {h : Handle} (hh : m.registry.IsRegistered h) (what : NewObject) :
    m.perform (.create h what) = (.ok (), { m with
      context := ((Asking.make what).run m.context).2
      registry := m.registry.write h fun _ => ⟨some m.context.nextId, what.record⟩ }) := by
  obtain ⟨hid, -⟩ := Asking.make_run what m.context
  generalize hrun : (Asking.make what).run m.context = answered at hid
  obtain ⟨made, context⟩ := answered
  cases hid
  simp only [perform, asking_of_run hrun, place, Registry.create_of_isRegistered hh, settle]

theorem perform_compile (h : Handle) {shader : ObjectId} {message : String} {context : Context}
    (hrun : (Asking.compile shader).run m.context = (message, context)) :
    m.perform (.compile h shader) = settle { m with context }
      (m.registry.changeRecord h (ResourceRecord.logged message)) := by
  rw [perform, asking_of_run hrun]
  rfl

/-- Linking leaves the registry, so the program's record is found again. -/
theorem perform_link {h : Handle} {program : ObjectId} {before after : ProgramRecord}
    {context context' : Context} (hrecord : m.registry.record h = .program before)
    (hlink : ((Asking.link program).run m.context).2 = context)
    (hlinked : (Asking.linked program before).run context = (after, context')) :
    m.perform (.link h program) = settle { m with context := context' }
      (m.registry.changeRecord h fun _ => .program after) := by
  have hrun : (Asking.link program).run m.context = ((), context) := Prod.ext rfl hlink
  have hbefore : (surroundings { m with context } []).programRecord h = .ok before :=
    Surroundings.programRecord_eq_ok_iff.mpr hrecord
  have hasked : asking { m with context } (Asking.linked program before) =
      (after, { m with context := context' }) := asking_of_run hlinked
  simp only [perform, asking_of_run hrun, hbefore, hasked, Registry.setRecord]

theorem perform_link_of_ne {h : Handle} {program : ObjectId}
    (hrecord : ∀ before, m.registry.record h ≠ .program before) :
    (m.perform (.link h program)).2 =
      { m with context := ((Asking.link program).run m.context).2 } := by
  generalize hrun : (Asking.link program).run m.context = answered
  obtain ⟨⟨⟩, context⟩ := answered
  simp only [perform, asking_of_run hrun]
  cases hbefore : (surroundings { m with context } []).programRecord h with
  | error e => rfl
  | ok before => exact absurd (Surroundings.programRecord_eq_ok_iff.mp hbefore) (hrecord before)

/-- A buffer for a block is a new object, recorded with the block. The uniform target is free
afterwards. -/
theorem perform_createUniformBuffer {h : Handle} (hh : m.registry.IsRegistered h)
    (block : BlockRecord) (usage : UInt32) :
    m.perform (.createUniformBuffer h block usage) = (.ok (), {
      context := ((Asking.makeBlockBuffer block usage).run m.context).2
      registry := m.registry.write h fun _ => ⟨some m.context.nextId,
        .buffer ⟨some (.bytes block.size.toInt), some .uniform, some block⟩⟩
      bindings := { m.bindings with buffers := m.bindings.buffers.erase .uniform } }) := by
  obtain ⟨hid, -⟩ := Asking.makeBlockBuffer_run block usage m.context
  generalize hrun : (Asking.makeBlockBuffer block usage).run m.context = answered at hid
  obtain ⟨made, context⟩ := answered
  cases hid
  simp only [perform, asking_of_run hrun, place, Option.isSome_some, if_true,
    Registry.create_of_isRegistered hh, settle]

section Carried

variable {payloads : List (List UInt8)} (hbound : m.bindings.BoundIn m.registry)
include hbound

theorem issue_carriesOut (call : Call) : m.CarriesOut (.issue call) (m.issue call) :=
  ⟨rfl, m.context.issue_grows call, hbound, .nothing rfl rfl rfl rfl⟩

theorem carriesOut_of_revision {context : Context} {h : Handle} {x : Resource}
    {change : ResourceRecord → ResourceRecord}
    (hperform : m.perform op = settle { m with context } (m.registry.changeRecord h change))
    (hgrows : m.context.Grows context) (hwritten : op.written? m.registry = some h)
    (hcreated : op.created? = none) (hshown : op.shown? = none)
    (hx : m.registry.get h = .ok x) (hset : x.record ≠ .unset)
    (hwhat : (change x.record).what? = x.record.what?) : ∃ m', m.CarriesOut op m' :=
  ⟨_, hperform.trans (settle_changeRecord ⟨x, hx⟩ context change), hgrows, hbound,
    .revision hwritten hcreated hshown hx hset hwhat rfl⟩

theorem create_carriesOut {h : Handle} (hh : m.registry.IsRegistered h) (what : NewObject) :
    ∃ m', m.CarriesOut (.create h what) m' := by
  obtain ⟨-, hmakes⟩ := Asking.make_run what m.context
  exact ⟨_, perform_create hh what, hmakes.grows, hbound,
    .creation rfl rfl rfl hh what.what?_record hmakes.gains rfl⟩

theorem compile_carriesOut {h : Handle} {shader : ObjectId}
    (hid : m.registry.object h .shader = .ok shader) :
    ∃ m', m.CarriesOut (.compile h shader) m' := by
  obtain ⟨x, hx, hset⟩ := Registry.isCreated_of_object hid
  have hgrows := (Asking.compile shader).kept keptByCalls_grows m.context
  generalize hrun : (Asking.compile shader).run m.context = answered at hgrows
  obtain ⟨message, context⟩ := answered
  exact carriesOut_of_revision hbound (perform_compile h hrun) hgrows rfl rfl rfl hx hset
    (ResourceRecord.what?_logged message x.record)

theorem link_carriesOut {h : Handle} {program : ObjectId}
    (hid : m.registry.object h .program = .ok program) :
    ∃ m', m.CarriesOut (.link h program) m' := by
  obtain ⟨⟨object, record⟩, hx, hkind, -⟩ := Registry.object_eq_ok_iff.mp hid
  cases record with
  | program before =>
      have hgrows := (Asking.link program).kept keptByCalls_grows m.context
      generalize hlink : ((Asking.link program).run m.context).2 = context at hgrows
      have hgrows' := (Asking.linked program before).kept keptByCalls_grows context
      generalize hlinked : (Asking.linked program before).run context = answered at hgrows'
      obtain ⟨after, context'⟩ := answered
      exact carriesOut_of_revision hbound
        (perform_link (Registry.record_of_get hx) hlink hlinked) (hgrows.trans hgrows')
        rfl rfl rfl hx (nomatch ·) rfl
  | unset | buffer _ | shader _ _ | vertexArray _ | texture | framebuffer => cases hkind

theorem useProgram_carriesOut {program : Option (Handle × ObjectId)}
    (hop : ∀ h id, program = some (h, id) → m.registry.object h .program = .ok id) :
    ∃ m', m.CarriesOut (.useProgram program) m' :=
  ⟨_, rfl, m.context.issue_grows _, hbound.bindProgram (isCreated_of_resource hop),
    .nothing rfl rfl rfl rfl⟩

theorem bindVertexArray_carriesOut {array : Option (Handle × ObjectId)}
    (hop : ∀ h id, array = some (h, id) → m.registry.object h .vertexArray = .ok id) :
    ∃ m', m.CarriesOut (.bindVertexArray array) m' :=
  ⟨_, rfl, m.context.issue_grows _, hbound.bindVertexArray (isCreated_of_resource hop),
    .nothing rfl rfl rfl rfl⟩

theorem bindBuffer_carriesOut (target : BufferTarget) {buffer : Option (Handle × ObjectId)}
    (hop : ∀ h id, buffer = some (h, id) → m.registry.object h .buffer = .ok id) :
    ∃ m', m.CarriesOut (.bindBuffer target buffer) m' :=
  ⟨_, rfl, m.context.issue_grows _, hbound.bindBuffer target (isCreated_of_resource hop),
    .nothing rfl rfl rfl rfl⟩

theorem bufferData_carriesOut {target : BufferTarget} (contents : StoreContents) (usage : UInt32)
    {shown : Option Handle}
    (hshown : ∀ h, shown = some h → m.bindings.buffers.get? target = some h) :
    ∃ m', m.CarriesOut (.bufferData target contents usage shown) m' := by
  have hgrows := (Asking.fill target.code usage contents).kept keptByCalls_grows m.context
  generalize hrun : (Asking.fill target.code usage contents).run m.context = answered at hgrows
  obtain ⟨size, context⟩ := answered
  cases shown with
  | none =>
      have hperform : m.perform (.bufferData target contents usage none) =
          (.ok (), { m with context }) := by
        simp only [perform, asking_of_run hrun]
      exact ⟨_, hperform, hgrows, hbound, .nothing rfl rfl rfl rfl⟩
  | some h =>
      have hh : m.registry.IsCreated h := hbound h (.inr (.inr ⟨target, hshown h rfl⟩))
      exact ⟨_, perform_bufferData hh.isRegistered hrun, hgrows, hbound,
        .upload rfl rfl rfl hh rfl⟩

theorem createUniformBuffer_carriesOut {h : Handle} (hh : m.registry.IsRegistered h)
    (block : BlockRecord) (usage : UInt32) :
    ∃ m', m.CarriesOut (.createUniformBuffer h block usage) m' := by
  obtain ⟨-, hgains⟩ := Asking.makeBlockBuffer_run block usage m.context
  have hfree : BindingState.BoundIn
      { m.bindings with buffers := m.bindings.buffers.erase .uniform } m.registry :=
    hbound.bindBuffer .uniform (nofun : ∀ h, none = some h → m.registry.IsCreated h)
  exact ⟨_, perform_createUniformBuffer hh block usage, hgains.grows, hfree,
    .creation rfl rfl rfl hh rfl hgains rfl⟩

theorem setPointer_carriesOut (call : Call) {place : Option (Handle × Handle)}
    (pointer : PointerRecord)
    (hplace : ∀ array buffer, place = some (array, buffer) →
      m.bindings.vertexArray = some array) :
    ∃ m', m.CarriesOut (.setPointer call place pointer) m' := by
  have hgrows := m.context.issue_grows call
  cases place with
  | none => exact ⟨_, rfl, hgrows, hbound, .nothing rfl rfl rfl rfl⟩
  | some place =>
      obtain ⟨array, buffer⟩ := place
      obtain ⟨x, hx, hset⟩ := hbound array (.inr (.inl (hplace array buffer rfl)))
      have hperform : m.perform (.setPointer call (some (array, buffer)) pointer) =
          (m.issue call).settle (m.registry.addPointer array buffer pointer) := rfl
      obtain ⟨object, record⟩ := x
      have hrecord := Registry.record_of_get hx
      cases record with
      | vertexArray v =>
          rw [Registry.addPointer_vertexArray hx rfl] at hperform
          exact carriesOut_of_revision hbound hperform hgrows
            (by simp only [Operation.written?, hrecord]) rfl rfl hx hset rfl
      | unset | buffer _ | shader _ _ | program _ | texture | framebuffer =>
          rw [Registry.addPointer_of_ne hx nofun] at hperform
          exact ⟨_, hperform, hgrows, hbound,
            .nothing (by simp only [Operation.written?, hrecord]) rfl rfl rfl⟩

/-- Carrying out a resolved operation does not fail. -/
theorem exists_carriesOut (hop : op.Resolved (m.surroundings payloads)) :
    ∃ m', m.CarriesOut op m' := by
  cases op with
  | nothing => exact ⟨m, rfl, .refl _, hbound, .nothing rfl rfl rfl rfl⟩
  | issue call => exact ⟨_, issue_carriesOut hbound call⟩
  | create h what => exact create_carriesOut hbound hop what
  | compile h shader => exact compile_carriesOut hbound hop
  | link h program => exact link_carriesOut hbound hop
  | useProgram program => exact useProgram_carriesOut hbound hop
  | bindVertexArray array => exact bindVertexArray_carriesOut hbound hop
  | bindBuffer target buffer => exact bindBuffer_carriesOut hbound target hop
  | bufferData target contents usage shown =>
      exact bufferData_carriesOut hbound contents usage hop
  | createUniformBuffer h block usage =>
      exact createUniformBuffer_carriesOut hbound hop block usage
  | setPointer call place pointer => exact setPointer_carriesOut hbound call pointer hop.2

end Carried

end Machine

end GlPlayback
