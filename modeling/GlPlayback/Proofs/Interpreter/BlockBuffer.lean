import GlPlayback.Proofs.Gl.Unbound
import GlPlayback.Proofs.Interpreter.MemberWrite

/-!
A buffer that is made for a block of a linked program. Bound to the uniform target, it takes writes
to the members of the block by their names, as long as the layout of the block fits 32-bit words.
-/
namespace GlPlayback

/-- A new buffer for a block has as many zeros as the block is large. -/
theorem Asking.makeBlockBuffer_store (block : BlockRecord) (usage : UInt32) (ctx : Context) :
    ((makeBlockBuffer block usage).run ctx).2.store? ctx.nextId =
      some (List.replicate block.size.toNatClampNeg 0) := by
  let made := ctx.issue .createBuffer
  let bound := made.issue (.bindBuffer Enumerant.uniformBuffer (some ctx.nextId))
  have hrun : ((makeBlockBuffer block usage).run ctx).2 =
      (bound.issue (.bufferDataSize Enumerant.uniformBuffer block.size.toNatClampNeg usage)).issue
        (.bindBuffer Enumerant.uniformBuffer none) := rfl
  have hmade : made.objects.buffers.get? ctx.nextId = some {} :=
    (Table.get?_insert _ _ _ _).trans (if_pos rfl)
  have hbound : bound.boundBuffer? Enumerant.uniformBuffer = some ctx.nextId := by
    refine Context.exec_bindBuffer BufferTarget.uniform.contains_code fun id hid => ?_
    cases hid
    exact Option.isSome_of_eq_some hmade
  have hhas : bound.objects.Has .buffer ctx.nextId := by
    have hempty : made.store? ctx.nextId = some [] := by
      rw [Context.store?, hmade]
      rfl
    have hstore : bound.store? ctx.nextId = some [] :=
      (congrFun (made.exec_bindBuffer_store _ _) ctx.nextId).trans hempty
    obtain ⟨b, hb, -⟩ := Option.map_eq_some_iff.mp hstore
    exact Option.isSome_of_eq_some hb
  have hsize : block.size.toNatClampNeg < 0x8000000000000000 := by
    have hlt := block.size.toInt_lt
    rw [Int32.toNatClampNeg]
    omega
  rw [hrun, Context.issue, Context.exec_bindBuffer_store]
  exact Context.exec_bufferDataSize_store usage BufferTarget.uniform.contains_code hbound hhas hsize

namespace Machine

variable {m m₁ m₂ : Machine} {h hp : Handle} {raw rawp : Int} {checks : Bool}
  {payloads payloads' : List (List UInt8)} {ref ref' : Option PayloadRef}

theorem resolve_createUniformBuffer (s : Surroundings) (raw rawp : Int) (name usage : String)
    (ref : Option PayloadRef) :
    Yields (fun op => ∃ h hp record block code, s.registry.handle raw = .ok h ∧
        s.registry.handle rawp = .ok hp ∧ s.registry.record hp = .program record ∧
        record.block? name = some block ∧ op = .createUniformBuffer h block code)
      (fun _ => True) (Operation.resolve s ⟨.createUniformBuffer raw rawp name usage, ref⟩) := by
  have hrecord (hp : Handle) : Yields (fun record => s.registry.record hp = .program record)
      (fun _ => True) (s.programRecord hp) :=
    Yields.of_forall _ (fun _ h => Surroundings.programRecord_eq_ok_iff.mp h) fun _ _ => trivial
  refine (handle_registered s raw).bind fun h hh => ?_
  refine (resource_registered s rawp .program).bind fun x hx => ?_
  refine (hrecord x.1).bind fun record hprogram => ?_
  split
  · trivial
  · next block hblock =>
      exact (Yields.any _).bind fun code _ =>
        ⟨h, x.1, record, block, code, hh, hx.1, hprogram, hblock, rfl⟩

/-- What a buffer that is made for a block leaves behind. -/
theorem perform_createUniformBuffer_leaves (hh : m.registry.handle raw = .ok h)
    (block : BlockRecord) (usage : UInt32) {made : Machine}
    (hperform : m.perform (.createUniformBuffer h block usage) = (.ok (), made)) :
    ∃ own record, made.registry.get h = .ok ⟨some own, .buffer record⟩ ∧
      record.block = some block ∧ made.registry.handle raw = .ok h ∧
      made.context.store? own = some (List.replicate block.size.toNatClampNeg 0) := by
  obtain ⟨x, hx⟩ := Registry.isRegistered_of_handle hh
  have hstore := Asking.makeBlockBuffer_store block usage m.context
  rw [perform_createUniformBuffer ⟨x, hx⟩] at hperform
  generalize ((Asking.makeBlockBuffer block usage).run m.context).2 = context at hperform hstore
  cases hperform
  refine ⟨m.context.nextId, ⟨some (.bytes block.size.toInt), some .uniform, some block⟩, ?_, rfl,
    ?_, hstore⟩
  · rw [Registry.get_write_self, hx]
    rfl
  · rw [Registry.handle_write, hh]

/-- A buffer that is made for a block of a linked program is made for the block that was declared
under that name. -/
theorem createUniformBuffer_leaves {id : ObjectId} {p : ProgramObject} {index : Nat}
    {b : UniformBlock} {name usage : String} (hm : m.KnowsBlocks) (hjoined : m.context.Joined)
    (hid : m.registry.handle rawp = .ok hp) (hobject : m.registry.object hp .program = .ok id)
    (hp' : m.context.objects.programs.get? id = some p) (hlinked : p.linked = true)
    (hcounted : p.IsCounted) (hb : p.Declares index b) (hh : m.registry.handle raw = .ok h)
    (hname : name = b.name)
    (hcreate : m.executeCommand checks payloads ⟨.createUniformBuffer raw rawp name usage, ref⟩ =
      (.ok (), m₁)) :
    ∃ own record block, m₁.registry.get h = .ok ⟨some own, .buffer record⟩ ∧
      record.block = some block ∧ block.members = b.members.map b.memberRecord ∧
      m₁.registry.handle raw = .ok h ∧
      m₁.context.store? own = some (List.replicate b.dataSize.toInt32.toNatClampNeg 0) := by
  obtain ⟨op, made, hresolve, hperform, rfl, -⟩ := performed_of_ok hcreate
  obtain ⟨h', hp₁, known, block, code, hh', hid', hrecord, hblock, rfl⟩ :=
    (resolve_createUniformBuffer _ raw rawp name usage ref).value hresolve
  cases hh.symm.trans hh'
  cases hid.symm.trans hid'
  obtain ⟨⟨object, record'⟩, hx, -, hsome⟩ := Registry.object_eq_ok_iff.mp hobject
  cases hsome
  cases (Registry.record_of_get hx).symm.trans hrecord
  have hknown : known.blocks = p.blockRecords := by
    have hasLinked : m.context.linked? id = some p.asLinked := by
      rw [Context.linked?, hp']
      rfl
    rw [hm hp id known p.asLinked hx hasLinked hlinked
      (ProgramObject.isCounted_asLinked.mpr hcounted), ProgramObject.blockRecords_asLinked]
  have hfound : block.name = b.name := by
    rw [← hname]
    simpa using List.find?_some hblock
  have hmem : block ∈ p.blockRecords := hknown ▸ List.mem_of_find?_eq_some hblock
  have heq := hb.of_mem_blockRecords (hjoined.programs id p hp') hcounted hmem hfound
  obtain ⟨own, record, hget, hrecordBlock, hhandle, hstore⟩ :=
    perform_createUniformBuffer_leaves hh block code hperform
  refine ⟨own, record, block, ?_, hrecordBlock, by rw [heq], ?_, ?_⟩
  · rw [readAway_registry]
    exact hget
  · rw [readAway_registry]
    exact hhandle
  · rw [(readAway_quiet checks made).store?_eq, hstore, heq]

/-- What a buffer's handle is resolved into, wherever the buffer is to be bound. -/
theorem resolve_bindBuffer {s : Surroundings} {word : String} {target : BufferTarget}
    {own : ObjectId} (hword : BufferTarget.ofToken? word = some target)
    (hh : s.registry.handle raw = .ok h) (hown : s.registry.object h .buffer = .ok own) :
    Operation.resolve s ⟨.bindBuffer word raw, ref⟩ = .ok (.bindBuffer target (some (h, own))) := by
  have htarget : Operation.bufferTarget word = .ok target := by
    simp only [Operation.bufferTarget, hword]
  have hnonneg : ¬ raw < 0 := by
    intro hneg
    rw [Registry.handle, if_neg (by omega)] at hh
    cases hh
  have hhandle : s.optionalHandle raw = .ok (some h) := by
    simp only [Surroundings.optionalHandle, Registry.optionalHandle, if_neg hnonneg, hh]
    rfl
  have hobject : s.object h .buffer = .ok own :=
    congrArg (Except.mapError CommandError.registry) hown
  simp only [Operation.resolve, htarget, Surroundings.optionalResource, hhandle, hobject, bind,
    Except.bind]
  rfl

/-- A buffer whose resource was made for a block serves it once it is bound. -/
theorem serves_of_bindBuffer {own : ObjectId} {b : UniformBlock} {data : List UInt8}
    {word : String} {record : BufferRecord} {block : BlockRecord}
    (hget : m.registry.get h = .ok ⟨some own, .buffer record⟩) (hblock : record.block = some block)
    (hmembers : block.members = b.members.map b.memberRecord)
    (hstore : m.context.store? own = some data)
    (hword : BufferTarget.ofToken? word = some .uniform) (hh : m.registry.handle raw = .ok h)
    (hbind : m.executeCommand checks payloads ⟨.bindBuffer word raw, ref⟩ = (.ok (), m₁)) :
    m₁.Serves h own b data ∧ (checks = true → m₁.context.error = none) := by
  obtain ⟨op, made, hresolve, hperform, rfl, hclear⟩ := performed_of_ok hbind
  have hown : m.registry.object h .buffer = .ok own :=
    Registry.object_eq_ok_iff.mpr ⟨_, hget, rfl, rfl⟩
  cases (resolve_bindBuffer hword hh hown).symm.trans hresolve
  refine ⟨(readAway_quiet checks made).serves ?_, hclear⟩
  have hhas : m.context.objects.Has .buffer own := by
    obtain ⟨buffer, hbuffer, -⟩ := Option.map_eq_some_iff.mp hstore
    exact Option.isSome_of_eq_some hbuffer
  cases hperform
  refine ⟨?_, ⟨record, block, hget, hblock, hmembers⟩, ?_, ?_⟩
  · rw [Table.get?_set, if_pos rfl]
    rfl
  · refine Context.exec_bindBuffer BufferTarget.uniform.contains_code fun id hid => ?_
    cases hid
    exact hhas
  · exact (congrFun (m.context.exec_bindBuffer_store _ _) own).trans hstore

/-- The data store of the buffer behind a resource. -/
def storeOf? (m : Machine) (h : Handle) : Option (List UInt8) :=
  (m.registry.objectOf? h).bind m.context.store?

theorem Serves.storeOf?_eq {own : ObjectId} {b : UniformBlock} {data : List UInt8}
    (hm : m.Serves h own b data) : m.storeOf? h = some data := by
  obtain ⟨record, block, hget, -⟩ := hm.resource
  rw [storeOf?, Registry.objectOf?_of_get hget]
  exact hm.store

/-- A write succeeds and raises no error. In the store behind a resource it changes exactly the
bytes from `offset` on that it has bytes for. -/
structure Lands (m : Machine) (checks : Bool) (h : Handle) (offset : Nat) (w : MemberWrite)
    (m' : Machine) : Prop where
  ok : m.executeCommand checks w.payloads w.command = (.ok (), m')
  error_eq : m'.context.error = m.context.error
  store : ∃ data data', m.storeOf? h = some data ∧ m'.storeOf? h = some data' ∧
    ∀ k, data'[k]? = if offset ≤ k ∧ k < offset + w.bytes.length then w.bytes[k - offset]?
      else data[k]?

end Machine

end GlPlayback
