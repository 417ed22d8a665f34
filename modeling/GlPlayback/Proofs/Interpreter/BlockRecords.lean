import GlPlayback.Proofs.Interpreter.Introspection
import GlPlayback.Proofs.Interpreter.Lasting

/-!
The record of a program, all along a history. As long as only commands link programs, the record of
a linked program tells of what the context has of it, also where the bindings of its blocks were
changed since the link. So the block that is found under a name has the members that were declared
under it, and they lie where the layout puts them.
-/
namespace GlPlayback

/-- The record of a member of a block. -/
def UniformBlock.memberRecord (b : UniformBlock) (m : BlockMember) : MemberRecord :=
  ⟨b.memberName m, m.decl.type.label, m.decl.size, m.offset.toInt32⟩

/-- A block of a program was declared like this. -/
structure ProgramObject.Declares (p : ProgramObject) (index : Nat) (b : UniformBlock) : Prop where
  laid : b.IsLaid
  block : p.blocks[index]?.map LinkedBlock.unbound = some (Linking.linkedBlock b)
  members : p.membersOf index = b.members.map b.memberRecord

namespace ProgramObject

variable {p : ProgramObject} {index : Nat} {b : UniformBlock}

theorem IsJoined.exists_declares (hjoined : p.IsJoined) (hindex : index < p.blocks.length) :
    ∃ b, p.Declares index b := by
  obtain ⟨location, loose, blocks, h⟩ := hjoined
  rw [h.length_blocks] at hindex
  have hb : blocks[index]? = some blocks[index] := List.getElem?_eq_getElem hindex
  refine ⟨blocks[index], h.laid _ (List.getElem_mem hindex), ?_, ?_⟩
  · rw [← List.getElem?_map, h.blocks, List.getElem?_map, hb]
    rfl
  · rw [h.membersOf hb, Linking.blockUniforms, List.map_map]
    rfl

/-- No two blocks of a program have the same name. -/
theorem IsJoined.index_of_name (hjoined : p.IsJoined) {i j : Nat} {block other : LinkedBlock}
    (hblock : p.blocks[i]? = some block) (hother : p.blocks[j]? = some other)
    (hname : block.name = other.name) : i = j := by
  obtain ⟨location, loose, blocks, h⟩ := hjoined
  have hapart : p.blocks.Pairwise fun a b => a.name ≠ b.name := by
    have hlinked : (blocks.map Linking.linkedBlock).Pairwise fun a b => a.name ≠ b.name :=
      List.pairwise_map.mpr h.apart
    rw [← h.blocks, List.pairwise_map] at hlinked
    exact hlinked
  obtain ⟨hi, rfl⟩ := List.getElem?_eq_some_iff.mp hblock
  obtain ⟨hj, rfl⟩ := List.getElem?_eq_some_iff.mp hother
  rw [List.pairwise_iff_getElem] at hapart
  rcases Nat.lt_trichotomy i j with hlt | heq | hlt
  · exact absurd hname (hapart i j hi hj hlt)
  · exact heq
  · exact absurd hname.symm (hapart j i hj hi hlt)

/-- As many uniforms and blocks as the questions about them can be answered for. -/
structure IsCounted (p : ProgramObject) : Prop where
  uniforms : p.uniforms.length < 0x80000000
  blocks : p.blocks.length < 0x80000000

theorem isCounted_asLinked : p.asLinked.IsCounted ↔ p.IsCounted := by
  have hlength : p.asLinked.blocks.length = p.blocks.length := List.length_map _
  constructor
  · intro h
    exact ⟨h.uniforms, hlength ▸ h.blocks⟩
  · intro h
    exact ⟨h.uniforms, hlength.symm ▸ h.blocks⟩

theorem blockRecord_asLinked (index : UInt32) (members : List MemberRecord) :
    p.asLinked.blockRecord index members = p.blockRecord index members := by
  have hblock : p.asLinked.blocks[index.toNat]? = p.blocks[index.toNat]?.map LinkedBlock.unbound :=
    List.getElem?_map
  simp only [blockRecord, hblock, Option.map_map]
  rfl

/-- What is known of the blocks does not depend on their bindings. -/
theorem blockRecords_asLinked : p.asLinked.blockRecords = p.blockRecords := by
  have hfilled (index : Nat) (members : List MemberRecord) :
      p.asLinked.filled index members = p.filled index members := by
    simp only [filled, blockRecord_asLinked]
  have hmembers (index : Nat) : p.asLinked.membersOf index = p.membersOf index := rfl
  have hlength : p.asLinked.blocks.length = p.blocks.length := List.length_map _
  simp only [blockRecords_eq, hlength, hfilled, hmembers]

/-- The index of a block is the same as a 32-bit number. -/
theorem IsCounted.toNat_index (hcounted : p.IsCounted) {i : Nat} {block : LinkedBlock}
    (hi : p.blocks[i]? = some block) : (UInt32.ofNat i).toNat = i := by
  obtain ⟨hlt, -⟩ := List.getElem?_eq_some_iff.mp hi
  exact UInt32.toNat_ofNat_of_lt' (Nat.lt_trans (Nat.lt_trans hlt hcounted.blocks) (by decide))

theorem exists_of_mem_blockRecords (hcounted : p.IsCounted) {record : BlockRecord}
    (hrecord : record ∈ p.blockRecords) :
    ∃ i block, p.blocks[i]? = some block ∧
      record = ⟨UInt32.ofNat i, block.name, block.dataSize.toInt32, p.membersOf i⟩ := by
  obtain ⟨⟨block, i⟩, hblock, hfilled⟩ := List.mem_flatMap.mp hrecord
  have hi : p.blocks[i]? = some block := List.mem_zipIdx_iff_getElem?.mp hblock
  refine ⟨i, block, hi, ?_⟩
  rw [filled] at hfilled
  split at hfilled
  · cases hfilled
  · rw [List.mem_singleton.mp hfilled, blockRecord, hcounted.toNat_index hi, hi]
    rfl

/-- The block that is recorded under the name of a declared one is that block. -/
theorem Declares.of_mem_blockRecords (h : p.Declares index b) (hjoined : p.IsJoined)
    (hcounted : p.IsCounted) {record : BlockRecord} (hrecord : record ∈ p.blockRecords)
    (hname : record.name = b.name) :
    record = ⟨UInt32.ofNat index, b.name, b.dataSize.toInt32, b.members.map b.memberRecord⟩ := by
  obtain ⟨j, other, hj, heq⟩ := exists_of_mem_blockRecords hcounted hrecord
  obtain ⟨block, hblock, hunbound⟩ := Option.map_eq_some_iff.mp h.block
  have hblockName : block.name = b.name := congrArg LinkedBlock.name hunbound
  have hblockSize : block.dataSize = b.dataSize := congrArg LinkedBlock.dataSize hunbound
  have hotherName : other.name = b.name := by
    rw [← hname, heq]
  cases hjoined.index_of_name hj hblock (hotherName.trans hblockName.symm)
  cases hj.symm.trans hblock
  rw [heq, hblockName, hblockSize, h.members]

end ProgramObject

/-- The record of a program tells of what the program has, as far as the answers can be counted. -/
structure ProgramRecord.Reports (record : ProgramRecord) (p : ProgramObject) : Prop where
  uniforms : p.IsCounted → record.uniforms = p.looseRecords
  blocks : p.IsCounted → record.blocks = p.blockRecords
  attributes : p.attributes.length < 0x80000000 →
    record.attributes = p.attributes.map p.attributeRecord

/-- What is told of a program does not depend on what may change after its link. -/
theorem ProgramRecord.reports_asLinked {record : ProgramRecord} {p : ProgramObject} :
    record.Reports p.asLinked ↔ record.Reports p := by
  constructor
  · intro h
    exact ⟨fun hcounted => h.uniforms (ProgramObject.isCounted_asLinked.mpr hcounted),
      fun hcounted => (h.blocks (ProgramObject.isCounted_asLinked.mpr hcounted)).trans
        p.blockRecords_asLinked, h.attributes⟩
  · intro h
    exact ⟨fun hcounted => h.uniforms (ProgramObject.isCounted_asLinked.mp hcounted),
      fun hcounted => (h.blocks (ProgramObject.isCounted_asLinked.mp hcounted)).trans
        p.blockRecords_asLinked.symm, h.attributes⟩

namespace Context

variable {ctx : Context} {id : ObjectId} {p : ProgramObject}

/-- A program that is linked was linked so before every call that does not link it. -/
theorem exec_linked {call : Call} (hcall : call ≠ .linkProgram id)
    (hp : (ctx.exec call).2.linked? id = some p) (hlinked : p.linked = true) :
    ctx.linked? id = some p := by
  rcases exec_linked?_some hp with hold | rfl | ⟨-, -, hlink, -⟩
  · exact hold
  · cases hlinked
  · exact absurd hlink hcall

theorem issueAll_linked {calls : List Call} (hcalls : ∀ call ∈ calls, call ≠ .linkProgram id)
    (hp : (ctx.issueAll calls).linked? id = some p) (hlinked : p.linked = true) :
    ctx.linked? id = some p := by
  induction calls generalizing ctx with
  | nil => exact hp
  | cons call rest ih =>
      obtain ⟨hcall, hrest⟩ := List.forall_mem_cons.mp hcalls
      have hp' : (ctx.issue call).linked? id = some p := ih hrest hp
      exact exec_linked hcall hp' hlinked

end Context

namespace Asking

variable {program : ObjectId} {p : ProgramObject} {ctx : Context}

theorem listing_run (program : ObjectId) (ctx : Context) :
    ((listing program).run ctx).1 = {
      message := some "linked"
      uniforms := ((uniforms program).run ctx).1.loose
      blocks := ((uniforms program).run ctx).1.blocks
      attributes := ((attributes program).run ((uniforms program).run ctx).2).1 } := by
  rw [listing, run_bind, run_bind]
  rfl

/-- After a link that succeeded, the record tells of what the program has. -/
theorem linked_reports (record : ProgramRecord) (hhas : ctx.objects.Has .program program)
    (hp : ((linked program record).run ctx).2.objects.programs.get? program = some p)
    (hlinked : p.linked = true) (hjoined : p.IsJoined) :
    ((linked program record).run ctx).1.Reports p := by
  obtain ⟨ctx', -, hp', hrun⟩ := linked_listing record hhas hp hlinked
  obtain ⟨location, loose, blocks, hjoins⟩ := hjoined
  have hasked (hcounted : p.IsCounted) :
      ((uniforms program).run ctx').1 = ⟨p.looseRecords, p.blockRecords⟩ :=
    (tells_all_uniforms program hjoins hcounted.uniforms hcounted.blocks ctx' hp').1
  have hp'' : ((uniforms program).run ctx').2.objects.programs.get? program = some p := by
    rw [programs_kept (only_uniforms program)]
    exact hp'
  rw [hrun, listing_run]
  refine ⟨fun hcounted => ?_, fun hcounted => ?_, fun hcount => ?_⟩
  · rw [hasked hcounted]
  · rw [hasked hcounted]
  · rw [(tells_attributes hcount _ hp'').1]

end Asking

namespace Operation

variable {s : Surroundings} {op : Operation} {r : Registry} {id : ObjectId}

/-- Only a link puts a link to the context, and it is that of its own program. -/
theorem Resolved.link_of_mem_calls (hop : op.Resolved s) {ctx : Context}
    (hcall : .linkProgram id ∈ op.calls r ctx) : ∃ h, op = .link h id := by
  have hframe (hpart : .programObjects ∉ op.touches) : ∃ h, op = .link h id :=
    absurd (op.touches_of_mem_calls hcall (by simp [Call.touches])) hpart
  cases op with
  | issue call =>
      cases List.mem_singleton.mp hcall
      exact hop.elim
  | setPointer call place pointer =>
      cases List.mem_singleton.mp hcall
      exact hop.1.elim
  | create h what =>
      rw [calls, Asking.calls_make] at hcall
      cases what <;> cases List.mem_singleton.mp hcall
  | link h program =>
      refine ⟨h, congrArg (Operation.link h) ?_⟩
      rcases List.mem_append.mp hcall with hlink | hlinked
      · rcases (Asking.only_link program).mem_calls ctx _ hlink with heq | heq
        · exact (Call.linkProgram.inj heq).symm
        · cases heq
      · split at hlinked
        · next before _ =>
            rcases (Asking.only_linked program before).mem_calls _ _ hlinked with
              hquestion | ⟨block, binding, heq⟩
            · cases hquestion
            · cases heq
        · cases hlinked
  | nothing | compile _ _ | useProgram _ | bindVertexArray _ | bindBuffer _ _
  | bufferData _ _ _ _ | createUniformBuffer _ _ _ => exact hframe (by simp [touches])

/-- Only a link revises the record of a program. -/
theorem Resolved.link_of_written? (hop : op.Resolved s) {h : Handle}
    (hwritten : op.written? s.registry = some h) (hcreated : op.created? = none)
    (hshown : op.shown? = none) (hwhat : (s.registry.record h).what? = some .program) :
    ∃ id, op = .link h id := by
  cases op with
  | link other program =>
      cases Option.some.inj hwritten
      exact ⟨program, rfl⟩
  | compile other shader =>
      cases Option.some.inj hwritten
      have hkind := (Registry.object_eq_ok_iff.mp hop)
      obtain ⟨x, hx, hkind, -⟩ := hkind
      rw [Registry.record_of_get hx] at hwhat
      rw [ResourceRecord.kind?_eq, hwhat] at hkind
      cases hkind
  | setPointer call place pointer =>
      cases place with
      | none => cases hwritten
      | some place =>
          obtain ⟨array, buffer⟩ := place
          simp only [written?] at hwritten
          split at hwritten
          · next v hrecord =>
              cases hwritten
              rw [hrecord] at hwhat
              cases hwhat
          · cases hwritten
  | create _ _ | createUniformBuffer _ _ _ => cases hcreated
  | bufferData _ _ _ shown => cases hshown.symm.trans hwritten
  | nothing | issue _ | useProgram _ | bindVertexArray _ | bindBuffer _ _ => cases hwritten

end Operation

namespace Machine

variable {m m' : Machine} {event : Event}

/-- Somebody other than the commands links a program. -/
def Event.isForeignLink : Event → Bool
  | .call (.linkProgram _) => true
  | _ => false

/-- The record of each linked program tells of what the program has. -/
def KnowsPrograms (m : Machine) : Prop :=
  ∀ h id record p, m.registry.get h = .ok ⟨some id, .program record⟩ →
    m.context.linked? id = some p → p.linked = true → record.Reports p

/-- The record of each linked program tells of the blocks that the program has. -/
def KnowsBlocks (m : Machine) : Prop :=
  ∀ h id record p, m.registry.get h = .ok ⟨some id, .program record⟩ →
    m.context.linked? id = some p → p.linked = true → p.IsCounted →
    record.blocks = p.blockRecords

theorem fresh_knowsPrograms (width height : UInt32) : (fresh width height).KnowsPrograms :=
  fun _ _ _ _ hx => nomatch hx

/-- Registry and context have changed neither a program's record nor what a link left. -/
theorem KnowsPrograms.frame (hm : m.KnowsPrograms)
    (hget : ∀ h id record, m'.registry.get h = .ok ⟨some id, .program record⟩ →
      m.registry.get h = .ok ⟨some id, .program record⟩)
    (hlinked : ∀ id p, m'.context.linked? id = some p → p.linked = true →
      m.context.linked? id = some p) : m'.KnowsPrograms := by
  intro h id record p hx hp hpl
  exact hm h id record p (hget h id record hx) (hlinked id p hp hpl) hpl

/-- What a link leaves in the record is what it leaves in the context. -/
theorem link_reports {h : Handle} {id : ObjectId} {record : ProgramRecord} {p : ProgramObject}
    (hjoined : m.context.Joined) (ha : m.Accounted)
    (hid : m.registry.object h .program = .ok id) (hop : m.CarriesOut (.link h id) m')
    (hrecord : m'.registry.record h = .program record)
    (hp : m'.context.linked? id = some p) (hlinked : p.linked = true) : record.Reports p := by
  obtain ⟨before, m₁, -, hperform, hafter, hcontext⟩ := perform_link_run hid
  cases hop.performed.symm.trans hperform
  obtain ⟨q, hq, rfl⟩ := Option.map_eq_some_iff.mp hp
  have hhas : m.context.objects.Has .program id :=
    ha.has_program hid hop.grows (Option.isSome_of_eq_some hq)
  have hjoined' : m'.context.Joined := by
    rw [hop.context_eq]
    exact keptByCalls_joined.issueAll m.context _ hjoined
  rw [ResourceRecord.program.inj (hrecord.symm.trans hafter), ProgramRecord.reports_asLinked]
  rw [hcontext] at hq
  exact Asking.linked_reports before (Asking.link_updates hhas).has hq hlinked
    (hjoined'.programs id q (hcontext ▸ hq))

theorem CarriesOut.knowsPrograms {op : Operation} {payloads : List (List UInt8)}
    (hop : m.CarriesOut op m') (hresolved : op.Resolved (m.surroundings payloads))
    (hjoined : m.context.Joined) (ha : m.Accounted) (hm : m.KnowsPrograms) : m'.KnowsPrograms := by
  have hcalls (id : ObjectId) (hother : ∀ h, op ≠ .link h id) {p : ProgramObject}
      (hp : m'.context.linked? id = some p) (hlinked : p.linked = true) :
      m.context.linked? id = some p := by
    rw [hop.context_eq] at hp
    refine Context.issueAll_linked (fun call hcall heq => ?_) hp hlinked
    subst heq
    obtain ⟨h, hlink⟩ := hresolved.link_of_mem_calls hcall
    exact hother h hlink
  intro h id record p hx hp hlinked
  by_cases hlink : ∃ h, op = .link h id
  · obtain ⟨own, rfl⟩ := hlink
    have hid : m.registry.object own .program = .ok id := hresolved
    obtain ⟨y, hy, -, hobject⟩ := Registry.object_eq_ok_iff.mp hid
    have hown : h = own := by
      obtain ⟨z, hz, hsame, -⟩ := hop.writes.resource_kept hy (by simp [Operation.created?])
      exact (hop.accounted ha).distinct hx hz rfl (hsame.trans hobject)
    subst hown
    exact link_reports hjoined ha hid hop (Registry.record_of_get hx) hp hlinked
  · have hbefore := hcalls id (fun h heq => hlink ⟨h, heq⟩) hp hlinked
    refine hm h id record p ?_ hbefore hlinked
    cases hop.writes with
    | nothing _ _ _ hregistry => exact hregistry ▸ hx
    | creation _ _ _ _ _ _ hregistry =>
        rw [hregistry] at hx
        rcases Registry.get_write_eq_ok_iff.mp hx with ⟨-, y, -, heq⟩ | ⟨-, hold⟩
        · cases heq
          obtain ⟨q, hq, -⟩ := Option.map_eq_some_iff.mp hbefore
          exact (ha.numbered.nextId_free .program (Option.isSome_of_eq_some hq)).elim
        · exact hold
    | @revision written y change hwritten hcreated hshown hy _ hwhat hregistry =>
        rw [hregistry] at hx
        rcases Registry.get_write_eq_ok_iff.mp hx with ⟨rfl, y', hy', heq⟩ | ⟨-, hold⟩
        · cases hy.symm.trans hy'
          have hprogram : (m.registry.record h).what? = some .program := by
            rw [Registry.record_of_get hy, ← hwhat, ← (Resource.mk.inj heq).2]
            rfl
          obtain ⟨own, rfl⟩ := hresolved.link_of_written? hwritten hcreated hshown hprogram
          have hid : m.registry.object h .program = .ok own := hresolved
          obtain ⟨y', hy', -, hobject⟩ := Registry.object_eq_ok_iff.mp hid
          cases hy.symm.trans hy'
          cases (Resource.mk.inj heq).1.trans hobject
          exact absurd ⟨h, rfl⟩ hlink
        · exact hold
    | upload _ _ _ _ hregistry =>
        rw [hregistry] at hx
        rcases Registry.get_write_eq_ok_iff.mp hx with ⟨-, y, -, heq⟩ | ⟨-, hold⟩
        · cases (Resource.mk.inj heq).2
        · exact hold

/-- A call by which nobody links a program. -/
theorem KnowsPrograms.issue (hm : m.KnowsPrograms) {call : Call}
    (hcall : ∀ program, call ≠ .linkProgram program) : (m.issue call).KnowsPrograms :=
  hm.frame (fun _ _ _ hx => hx) fun id _ hp => Context.exec_linked (hcall id) hp

theorem KnowsPrograms.react (hm : m.KnowsPrograms) (hbound : m.BindsCreated) (ha : m.Accounted)
    (hjoined : m.context.Joined) (hevent : event.isForeignLink = false) :
    (m.react event).KnowsPrograms := by
  cases event with
  | register uid =>
      simp only [Machine.react]
      cases hregister : m.registry.register uid with
      | error e => exact hm
      | ok registered =>
          refine hm.frame (fun h id record hx => ?_) fun _ _ hp _ => hp
          rcases (Registry.get_register_eq_ok_iff hregister).mp hx with ⟨-, heq⟩ | ⟨-, hold⟩
          · cases heq
          · exact hold
  | command checks payloads command =>
      simp only [Machine.react]
      rcases executeCommand_moves hbound checks payloads command with
        ⟨e, -, hleft⟩ | ⟨op, m', hresolve, hop, hleft⟩
      · rw [hleft]
        exact hm
      · have hresolved := (Operation.resolve_yields _ command).value hresolve
        have hm' := hop.knowsPrograms hresolved hjoined ha hm
        rw [hleft]
        cases checks with
        | false => exact hm'
        | true => exact hm'.issue (by simp)
  | call call =>
      refine hm.issue fun program heq => ?_
      subst heq
      cases hevent
  | takeDirty => exact hm.frame (fun _ _ _ hx => hx) fun _ _ hp _ => hp
  | restart => exact hm.frame (fun _ _ _ hx => hx) fun _ _ hp _ => hp

/-- As long as only commands link programs, the record of each linked program tells of what the
program has. -/
theorem after_knowsPrograms (width height : UInt32) {events : List Event}
    (hevents : ∀ event ∈ events, event.isForeignLink = false) :
    ((fresh width height).after events).KnowsPrograms := by
  suffices h : ∀ m : Machine, m.KnowsPrograms → m.BindsCreated → m.Accounted → m.context.Joined →
      (m.after events).KnowsPrograms from
    h _ (fresh_knowsPrograms width height) (fresh_bindsCreated width height)
      (fresh_accounted width height) (Context.joined_new width height)
  induction events with
  | nil => exact fun m hm _ _ _ => hm
  | cons event rest ih =>
      intro m hm hbound ha hjoined
      obtain ⟨hevent, hrest⟩ := List.forall_mem_cons.mp hevents
      exact ih hrest (m.react event) (hm.react hbound ha hjoined hevent)
        (react_bindsCreated hbound event) (react_accounted hbound ha event)
        (keptByCalls_joined.after m [event] hjoined)

theorem after_knowsBlocks (width height : UInt32) {events : List Event}
    (hevents : ∀ event ∈ events, event.isForeignLink = false) :
    ((fresh width height).after events).KnowsBlocks :=
  fun h id record p hx hp hlinked =>
    (after_knowsPrograms width height hevents h id record p hx hp hlinked).blocks

end Machine

end GlPlayback
