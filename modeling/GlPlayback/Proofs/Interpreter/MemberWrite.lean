import GlPlayback.Proofs.Gl.SubData
import GlPlayback.Proofs.Interpreter.BlockRecords
import GlPlayback.Proofs.Interpreter.BoundBuffers

/-!
Writes to the members of a block by their names, while a buffer that was made for the block is bound
to the uniform target. Each lands where the layout puts its member. Therefore what a member holds in
the end depends on the writes to that member alone.
-/
namespace GlPlayback

/-- What is told apart by its name is found under it. -/
theorem find?_of_nodup_map {α : Type} {name : α → String} {as : List α} {a : α}
    (hdistinct : (as.map name).Nodup) (ha : a ∈ as) :
    as.find? (fun other => name other == name a) = some a := by
  induction as with
  | nil => cases ha
  | cons first rest ih =>
      rw [List.map_cons, List.nodup_cons] at hdistinct
      rw [List.find?_cons]
      rcases List.mem_cons.mp ha with rfl | ha
      · rw [beq_self_eq_true]
      · have hne : (name first == name a) = false := by
          rw [beq_eq_false_iff_ne]
          intro heq
          exact hdistinct.1 (heq ▸ List.mem_map_of_mem ha)
        rw [hne]
        exact ih hdistinct.2 ha

/-- The members of a block have names of their own, and all of them lie in the block, apart from
each other. -/
structure UniformBlock.IsSpread (b : UniformBlock) : Prop where
  distinct : (b.members.map b.memberName).Nodup
  spread : BlockLayout.Spread 0 b.dataSize.toNat b.members
  size : b.dataSize.toNat < 0x80000000

namespace UniformBlock.IsSpread

variable {b : UniformBlock} {member other : BlockMember}

theorem disjoint (hb : b.IsSpread) (hmember : member ∈ b.members) (hother : other ∈ b.members)
    (hne : other ≠ member) :
    other.offset.toNat + (BlockLayout.std140 other.decl).2 ≤ member.offset.toNat ∨
      member.offset.toNat + (BlockLayout.std140 member.decl).2 ≤ other.offset.toNat := by
  obtain ⟨i, hi, rfl⟩ := List.getElem_of_mem hmember
  obtain ⟨j, hj, rfl⟩ := List.getElem_of_mem hother
  have hapart := List.pairwise_iff_getElem.mp hb.spread.apart
  rcases Nat.lt_trichotomy i j with hlt | rfl | hlt
  · exact .inr (hapart i j hi hj hlt)
  · exact absurd rfl hne
  · exact .inl (hapart j i hj hi hlt)

theorem eq_of_name (hb : b.IsSpread) (hmember : member ∈ b.members) (hother : other ∈ b.members)
    (hname : b.memberName other = b.memberName member) : other = member :=
  List.inj_on_of_nodup_map hb.distinct hother hmember hname

end UniformBlock.IsSpread

/-- A write of bytes to the member of a name, with the payloads that its command comes with. -/
structure MemberWrite where
  target : String
  member : String
  ref : PayloadRef
  payloads : List (List UInt8)
  bytes : List UInt8

namespace MemberWrite

def command (w : MemberWrite) : Command :=
  ⟨.bufferSubDataAt w.target w.member 0, some w.ref⟩

def event (checks : Bool) (w : MemberWrite) : Machine.Event :=
  .command checks w.payloads w.command

/-- The write goes to the uniform target and to this member of the block, and it carries its bytes,
which are no more than the member takes. -/
structure Fits (w : MemberWrite) (b : UniformBlock) (member : BlockMember) : Prop where
  target : BufferTarget.ofToken? w.target = some .uniform
  mem : member ∈ b.members
  name : b.memberName member = w.member
  payload : w.payloads[w.ref.index]? = some w.bytes
  elements : ∃ type, ElementType.ofName w.ref.type = .ok type ∧ w.bytes.length % type.size = 0
  length : w.bytes.length ≤ (BlockLayout.std140 member.decl).2

/-- The offset of the member that a write goes to. -/
def start (w : MemberWrite) (b : UniformBlock) : Nat :=
  ((b.members.find? fun member => b.memberName member == w.member).map (·.offset.toNat)).getD 0

/-- The store of the block after a write. -/
def apply (b : UniformBlock) (data : List UInt8) (w : MemberWrite) : List UInt8 :=
  Context.overwrite data (w.start b) w.bytes

variable {w : MemberWrite} {b : UniformBlock} {member : BlockMember} {data : List UInt8}

theorem Fits.find? (hw : w.Fits b member) (hb : b.IsSpread) :
    b.members.find? (fun other => b.memberName other == w.member) = some member := by
  rw [← hw.name]
  exact find?_of_nodup_map hb.distinct hw.mem

theorem Fits.start_eq (hw : w.Fits b member) (hb : b.IsSpread) :
    w.start b = member.offset.toNat := by
  rw [start, hw.find? hb]
  rfl

theorem Fits.within (hw : w.Fits b member) (hb : b.IsSpread) :
    member.offset.toNat + w.bytes.length ≤ b.dataSize.toNat := by
  have hmember := (hb.spread.within member hw.mem).2
  have hlength := hw.length
  omega

section Store

variable (hb : b.IsSpread)
include hb

theorem Fits.length_apply (hw : w.Fits b member) (hdata : data.length = b.dataSize.toNat) :
    (w.apply b data).length = b.dataSize.toNat := by
  have hwithin := hw.within hb
  rw [apply, hw.start_eq hb, Context.length_overwrite (hdata.symm ▸ hwithin), hdata]

/-- A write changes exactly the bytes of its member that it has bytes for. -/
theorem Fits.getElem?_apply (hw : w.Fits b member) (hdata : data.length = b.dataSize.toNat)
    (k : Nat) : (w.apply b data)[k]? =
      if member.offset.toNat ≤ k ∧ k < member.offset.toNat + w.bytes.length then
        w.bytes[k - member.offset.toNat]?
      else data[k]? := by
  have hwithin := hw.within hb
  rw [apply, hw.start_eq hb, Context.getElem?_overwrite (hdata.symm ▸ hwithin)]

theorem length_foldl_apply {ws : List MemberWrite} (hws : ∀ w ∈ ws, ∃ member, w.Fits b member)
    (hdata : data.length = b.dataSize.toNat) :
    (ws.foldl (apply b) data).length = b.dataSize.toNat := by
  induction ws generalizing data with
  | nil => exact hdata
  | cons w rest ih =>
      obtain ⟨⟨member, hw⟩, hrest⟩ := List.forall_mem_cons.mp hws
      exact ih hrest (hw.length_apply hb hdata)

/-- Of what lies in a member, only the writes to that member decide. -/
theorem getElem?_foldl_apply {ws : List MemberWrite}
    (hws : ∀ w ∈ ws, ∃ member, w.Fits b member) (hdata : data.length = b.dataSize.toNat)
    (hmember : member ∈ b.members) {k : Nat} (hlower : member.offset.toNat ≤ k)
    (hupper : k < member.offset.toNat + (BlockLayout.std140 member.decl).2) :
    (ws.foldl (apply b) data)[k]? =
      (ws.filter (·.member = b.memberName member)).foldl
        (fun byte w => if k < member.offset.toNat + w.bytes.length then
          w.bytes[k - member.offset.toNat]? else byte) data[k]? := by
  induction ws generalizing data with
  | nil => rfl
  | cons w rest ih =>
      obtain ⟨⟨other, hw⟩, hrest⟩ := List.forall_mem_cons.mp hws
      rw [List.foldl_cons, ih hrest (hw.length_apply hb hdata), hw.getElem?_apply hb hdata]
      by_cases hname : w.member = b.memberName member
      · cases hb.eq_of_name hmember hw.mem (hw.name.trans hname)
        rw [List.filter_cons_of_pos (by simpa using hname), List.foldl_cons]
        simp only [hlower, true_and]
      · have hne : other ≠ member := by
          rintro rfl
          exact hname hw.name.symm
        have hapart := hb.disjoint hmember hw.mem hne
        have hlength := hw.length
        rw [List.filter_cons_of_neg (by simpa using hname), if_neg (by omega)]

end Store

end MemberWrite

namespace Machine

variable {m : Machine} {h : Handle} {own : ObjectId} {b : UniformBlock} {data : List UInt8}
  {w : MemberWrite} {member : BlockMember}

/-- A buffer that was made for a block is bound to the uniform target, on both sides. -/
structure Serves (m : Machine) (h : Handle) (own : ObjectId) (b : UniformBlock)
    (data : List UInt8) : Prop where
  taken : m.bindings.buffers.get? .uniform = some h
  resource : ∃ record block, m.registry.get h = .ok ⟨some own, .buffer record⟩ ∧
    record.block = some block ∧ block.members = b.members.map b.memberRecord
  bound : m.context.boundBuffer? Enumerant.uniformBuffer = some own
  store : m.context.store? own = some data

theorem Quiet.serves {m' : Machine} (hquiet : m.Quiet m') (hm : m.Serves h own b data) :
    m'.Serves h own b data where
  taken := hquiet.bindings_eq ▸ hm.taken
  resource := by
    obtain ⟨record, block, hget, hblock⟩ := hm.resource
    exact ⟨record, block, hquiet.get_eq hget, hblock⟩
  bound := hquiet.boundBuffer?_eq ▸ hm.bound
  store := hquiet.store?_eq ▸ hm.store

/-- The offset that is looked up for a member is its own. -/
theorem Serves.memberOffset (hm : m.Serves h own b data) (hb : b.IsSpread)
    (hw : w.Fits b member) (payloads : List (List UInt8)) :
    Operation.memberOffset (m.surroundings payloads) .uniform w.member = .ok (w.start b) := by
  obtain ⟨record, block, hget, hblock, hmembers⟩ := hm.resource
  have hfound : block.member? w.member = some (b.memberRecord member) := by
    rw [BlockRecord.member?, hmembers, List.find?_map]
    exact congrArg (Option.map b.memberRecord) (hw.find? hb)
  have hsmall : member.offset.toNat < 0x80000000 := by
    have hwithin := (hb.spread.within member hw.mem).2
    have hsize := hb.size
    omega
  have hoffset : member.offset.toInt32 = Int32.ofNat member.offset.toNat := toInt32_eq_ofNat _
  have hnonneg : ¬ member.offset.toInt32 < 0 := by
    rw [hoffset, Int32.lt_iff_toInt_lt, Int32.toInt_ofNat_of_lt hsmall]
    exact Int.not_lt.mpr (Int.natCast_nonneg _)
  have hstart : member.offset.toInt32.toNatClampNeg = w.start b := by
    rw [hw.start_eq hb, hoffset, Int32.toNatClampNeg_ofNat_of_lt hsmall]
  simp only [Operation.memberOffset, surroundings, hm.taken, hget, Except.mapError, bind,
    Except.bind, ResourceRecord.asBuffer?, Option.bind_some, hblock, hfound]
  rw [UniformBlock.memberRecord, if_neg hnonneg, hstart]
  rfl

theorem Serves.resolve_command (hm : m.Serves h own b data) (hb : b.IsSpread)
    (hw : w.Fits b member) : Operation.resolve (m.surroundings w.payloads) w.command =
      .ok (.issue (.bufferSubData Enumerant.uniformBuffer (w.start b) w.bytes)) := by
  obtain ⟨type, htype, hdivides⟩ := hw.elements
  obtain ⟨elements, hdecode⟩ : ∃ elements, Elements.decode type w.bytes = .ok elements :=
    ⟨_, if_neg (not_not_intro hdivides)⟩
  have htarget : Operation.bufferTarget w.target = .ok .uniform := by
    simp only [Operation.bufferTarget, hw.target]
  have hpayload : (m.surroundings w.payloads).payload? w.command =
      .ok (some ⟨elements, w.ref.shape⟩) :=
    Surroundings.payload?_eq_ok hw.payload htype hdecode _
  have hslice : elements.slice 0 none = .ok w.bytes := by
    rw [elements.slice_all, Elements.decode_bytes hdecode]
  have hresolve : Operation.resolve (m.surroundings w.payloads) w.command =
      (do
        let target ← Operation.bufferTarget w.target
        let start ← Operation.memberOffset (m.surroundings w.payloads) target w.member
        Operation.subData target start 0 none
          (← (m.surroundings w.payloads).payload? w.command)) := rfl
  rw [hresolve, htarget]
  simp only [bind, Except.bind, hm.memberOffset hb hw, hpayload, Operation.subData, hslice,
    Except.mapError]
  rfl

/-- A write to a member is carried out, and raises no error. -/
theorem Serves.write (hm : m.Serves h own b data) (hb : b.IsSpread)
    (hdata : data.length = b.dataSize.toNat) (hw : w.Fits b member) {checks : Bool}
    (hclear : checks = true → m.context.error = none) :
    ∃ m', m.executeCommand checks w.payloads w.command = (.ok (), m') ∧
      m'.Serves h own b (w.apply b data) ∧ m'.context.error = m.context.error := by
  have hresolve := hm.resolve_command hb hw
  generalize hcall : Call.bufferSubData Enumerant.uniformBuffer (w.start b) w.bytes = call
    at hresolve
  have hsize : data.length < UInt64.size := by
    rw [hdata]
    exact Nat.lt_trans hb.size (by decide)
  have hfits : w.start b + w.bytes.length ≤ data.length := by
    rw [hw.start_eq hb, hdata]
    exact hw.within hb
  have hstore : (m.issue call).context.store? own = some (w.apply b data) := by
    subst hcall
    exact Context.exec_bufferSubData_store data BufferTarget.uniform.contains_code hm.bound
      hm.store hsize hfits
  have herror : (m.issue call).context.error = m.context.error := by
    subst hcall
    exact Context.exec_bufferSubData_error data BufferTarget.uniform.contains_code hm.bound
      hm.store hsize hfits
  have hbound : (m.issue call).context.boundBuffer? = m.context.boundBuffer? := by
    subst hcall
    exact Context.exec_boundBuffer? (List.Subset.refl _)
  have hissued : (m.issue call).Serves h own b (w.apply b data) :=
    ⟨hm.taken, hm.resource, hbound ▸ hm.bound, hstore⟩
  have hperform : m.perform (.issue call) = (.ok (), m.issue call) := rfl
  refine ⟨(m.issue call).readAway checks, ?_, (readAway_quiet checks _).serves hissued, ?_⟩
  · refine Prod.ext ?_ (executeCommand_machine hresolve hperform)
    cases checks with
    | false => simp only [executeCommand, hresolve, hperform]; rfl
    | true => exact executeCommand_ok hresolve hperform (herror.trans (hclear rfl))
  · rw [readAway_error, herror]
    cases checks with
    | false => rfl
    | true => exact (hclear rfl).symm

/-- Writes to members, one after the other, leave their bytes and raise no error. -/
theorem Serves.writes (hm : m.Serves h own b data) (hb : b.IsSpread)
    (hdata : data.length = b.dataSize.toNat) {checks : Bool}
    (hclear : checks = true → m.context.error = none) {ws : List MemberWrite}
    (hws : ∀ w ∈ ws, ∃ member, w.Fits b member) :
    (m.after (ws.map (MemberWrite.event checks))).Serves h own b
        (ws.foldl (MemberWrite.apply b) data) ∧
      (m.after (ws.map (MemberWrite.event checks))).context.error = m.context.error := by
  induction ws generalizing m data with
  | nil => exact ⟨hm, rfl⟩
  | cons w rest ih =>
      obtain ⟨⟨member, hw⟩, hrest⟩ := List.forall_mem_cons.mp hws
      obtain ⟨m', hexecute, hm', herror⟩ := hm.write hb hdata hw hclear
      have hreact : m.react (w.event checks) = m' := congrArg Prod.snd hexecute
      have hclear' : checks = true → m'.context.error = none :=
        fun hchecks => herror.trans (hclear hchecks)
      obtain ⟨hend, hkept⟩ := ih hm' (hw.length_apply hb hdata) hclear' hrest
      have hafter : m.after ((w :: rest).map (MemberWrite.event checks)) =
          m'.after (rest.map (MemberWrite.event checks)) := by
        rw [← hreact]
        rfl
      rw [hafter]
      exact ⟨hend, hkept.trans herror⟩

end Machine

end GlPlayback
