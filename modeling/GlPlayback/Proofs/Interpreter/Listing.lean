import GlPlayback.Proofs.Gl.Joined
import GlPlayback.Proofs.Interpreter.Telling

/-!
What is listed of a program: its loose uniforms, its blocks with their members, and its attributes,
each once and in order. The uniforms are learnt one by one, and a block gets its record with the
first of its members.
-/
namespace GlPlayback

open Linking

namespace LinkedUniform

/-- The record of a uniform outside all blocks, with the location that it has. -/
def looseRecord? (u : LinkedUniform) : Option UniformRecord :=
  u.place.location?.map fun location =>
    ⟨u.active.name, u.active.type.label, u.active.size, some location⟩

/-- The record of a member of the block with an index. -/
def memberOf? (index : Nat) (u : LinkedUniform) : Option MemberRecord :=
  match u.place with
  | .member block _ => if block = index then some u.memberRecord else none
  | .loose _ => none

end LinkedUniform

namespace ProgramObject

def looseRecords (p : ProgramObject) : List UniformRecord :=
  p.uniforms.filterMap LinkedUniform.looseRecord?

def membersOf (p : ProgramObject) (index : Nat) : List MemberRecord :=
  p.uniforms.filterMap (LinkedUniform.memberOf? index)

/-- The blocks that have members, with their indices. -/
def filledBlocks (p : ProgramObject) : List (LinkedBlock × Nat) :=
  p.blocks.zipIdx.filter fun block => p.membersOf block.2 ≠ []

/-- Counts and sizes for which the signed 32-bit numbers of the answers suffice. Few uniforms do not
make for few blocks and attributes: a block may have no members, and attributes may share slots. -/
structure Fits (p : ProgramObject) : Prop where
  uniforms : p.uniforms.length < 0x80000000
  attributes : p.attributes.length < 0x80000000
  blocks : p.blocks.length < 0x80000000
  dataSize : ∀ block ∈ p.blocks, block.dataSize.toNat < 0x80000000

end ProgramObject

/-- The record of a block tells its index, its name, its size and its members. -/
structure BlockRecord.Describes (p : ProgramObject) (record : BlockRecord)
    (block : LinkedBlock × Nat) : Prop where
  index : record.index.toNat = block.2
  name : record.name = block.1.name
  size : record.size.toInt = block.1.dataSize.toNat
  members : record.members = p.membersOf block.2
  count : record.members.length = block.1.activeUniforms

/-- The record of a program lists what the program has. -/
structure ProgramRecord.Lists (record : ProgramRecord) (p : ProgramObject) : Prop where
  message : record.message = some "linked"
  uniforms : record.uniforms = p.looseRecords
  distinct : (record.uniforms.map (·.name)).Nodup
  blocks : List.Forall₂ (BlockRecord.Describes p) record.blocks p.filledBlocks
  attributes : record.attributes = p.attributes.map p.attributeRecord

namespace ProgramObject

variable {p : ProgramObject} {location : ObjectId} {loose : List UniformDecl}
  {blocks : List UniformBlock} {found : List UniformRecord} {known : List BlockRecord}

/-- What is known of a block once these members of it are: nothing without any. -/
def filled (p : ProgramObject) (index : Nat) (members : List MemberRecord) : List BlockRecord :=
  if members = [] then [] else [p.blockRecord (UInt32.ofNat index) members]

/-- What is known of all the blocks. -/
def blockRecords (p : ProgramObject) : List BlockRecord :=
  p.blocks.zipIdx.flatMap fun block => p.filled block.2 (p.membersOf block.2)

theorem blockRecords_eq (p : ProgramObject) : p.blockRecords =
    (List.range' 0 p.blocks.length).flatMap fun i => p.filled i (p.membersOf i) := by
  rw [blockRecords, ← List.zipIdx_map_snd 0 p.blocks, List.flatMap_map]

theorem index_of_mem_filled {index : Nat} {members : List MemberRecord} {record : BlockRecord}
    (h : record ∈ p.filled index members) : record.index = UInt32.ofNat index := by
  rw [filled] at h
  split at h
  · cases h
  · rw [List.mem_singleton.mp h]
    rfl

theorem addMember_append_singleton {index : UInt32} (member : MemberRecord)
    (hknown : ∀ record ∈ known, record.index ≠ index) (members : List MemberRecord) :
    Asking.addMember index member (known ++ [p.blockRecord index members]) =
      known ++ [p.blockRecord index (members ++ [member])] := by
  have hothers : Asking.addMember index member known = known := by
    refine (List.map_congr_left fun record hrecord => ?_).trans (List.map_id known)
    exact if_neg (hknown record hrecord)
  have hown : Asking.addMember index member [p.blockRecord index members] =
      [p.blockRecord index (members ++ [member])] :=
    congrArg (fun record => [record]) (if_pos rfl)
  simp only [Asking.addMember] at hothers hown ⊢
  rw [List.map_append, hothers, hown]

/-- A member is listed under its block, which gets a record with its first member. -/
theorem learn_member {u : LinkedUniform} {index : Nat} {offset : UInt32}
    (hplace : u.place = .member index offset)
    (hknown : ∀ record ∈ known, record.index ≠ UInt32.ofNat index)
    (members : List MemberRecord) :
    p.learn ⟨found, known ++ p.filled index members⟩ u =
      ⟨found, known ++ p.filled index (members ++ [u.memberRecord])⟩ := by
  have hknowing : p.knowing (UInt32.ofNat index) (known ++ p.filled index members) =
      known ++ [p.blockRecord (UInt32.ofNat index) members] := by
    cases members with
    | nil =>
        have hnew : known.any (·.index = UInt32.ofNat index) = false := by simpa using hknown
        simp [knowing, filled, hnew]
    | cons first rest =>
        have hown : (p.blockRecord (UInt32.ofNat index) (first :: rest)).index =
            UInt32.ofNat index := rfl
        simp [knowing, filled, hown]
  have hfilled : p.filled index (members ++ [u.memberRecord]) =
      [p.blockRecord (UInt32.ofNat index) (members ++ [u.memberRecord])] :=
    if_neg (by simp)
  simp only [learn, hplace, hknowing, addMember_append_singleton _ hknown, hfilled]

theorem foldl_learn_members {us : List LinkedUniform} {index : Nat}
    (hplaces : ∀ u ∈ us, ∃ offset, u.place = .member index offset)
    (hknown : ∀ record ∈ known, record.index ≠ UInt32.ofNat index)
    (members : List MemberRecord) :
    us.foldl p.learn ⟨found, known ++ p.filled index members⟩ =
      ⟨found, known ++ p.filled index (members ++ us.map LinkedUniform.memberRecord)⟩ := by
  induction us generalizing members with
  | nil => rw [List.map_nil, List.append_nil, List.foldl_nil]
  | cons u rest ih =>
      obtain ⟨⟨offset, hplace⟩, hrest⟩ := List.forall_mem_cons.mp hplaces
      rw [List.foldl_cons, learn_member hplace hknown, ih hrest, List.map_cons,
        List.append_assoc, List.singleton_append]

/-- Block after block gets its record, unless it has no members. -/
theorem foldl_learn_blocks (blocks : List UniformBlock) {index : Nat}
    {members : Nat → List MemberRecord}
    (hknown : ∀ record ∈ known, record.index.toNat < index)
    (hfits : index + blocks.length ≤ 0x100000000)
    (hmembers : ∀ i block, blocks[i]? = some block →
      members (index + i) = (blockUniforms (index + i) block).map LinkedUniform.memberRecord) :
    (memberUniforms index blocks).foldl p.learn ⟨found, known⟩ =
      ⟨found, known ++ (List.range' index blocks.length).flatMap fun i =>
        p.filled i (members i)⟩ := by
  induction blocks generalizing index known with
  | nil => simp [memberUniforms]
  | cons block rest ih =>
      rw [List.length_cons] at hfits
      have hindex : (UInt32.ofNat index).toNat = index := by
        rw [UInt32.toNat_ofNat', Nat.mod_eq_of_lt (by omega)]
      have hne : ∀ record ∈ known, record.index ≠ UInt32.ofNat index := by
        rintro record hrecord heq
        have hlt := hknown record hrecord
        rw [heq, hindex] at hlt
        exact Nat.lt_irrefl _ hlt
      have hfirst : (blockUniforms index block).foldl p.learn ⟨found, known⟩ =
          ⟨found, known ++ p.filled index (members index)⟩ := by
        have hnone : p.filled index [] = [] := if_pos rfl
        have hlearnt : (blockUniforms index block).foldl p.learn
            ⟨found, known ++ p.filled index []⟩ = ⟨found, known ++ p.filled index
              ([] ++ (blockUniforms index block).map LinkedUniform.memberRecord)⟩ :=
          foldl_learn_members (fun u hu => of_mem_blockUniforms hu) hne []
        rw [hnone, List.append_nil, List.nil_append] at hlearnt
        have hhead : members index =
            (blockUniforms index block).map LinkedUniform.memberRecord := hmembers 0 block rfl
        rw [hlearnt, hhead]
      have hknown' : ∀ record ∈ known ++ p.filled index (members index),
          record.index.toNat < index + 1 := by
        intro record hrecord
        rcases List.mem_append.mp hrecord with hold | hnew
        · exact Nat.lt_succ_of_lt (hknown record hold)
        · rw [index_of_mem_filled hnew, hindex]
          exact Nat.lt_succ_self index
      have hmembers' : ∀ i other, rest[i]? = some other →
          members (index + 1 + i) =
            (blockUniforms (index + 1 + i) other).map LinkedUniform.memberRecord := by
        intro i other hother
        rw [Nat.add_assoc, Nat.add_comm 1 i]
        exact hmembers (i + 1) other hother
      rw [memberUniforms_cons, List.foldl_append, hfirst, ih hknown' (by omega) hmembers',
        List.length_cons, List.range'_succ, List.flatMap_cons, List.append_assoc]

theorem foldl_learn_loose {us : List LinkedUniform}
    (hplaces : ∀ u ∈ us, ∃ own, u.place = .loose own)
    (hown : ∀ u ∈ us, p.uniformLocation? u.active.name = u.place.location?)
    (found : List UniformRecord) :
    us.foldl p.learn ⟨found, known⟩ =
      ⟨found ++ us.filterMap LinkedUniform.looseRecord?, known⟩ := by
  induction us generalizing found with
  | nil => rw [List.filterMap_nil, List.append_nil, List.foldl_nil]
  | cons u rest ih =>
      obtain ⟨⟨own, hplace⟩, hplaces⟩ := List.forall_mem_cons.mp hplaces
      obtain ⟨hlocation, hown⟩ := List.forall_mem_cons.mp hown
      have hrecord : u.looseRecord? =
          some ⟨u.active.name, u.active.type.label, u.active.size, some own⟩ := by
        rw [LinkedUniform.looseRecord?, hplace]
        rfl
      have hlearn : p.learn ⟨found, known⟩ u = ⟨found ++
          [⟨u.active.name, u.active.type.label, u.active.size, some own⟩], known⟩ := by
        simp only [learn, hlocation, hplace, UniformPlace.location?]
      rw [List.foldl_cons, hlearn, ih hplaces hown, List.filterMap_cons, hrecord,
        List.append_assoc, List.singleton_append]

theorem filterMap_memberOf?_of_lt {index : Nat} (blocks : List UniformBlock) {start : Nat}
    (hstart : index < start) :
    (memberUniforms start blocks).filterMap (LinkedUniform.memberOf? index) = [] := by
  rw [List.filterMap_eq_nil_iff]
  intro u hu
  obtain ⟨block, offset, hplace, hlower, -⟩ := of_mem_memberUniforms hu
  simp only [LinkedUniform.memberOf?, hplace]
  exact if_neg (by omega)

theorem filterMap_memberOf?_memberUniforms (start : Nat) {i : Nat} {block : UniformBlock}
    (hblock : blocks[i]? = some block) :
    (memberUniforms start blocks).filterMap (LinkedUniform.memberOf? (start + i)) =
      (blockUniforms (start + i) block).map LinkedUniform.memberRecord := by
  induction blocks generalizing start i with
  | nil => cases hblock
  | cons first rest ih =>
      rw [memberUniforms_cons, List.filterMap_append]
      cases i with
      | zero =>
          have heq : first = block := Option.some.inj hblock
          have hall : (blockUniforms start block).filterMap (LinkedUniform.memberOf? start) =
              (blockUniforms start block).map LinkedUniform.memberRecord := by
            rw [← List.filterMap_eq_map]
            refine List.filterMap_congr fun u hu => ?_
            obtain ⟨offset, hplace⟩ := of_mem_blockUniforms hu
            simp only [LinkedUniform.memberOf?, hplace, Function.comp_apply, if_true]
          rw [heq, Nat.add_zero, hall, filterMap_memberOf?_of_lt rest (Nat.lt_succ_self start),
            List.append_nil]
      | succ i =>
          have hnone : (blockUniforms start first).filterMap
              (LinkedUniform.memberOf? (start + (i + 1))) = [] := by
            rw [List.filterMap_eq_nil_iff]
            intro u hu
            obtain ⟨offset, hplace⟩ := of_mem_blockUniforms hu
            simp only [LinkedUniform.memberOf?, hplace]
            exact if_neg (by omega)
          have hindex : start + (i + 1) = start + 1 + i := by omega
          rw [hnone, List.nil_append, hindex]
          exact ih (start + 1) hblock

theorem Joins.membersOf (h : p.Joins location loose blocks) {i : Nat} {block : UniformBlock}
    (hblock : blocks[i]? = some block) :
    p.membersOf i = (blockUniforms i block).map LinkedUniform.memberRecord := by
  have hloose : (looseUniforms location loose).filterMap (LinkedUniform.memberOf? i) = [] := by
    rw [List.filterMap_eq_nil_iff]
    intro u hu
    obtain ⟨-, own, hplace⟩ := of_mem_looseUniforms hu
    simp only [LinkedUniform.memberOf?, hplace]
  have hmembers := filterMap_memberOf?_memberUniforms 0 hblock
  rw [Nat.zero_add] at hmembers
  rw [ProgramObject.membersOf, h.uniforms, List.filterMap_append, hloose, List.nil_append,
    hmembers]

theorem Joins.looseRecords (h : p.Joins location loose blocks) :
    p.looseRecords = (looseUniforms location loose).filterMap LinkedUniform.looseRecord? := by
  have hmembers : (memberUniforms 0 blocks).filterMap LinkedUniform.looseRecord? = [] := by
    rw [List.filterMap_eq_nil_iff]
    intro u hu
    obtain ⟨block, offset, hplace, -⟩ := of_mem_memberUniforms hu
    rw [LinkedUniform.looseRecord?, hplace]
    rfl
  rw [ProgramObject.looseRecords, h.uniforms, List.filterMap_append, hmembers, List.append_nil]

theorem Joins.length_blocks (h : p.Joins location loose blocks) :
    p.blocks.length = blocks.length := by
  have hlengths := congrArg List.length h.blocks
  rwa [List.length_map, List.length_map] at hlengths

theorem Joins.block_lt (h : p.Joins location loose blocks) {u : LinkedUniform}
    (hu : u ∈ p.uniforms) {block : Nat} {offset : UInt32}
    (hplace : u.place = .member block offset) : block < p.blocks.length := by
  rw [h.uniforms] at hu
  rcases List.mem_append.mp hu with hu | hu
  · obtain ⟨-, own, hown⟩ := of_mem_looseUniforms hu
    cases hown.symm.trans hplace
  · obtain ⟨index, _, hmember, -, hlt⟩ := of_mem_memberUniforms hu
    cases hmember.symm.trans hplace
    rw [h.length_blocks]
    omega

/-- What is learnt of all the uniforms of a program. -/
theorem Joins.foldl_learn (h : p.Joins location loose blocks)
    (hfits : p.blocks.length < 0x80000000) :
    p.uniforms.foldl p.learn {} = ⟨p.looseRecords, p.blockRecords⟩ := by
  have hloose : (looseUniforms location loose).foldl p.learn ⟨[], []⟩ = ⟨p.looseRecords, []⟩ := by
    rw [h.looseRecords]
    exact foldl_learn_loose (fun u hu => (of_mem_looseUniforms hu).2)
      (fun u hu => h.uniformLocation? hu) []
  have hblocks : (memberUniforms 0 blocks).foldl p.learn ⟨p.looseRecords, []⟩ =
      ⟨p.looseRecords,
        (List.range' 0 blocks.length).flatMap fun i => p.filled i (p.membersOf i)⟩ := by
    refine foldl_learn_blocks blocks (by simp) ?_ fun i block hblock => ?_
    · rw [← h.length_blocks]
      omega
    · rw [Nat.zero_add]
      exact h.membersOf hblock
  rw [blockRecords_eq, h.length_blocks, ← hblocks, ← hloose, h.uniforms, List.foldl_append]

/-- No two loose uniforms are recorded under one name. -/
theorem Joins.looseRecords_nodup (h : p.Joins location loose blocks) :
    (p.looseRecords.map (·.name)).Nodup := by
  have hnames (start : ObjectId) (decls : List UniformDecl) :
      ((looseUniforms start decls).filterMap LinkedUniform.looseRecord?).map (·.name) =
        decls.map (·.activeName) := by
    induction decls generalizing start with
    | nil => rfl
    | cons first rest ih => exact congrArg (first.activeName :: ·) (ih (start + 1))
  rw [h.looseRecords, hnames, List.Nodup, List.pairwise_map]
  refine h.distinct.imp_of_mem fun {d e} hd he hne heq => hne ?_
  have hstem : stem d.activeName = stem e.activeName := congrArg stem heq
  rw [(h.plain d hd).stem_activeName, (h.plain e he).stem_activeName] at hstem
  exact String.toList_inj.mp hstem

/-- The members of a block are as many as it counts. -/
theorem Joins.length_membersOf (h : p.Joins location loose blocks) {index : Nat}
    {block : LinkedBlock} (hblock : p.blocks[index]? = some block) :
    (p.membersOf index).length = block.activeUniforms := by
  have hunbound : (blocks.map linkedBlock)[index]? = some block.unbound := by
    rw [← h.blocks, List.getElem?_map, hblock]
    rfl
  rw [List.getElem?_map, Option.map_eq_some_iff] at hunbound
  obtain ⟨source, hsource, hlinked⟩ := hunbound
  have hcount : source.members.length = block.activeUniforms :=
    congrArg LinkedBlock.activeUniforms hlinked
  rw [h.membersOf hsource, List.length_map, blockUniforms, List.length_map, hcount]

theorem Joins.blockRecord_describes (h : p.Joins location loose blocks) (hfits : p.Fits)
    {block : LinkedBlock} {index : Nat} (hblock : p.blocks[index]? = some block) :
    BlockRecord.Describes p (p.blockRecord (UInt32.ofNat index) (p.membersOf index))
      (block, index) := by
  obtain ⟨hindex, -⟩ := List.getElem?_eq_some_iff.mp hblock
  have hblocks := hfits.blocks
  have hcode : (UInt32.ofNat index).toNat = index := by
    rw [UInt32.toNat_ofNat', Nat.mod_eq_of_lt (by omega)]
  have hfound : p.blocks[(UInt32.ofNat index).toNat]? = some block := by
    rw [hcode]
    exact hblock
  refine ⟨hcode, ?_, ?_, rfl, h.length_membersOf hblock⟩
  · simp only [blockRecord, hfound]
    rfl
  · simp only [blockRecord, hfound, Option.map_some, Option.getD_some, toInt32_eq_ofNat]
    exact Int32.toInt_ofNat_of_lt (hfits.dataSize block (List.mem_of_getElem? hblock))

theorem Joins.forall₂_describes (h : p.Joins location loose blocks) (hfits : p.Fits)
    {numbered : List (LinkedBlock × Nat)}
    (hnumbered : ∀ block ∈ numbered, p.blocks[block.2]? = some block.1) :
    List.Forall₂ (BlockRecord.Describes p)
      (numbered.flatMap fun block => p.filled block.2 (p.membersOf block.2))
      (numbered.filter fun block => p.membersOf block.2 ≠ []) := by
  induction numbered with
  | nil => exact .nil
  | cons first rest ih =>
      obtain ⟨block, index⟩ := first
      obtain ⟨hblock, hrest⟩ := List.forall_mem_cons.mp hnumbered
      rw [List.flatMap_cons]
      by_cases hmembers : p.membersOf index = []
      · have hnone : p.filled index (p.membersOf index) = [] := if_pos hmembers
        rw [hnone, List.nil_append, List.filter_cons_of_neg (by simpa using hmembers)]
        exact ih hrest
      · have hone : p.filled index (p.membersOf index) =
            [p.blockRecord (UInt32.ofNat index) (p.membersOf index)] := if_neg hmembers
        rw [hone, List.singleton_append, List.filter_cons_of_pos (by simpa using hmembers)]
        exact .cons (h.blockRecord_describes hfits hblock) (ih hrest)

end ProgramObject

namespace Asking

variable {p : ProgramObject}

/-- The uniforms that are learnt of a program, those in blocks under their blocks. -/
theorem tells_all_uniforms (program : ObjectId) {location : ObjectId} {loose : List UniformDecl}
    {blocks : List UniformBlock} (hjoins : p.Joins location loose blocks)
    (huniforms : p.uniforms.length < 0x80000000) (hblocks : p.blocks.length < 0x80000000) :
    Tells program p (uniforms program) ⟨p.looseRecords, p.blockRecords⟩ := by
  have hplaces : ∀ u ∈ p.uniforms, ∀ block offset, u.place = .member block offset →
      block < 0x80000000 :=
    fun u hu block offset hplace => Nat.lt_trans (hjoins.block_lt hu hplace) hblocks
  rw [← hjoins.foldl_learn hblocks]
  exact tells_uniforms huniforms hplaces

/-- What is learnt of a program by asking is what it has. -/
theorem tells_listing (program : ObjectId) (hjoined : p.IsJoined) (hfits : p.Fits) :
    ∃ record, Tells program p (listing program) record ∧ record.Lists p := by
  obtain ⟨location, loose, blocks, hjoins⟩ := hjoined
  have huniforms := tells_all_uniforms program hjoins hfits.uniforms hfits.blocks
  refine ⟨_, huniforms.bind ((tells_attributes hfits.attributes).bind (.pure _)), ?_⟩
  refine ⟨rfl, rfl, hjoins.looseRecords_nodup, hjoins.forall₂_describes hfits ?_, rfl⟩
  exact fun block hblock => List.mem_zipIdx_iff_getElem?.mp hblock

end Asking

end GlPlayback
