import GlPlayback.Proofs.Gl.Joined
import GlPlayback.Proofs.Gl.Rooted

/-!
What a link makes of the interfaces of two stages. It succeeds if both stages are compiled, their
blocks agree and the attributes have room. Then the program lists the loose uniforms, the first of
each name, at locations of their own, and behind them the members of the blocks, each under the
index of its block. A program that is not linked lists nothing.
-/
namespace GlPlayback

namespace Linking

/-- Of several items under one name the first. -/
def firsts {α : Type} (name : α → String) (items : List α) : List α :=
  items.eraseDupsBy fun a b => name a == name b

/-- The loose uniforms of two interfaces, each name once. -/
def looseOf (vertex fragment : ShaderInterface) : List UniformDecl :=
  firsts (·.name) (vertex.uniforms ++ fragment.uniforms)

/-- The blocks of two interfaces, each name once. -/
def blocksOf (vertex fragment : ShaderInterface) : List UniformBlock :=
  firsts (·.name) (vertex.blocks ++ fragment.blocks)

/-- Blocks under one name have the same members. -/
def BlocksAgree (blocks : List UniformBlock) : Prop :=
  ∀ b ∈ blocks, ∀ c ∈ blocks, b.name = c.name → b.members = c.members

instance (blocks : List UniformBlock) : Decidable (BlocksAgree blocks) :=
  inferInstanceAs
    (Decidable (∀ b ∈ blocks, ∀ c ∈ blocks, b.name = c.name → b.members = c.members))

section Firsts

variable {α : Type} {name : α → String} {seen : List String} {a : α} {rest : List α}

/-- An item under a new name is kept, and its name is not new any more. -/
theorem firsts_cons_new (hnew : name a ∉ seen) :
    firsts name ((a :: rest).filter (name · ∉ seen)) =
      a :: firsts name (rest.filter (name · ∉ name a :: seen)) := by
  have hrest : rest.filter (name · ∉ name a :: seen) = rest.filter fun b =>
      decide ((name b == name a) = false) && decide (name b ∉ seen) :=
    List.filter_congr fun b _ => by simp [not_or]
  rw [firsts, List.filter_cons_of_pos (by simpa using hnew), List.eraseDupsBy_cons,
    List.filter_filter, firsts, hrest]

theorem firsts_cons_seen (hseen : name a ∈ seen) :
    firsts name ((a :: rest).filter (name · ∉ seen)) =
      firsts name (rest.filter (name · ∉ seen)) := by
  rw [List.filter_cons_of_neg (by simpa using hseen)]

end Firsts

theorem distinctUniforms_eq (seen : List String) (decls : List UniformDecl) :
    distinctUniforms seen decls = firsts (·.name) (decls.filter (·.name ∉ seen)) := by
  induction decls generalizing seen with
  | nil => rfl
  | cons first rest ih =>
      rw [distinctUniforms]
      split
      · next hseen => rw [ih, firsts_cons_seen hseen]
      · next hnew => rw [ih, firsts_cons_new hnew]

theorem distinctUniforms_nil (vertex fragment : ShaderInterface) :
    distinctUniforms [] (vertex.uniforms ++ fragment.uniforms) = looseOf vertex fragment := by
  rw [distinctUniforms_eq, List.filter_eq_self.mpr (by simp)]
  rfl

section Blocks

variable {found blocks merged : List UniformBlock} {b known : UniformBlock}

theorem BlocksAgree.of_subset {more : List UniformBlock} (h : BlocksAgree more)
    (hsubset : blocks ⊆ more) : BlocksAgree blocks :=
  fun b hb c hc => h b (hsubset hb) c (hsubset hc)

theorem BlocksAgree.of_apart (hapart : blocks.Pairwise fun b c => b.name ≠ c.name) :
    BlocksAgree blocks := by
  have hagree : blocks.Pairwise fun b c => b.name = c.name → b.members = c.members :=
    hapart.imp fun hne heq => absurd heq hne
  have hflip : blocks.Pairwise fun b c => c.name = b.name → c.members = b.members :=
    hapart.imp fun hne heq => absurd heq.symm hne
  exact List.Pairwise.forall_of_forall_of_flip (fun _ _ _ => rfl) hagree hflip

/-- A block with the members of a known one of its name makes no difference. -/
theorem blocksAgree_cons_known (hknown : known ∈ found) (hname : known.name = b.name)
    (hmembers : known.members = b.members) :
    BlocksAgree (found ++ b :: blocks) ↔ BlocksAgree (found ++ blocks) := by
  constructor
  · exact fun h => h.of_subset (by simp)
  · intro h
    have hother (c : UniformBlock) (hc : c ∈ found ++ b :: blocks) :
        ∃ d ∈ found ++ blocks, d.name = c.name ∧ d.members = c.members := by
      rw [List.mem_append, List.mem_cons] at hc
      rcases hc with hc | rfl | hc
      · exact ⟨c, List.mem_append_left _ hc, rfl, rfl⟩
      · exact ⟨known, List.mem_append_left _ hknown, hname, hmembers⟩
      · exact ⟨c, List.mem_append_right _ hc, rfl, rfl⟩
    intro c hc c' hc' heq
    obtain ⟨d, hd, hdname, hdmembers⟩ := hother c hc
    obtain ⟨d', hd', hdname', hdmembers'⟩ := hother c' hc'
    rw [← hdmembers, ← hdmembers']
    exact h d hd d' hd' (hdname.trans (heq.trans hdname'.symm))

theorem mergeBlocks_isOk_iff (hapart : found.Pairwise fun b c => b.name ≠ c.name) :
    (∃ merged, mergeBlocks found blocks = .ok merged) ↔ BlocksAgree (found ++ blocks) := by
  induction blocks generalizing found with
  | nil =>
      rw [List.append_nil]
      exact iff_of_true ⟨found, rfl⟩ (.of_apart hapart)
  | cons b rest ih =>
      rw [mergeBlocks]
      split
      · next hnew =>
          have hapart' : (found ++ [b]).Pairwise fun b c => b.name ≠ c.name := by
            refine List.pairwise_append.mpr ⟨hapart, List.pairwise_singleton _ _, ?_⟩
            intro c hc d hd
            cases List.mem_singleton.mp hd
            simpa using List.find?_eq_none.mp hnew c hc
          rw [ih hapart', List.append_assoc, List.singleton_append]
      · next known hfind =>
          have hknown := List.mem_of_find?_eq_some hfind
          have hname : known.name = b.name := by simpa using List.find?_some hfind
          split
          · next hmembers => rw [ih hapart, blocksAgree_cons_known hknown hname hmembers]
          · next hdiffers =>
              refine iff_of_false ?_ fun h => hdiffers ?_
              · rintro ⟨merged, hmerged⟩
                cases hmerged
              · exact h known (by simp [hknown]) b (by simp) hname

theorem mergeBlocks_eq (h : mergeBlocks found blocks = .ok merged) :
    merged = found ++ firsts (·.name) (blocks.filter (·.name ∉ found.map (·.name))) := by
  induction blocks generalizing found with
  | nil =>
      cases h
      exact (List.append_nil _).symm
  | cons b rest ih =>
      rw [mergeBlocks] at h
      split at h
      · next hnew =>
          have hb : b.name ∉ found.map (·.name) := by
            simpa using hnew
          have hseen : rest.filter (·.name ∉ (found ++ [b]).map (·.name)) =
              rest.filter (·.name ∉ b.name :: found.map (·.name)) :=
            List.filter_congr fun c _ => by simp [or_comm]
          rw [ih h, firsts_cons_new hb, hseen, List.append_assoc, List.singleton_append]
      · next known hfind =>
          have hknown := List.mem_of_find?_eq_some hfind
          have hname : known.name = b.name := by simpa using List.find?_some hfind
          have hb : b.name ∈ found.map (·.name) := hname ▸ List.mem_map_of_mem hknown
          split at h
          · rw [ih h, firsts_cons_seen hb]
          · cases h

/-- Two interfaces can be joined if their blocks agree, and then each block is there once. -/
theorem mergeBlocks_nil (vertex fragment : ShaderInterface) :
    mergeBlocks [] (vertex.blocks ++ fragment.blocks) = .ok merged ↔
      BlocksAgree (vertex.blocks ++ fragment.blocks) ∧ merged = blocksOf vertex fragment := by
  have hblocks {merged : List UniformBlock}
      (h : mergeBlocks [] (vertex.blocks ++ fragment.blocks) = .ok merged) :
      merged = blocksOf vertex fragment := by
    rw [mergeBlocks_eq h, List.filter_eq_self.mpr (by simp)]
    rfl
  have hagree : (∃ merged, mergeBlocks [] (vertex.blocks ++ fragment.blocks) = .ok merged) ↔
      BlocksAgree (vertex.blocks ++ fragment.blocks) := mergeBlocks_isOk_iff .nil
  constructor
  · exact fun h => ⟨hagree.mp ⟨merged, h⟩, hblocks h⟩
  · rintro ⟨h, rfl⟩
    obtain ⟨merged, hmerged⟩ := hagree.mpr h
    rw [← hblocks hmerged, hmerged]

end Blocks

theorem looseUniforms_eq (location : ObjectId) (decls : List UniformDecl) :
    looseUniforms location decls = decls.mapIdx fun i d =>
      ⟨⟨d.activeName, d.type, d.size⟩, .loose (location + i)⟩ := by
  induction decls generalizing location with
  | nil => rfl
  | cons first rest ih =>
      rw [looseUniforms, ih, List.mapIdx_cons]
      simp [Nat.add_assoc, Nat.add_comm 1]

theorem memberUniforms_eq (index : Nat) (blocks : List UniformBlock) :
    memberUniforms index blocks = (blocks.zipIdx index).flatMap fun block =>
      blockUniforms block.2 block.1 := by
  induction blocks generalizing index with
  | nil => rfl
  | cons first rest ih =>
      rw [memberUniforms_cons, ih, List.zipIdx_cons, List.flatMap_cons]

end Linking

/-- A uniform as a program answers for it: what it is, its location if it has one, the index of its
block and its offset there. -/
def LinkedUniform.reading (u : LinkedUniform) : ActiveVariable × Option ObjectId × Int × Int :=
  (u.active, u.place.location?, u.place.blockIndex.toInt, u.place.offset.toInt)

namespace ProgramObject

/-- The locations of a program's loose uniforms. -/
def locations (p : ProgramObject) : List ObjectId :=
  p.uniforms.filterMap (·.place.location?)

structure ListsNothing (p : ProgramObject) : Prop where
  uniforms : p.uniforms = []
  blocks : p.blocks = []
  attributes : p.attributes = []

/-- A shader that was compiled for a stage, and exposes this interface, is attached. -/
def HasStage (p : ProgramObject) (shaders : Table ObjectId ShaderObject) (stage : Stage)
    (interface : ShaderInterface) : Prop :=
  ∃ id s, p.attached stage = some id ∧ shaders.get? id = some s ∧ s.stage = stage ∧
    s.compiled = true ∧ s.interface = interface

/-- The interfaces of both stages fit together, and the inputs of the vertex shader have room. -/
structure Linkable (p : ProgramObject) (shaders : Table ObjectId ShaderObject)
    (vertex fragment : ShaderInterface) (attributes : List LinkedAttribute) : Prop where
  vertexStage : p.HasStage shaders .vertex vertex
  fragmentStage : p.HasStage shaders .fragment fragment
  agree : Linking.BlocksAgree (vertex.blocks ++ fragment.blocks)
  assigned : Linking.assignLocations p.wanted vertex.attributes = .ok attributes

/-- What a program lists of two interfaces, with locations from the given one on. Indices and offsets
are answered as they are, if they are as small as the answers. -/
structure Merges (p : ProgramObject) (vertex fragment : ShaderInterface) (location : ObjectId) :
    Prop where
  uniforms : p.uniforms =
    (Linking.looseOf vertex fragment).mapIdx (fun i d =>
      ⟨⟨d.activeName, d.type, d.size⟩, .loose (location + i)⟩) ++
    (Linking.blocksOf vertex fragment).zipIdx.flatMap fun (b, index) =>
      b.members.map fun m =>
        ⟨⟨b.memberName m, m.decl.type, m.decl.size⟩, .member index m.offset⟩
  readings : (Linking.blocksOf vertex fragment).length ≤ 2 ^ 31 →
    (∀ b ∈ Linking.blocksOf vertex fragment, ∀ m ∈ b.members, m.offset.toNat < 2 ^ 31) →
    p.uniforms.map LinkedUniform.reading =
      (Linking.looseOf vertex fragment).mapIdx (fun i d =>
        (⟨d.activeName, d.type, d.size⟩, some (location + i), -1, -1)) ++
      (Linking.blocksOf vertex fragment).zipIdx.flatMap fun (b, index) =>
        b.members.map fun m =>
          (⟨b.memberName m, m.decl.type, m.decl.size⟩, none, (index : Int), (m.offset.toNat : Int))
  blocks : p.blocks = (Linking.blocksOf vertex fragment).map fun b =>
    ⟨b.name, b.dataSize, 0, b.members.length⟩
  names_nodup : (p.blocks.map (·.name)).Nodup

end ProgramObject

namespace Linking

variable {shaders : Table ObjectId ShaderObject} {p : ProgramObject} {stage : Stage}
  {vertex fragment interface : ShaderInterface} {attributes : List LinkedAttribute}
  {location : ObjectId} {outcome : Outcome}

theorem stageInterface_eq_ok_iff {attached : Option ObjectId} :
    stageInterface shaders stage attached = .ok interface ↔
      ∃ id s, attached = some id ∧ shaders.get? id = some s ∧ s.compiled = true ∧
        s.interface = interface := by
  simp only [stageInterface]
  constructor
  · intro h
    split at h
    · cases h
    · next s hs =>
        obtain ⟨id, hattached, hget⟩ := Option.bind_eq_some_iff.mp hs
        split at h
        · next hcompiled => exact ⟨id, s, hattached, hget, hcompiled, Except.ok.inj h⟩
        · cases h
  · rintro ⟨id, s, rfl, hget, hcompiled, rfl⟩
    simp only [Option.bind_some, hget, hcompiled, if_true]

theorem joinStages_eq_ok_iff {blocks : List UniformBlock} :
    joinStages shaders p = .ok (vertex, fragment, blocks) ↔
      stageInterface shaders .vertex p.vertexShader = .ok vertex ∧
      stageInterface shaders .fragment p.fragmentShader = .ok fragment ∧
      BlocksAgree (vertex.blocks ++ fragment.blocks) ∧ blocks = blocksOf vertex fragment := by
  simp only [joinStages, bind_eq_ok_iff, ← mergeBlocks_nil]
  constructor
  · rintro ⟨v, hv, f, hf, merged, hmerged, ⟨⟩⟩
    exact ⟨hv, hf, hmerged⟩
  · rintro ⟨hv, hf, hmerged⟩
    exact ⟨vertex, hv, fragment, hf, blocks, hmerged, rfl⟩

theorem stageInterface_of_hasStage (h : p.HasStage shaders stage interface) :
    stageInterface shaders stage (p.attached stage) = .ok interface := by
  obtain ⟨id, s, hattached, hget, -, hcompiled, hinterface⟩ := h
  exact stageInterface_eq_ok_iff.mpr ⟨id, s, hattached, hget, hcompiled, hinterface⟩

/-- What two stages that fit together are linked to. -/
theorem link_of_linkable (h : p.Linkable shaders vertex fragment attributes)
    (location : ObjectId) :
    link shaders location p = some {
      locations := (looseOf vertex fragment).length
      program := { p with
        linked := true
        log := ""
        uniforms := looseUniforms location (looseOf vertex fragment) ++
          memberUniforms 0 (blocksOf vertex fragment)
        blocks := (blocksOf vertex fragment).map linkedBlock
        attributes } } := by
  have hjoin : joinStages shaders p = .ok (vertex, fragment, blocksOf vertex fragment) :=
    joinStages_eq_ok_iff.mpr ⟨stageInterface_of_hasStage h.vertexStage,
      stageInterface_of_hasStage h.fragmentStage, h.agree, rfl⟩
  simp only [link, hjoin, h.assigned, distinctUniforms_nil]

/-- What is linked could be linked, if only shaders of its stage are attached to each stage. -/
theorem exists_linkable
    (hstages : ∀ stage id s, p.attached stage = some id → shaders.get? id = some s →
      s.stage = stage)
    (h : link shaders location p = some outcome) (hlinked : outcome.program.linked = true) :
    ∃ vertex fragment attributes, p.Linkable shaders vertex fragment attributes := by
  have hstage {stage : Stage} {interface : ShaderInterface}
      (hok : stageInterface shaders stage (p.attached stage) = .ok interface) :
      p.HasStage shaders stage interface := by
    obtain ⟨id, s, hattached, hget, hcompiled, hinterface⟩ := stageInterface_eq_ok_iff.mp hok
    exact ⟨id, s, hattached, hget, hstages stage id s hattached hget, hcompiled, hinterface⟩
  simp only [link] at h
  split at h
  · cases h
    cases hlinked
  · next vertex fragment blocks hjoin =>
      obtain ⟨hvertex, hfragment, hagree, -⟩ := joinStages_eq_ok_iff.mp hjoin
      split at h
      · cases h
      · cases h
        cases hlinked
      · next attributes hassigned =>
          exact ⟨vertex, fragment, attributes, hstage hvertex, hstage hfragment, hagree, hassigned⟩

theorem listsNothing_of_link (h : link shaders location p = some outcome)
    (hunlinked : outcome.program.linked = false) : outcome.program.ListsNothing := by
  simp only [link] at h
  split at h
  · cases h
    exact ⟨rfl, rfl, rfl⟩
  · split at h
    · cases h
    · cases h
      exact ⟨rfl, rfl, rfl⟩
    · cases h
      cases hunlinked

theorem locations_looseUniforms (location : ObjectId) (decls : List UniformDecl) :
    (looseUniforms location decls).filterMap (·.place.location?) =
      List.range' location decls.length := by
  induction decls generalizing location with
  | nil => rfl
  | cons first rest ih =>
      rw [looseUniforms, List.filterMap_cons, ih]
      rfl

theorem locations_memberUniforms (index : Nat) (blocks : List UniformBlock) :
    (memberUniforms index blocks).filterMap (·.place.location?) = [] := by
  rw [List.filterMap_eq_nil_iff]
  intro u hu
  obtain ⟨block, offset, hplace, -⟩ := of_mem_memberUniforms hu
  rw [hplace]
  rfl

/-- The locations of a program are those that its link gave out, each once. -/
theorem locations_of_link (h : link shaders location p = some outcome) :
    outcome.program.locations <+: List.range' location outcome.locations := by
  simp only [link] at h
  split at h
  · cases h
    exact List.nil_prefix
  · split at h
    · cases h
    · cases h
      exact List.nil_prefix
    · cases h
      rw [ProgramObject.locations, List.filterMap_append, locations_looseUniforms,
        locations_memberUniforms, List.append_nil]

theorem reading_loose (active : ActiveVariable) (location : ObjectId) :
    LinkedUniform.reading ⟨active, .loose location⟩ = (active, some location, -1, -1) := by
  have hnone : (-1 : Int32).toInt = -1 := by decide
  simp only [LinkedUniform.reading, UniformPlace.location?, UniformPlace.blockIndex,
    UniformPlace.offset, hnone]

theorem reading_member (active : ActiveVariable) {index : Nat} {offset : UInt32}
    (hindex : index < 2 ^ 31) (hoffset : offset.toNat < 2 ^ 31) :
    LinkedUniform.reading ⟨active, .member index offset⟩ =
      (active, none, (index : Int), (offset.toNat : Int)) := by
  simp only [LinkedUniform.reading, UniformPlace.location?, UniformPlace.blockIndex,
    UniformPlace.offset, toInt32_eq_ofNat, Int32.toInt_ofNat_of_lt hindex,
    Int32.toInt_ofNat_of_lt hoffset]

/-- A link lists what the two interfaces expose. -/
theorem merges_of_linkable (h : p.Linkable shaders vertex fragment attributes)
    (hlink : link shaders location p = some outcome) :
    outcome.program.Merges vertex fragment location := by
  cases (link_of_linkable h location).symm.trans hlink
  have hmerged : mergeBlocks [] (vertex.blocks ++ fragment.blocks) =
      .ok (blocksOf vertex fragment) := (mergeBlocks_nil vertex fragment).mpr ⟨h.agree, rfl⟩
  have hapart : (blocksOf vertex fragment).Pairwise fun b c => b.name ≠ c.name :=
    ((mergeBlocks_yields (P := fun _ => True) _ (by simp) (by simp) .nil).value hmerged).2
  refine ⟨?_, fun hcount hoffsets => ?_, rfl, ?_⟩
  · rw [looseUniforms_eq, memberUniforms_eq]
    rfl
  · rw [List.map_append, looseUniforms_eq, memberUniforms_eq, List.map_flatMap]
    refine congrArg₂ (· ++ ·) ?_ (List.flatMap_congr fun (b, index) hb => ?_)
    · simp only [List.mapIdx_eq_zipIdx_map, List.map_map, Function.comp_def, reading_loose]
    have hget : (blocksOf vertex fragment)[index]? = some b := List.mem_zipIdx_iff_getElem?.mp hb
    obtain ⟨hindex, -⟩ := List.getElem?_eq_some_iff.mp hget
    rw [blockUniforms, List.map_map]
    refine List.map_congr_left fun m hm => ?_
    exact reading_member _ (Nat.lt_of_lt_of_le hindex hcount)
      (hoffsets b (List.mem_of_getElem? hget) m hm)
  · rw [List.map_map, List.Nodup, List.pairwise_map]
    exact hapart

end Linking

namespace Context

variable {ctx ctx' : Context} {id : ObjectId} {p : ProgramObject}

/-- Only shaders of its stage are attached to a stage, locations were given out by links, and a
program that is not linked lists nothing. -/
structure Tidy (ctx : Context) : Prop where
  numbered : ctx.Numbered
  attached : ∀ {program stage id}, (ctx.draft? program).bind (·.attached stage) = some id →
    ctx.objects.Has (.shader stage) id
  below : ∀ {id p}, ctx.linked? id = some p → ∀ location ∈ p.locations, location < ctx.nextId
  nothing : ∀ {id p}, ctx.linked? id = some p → p.linked = false → p.ListsNothing

theorem tidy_new (width height : UInt32) : (new width height).Tidy where
  numbered := numbered_new width height
  attached h := by cases h
  below h := by cases h
  nothing h := by cases h

theorem Tidy.exec (h : ctx.Tidy) (call : Call) : (ctx.exec call).2.Tidy where
  numbered := (ctx.exec_grows call).numbered h.numbered
  attached hid := by
    apply (ctx.exec_grows call).has h.numbered
    rcases exec_attached_some hid with hid | hhas
    · exact h.attached hid
    · exact hhas
  below {id p} hp location hlocation := by
    rcases exec_linked?_some hp with hold | rfl | ⟨q, outcome, -, hlink, rfl, hnext⟩
    · exact Nat.lt_of_lt_of_le (h.below hold location hlocation) (ctx.exec_grows call).nextId_le
    · cases hlocation
    · have hgiven := (Linking.locations_of_link hlink).subset hlocation
      rw [hnext]
      exact (List.mem_range'_1.mp hgiven).2
  nothing {id p} hp hunlinked := by
    rcases exec_linked?_some hp with hold | rfl | ⟨q, outcome, -, hlink, rfl, -⟩
    · exact h.nothing hold hunlinked
    · exact ⟨rfl, rfl, rfl⟩
    · have hnothing := Linking.listsNothing_of_link hlink hunlinked
      exact ⟨hnothing.uniforms, List.map_eq_nil_iff.mpr hnothing.blocks, hnothing.attributes⟩

theorem keptByCalls_tidy : KeptByCalls fun ctx ctx' => ctx.Tidy → ctx'.Tidy :=
  ⟨fun _ h => h, fun h h' htidy => h' (h htidy), fun _ call h => h.exec call⟩

theorem issueAll_tidy (width height : UInt32) (calls : List Call) :
    ((new width height).issueAll calls).Tidy :=
  keptByCalls_tidy.issueAll (new width height) calls (tidy_new width height)

theorem Tidy.stage_eq (h : ctx.Tidy) (hp : ctx.objects.programs.get? id = some p) {stage : Stage}
    {shader : ObjectId} {s : ShaderObject} (hattached : p.attached stage = some shader)
    (hs : ctx.objects.shaders.get? shader = some s) : s.stage = stage := by
  have hhas : ctx.objects.Has (.shader stage) shader := by
    have hdraft : (ctx.draft? id).bind (·.attached stage) = some shader := by
      rw [draft?, hp]
      cases stage <;> exact hattached
    exact h.attached hdraft
  have hown : ctx.objects.Has (.shader s.stage) shader := by
    simp only [ObjectTables.Has, hs]
    rfl
  cases h.numbered.alone hown hhas
  rfl

theorem Tidy.listsNothing (h : ctx.Tidy) (hp : ctx.objects.programs.get? id = some p)
    (hunlinked : p.linked = false) : p.ListsNothing := by
  have hlinked : ctx.linked? id = some p.asLinked := by
    rw [linked?, hp]
    rfl
  have hnothing := h.nothing hlinked hunlinked
  exact ⟨hnothing.uniforms, List.map_eq_nil_iff.mp hnothing.blocks, hnothing.attributes⟩

theorem Tidy.location_lt (h : ctx.Tidy) (hp : ctx.objects.programs.get? id = some p)
    {location : ObjectId} (hlocation : location ∈ p.locations) : location < ctx.nextId := by
  have hlinked : ctx.linked? id = some p.asLinked := by
    rw [linked?, hp]
    rfl
  exact h.below hlinked location hlocation

/-- The next number is above every location that was ever listed. -/
theorem location_lt_of_append (width height : UInt32) {before calls : List Call}
    (hbefore : before <+: calls)
    (hp : ((new width height).issueAll before).objects.programs.get? id = some p)
    {location : ObjectId} (hlocation : location ∈ p.locations) :
    location < ((new width height).issueAll calls).nextId := by
  obtain ⟨later, rfl⟩ := hbefore
  have hgrows := keptByCalls_grows.issueAll ((new width height).issueAll before) later
  rw [← issueAll_append] at hgrows
  exact Nat.lt_of_lt_of_le ((issueAll_tidy width height before).location_lt hp hlocation)
    hgrows.nextId_le

end Context

end GlPlayback
