import GlPlayback.Proofs.Gl.Linked
import GlPlayback.Proofs.Shader.Naming

/-!
What a program lists once it is linked: first its loose uniforms, each under a name of its own, then
the members of its blocks, block after block. So a loose uniform is found again by its active name.
The blocks are laid out as they were declared, each under a name of its own.
-/
namespace GlPlayback

open Attempt

theorem ActiveVariable.goesBy_self (active : ActiveVariable) : active.goesBy active.name := by
  simp [goesBy]

theorem ActiveVariable.stem_eq_of_goesBy {active : ActiveVariable} {name : String}
    (h : active.goesBy name) : stem active.name = stem name := by
  simp only [goesBy, Bool.or_eq_true, beq_iff_eq] at h
  rcases h with heq | heq
  · rw [heq]
  · rw [heq, stem_element]

namespace Linking

variable {seen : List String} {decls loose : List UniformDecl} {location : ObjectId}

theorem of_mem_distinctUniforms {d : UniformDecl} (hd : d ∈ distinctUniforms seen decls) :
    d ∈ decls ∧ d.name ∉ seen := by
  induction decls generalizing seen with
  | nil => cases hd
  | cons first rest ih =>
      simp only [distinctUniforms] at hd
      split at hd
      · obtain ⟨hmem, hnew⟩ := ih hd
        exact ⟨List.mem_cons_of_mem first hmem, hnew⟩
      · next hfirst =>
          rcases List.mem_cons.mp hd with rfl | hd
          · exact ⟨List.mem_cons_self, hfirst⟩
          · obtain ⟨hmem, hnew⟩ := ih hd
            exact ⟨List.mem_cons_of_mem first hmem, fun h => hnew (List.mem_cons_of_mem _ h)⟩

theorem distinctUniforms_pairwise (seen : List String) (decls : List UniformDecl) :
    (distinctUniforms seen decls).Pairwise fun d e => d.name ≠ e.name := by
  induction decls generalizing seen with
  | nil => exact .nil
  | cons first rest ih =>
      simp only [distinctUniforms]
      split
      · exact ih seen
      · refine .cons (fun d hd heq => ?_) (ih _)
        exact (of_mem_distinctUniforms hd).2 (heq ▸ List.mem_cons_self)

theorem of_mem_looseUniforms {u : LinkedUniform} (hu : u ∈ looseUniforms location loose) :
    (∃ d ∈ loose, u.active.name = d.activeName) ∧ ∃ own, u.place = .loose own := by
  induction loose generalizing location with
  | nil => cases hu
  | cons first rest ih =>
      rcases List.mem_cons.mp hu with rfl | hu
      · exact ⟨⟨first, List.mem_cons_self, rfl⟩, location, rfl⟩
      · obtain ⟨⟨d, hd, hname⟩, hplace⟩ := ih hu
        exact ⟨⟨d, List.mem_cons_of_mem first hd, hname⟩, hplace⟩

/-- The members of the block with an index. -/
def blockUniforms (index : Nat) (block : UniformBlock) : List LinkedUniform :=
  block.members.map fun m =>
    ⟨⟨block.memberName m, m.decl.type, m.decl.size⟩, .member index m.offset⟩

theorem memberUniforms_cons (index : Nat) (block : UniformBlock) (rest : List UniformBlock) :
    memberUniforms index (block :: rest) =
      blockUniforms index block ++ memberUniforms (index + 1) rest :=
  rfl

theorem of_mem_blockUniforms {index : Nat} {block : UniformBlock} {u : LinkedUniform}
    (hu : u ∈ blockUniforms index block) : ∃ offset, u.place = .member index offset := by
  obtain ⟨m, -, rfl⟩ := List.mem_map.mp hu
  exact ⟨m.offset, rfl⟩

theorem of_mem_memberUniforms {index : Nat} {blocks : List UniformBlock} {u : LinkedUniform}
    (hu : u ∈ memberUniforms index blocks) :
    ∃ block offset, u.place = .member block offset ∧ index ≤ block ∧
      block < index + blocks.length := by
  induction blocks generalizing index with
  | nil => cases hu
  | cons first rest ih =>
      rw [memberUniforms_cons] at hu
      rcases List.mem_append.mp hu with hu | hu
      · obtain ⟨offset, hplace⟩ := of_mem_blockUniforms hu
        exact ⟨index, offset, hplace, Nat.le_refl _, by simp⟩
      · obtain ⟨block, offset, hplace, hlower, hupper⟩ := ih hu
        refine ⟨block, offset, hplace, Nat.le_of_succ_le hlower, ?_⟩
        rw [List.length_cons]
        omega

/-- The first uniform that goes by a name of a loose one is that one itself. -/
theorem findSome?_looseUniforms {β : Type} {g : LinkedUniform → Option β}
    (hplain : ∀ d ∈ loose, d.IsPlain) (hdistinct : loose.Pairwise fun d e => d.name ≠ e.name)
    {u : LinkedUniform} (hu : u ∈ looseUniforms location loose) {name : String}
    (hname : u.active.goesBy name) (hg : (g u).isSome) (rest : List LinkedUniform) :
    ((looseUniforms location loose ++ rest).findSome? fun v =>
      if v.active.goesBy name then g v else none) = g u := by
  induction loose generalizing location with
  | nil => cases hu
  | cons first more ih =>
      obtain ⟨hfirst, hmore⟩ := List.forall_mem_cons.mp hplain
      rw [List.pairwise_cons] at hdistinct
      rw [looseUniforms, List.cons_append, List.findSome?_cons]
      rcases List.mem_cons.mp hu with rfl | hu
      · obtain ⟨b, hb⟩ := Option.isSome_iff_exists.mp hg
        rw [if_pos hname, hb]
      · obtain ⟨⟨d, hd, hactive⟩, -⟩ := of_mem_looseUniforms hu
        have hother : ¬ ActiveVariable.goesBy ⟨first.activeName, first.type, first.size⟩ name := by
          intro hgoes
          have hstem : stem first.activeName = stem d.activeName :=
            (ActiveVariable.stem_eq_of_goesBy hgoes).trans <|
              (ActiveVariable.stem_eq_of_goesBy hname).symm.trans (congrArg stem hactive)
          rw [hfirst.stem_activeName, (hmore d hd).stem_activeName] at hstem
          exact hdistinct.1 d hd (String.toList_inj.mp hstem)
        rw [if_neg hother]
        exact ih hmore hdistinct.2 hu

end Linking

/-- What a program lists was joined from loose uniforms and blocks. -/
structure ProgramObject.Joins (p : ProgramObject) (location : ObjectId)
    (loose : List UniformDecl) (blocks : List UniformBlock) : Prop where
  plain : ∀ d ∈ loose, d.IsPlain
  distinct : loose.Pairwise fun d e => d.name ≠ e.name
  laid : ∀ b ∈ blocks, b.IsLaid
  apart : blocks.Pairwise fun b other => b.name ≠ other.name
  uniforms : p.uniforms = Linking.looseUniforms location loose ++ Linking.memberUniforms 0 blocks
  blocks : p.blocks.map LinkedBlock.unbound = blocks.map Linking.linkedBlock

namespace ProgramObject

variable {p p' : ProgramObject} {location : ObjectId} {loose : List UniformDecl}
  {blocks : List UniformBlock}

theorem Joins.uniformLocation? (h : p.Joins location loose blocks) {u : LinkedUniform}
    (hu : u ∈ Linking.looseUniforms location loose) :
    p.uniformLocation? u.active.name = u.place.location? := by
  obtain ⟨-, own, hplace⟩ := Linking.of_mem_looseUniforms hu
  have hsome : u.place.location?.isSome := by
    rw [hplace]
    rfl
  rw [ProgramObject.uniformLocation?, h.uniforms]
  exact Linking.findSome?_looseUniforms h.plain h.distinct hu u.active.goesBy_self hsome _

def IsJoined (p : ProgramObject) : Prop :=
  ∃ location loose blocks, p.Joins location loose blocks

theorem isJoined_of_nothing (huniforms : p.uniforms = []) (hblocks : p.blocks = []) :
    p.IsJoined :=
  ⟨0, [], [], by simp, .nil, by simp, .nil, huniforms,
    congrArg (List.map LinkedBlock.unbound) hblocks⟩

theorem IsJoined.of_asLinked (h : p.IsJoined) (hkept : p'.asLinked = p.asLinked) :
    p'.IsJoined := by
  have huniforms : p'.asLinked.uniforms = p.asLinked.uniforms := by rw [hkept]
  have hblocks : p'.asLinked.blocks = p.asLinked.blocks := by rw [hkept]
  obtain ⟨location, loose, blocks, hjoins⟩ := h
  exact ⟨location, loose, blocks, { hjoins with
    uniforms := huniforms.trans hjoins.uniforms
    blocks := hblocks.trans hjoins.blocks }⟩

end ProgramObject

/-- Loose uniforms have plain names, and blocks are laid out. -/
structure ShaderInterface.IsSound (i : ShaderInterface) : Prop where
  plain : ∀ d ∈ i.uniforms, d.IsPlain
  laid : ∀ b ∈ i.blocks, b.IsLaid

def ShaderObject.IsSound (s : ShaderObject) : Prop :=
  s.interface.IsSound

theorem ShaderObject.compile_isSound (s : ShaderObject) : s.compile.IsSound := by
  simp only [compile]
  split
  · next interface hreflect =>
      obtain ⟨hplain, hlaid⟩ := (Shader.reflect_yields s.stage s.source).value hreflect
      exact ⟨hplain, hlaid⟩
  · exact ⟨by simp, by simp⟩

/-- Whatever a table holds is of one sort. -/
def Table.Holds {κ α : Type} [DecidableEq κ] (P : α → Prop) (t : Table κ α) : Prop :=
  ∀ key a, t.get? key = some a → P a

theorem Table.Holds.insert {α : Type} {P : α → Prop} {t : Table ObjectId α} (h : t.Holds P)
    (key : ObjectId) {a : α} (ha : P a) : (t.insert key a).Holds P := by
  intro other b hb
  rw [Table.get?_insert] at hb
  split at hb
  · cases hb
    exact ha
  · exact h other b hb

namespace Linking

variable {shaders : Table ObjectId ShaderObject}

theorem stageInterface_yields (hshaders : shaders.Holds ShaderObject.IsSound) (stage : Stage)
    (attached : Option ObjectId) :
    Yields ShaderInterface.IsSound (fun _ => True) (stageInterface shaders stage attached) := by
  simp only [stageInterface]
  split
  · trivial
  · next s hs =>
      obtain ⟨id, -, hid⟩ := Option.bind_eq_some_iff.mp hs
      split
      · exact hshaders id s hid
      · trivial

/-- Of blocks under one name only the first is taken over. -/
theorem mergeBlocks_yields {P : UniformBlock → Prop} (blocks : List UniformBlock)
    {found : List UniformBlock} (hblocks : ∀ b ∈ blocks, P b) (hfound : ∀ b ∈ found, P b)
    (hapart : found.Pairwise fun b other => b.name ≠ other.name) :
    Yields (fun merged => (∀ b ∈ merged, P b) ∧
        merged.Pairwise fun b other => b.name ≠ other.name) (fun _ => True)
      (mergeBlocks found blocks) := by
  induction blocks generalizing found with
  | nil => exact ⟨hfound, hapart⟩
  | cons block rest ih =>
      obtain ⟨hblock, hrest⟩ := List.forall_mem_cons.mp hblocks
      simp only [mergeBlocks]
      split
      · next hnew =>
          apply ih hrest
          · exact List.forall_mem_append.mpr ⟨hfound, by simpa using hblock⟩
          · refine List.pairwise_append.mpr ⟨hapart, List.pairwise_singleton _ _, ?_⟩
            intro b hb other hother
            cases List.mem_singleton.mp hother
            simpa using List.find?_eq_none.mp hnew b hb
      · split
        · exact ih hrest hfound hapart
        · trivial

/-- The loose uniforms and the blocks of two stages that could be joined. -/
theorem joinStages_yields (hshaders : shaders.Holds ShaderObject.IsSound)
    (program : ProgramObject) :
    Yields (fun joined => (∀ d ∈ joined.1.uniforms ++ joined.2.1.uniforms, d.IsPlain) ∧
        (∀ b ∈ joined.2.2, b.IsLaid) ∧
        joined.2.2.Pairwise fun b other => b.name ≠ other.name)
      (fun _ => True) (joinStages shaders program) := by
  refine (stageInterface_yields hshaders .vertex _).bind fun vertex hvertex => ?_
  refine (stageInterface_yields hshaders .fragment _).bind fun fragment hfragment => ?_
  have hblocks : ∀ b ∈ vertex.blocks ++ fragment.blocks, b.IsLaid :=
    List.forall_mem_append.mpr ⟨hvertex.laid, hfragment.laid⟩
  refine (mergeBlocks_yields _ hblocks (by simp) .nil).bind fun blocks hmerged => ?_
  exact ⟨List.forall_mem_append.mpr ⟨hvertex.plain, hfragment.plain⟩, hmerged⟩

theorem link_isJoined (hshaders : shaders.Holds ShaderObject.IsSound) {location : ObjectId}
    {program : ProgramObject} {outcome : Outcome}
    (h : link shaders location program = some outcome) : outcome.program.IsJoined := by
  simp only [link] at h
  split at h
  · cases h
    exact ProgramObject.isJoined_of_nothing rfl rfl
  · next vertex fragment blocks hjoin =>
      obtain ⟨hplain, hlaid, hapart⟩ := (joinStages_yields hshaders program).value hjoin
      split at h
      · cases h
      · cases h
        exact ProgramObject.isJoined_of_nothing rfl rfl
      · cases h
        refine ⟨location, _, blocks, fun d hd => ?_, distinctUniforms_pairwise [] _, hlaid, hapart,
          rfl, ?_⟩
        · exact hplain d (of_mem_distinctUniforms hd).1
        · exact List.map_map

end Linking

namespace Context

variable {ctx ctx' : Context}

/-- Shaders expose plain names and blocks that are laid out, and programs list what was joined. -/
structure Joined (ctx : Context) : Prop where
  shaders : ctx.objects.shaders.Holds ShaderObject.IsSound
  programs : ctx.objects.programs.Holds ProgramObject.IsJoined

theorem joined_new (width height : UInt32) : (new width height).Joined :=
  ⟨fun _ _ => (nomatch ·), fun _ _ => (nomatch ·)⟩

theorem Joined.changeShader (h : ctx.Joined) (id : ObjectId) {change : ShaderObject → ShaderObject}
    (hchange : ∀ s, s.IsSound → (change s).IsSound) :
    Yields Joined (fun _ => True) (ctx.changeShader id change) := by
  simp only [Context.changeShader]
  split
  · trivial
  · next s hs => exact ⟨h.shaders.insert id (hchange s (h.shaders id s hs)), h.programs⟩

/-- What programs list stays the same, if only what no link determines is changed. -/
theorem Joined.of_linked (h : ctx.Joined)
    (hshaders : ctx'.objects.shaders.Holds ShaderObject.IsSound)
    (hlinked : ctx'.linked? = ctx.linked?) : ctx'.Joined := by
  refine ⟨hshaders, fun id p' hp' => ?_⟩
  have hkept : ctx.linked? id = some p'.asLinked := by
    rw [← hlinked, linked?, hp']
    rfl
  obtain ⟨p, hp, heq⟩ := Option.map_eq_some_iff.mp hkept
  exact (h.programs id p hp).of_asLinked heq.symm

theorem Joined.linkProgram (h : ctx.Joined) (program : ObjectId) :
    Yields Joined (fun _ => True) (ctx.linkProgram program) := by
  simp only [Context.linkProgram]
  split
  · trivial
  · split
    · trivial
    · next outcome hlink =>
        exact ⟨h.shaders, h.programs.insert program (Linking.link_isJoined h.shaders hlink)⟩

theorem Joined.attempt (h : ctx.Joined) (call : Call) :
    Yields (fun answered => answered.2.Joined) (fun _ => True) (ctx.attempt call) := by
  have hframe (hcreate : call ≠ .createProgram) (hlink : ∀ program, call ≠ .linkProgram program)
      (hshaders : .shaderObjects ∉ call.touches) :
      Yields (fun answered => answered.2.Joined) (fun _ => True) (ctx.attempt call) := by
    refine Yields.of_forall _ (fun answered hanswered => ?_) fun _ _ => trivial
    have hkept : answered.2.objects.shaders = ctx.objects.shaders :=
      (ctx.attempt_within call).value hanswered .shaderObjects hshaders
    exact h.of_linked (hkept ▸ h.shaders) ((ctx.attempt_linked hcreate hlink).value hanswered)
  have heffect {changed : Attempt Context} (hchanged : Yields Joined (fun _ => True) changed) :
      Yields (fun answered => answered.2.Joined) (fun _ => True) (effect changed) :=
    hchanged.map fun _ hctx => hctx
  cases call with
  | createShader type =>
      simp only [Context.attempt, createShader]
      split
      · trivial
      · exact ⟨h.shaders.insert _ ⟨by simp, by simp⟩, h.programs⟩
  | shaderSource shader source => exact heffect (h.changeShader shader fun _ hs => hs)
  | compileShader shader => exact heffect (h.changeShader shader fun s _ => s.compile_isSound)
  | deleteShader shader =>
      simp only [Context.attempt, deleteShader]
      split
      · exact h
      · next s hs => exact ⟨h.shaders.insert shader (h.shaders shader s hs), h.programs⟩
  | createProgram =>
      exact ⟨h.shaders, h.programs.insert _ (ProgramObject.isJoined_of_nothing rfl rfl)⟩
  | linkProgram program => exact heffect (h.linkProgram program)
  | _ => exact hframe (by simp) (by simp) (by simp [Call.touches])

theorem Joined.exec (h : ctx.Joined) (call : Call) : (ctx.exec call).2.Joined := by
  have hcounted : (ctx.countCall call.name).Joined := ⟨h.shaders, h.programs⟩
  exact exec_of_attempt Joined (hcounted.attempt call) fun _ _ => ⟨h.shaders, h.programs⟩

end Context

end GlPlayback
