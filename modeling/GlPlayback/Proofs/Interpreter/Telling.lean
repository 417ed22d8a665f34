import GlPlayback.Proofs.Interpreter.Conversation
import Mathlib.Data.List.Forall2

/-!
What a context tells about a program of its own. All the questions about a program are answered from
that program alone; none of them is refused, and none changes an object.
-/
namespace GlPlayback

/-- The record of a uniform as a member of its block. -/
def LinkedUniform.memberRecord (u : LinkedUniform) : MemberRecord :=
  ⟨u.active.name, u.active.type.label, u.active.size, u.place.offset⟩

namespace ProgramObject

/-- The location of the first attribute of a name, -1 if there is none. -/
def attributeLocation (p : ProgramObject) (name : String) : Int32 :=
  ((p.attributes.find? fun a => a.active.name == name).map (·.location.toInt32)).getD (-1)

def attributeRecord (p : ProgramObject) (a : LinkedAttribute) : AttributeRecord :=
  ⟨a.active.name, a.active.type.label, a.active.size, p.attributeLocation a.active.name⟩

/-- The record of the block with an index, as far as its members are known. -/
def blockRecord (p : ProgramObject) (index : UInt32) (members : List MemberRecord) :
    BlockRecord where
  index := index
  name := (p.blocks[index.toNat]?.map (·.name)).getD ""
  size := (p.blocks[index.toNat]?.map (·.dataSize.toInt32)).getD 0
  members := members

/-- The blocks that are known, with the one of this index among them. -/
def knowing (p : ProgramObject) (index : UInt32) (blocks : List BlockRecord) : List BlockRecord :=
  if blocks.any (·.index = index) then blocks else blocks ++ [p.blockRecord index []]

/-- What is known of the uniforms of a program with one more of them. -/
def learn (p : ProgramObject) (found : Asking.Uniforms) (u : LinkedUniform) : Asking.Uniforms :=
  match u.place with
  | .loose _ => { found with
      loose := found.loose ++ [⟨u.active.name, u.active.type.label, u.active.size,
        p.uniformLocation? u.active.name⟩] }
  | .member block _ => { found with
      blocks := Asking.addMember (UInt32.ofNat block) u.memberRecord
        (p.knowing (UInt32.ofNat block) found.blocks) }

end ProgramObject

/-- Positions in a list that is not too long, as 32-bit numbers and as they are. -/
theorem forall₂_positions {α : Type} {xs : List α} (hlength : xs.length < 0x100000000) :
    List.Forall₂ (fun (index : UInt32 × Nat) x => xs[index.1.toNat]? = some x ∧
        xs[index.2]? = some x)
      ((List.range xs.length).map UInt32.ofNat).zipIdx xs := by
  rw [List.forall₂_iff_get]
  refine ⟨by simp, fun i _ hi => ?_⟩
  have hindex : (UInt32.ofNat i).toNat = i := by
    rw [UInt32.toNat_ofNat', Nat.mod_eq_of_lt (Nat.lt_trans hi hlength)]
  simp [hindex]

theorem forall₂_indices {α : Type} {xs : List α} (hlength : xs.length < 0x100000000) :
    List.Forall₂ (fun (index : UInt32) x => xs[index.toNat]? = some x)
      ((List.range xs.length).map UInt32.ofNat) xs := by
  have hfirst : List.Forall₂ (fun (index : UInt32) x => xs[index.toNat]? = some x)
      (((List.range xs.length).map UInt32.ofNat).zipIdx.map Prod.fst) xs :=
    List.forall₂_map_left_iff.mpr ((forall₂_positions hlength).imp fun _ _ h => h.1)
  rwa [List.zipIdx_map_fst] at hfirst

theorem mapM_eq_ok_of_forall₂ {ε α β γ : Type} {f : α → Except ε β} {g : γ → β}
    {as : List α} {cs : List γ} (h : List.Forall₂ (fun a c => f a = .ok (g c)) as cs) :
    as.mapM f = .ok (cs.map g) :=
  mapM_eq_ok_iff.mpr (List.forall₂_map_right_iff.mpr h)

namespace Asking

variable {program : ObjectId} {p : ProgramObject} {α β γ : Type}

/-- Of any context that has a program under a number, a conversation learns the same, and it leaves
the objects and the error as they are. -/
def Tells (program : ObjectId) (p : ProgramObject) (x : Asking α) (a : α) : Prop :=
  ∀ ctx : Context, ctx.objects.programs.get? program = some p →
    (x.run ctx).1 = a ∧ (x.run ctx).2.objects = ctx.objects ∧ (x.run ctx).2.error = ctx.error

namespace Tells

theorem pure (a : α) : Tells program p (Pure.pure a) a :=
  fun _ _ => ⟨rfl, rfl, rfl⟩

theorem bind {x : Asking α} {f : α → Asking β} {a : α} {b : β} (hx : Tells program p x a)
    (hf : Tells program p (f a) b) : Tells program p (x >>= f) b := by
  intro ctx hp
  obtain ⟨ha, hobjects, herror⟩ := hx ctx hp
  have hp' : (x.run ctx).2.objects.programs.get? program = some p := by
    rw [hobjects]
    exact hp
  obtain ⟨hb, hobjects', herror'⟩ := hf (x.run ctx).2 hp'
  rw [run_bind, ha]
  exact ⟨hb, hobjects'.trans hobjects, herror'.trans herror⟩

theorem ask {call : Call} {reply : call.Reply}
    (h : ∀ ctx : Context, ctx.objects.programs.get? program = some p →
      ctx.attempt call = .ok (reply, ctx)) : Tells program p (Asking.ask call) reply := by
  intro ctx hp
  have hexec : ctx.exec call = (reply, ctx.countCall call.name) := by
    simp only [Context.exec, h (ctx.countCall call.name) hp]
  have hrun : (Asking.ask call).run ctx = ctx.exec call := rfl
  rw [hrun, hexec]
  exact ⟨rfl, rfl, rfl⟩

theorem foldlM {f : β → α → Asking β} {g : β → γ → β} {as : List α} {cs : List γ}
    (h : List.Forall₂ (fun a c => ∀ b, Tells program p (f b a) (g b c)) as cs) (b : β) :
    Tells program p (as.foldlM f b) (cs.foldl g b) := by
  induction h generalizing b with
  | nil => exact .pure b
  | cons hac _ ih =>
      rw [List.foldlM_cons]
      exact (hac b).bind (ih _)

theorem mapM {f : α → Asking β} {g : γ → β} {as : List α} {cs : List γ}
    (h : List.Forall₂ (fun a c => Tells program p (f a) (g c)) as cs) :
    Tells program p (as.mapM f) (cs.map g) := by
  have hloop (done : List β) :
      Tells program p (List.mapM.loop f as done) (done.reverse ++ cs.map g) := by
    induction h generalizing done with
    | nil =>
        rw [List.map_nil, List.append_nil]
        exact .pure done.reverse
    | @cons a c as cs hac _ ih =>
        have hmore := ih (g c :: done)
        rw [List.reverse_cons, List.append_assoc] at hmore
        exact hac.bind hmore
  exact hloop []

end Tells

/-- A count that fits the number by which it is answered. -/
theorem tells_activeCount {name : UInt32} {count : Nat} (hcount : count < 0x80000000)
    (h : ∀ ctx : Context, ctx.objects.programs.get? program = some p →
      ctx.programParameter program name = .ok (some (Int32.ofNat count))) :
    Tells program p (activeCount program name) count := by
  have hask : Tells program p (ask (.getProgramParameter program name))
      (some (Int32.ofNat count) : Option Int32) :=
    .ask fun ctx hp => by
      rw [Context.attempt, h ctx hp]
      rfl
  have hclamp : ((some (Int32.ofNat count)).getD 0).toNatClampNeg = count :=
    Int32.toNatClampNeg_ofNat_of_lt hcount
  refine hask.bind ?_
  rw [hclamp]
  exact .pure count

theorem tells_properties (hlength : p.uniforms.length < 0x100000000) {name : UInt32}
    (property : LinkedUniform → Int32)
    (hname : ∀ u, Context.uniformProperty name u = .ok (property u)) :
    Tells program p (ask (.getActiveUniforms program
        ((List.range p.uniforms.length).map UInt32.ofNat) name))
      (p.uniforms.map property : List Int32) := by
  refine .ask fun ctx hp => ?_
  have hanswers : ctx.activeUniforms program
      ((List.range p.uniforms.length).map UInt32.ofNat) name = .ok (p.uniforms.map property) := by
    simp only [Context.activeUniforms, hp]
    refine mapM_eq_ok_of_forall₂ ((forall₂_indices hlength).imp fun index u hu => ?_)
    simp only [hu, hname]
  rw [Context.attempt, hanswers]
  rfl

theorem tells_emptyBlock (index : UInt32) :
    Tells program p (emptyBlock program index) (p.blockRecord index []) := by
  have hblock (ctx : Context) (hp : ctx.objects.programs.get? program = some p) :
      ctx.activeBlock? program index = p.blocks[index.toNat]? := by
    rw [Context.activeBlock?, hp]
    rfl
  have hname : Tells program p (ask (.getActiveBlockName program index))
      (p.blocks[index.toNat]?.map (·.name) : Option String) :=
    .ask fun ctx hp => by
      rw [Context.attempt, hblock ctx hp]
      rfl
  have hsize : Tells program p
      (ask (.getActiveBlockParameter program index Enumerant.uniformBlockDataSize))
      (p.blocks[index.toNat]?.map (·.dataSize.toInt32) : Option Int32) :=
    .ask fun ctx hp => by
      rw [Context.attempt, Context.blockParameter, hblock ctx hp]
      cases p.blocks[index.toNat]? <;> rfl
  exact hname.bind (hsize.bind (.pure _))

theorem tells_knowing (index : UInt32) (blocks : List BlockRecord) :
    Tells program p (knowing program index blocks) (p.knowing index blocks) := by
  rw [knowing, ProgramObject.knowing]
  split
  · exact .pure blocks
  · exact (tells_emptyBlock index).bind (.pure _)

theorem tells_addUniform (found : Uniforms) {index : UInt32} {u : LinkedUniform}
    (hu : p.uniforms[index.toNat]? = some u)
    (hplace : ∀ block offset, u.place = .member block offset → block < 0x80000000) :
    Tells program p (addUniform program found index (some u.place.blockIndex) (some u.place.offset))
      (p.learn found u) := by
  have hactive : Tells program p (ask (.getActiveUniform program index))
      (some u.active : Option ActiveVariable) :=
    .ask fun ctx hp => by
      have hactive : ctx.activeUniform program index = .ok u.active := by
        simp only [Context.activeUniform, hp, Option.bind_some, hu]
        rfl
      rw [Context.attempt, hactive]
      rfl
  refine hactive.bind ?_
  simp only [ProgramObject.learn, LinkedUniform.memberRecord]
  cases hwhere : u.place with
  | loose location =>
      have hlocation : Tells program p (ask (.getUniformLocation program u.active.name))
          (p.uniformLocation? u.active.name : Option ObjectId) :=
        .ask fun ctx hp => by
          rw [Context.attempt, Context.uniformLocation, hp]
          rfl
      exact hlocation.bind (.pure _)
  | member block offset =>
      have hblock := hplace block offset hwhere
      have hnonneg : 0 ≤ Int32.ofNat block := by
        rw [Int32.le_iff_toInt_le, Int32.toInt_ofNat_of_lt hblock]
        exact Int.natCast_nonneg block
      have hindex : (some (Int32.ofNat block)).filter (0 ≤ ·) = some (Int32.ofNat block) :=
        if_pos (decide_eq_true hnonneg)
      simp only [UniformPlace.blockIndex, hindex]
      exact (tells_knowing (UInt32.ofNat block) found.blocks).bind (.pure _)

theorem tells_uniforms (hlength : p.uniforms.length < 0x80000000)
    (hplaces : ∀ u ∈ p.uniforms, ∀ block offset, u.place = .member block offset →
      block < 0x80000000) :
    Tells program p (uniforms program) (p.uniforms.foldl p.learn {}) := by
  have hwide : p.uniforms.length < 0x100000000 := Nat.lt_trans hlength (by decide)
  have hcount : Tells program p (activeCount program Enumerant.activeUniforms) p.uniforms.length :=
    tells_activeCount hlength fun ctx hp => by
      rw [Context.programParameter, hp]
      rfl
  refine hcount.bind ?_
  refine (tells_properties hwide (·.place.blockIndex) fun _ => rfl).bind ?_
  refine (tells_properties hwide (·.place.offset) fun _ => rfl).bind ?_
  refine .foldlM ((forall₂_positions hwide).imp ?_) _
  rintro ⟨index, i⟩ u ⟨hindex, hi⟩ found
  simp only [List.getElem?_map, hi, Option.map_some]
  exact tells_addUniform found hindex (hplaces u (List.mem_of_getElem? hi))

theorem tells_attributeAt {index : UInt32} {a : LinkedAttribute}
    (ha : p.attributes[index.toNat]? = some a) :
    Tells program p (attributeAt program index) (some (p.attributeRecord a)) := by
  have hactive : Tells program p (ask (.getActiveAttribute program index))
      (some a.active : Option ActiveVariable) :=
    .ask fun ctx hp => by
      have hactive : ctx.activeAttribute program index = .ok a.active := by
        simp only [Context.activeAttribute, hp, Option.bind_some, ha]
        rfl
      rw [Context.attempt, hactive]
      rfl
  have hlocation : Tells program p (ask (.getAttributeLocation program a.active.name))
      (p.attributeLocation a.active.name : Int32) :=
    .ask fun ctx hp => by
      rw [Context.attempt, Context.attributeLocation, hp]
      rfl
  exact hactive.bind (hlocation.bind (.pure _))

theorem tells_attributes (hlength : p.attributes.length < 0x80000000) :
    Tells program p (attributes program) (p.attributes.map p.attributeRecord) := by
  have hwide : p.attributes.length < 0x100000000 := Nat.lt_trans hlength (by decide)
  have hcount : Tells program p (activeCount program Enumerant.activeAttributes)
      p.attributes.length :=
    tells_activeCount hlength fun ctx hp => by
      rw [Context.programParameter, hp]
      rfl
  have hfound : (p.attributes.map fun a => some (p.attributeRecord a)).filterMap id =
      p.attributes.map p.attributeRecord := by
    rw [List.filterMap_map]
    exact congrFun List.filterMap_eq_map _
  refine hcount.bind ?_
  refine (Tells.mapM ((forall₂_indices hwide).imp fun _ _ ha => tells_attributeAt ha)).bind ?_
  rw [hfound]
  exact .pure _

end Asking

end GlPlayback
