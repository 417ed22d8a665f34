import GlPlayback.Proofs.Gl.Relinking
import GlPlayback.Proofs.Interpreter.Linkage

/-!
Two contexts in which a program was left the same, but for the numbers of locations, are asked about
it with the same outcome, but for these numbers.
-/
namespace GlPlayback

/-- The record of a uniform but for the number of its location. -/
def UniformRecord.unnumbered (u : UniformRecord) : UniformRecord :=
  { u with location := u.location.map fun _ => 0 }

def ProgramRecord.unnumbered (record : ProgramRecord) : ProgramRecord :=
  { record with uniforms := record.uniforms.map UniformRecord.unnumbered }

/-- A record but for the numbers of locations. -/
def ResourceRecord.unnumbered : ResourceRecord → ResourceRecord
  | program record => .program record.unnumbered
  | record => record

namespace Asking

variable {α β γ δ : Type}

/-- Of two contexts that meet a condition, two conversations learn what is related, and they leave
contexts that meet it. -/
def Matches (I : Context → Context → Prop) (R : α → β → Prop) (x : Asking α) (y : Asking β) :
    Prop :=
  ∀ ctx ctx', I ctx ctx' → R (x.run ctx).1 (y.run ctx').1 ∧ I (x.run ctx).2 (y.run ctx').2

namespace Matches

variable {I : Context → Context → Prop} {R : α → β → Prop} {S : γ → δ → Prop}

theorem pure {a : α} {b : β} (h : R a b) :
    Matches I R (Pure.pure a : Asking α) (Pure.pure b : Asking β) :=
  fun _ _ hI => ⟨h, hI⟩

theorem bind {x : Asking α} {y : Asking β} {f : α → Asking γ} {g : β → Asking δ}
    (hxy : Matches I R x y) (hfg : ∀ a b, R a b → Matches I S (f a) (g b)) :
    Matches I S (x >>= f) (y >>= g) := by
  intro ctx ctx' hI
  obtain ⟨hR, hI'⟩ := hxy ctx ctx' hI
  rw [run_bind, run_bind]
  exact hfg _ _ hR _ _ hI'

theorem foldlM {f : γ → α → Asking γ} {g : δ → α → Asking δ}
    (hfg : ∀ c d a, S c d → Matches I S (f c a) (g d a)) (as : List α) {c : γ} {d : δ}
    (h : S c d) : Matches I S (as.foldlM f c) (as.foldlM g d) := by
  induction as generalizing c d with
  | nil => exact .pure h
  | cons a rest ih =>
      rw [List.foldlM_cons, List.foldlM_cons]
      exact (hfg c d a h).bind fun c' d' h' => ih h'

theorem mapM {f g : α → Asking β} (hfg : ∀ a, Matches I Eq (f a) (g a)) (as : List α) :
    Matches I Eq (as.mapM f) (as.mapM g) := by
  have hloop (done : List β) :
      Matches I Eq (List.mapM.loop f as done) (List.mapM.loop g as done) := by
    induction as generalizing done with
    | nil => exact .pure rfl
    | cons a rest ih =>
        refine (hfg a).bind ?_
        rintro b _ rfl
        exact ih (b :: done)
  exact hloop []

end Matches

/-- A program of one context lists what a program of another one does, but for the numbers of
locations. -/
def ListAlike (program program' : ObjectId) (ctx ctx' : Context) : Prop :=
  ctx'.listed? program' = ctx.listed? program

variable {program program' : ObjectId} {ctx ctx' : Context}

theorem ListAlike.cases (h : ListAlike program program' ctx ctx') :
    (ctx.objects.programs.get? program = none ∧ ctx'.objects.programs.get? program' = none) ∨
    ∃ p p', ctx.objects.programs.get? program = some p ∧
      ctx'.objects.programs.get? program' = some p' ∧ p'.listed = p.listed := by
  simp only [ListAlike, Context.listed?] at h
  cases hp : ctx.objects.programs.get? program with
  | none =>
      rw [hp] at h
      exact .inl ⟨rfl, Option.map_eq_none_iff.mp h⟩
  | some p =>
      rw [hp, Option.map_some] at h
      obtain ⟨p', hp', hlisted⟩ := Option.map_eq_some_iff.mp h
      exact .inr ⟨p, p', rfl, hp', hlisted⟩

section Listed

variable {p p' : ProgramObject} (h : p'.listed = p.listed)
include h

theorem linked_of_listed : p'.linked = p.linked := by
  have hlinked := congrArg ProgramObject.linked h
  exact hlinked

theorem attributes_of_listed : p'.attributes = p.attributes := by
  have hattributes := congrArg ProgramObject.attributes h
  exact hattributes

theorem length_uniforms_of_listed : p'.uniforms.length = p.uniforms.length := by
  have hlengths := congrArg (fun q => q.uniforms.length) h
  simpa [ProgramObject.listed] using hlengths

theorem uniform_of_listed (index : Nat) :
    (p'.uniforms[index]?).map LinkedUniform.unnumbered =
      (p.uniforms[index]?).map LinkedUniform.unnumbered := by
  have huniforms := congrArg (fun q => q.uniforms[index]?) h
  simpa [ProgramObject.listed] using huniforms

theorem block_of_listed (index : Nat) :
    (p'.blocks[index]?).map LinkedBlock.unbound = (p.blocks[index]?).map LinkedBlock.unbound := by
  have hblocks := congrArg (fun q => q.blocks[index]?) h
  simpa [ProgramObject.listed, ProgramObject.asLinked] using hblocks

theorem findIdx?_of_listed (name : String) :
    (p'.blocks.findIdx? fun b => b.name == name) = p.blocks.findIdx? fun b => b.name == name := by
  have hunbound (q : ProgramObject) : (q.blocks.findIdx? fun b => b.name == name) =
      q.listed.blocks.findIdx? fun b => b.name == name := by
    simp only [ProgramObject.listed, ProgramObject.asLinked, List.findIdx?_map]
    rfl
  rw [hunbound p', hunbound p, h]

theorem uniformLocation?_of_listed (name : String) :
    (p'.uniformLocation? name).map (fun _ => 0) = (p.uniformLocation? name).map fun _ => 0 := by
  have hunnumbered (us : List LinkedUniform) :
      (us.findSome? fun u => if u.active.goesBy name then u.place.location? else none).map
          (fun _ => 0) =
        (us.map LinkedUniform.unnumbered).findSome? fun u =>
          if u.active.goesBy name then u.place.location? else none := by
    induction us with
    | nil => rfl
    | cons u rest ih =>
        obtain ⟨active, place⟩ := u
        simp only [List.map_cons, List.findSome?_cons, LinkedUniform.unnumbered] at ih ⊢
        cases active.goesBy name with
        | false => exact ih
        | true =>
            cases place with
            | loose location => rfl
            | member block offset => exact ih
  have huniforms : p'.uniforms.map LinkedUniform.unnumbered =
      p.uniforms.map LinkedUniform.unnumbered := congrArg ProgramObject.uniforms h
  simp only [ProgramObject.uniformLocation?, hunnumbered, huniforms]

end Listed

end Asking

/-- What a call answers by its own account of the context. -/
def ReplyKind.settle (kind : ReplyKind) : Attempt kind.Value → kind.Value
  | .ok reply => reply
  | .error _ => kind.refused

/-- The calls after which a program may list something else. -/
def Call.relists : Call → Bool
  | createProgram | linkProgram _ => true
  | _ => false

namespace Context

variable {ctx ctx' : Context} {program program' : ObjectId}

theorem exec_listed?_of_relists {call : Call} (hcall : call.relists = false) :
    (ctx.exec call).2.listed? = ctx.listed? := by
  apply exec_listed?
  · rintro rfl
    cases hcall
  · rintro program rfl
    cases hcall

theorem exec_answer {call : Call} {reply : Attempt call.Reply}
    (h : (ctx.countCall call.name).attempt call =
      Attempt.answer (ctx.countCall call.name) reply) :
    (ctx.exec call).1 = call.kind.settle reply := by
  simp only [exec, h, Attempt.answer]
  rcases reply with (_ | _) | _ <;> rfl

section Alike

variable (h : Asking.ListAlike program program' ctx ctx')
include h

theorem programParameter_alike {name : UInt32}
    (hname : name ∈ [Enumerant.linkStatus, Enumerant.activeUniforms,
      Enumerant.activeAttributes]) :
    ctx'.programParameter program' name = ctx.programParameter program name := by
  rcases h.cases with ⟨hnone, hnone'⟩ | ⟨p, p', hp, hp', hlisted⟩
  · simp only [programParameter, hnone, hnone']
  · simp only [List.mem_cons, List.not_mem_nil, or_false] at hname
    have hlinked := Asking.linked_of_listed hlisted
    have huniforms := Asking.length_uniforms_of_listed hlisted
    have hattributes := Asking.attributes_of_listed hlisted
    rcases hname with rfl | rfl | rfl
    · simp only [programParameter, hp, hp', hlinked, if_true]
    · simp only [programParameter, hp, hp', huniforms]
      rfl
    · simp only [programParameter, hp, hp', hattributes]
      rfl

theorem activeUniform_alike (index : UInt32) :
    ctx'.activeUniform program' index = ctx.activeUniform program index := by
  rcases h.cases with ⟨hnone, hnone'⟩ | ⟨p, p', hp, hp', hlisted⟩
  · simp only [activeUniform, hnone, hnone']
  · have huniform := Asking.uniform_of_listed hlisted index.toNat
    simp only [activeUniform, hp, hp', Option.bind_some]
    cases hu : p.uniforms[index.toNat]? with
    | none =>
        rw [hu] at huniform
        rw [Option.map_eq_none_iff.mp huniform]
    | some u =>
        rw [hu, Option.map_some] at huniform
        obtain ⟨u', hu', hsame⟩ := Option.map_eq_some_iff.mp huniform
        rw [hu']
        have hunnumbered : u'.unnumbered.active = u.unnumbered.active := by rw [hsame]
        have hactive : u'.active = u.active := hunnumbered
        simp only [hactive]

theorem activeUniforms_alike (indices : List UInt32) {name : UInt32}
    (hname : name = Enumerant.uniformBlockIndex ∨ name = Enumerant.uniformOffset) :
    ctx'.activeUniforms program' indices name = ctx.activeUniforms program indices name := by
  rcases h.cases with ⟨hnone, hnone'⟩ | ⟨p, p', hp, hp', hlisted⟩
  · simp only [activeUniforms, hnone, hnone']
  · simp only [activeUniforms, hp, hp']
    congr 1
    funext index
    have huniform := Asking.uniform_of_listed hlisted index.toNat
    -- The two properties are the same of all loose uniforms.
    have hproperty (u : LinkedUniform) :
        uniformProperty name u.unnumbered = uniformProperty name u := by
      obtain ⟨active, place⟩ := u
      rcases hname with rfl | rfl <;> cases place <;> rfl
    cases hu : p.uniforms[index.toNat]? with
    | none =>
        rw [hu] at huniform
        rw [Option.map_eq_none_iff.mp huniform]
    | some u =>
        rw [hu, Option.map_some] at huniform
        obtain ⟨u', hu', hsame⟩ := Option.map_eq_some_iff.mp huniform
        rw [hu']
        simp only
        rw [← hproperty u', hsame, hproperty u]

theorem uniformBlockIndex_alike (name : String) :
    ctx'.uniformBlockIndex program' name = ctx.uniformBlockIndex program name := by
  rcases h.cases with ⟨hnone, hnone'⟩ | ⟨p, p', hp, hp', hlisted⟩
  · simp only [uniformBlockIndex, hnone, hnone']
  · simp only [uniformBlockIndex, hp, hp', Option.bind_some,
      Asking.findIdx?_of_listed hlisted name]

theorem activeBlock?_alike (index : UInt32) :
    (ctx'.activeBlock? program' index).map LinkedBlock.unbound =
      (ctx.activeBlock? program index).map LinkedBlock.unbound := by
  rcases h.cases with ⟨hnone, hnone'⟩ | ⟨p, p', hp, hp', hlisted⟩
  · simp only [activeBlock?, hnone, hnone', Option.bind_none]
  · simp only [activeBlock?, hp, hp', Option.bind_some]
    exact Asking.block_of_listed hlisted index.toNat

theorem blockName_alike (index : UInt32) :
    (ctx'.activeBlock? program' index).map (·.name) =
      (ctx.activeBlock? program index).map (·.name) := by
  have hname := congrArg (Option.map LinkedBlock.name) (activeBlock?_alike h index)
  rwa [Option.map_map, Option.map_map] at hname

theorem blockSize_alike (index : UInt32) :
    ctx'.blockParameter program' index Enumerant.uniformBlockDataSize =
      ctx.blockParameter program index Enumerant.uniformBlockDataSize := by
  have hsize (c : Context) (id : ObjectId) :
      c.blockParameter id index Enumerant.uniformBlockDataSize =
        .ok (((c.activeBlock? id index).map LinkedBlock.unbound).map (·.dataSize.toInt32)) := by
    simp only [blockParameter]
    cases c.activeBlock? id index <;> rfl
  rw [hsize, hsize, activeBlock?_alike h index]

theorem uniformLocation_alike (name : String) :
    (ctx'.uniformLocation program' name).map (fun _ => 0) =
      (ctx.uniformLocation program name).map fun _ => 0 := by
  rcases h.cases with ⟨hnone, hnone'⟩ | ⟨p, p', hp, hp', hlisted⟩
  · simp only [uniformLocation, hnone, hnone', Option.bind_none]
  · simp only [uniformLocation, hp, hp', Option.bind_some]
    exact Asking.uniformLocation?_of_listed hlisted name

theorem activeAttribute_alike (index : UInt32) :
    ctx'.activeAttribute program' index = ctx.activeAttribute program index := by
  rcases h.cases with ⟨hnone, hnone'⟩ | ⟨p, p', hp, hp', hlisted⟩
  · simp only [activeAttribute, hnone, hnone']
  · simp only [activeAttribute, hp, hp', Option.bind_some, Asking.attributes_of_listed hlisted]

theorem attributeLocation_alike (name : String) :
    ctx'.attributeLocation program' name = ctx.attributeLocation program name := by
  rcases h.cases with ⟨hnone, hnone'⟩ | ⟨p, p', hp, hp', hlisted⟩
  · simp only [attributeLocation, hnone, hnone']
  · simp only [attributeLocation, hp, hp', Option.bind_some, Asking.attributes_of_listed hlisted]

end Alike

end Context

namespace Asking

variable {α : Type} {program program' : ObjectId}

theorem matches_ask {call call' : Call} {R : call.Reply → call'.Reply → Prop}
    (hcall : call.relists = false) (hcall' : call'.relists = false)
    (h : ∀ ctx ctx', ListAlike program program' ctx ctx' →
      R (ctx.exec call).1 (ctx'.exec call').1) :
    Matches (ListAlike program program') R (ask call) (ask call') := by
  intro ctx ctx' hI
  refine ⟨h ctx ctx' hI, ?_⟩
  change (ctx'.exec call').2.listed? program' = (ctx.exec call).2.listed? program
  rw [Context.exec_listed?_of_relists hcall, Context.exec_listed?_of_relists hcall']
  exact hI

theorem matches_parameter {name : UInt32}
    (hname : name ∈ [Enumerant.linkStatus, Enumerant.activeUniforms,
      Enumerant.activeAttributes]) :
    Matches (ListAlike program program') (@Eq (Option Int32))
      (ask (.getProgramParameter program name)) (ask (.getProgramParameter program' name)) := by
  apply matches_ask rfl rfl
  intro ctx ctx' hI
  have hparameter : (ctx'.countCall "get_program_parameter").programParameter program' name =
      (ctx.countCall "get_program_parameter").programParameter program name :=
    Context.programParameter_alike hI hname
  rw [Context.exec_answer rfl, Context.exec_answer rfl]
  exact congrArg (ReplyKind.settle .number) hparameter.symm

theorem matches_activeCount {name : UInt32}
    (hname : name ∈ [Enumerant.linkStatus, Enumerant.activeUniforms,
      Enumerant.activeAttributes]) :
    Matches (ListAlike program program') Eq (activeCount program name)
      (activeCount program' name) := by
  apply (matches_parameter hname).bind
  rintro count _ rfl
  exact .pure rfl

theorem matches_properties (indices : List UInt32) {name : UInt32}
    (hname : name = Enumerant.uniformBlockIndex ∨ name = Enumerant.uniformOffset) :
    Matches (ListAlike program program') (@Eq (List Int32))
      (ask (.getActiveUniforms program indices name))
      (ask (.getActiveUniforms program' indices name)) := by
  apply matches_ask rfl rfl
  intro ctx ctx' hI
  have hproperties : (ctx'.countCall "get_active_uniforms").activeUniforms program' indices name =
      (ctx.countCall "get_active_uniforms").activeUniforms program indices name :=
    Context.activeUniforms_alike hI indices hname
  rw [Context.exec_answer rfl, Context.exec_answer rfl]
  exact congrArg (ReplyKind.settle .numbers) hproperties.symm

theorem matches_emptyBlock (index : UInt32) :
    Matches (ListAlike program program') Eq (emptyBlock program index)
      (emptyBlock program' index) := by
  have hname : Matches (ListAlike program program') (@Eq (Option String))
      (ask (.getActiveBlockName program index)) (ask (.getActiveBlockName program' index)) := by
    apply matches_ask rfl rfl
    intro ctx ctx' hI
    exact (Context.blockName_alike hI index).symm
  have hsize : Matches (ListAlike program program') (@Eq (Option Int32))
      (ask (.getActiveBlockParameter program index Enumerant.uniformBlockDataSize))
      (ask (.getActiveBlockParameter program' index Enumerant.uniformBlockDataSize)) := by
    apply matches_ask rfl rfl
    intro ctx ctx' hI
    have hparameter : ctx'.blockParameter program' index Enumerant.uniformBlockDataSize =
        ctx.blockParameter program index Enumerant.uniformBlockDataSize :=
      Context.blockSize_alike hI index
    rw [Context.exec_answer rfl, Context.exec_answer rfl]
    exact congrArg (ReplyKind.settle .number) hparameter.symm
  apply hname.bind
  rintro name _ rfl
  apply hsize.bind
  rintro size _ rfl
  exact .pure rfl

theorem matches_knowing (index : UInt32) (blocks : List BlockRecord) :
    Matches (ListAlike program program') Eq (knowing program index blocks)
      (knowing program' index blocks) := by
  simp only [knowing]
  split
  · exact .pure rfl
  · apply (matches_emptyBlock index).bind
    rintro block _ rfl
    exact .pure rfl

/-- Both are locations, or there is none. -/
def LocationAlike (location location' : Option ObjectId) : Prop :=
  location'.map (fun _ => 0) = location.map fun _ => 0

/-- What is known of the uniforms of two programs is the same but for the numbers of locations. -/
def Uniforms.Alike (found found' : Uniforms) : Prop :=
  found'.loose.map UniformRecord.unnumbered = found.loose.map UniformRecord.unnumbered ∧
    found'.blocks = found.blocks

theorem matches_addUniform {found found' : Uniforms} (hfound : found.Alike found')
    (index : UInt32) (block offset : Option Int32) :
    Matches (ListAlike program program') Uniforms.Alike
      (addUniform program found index block offset)
      (addUniform program' found' index block offset) := by
  have hactive : Matches (ListAlike program program') (@Eq (Option ActiveVariable))
      (ask (.getActiveUniform program index)) (ask (.getActiveUniform program' index)) := by
    apply matches_ask rfl rfl
    intro ctx ctx' hI
    have hactive : (ctx'.countCall "get_active_uniform").activeUniform program' index =
        (ctx.countCall "get_active_uniform").activeUniform program index :=
      Context.activeUniform_alike hI index
    rw [Context.exec_answer rfl, Context.exec_answer rfl]
    exact congrArg (fun reply => ReplyKind.settle .active (some <$> reply)) hactive.symm
  have hlocation (name : String) : Matches (ListAlike program program') LocationAlike
      (ask (.getUniformLocation program name)) (ask (.getUniformLocation program' name)) := by
    apply matches_ask rfl rfl
    intro ctx ctx' hI
    exact Context.uniformLocation_alike hI name
  obtain ⟨hloose, hblocks⟩ := hfound
  apply hactive.bind
  rintro active _ rfl
  split
  · exact .pure ⟨hloose, hblocks⟩
  · next active _ =>
      apply (hlocation active.name).bind
      intro location location' hsame
      apply Matches.pure
      refine ⟨?_, hblocks⟩
      rw [LocationAlike] at hsame
      simp only [List.map_append, hloose, List.map_cons, List.map_nil, UniformRecord.unnumbered,
        hsame]
  · rw [hblocks]
    apply (matches_knowing _ found.blocks).bind
    rintro blocks _ rfl
    exact .pure ⟨hloose, rfl⟩

theorem matches_uniforms :
    Matches (ListAlike program program') Uniforms.Alike (uniforms program)
      (uniforms program') := by
  apply (matches_activeCount (by simp)).bind
  rintro count _ rfl
  apply (matches_properties _ (.inl rfl)).bind
  rintro blocks _ rfl
  apply (matches_properties _ (.inr rfl)).bind
  rintro offsets _ rfl
  apply Matches.foldlM
  · rintro found found' ⟨index, i⟩ hfound
    exact matches_addUniform hfound index blocks[i]? offsets[i]?
  · exact ⟨rfl, rfl⟩

theorem matches_attributes :
    Matches (ListAlike program program') Eq (attributes program) (attributes program') := by
  have hactive (index : UInt32) : Matches (ListAlike program program')
      (@Eq (Option ActiveVariable)) (ask (.getActiveAttribute program index))
      (ask (.getActiveAttribute program' index)) := by
    apply matches_ask rfl rfl
    intro ctx ctx' hI
    have hactive : (ctx'.countCall "get_active_attrib").activeAttribute program' index =
        (ctx.countCall "get_active_attrib").activeAttribute program index :=
      Context.activeAttribute_alike hI index
    rw [Context.exec_answer rfl, Context.exec_answer rfl]
    exact congrArg (fun reply => ReplyKind.settle .active (some <$> reply)) hactive.symm
  have hlocation (name : String) : Matches (ListAlike program program') (@Eq Int32)
      (ask (.getAttributeLocation program name)) (ask (.getAttributeLocation program' name)) := by
    apply matches_ask rfl rfl
    intro ctx ctx' hI
    exact (Context.attributeLocation_alike hI name).symm
  have hat (index : UInt32) : Matches (ListAlike program program') Eq
      (attributeAt program index) (attributeAt program' index) := by
    apply (hactive index).bind
    rintro active _ rfl
    split
    · exact .pure rfl
    · next active =>
        apply (hlocation active.name).bind
        rintro location _ rfl
        exact .pure rfl
  apply (matches_activeCount (by simp)).bind
  rintro count _ rfl
  apply (Matches.mapM hat _).bind
  rintro found _ rfl
  exact .pure rfl

/-- Records of programs are the same but for the numbers of locations. -/
def RecordAlike (record record' : ProgramRecord) : Prop :=
  record'.unnumbered = record.unnumbered

theorem matches_describe :
    Matches (ListAlike program program') RecordAlike (describe program) (describe program') := by
  have hblock : Matches (ListAlike program program') (@Eq UInt32)
      (ask (.getUniformBlockIndex program ViewBlock.name))
      (ask (.getUniformBlockIndex program' ViewBlock.name)) := by
    apply matches_ask rfl rfl
    intro ctx ctx' hI
    exact (Context.uniformBlockIndex_alike hI ViewBlock.name).symm
  have hlisting : Matches (ListAlike program program') RecordAlike (listing program)
      (listing program') := by
    apply matches_uniforms.bind
    rintro found found' ⟨hloose, hblocks⟩
    apply matches_attributes.bind
    rintro attributes _ rfl
    apply Matches.pure
    simp only [RecordAlike, ProgramRecord.unnumbered, hloose, hblocks]
  apply hblock.bind
  rintro block _ rfl
  split
  · have hbind : Matches (ListAlike program program') (@Eq Unit)
        (ask (.uniformBlockBinding program block ViewBlock.binding))
        (ask (.uniformBlockBinding program' block ViewBlock.binding)) :=
      matches_ask rfl rfl fun _ _ _ => rfl
    exact hbind.bind fun _ _ _ => hlisting
  · exact hlisting

theorem ListAlike.linkState?_eq {ctx ctx' : Context}
    (h : ListAlike program program' ctx ctx') :
    ctx'.linkState? program' = ctx.linkState? program := by
  have hlisted (c : Context) (id : ObjectId) :
      c.linkState? id = (c.listed? id).map fun p => (p.linked, p.log) := by
    rw [Context.listed?, Option.map_map]
    rfl
  rw [hlisted, hlisted, h]

/-- After a link, two programs that list the same are recorded the same, but for the numbers of
locations. What was recorded before matters only if they are not linked. -/
theorem linked_alike {ctx ctx' : Context} (halike : ListAlike program program' ctx ctx')
    {record record' : ProgramRecord}
    (hrecord : ctx.ReportsLinked program ∨ RecordAlike record record') :
    RecordAlike ((linked program record).run ctx).1 ((linked program' record').run ctx').1 := by
  have hstate := halike.linkState?_eq
  have hlog : ctx'.programLog program' = ctx.programLog program := by
    rw [Context.programLog_eq, Context.programLog_eq, hstate]
  simp only [linked_run, hstate, hlog]
  rcases hflag : ctx.linkState? program with _ | ⟨_ | _, log⟩
  · have hunlinked : ¬ ctx.ReportsLinked program := by
      rw [Context.reportsLinked_iff, hflag]
      exact nofun
    have hsame := hrecord.resolve_left hunlinked
    simp only [RecordAlike, ProgramRecord.unnumbered, ProgramRecord.mk.injEq] at hsame
    simp only [Option.map_none, Option.getD_none, if_true, RecordAlike, ProgramRecord.unnumbered,
      hsame]
  · have hunlinked : ¬ ctx.ReportsLinked program := by
      rw [Context.reportsLinked_iff, hflag]
      exact nofun
    have hsame := hrecord.resolve_left hunlinked
    simp only [RecordAlike, ProgramRecord.unnumbered, ProgramRecord.mk.injEq] at hsame
    simp only [Option.map_some, Option.getD_some, Context.flag, Bool.false_eq_true, if_false,
      if_true, RecordAlike, ProgramRecord.unnumbered, hsame]
  · have hasked : ListAlike program program' (ctx.countCall "get_program_parameter")
        (ctx'.countCall "get_program_parameter") := halike
    exact (matches_describe _ _ hasked).1

end Asking

end GlPlayback
