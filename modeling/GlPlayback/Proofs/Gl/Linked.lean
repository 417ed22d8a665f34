import GlPlayback.Proofs.Gl.Footprint

/-!
What a link leaves in a program: whether it is linked, its log, and what it lists. Only creating and
linking a program change that, but for the bindings of its blocks. No log says what the record of a
linked program says.
-/
namespace GlPlayback

open Attempt

/-- A block but for its binding, which may change after the link. -/
def LinkedBlock.unbound (b : LinkedBlock) : LinkedBlock :=
  { b with binding := 0 }

theorem LinkedBlock.map_unbound_set {blocks : List LinkedBlock} {index : Nat} {b : LinkedBlock}
    (hb : blocks[index]? = some b) (binding : UInt32) :
    (blocks.set index { b with binding }).map LinkedBlock.unbound =
      blocks.map LinkedBlock.unbound := by
  obtain ⟨hindex, hb⟩ := List.getElem?_eq_some_iff.mp hb
  rw [List.map_set]
  refine List.ext_getElem? fun other => ?_
  rw [List.getElem?_set]
  split
  · next heq =>
      subst heq
      rw [List.length_map, if_pos hindex, List.getElem?_map, List.getElem?_eq_getElem hindex, hb]
      rfl
  · rfl

/-- A program as a link leaves it, but for what other calls may change. -/
def ProgramObject.asLinked (p : ProgramObject) : ProgramObject where
  linked := p.linked
  log := p.log
  uniforms := p.uniforms
  blocks := p.blocks.map LinkedBlock.unbound
  attributes := p.attributes

namespace Context

/-- A program as its last link left it. -/
def linked? (ctx : Context) (id : ObjectId) : Option ProgramObject :=
  (ctx.objects.programs.get? id).map ProgramObject.asLinked

/-- Whether a program is linked, and its log. -/
def linkState? (ctx : Context) (id : ObjectId) : Option (Bool × String) :=
  (ctx.objects.programs.get? id).map fun p => (p.linked, p.log)

/-- The context reports that a program is linked. -/
def ReportsLinked (ctx : Context) (id : ObjectId) : Prop :=
  ctx.programParameter id Enumerant.linkStatus = .ok (some 1)

variable {ctx ctx' : Context}

theorem programParameter_linkStatus (ctx : Context) (id : ObjectId) :
    ctx.programParameter id Enumerant.linkStatus =
      .ok ((ctx.linkState? id).map fun s => flag s.1) := by
  simp only [programParameter, linkState?]
  cases ctx.objects.programs.get? id <;> rfl

theorem reportsLinked_iff {id : ObjectId} :
    ctx.ReportsLinked id ↔ ∃ log, ctx.linkState? id = some (true, log) := by
  rw [ReportsLinked, programParameter_linkStatus]
  rcases ctx.linkState? id with _ | ⟨_ | _, log⟩ <;> simp [flag]

instance (ctx : Context) (id : ObjectId) : Decidable (ctx.ReportsLinked id) :=
  decidable_of_iff ((ctx.linkState? id).map (·.1) = some true) <| by
    rw [reportsLinked_iff]
    rcases ctx.linkState? id with _ | ⟨linked, log⟩ <;> simp

/-- A program that is not linked is not taken into use. -/
theorem exec_useProgram (ctx : Context) (id : ObjectId) :
    (ctx.exec (.useProgram (some id))).2.bindings.program =
      if ctx.ReportsLinked id then some id else ctx.bindings.program := by
  have hlinked : ctx.ReportsLinked id ↔ (ctx.objects.programs.get? id).any (·.linked) := by
    rw [reportsLinked_iff, linkState?]
    cases ctx.objects.programs.get? id <;> simp
  simp only [hlinked, exec, attempt, useProgram, countCall]
  cases (ctx.objects.programs.get? id).any (·.linked) <;> rfl

theorem programLog_eq (ctx : Context) (id : ObjectId) :
    ctx.programLog id = ((ctx.linkState? id).map (·.2)).getD "" := by
  simp only [programLog, linkState?]
  cases ctx.objects.programs.get? id <;> rfl

theorem linkState?_eq (ctx : Context) (id : ObjectId) :
    ctx.linkState? id = (ctx.linked? id).map fun p => (p.linked, p.log) := by
  rw [linked?, Option.map_map]
  rfl

theorem linked?_of_part (h : ctx'.part .programObjects = ctx.part .programObjects) :
    ctx'.linked? = ctx.linked? := by
  have hprograms : ctx'.objects.programs = ctx.objects.programs := h
  funext id
  simp only [linked?, hprograms]

theorem changeProgram_linked (program : ObjectId)
    {change : ProgramObject → Attempt ProgramObject}
    (hchange : ∀ p, Yields (fun p' => p'.asLinked = p.asLinked) (fun _ => True) (change p)) :
    Yields (fun ctx' => ctx'.linked? = ctx.linked?) (fun _ => True)
      (ctx.changeProgram program change) := by
  simp only [changeProgram]
  cases hp : ctx.objects.programs.get? program with
  | none => trivial
  | some p =>
      refine (hchange p).bind fun p' hkept => ?_
      funext id
      simp only [linked?, Table.get?_insert]
      split
      · next heq => rw [← heq, hp, Option.map_some, Option.map_some, hkept]
      · rfl

/-- An attempt that, if it is not refused, leaves every program as its last link left it. -/
abbrev KeepsLinks (ctx : Context) : Attempt Context → Prop :=
  Yields (fun ctx' => ctx'.linked? = ctx.linked?) fun _ => True

/-- What a link left survives every call that neither makes nor links a program. -/
theorem attempt_linked (ctx : Context) {call : Call} (hcreate : call ≠ .createProgram)
    (hlink : ∀ program, call ≠ .linkProgram program) :
    Yields (fun answered => answered.2.linked? = ctx.linked?) (fun _ => True)
      (ctx.attempt call) := by
  have hframe (hpart : .programObjects ∉ call.touches) :
      Yields (fun answered => answered.2.linked? = ctx.linked?) (fun _ => True)
        (ctx.attempt call) :=
    Yields.of_forall _ (fun answered hanswered => linked?_of_part
      ((ctx.attempt_within call).value hanswered .programObjects hpart)) (fun _ _ => trivial)
  have heffect {changed : Attempt Context} (h : ctx.KeepsLinks changed) :
      Yields (fun answered => answered.2.linked? = ctx.linked?) (fun _ => True)
        (effect changed) := h.map fun _ h => h
  cases call with
  | createProgram => exact absurd rfl hcreate
  | linkProgram program => exact absurd rfl (hlink program)
  | attachShader program shader =>
      refine heffect ?_
      simp only [attachShader]
      split
      · trivial
      · next s _ =>
          refine changeProgram_linked program fun p => ?_
          cases s.stage <;> exact rfl
  | bindAttributeLocation program index name =>
      exact heffect ((any_attempt _).bind fun _ _ => changeProgram_linked program fun p => rfl)
  | validateProgram program => exact heffect (changeProgram_linked program fun p => rfl)
  | uniformBlockBinding program index binding =>
      refine heffect ((any_attempt _).bind fun _ _ => changeProgram_linked program fun p => ?_)
      split
      · trivial
      · next b hb =>
          have hblocks := LinkedBlock.map_unbound_set hb binding
          simp only [Yields, Pure.pure, Except.pure, ProgramObject.asLinked, hblocks]
  | _ => exact hframe (by simp [Call.touches])

/-- The link state survives every call that neither makes nor links a program. -/
theorem attempt_linkState (ctx : Context) {call : Call} (hcreate : call ≠ .createProgram)
    (hlink : ∀ program, call ≠ .linkProgram program) :
    Yields (fun answered => answered.2.linkState? = ctx.linkState?) (fun _ => True)
      (ctx.attempt call) := by
  refine Yields.of_forall _ (fun answered hanswered => ?_) fun _ _ => trivial
  have hkept := (ctx.attempt_linked hcreate hlink).value hanswered
  funext id
  rw [linkState?_eq, linkState?_eq, hkept]

theorem exec_linkState {call : Call} (hcreate : call ≠ .createProgram)
    (hlink : ∀ program, call ≠ .linkProgram program) :
    (ctx.exec call).2.linkState? = ctx.linkState? := by
  exact exec_of_attempt (fun ctx' => ctx'.linkState? = ctx.linkState?)
    ((ctx.countCall call.name).attempt_linkState hcreate hlink) fun _ _ => rfl

section Origin

variable {id : ObjectId} {p : ProgramObject} {outcome : Linking.Outcome}

theorem exec_linkProgram_some (hp : ctx.objects.programs.get? id = some p)
    (hlink : Linking.link ctx.objects.shaders ctx.nextId p = some outcome) :
    (ctx.exec (.linkProgram id)).2 = { ctx.countCall "link_program" with
      nextId := ctx.nextId + outcome.locations
      objects.programs := ctx.objects.programs.insert id outcome.program } := by
  simp only [exec, attempt, Call.name, linkProgram, countCall, hp, hlink]
  rfl

theorem exec_linkProgram_none (hp : ctx.objects.programs.get? id = some p)
    (hlink : Linking.link ctx.objects.shaders ctx.nextId p = none) :
    (ctx.exec (.linkProgram id)).2 = { ctx.countCall "link_program" with lost := true } := by
  simp only [exec, attempt, Call.name, linkProgram, countCall, hp, hlink]
  rfl

/-- Where a program as it was linked comes from: it was so before the call, it is new and not
linked, or the call links it. -/
theorem exec_linked?_some {call : Call} (hp : (ctx.exec call).2.linked? id = some p) :
    ctx.linked? id = some p ∨ p = ({} : ProgramObject).asLinked ∨
      ∃ q outcome, call = .linkProgram id ∧
        Linking.link ctx.objects.shaders ctx.nextId q = some outcome ∧
        p = outcome.program.asLinked ∧
        (ctx.exec call).2.nextId = ctx.nextId + outcome.locations := by
  have hinsert {programs : Table ObjectId ProgramObject} {other : ObjectId} {q : ProgramObject}
      (hget : ((programs.insert other q).get? id).map ProgramObject.asLinked = some p) :
      (programs.get? id).map ProgramObject.asLinked = some p ∨ other = id ∧ p = q.asLinked := by
    rw [Table.get?_insert] at hget
    split at hget
    · next heq => exact .inr ⟨heq, (Option.some.inj hget).symm⟩
    · exact .inl hget
  by_cases hcreate : call = .createProgram
  · subst hcreate
    rcases hinsert hp with hold | ⟨-, hnew⟩
    · exact .inl hold
    · exact .inr (.inl hnew)
  by_cases hlink : ∃ program, call = .linkProgram program
  · obtain ⟨program, rfl⟩ := hlink
    cases hq : ctx.objects.programs.get? program with
    | none =>
        have hrefused : (ctx.exec (.linkProgram program)).2.linked? = ctx.linked? := by
          simp only [exec, attempt, Call.name, linkProgram, countCall, hq]
          rfl
        exact .inl (hrefused ▸ hp)
    | some q =>
        cases hlinks : Linking.link ctx.objects.shaders ctx.nextId q with
        | none =>
            rw [exec_linkProgram_none hq hlinks] at hp
            exact .inl hp
        | some outcome =>
            rw [exec_linkProgram_some hq hlinks] at hp ⊢
            rcases hinsert hp with hold | ⟨rfl, hnew⟩
            · exact .inl hold
            · exact .inr (.inr ⟨q, outcome, rfl, hlinks, hnew, rfl⟩)
  · have hkept : (ctx.exec call).2.linked? = ctx.linked? :=
      exec_of_attempt (fun ctx' => ctx'.linked? = ctx.linked?)
        ((ctx.countCall call.name).attempt_linked hcreate fun program heq => hlink ⟨program, heq⟩)
        fun _ _ => rfl
    exact .inl (hkept ▸ hp)

end Origin

end Context

namespace Linking

theorem message_ne_linked (e : LinkError) : e.message ≠ "linked" := by
  obtain ⟨reason, hmessage⟩ : ∃ reason, e.message = "ERROR: Linking failed: " ++ reason :=
    ⟨_, rfl⟩
  intro h
  have hlength : ("ERROR: Linking failed: " ++ reason).length = "linked".length :=
    congrArg String.length (hmessage.symm.trans h)
  rw [String.length_append] at hlength
  have hlong : "ERROR: Linking failed: ".length = 23 := rfl
  have hshort : "linked".length = 6 := rfl
  omega

/-- A program is linked, or the log says why not. -/
theorem link_log {shaders : Table ObjectId ShaderObject} {location : ObjectId}
    {program : ProgramObject} {outcome : Outcome}
    (h : link shaders location program = some outcome) : outcome.program.log ≠ "linked" := by
  simp only [link] at h
  split at h
  · cases h
    exact message_ne_linked _
  · split at h
    · cases h
    · cases h
      exact message_ne_linked _
    · cases h
      exact (by decide : "" ≠ "linked")

end Linking

namespace Context

variable {ctx : Context}

/-- No log says "linked". -/
def PlainLogs (ctx : Context) : Prop :=
  ∀ id linked log, ctx.linkState? id = some (linked, log) → log ≠ "linked"

theorem plainLogs_new (width height : UInt32) : (new width height).PlainLogs :=
  fun _ _ _ h => nomatch h

theorem PlainLogs.programLog_ne (h : ctx.PlainLogs) (id : ObjectId) :
    ctx.programLog id ≠ "linked" := by
  rw [programLog_eq]
  rcases hstate : ctx.linkState? id with _ | ⟨linked, log⟩
  · decide
  · exact h id linked log hstate

theorem PlainLogs.insert (h : ctx.PlainLogs) (nextId id : ObjectId) {p : ProgramObject}
    (hp : p.log ≠ "linked") :
    PlainLogs { ctx with nextId, objects.programs := ctx.objects.programs.insert id p } := by
  intro other linked log hstate
  simp only [linkState?, Table.get?_insert] at hstate
  split at hstate
  · cases hstate
    exact hp
  · exact h other linked log hstate

theorem PlainLogs.attempt (h : ctx.PlainLogs) (call : Call) :
    Yields (fun answered => answered.2.PlainLogs) (fun _ => True) (ctx.attempt call) := by
  by_cases hcreate : call = .createProgram
  · subst hcreate
    exact h.insert (ctx.nextId + 1) ctx.nextId (by decide)
  by_cases hlink : ∃ program, call = .linkProgram program
  · obtain ⟨program, rfl⟩ := hlink
    simp only [Context.attempt, linkProgram]
    split
    · trivial
    · split
      · trivial
      · next outcome hlinks => exact h.insert _ program (Linking.link_log hlinks)
  refine Yields.of_forall _ (fun answered hanswered => ?_) (fun _ _ => trivial)
  have hkept := (ctx.attempt_linkState hcreate fun program heq => hlink ⟨program, heq⟩).value
    hanswered
  simp only [PlainLogs, hkept]
  exact h

theorem PlainLogs.exec (h : ctx.PlainLogs) (call : Call) : (ctx.exec call).2.PlainLogs := by
  have hcounted : (ctx.countCall call.name).PlainLogs := h
  exact exec_of_attempt PlainLogs (hcounted.attempt call) fun _ _ => h

end Context

end GlPlayback
