import GlPlayback.Proofs.Gl.Drafts
import GlPlayback.Proofs.Gl.Linked

/-!
Two links that go by the same come to the same, whatever numbers the context gives out for the
locations of the loose uniforms.
-/
namespace GlPlayback

open Attempt

/-- The place of a uniform but for the number of its location. -/
def UniformPlace.unnumbered : UniformPlace → UniformPlace
  | loose _ => loose 0
  | member block offset => member block offset

def LinkedUniform.unnumbered (u : LinkedUniform) : LinkedUniform :=
  { u with place := u.place.unnumbered }

/-- A program as its last link left it, but for the numbers of locations. -/
def ProgramObject.listed (p : ProgramObject) : ProgramObject :=
  { p.asLinked with uniforms := p.uniforms.map LinkedUniform.unnumbered }

namespace Linking

theorem unnumbered_looseUniforms (location location' : ObjectId) (decls : List UniformDecl) :
    (looseUniforms location' decls).map LinkedUniform.unnumbered =
      (looseUniforms location decls).map LinkedUniform.unnumbered := by
  induction decls generalizing location location' with
  | nil => rfl
  | cons decl rest ih =>
      rw [looseUniforms, looseUniforms, List.map_cons, List.map_cons]
      exact congrArg (LinkedUniform.unnumbered _ :: ·) (ih (location + 1) (location' + 1))

section Locations

variable {wanted wanted' : Table String UInt32} {decls : List AttributeDecl}

theorem fixedLocation?_congr {decl : AttributeDecl}
    (h : wanted'.get? decl.name = wanted.get? decl.name) :
    fixedLocation? wanted' decl = fixedLocation? wanted decl := by
  rw [fixedLocation?, fixedLocation?, h]

theorem reserveFixed_congr (h : ∀ decl ∈ decls, wanted'.get? decl.name = wanted.get? decl.name)
    (used : SlotTable) : reserveFixed wanted' used decls = reserveFixed wanted used decls := by
  induction decls generalizing used with
  | nil => rfl
  | cons decl rest ih =>
      obtain ⟨hfirst, hrest⟩ := List.forall_mem_cons.mp h
      simp only [reserveFixed, fixedLocation?_congr hfirst, ih hrest]

theorem placeAttributes_congr (h : ∀ decl ∈ decls, wanted'.get? decl.name = wanted.get? decl.name)
    (used : SlotTable) :
    placeAttributes wanted' used decls = placeAttributes wanted used decls := by
  induction decls generalizing used with
  | nil => rfl
  | cons decl rest ih =>
      obtain ⟨hfirst, hrest⟩ := List.forall_mem_cons.mp h
      simp only [placeAttributes, fixedLocation?_congr hfirst, ih hrest]

/-- Only what is wanted for the attributes themselves matters to their locations. -/
theorem assignLocations_congr
    (h : ∀ decl ∈ decls, wanted'.get? decl.name = wanted.get? decl.name) :
    assignLocations wanted' decls = assignLocations wanted decls := by
  simp only [assignLocations, reserveFixed_congr h, placeAttributes_congr h]

end Locations

/-- Two programs are linked from the same interfaces, with the same locations wanted for the inputs
of the vertex shader. -/
structure SameInputs (shaders : Table ObjectId ShaderObject) (p : ProgramObject)
    (shaders' : Table ObjectId ShaderObject) (p' : ProgramObject) : Prop where
  stages : ∀ stage, stageInterface shaders' stage (p'.attached stage) =
    stageInterface shaders stage (p.attached stage)
  wanted : ∀ interface, stageInterface shaders .vertex p.vertexShader = .ok interface →
    ∀ decl ∈ interface.attributes, p'.wanted.get? decl.name = p.wanted.get? decl.name

variable {shaders shaders' : Table ObjectId ShaderObject} {p p' : ProgramObject}

theorem SameInputs.joinStages_eq (h : SameInputs shaders p shaders' p') :
    joinStages shaders' p' = joinStages shaders p := by
  have hvertex := h.stages .vertex
  have hfragment := h.stages .fragment
  simp only [ProgramObject.attached] at hvertex hfragment
  simp only [joinStages, hvertex, hfragment]

/-- What a link says of its outcome: how many locations it gave out, and what it left. -/
def Outcome.summary (outcome : Outcome) : Nat × ProgramObject :=
  (outcome.locations, outcome.program.listed)

/-- A link comes to the same outcome in every context, but for the numbers of locations. -/
theorem SameInputs.link_eq (h : SameInputs shaders p shaders' p') (location location' : ObjectId) :
    (link shaders' location' p').map Outcome.summary =
      (link shaders location p).map Outcome.summary := by
  simp only [link, h.joinStages_eq]
  cases hjoin : joinStages shaders p with
  | error e => rfl
  | ok joined =>
      obtain ⟨vertex, fragment, blocks⟩ := joined
      have hvertex : stageInterface shaders .vertex p.vertexShader = .ok vertex := by
        simp only [joinStages, bind_eq_ok_iff] at hjoin
        obtain ⟨_, hvertex, _, -, _, -, ⟨⟩⟩ := hjoin
        exact hvertex
      simp only [assignLocations_congr (h.wanted vertex hvertex)]
      cases assignLocations p.wanted vertex.attributes with
      | error failure =>
          cases failure with
          | outsideTable => rfl
          | refused e => rfl
      | ok attributes =>
          simp only [Option.map_some, Outcome.summary, ProgramObject.listed,
            ProgramObject.asLinked, List.map_append, unnumbered_looseUniforms location location']

end Linking

namespace Context

variable {ctx ctx' : Context} {program program' : ObjectId}

/-- A program as its last link left it, but for the numbers of locations. -/
def listed? (ctx : Context) (id : ObjectId) : Option ProgramObject :=
  (ctx.objects.programs.get? id).map ProgramObject.listed

theorem listed?_eq (ctx : Context) (id : ObjectId) : ctx.listed? id = (ctx.linked? id).map
    fun p => { p with uniforms := p.uniforms.map LinkedUniform.unnumbered } := by
  rw [linked?, Option.map_map]
  rfl

theorem exec_listed? {call : Call} (hcreate : call ≠ .createProgram)
    (hlink : ∀ program, call ≠ .linkProgram program) :
    (ctx.exec call).2.listed? = ctx.listed? := by
  apply exec_of_attempt (fun ctx' => ctx'.listed? = ctx.listed?) ?_ fun _ _ => rfl
  apply Yields.of_forall _ ?_ fun _ _ => trivial
  intro answered hanswered
  have hkept := ((ctx.countCall call.name).attempt_linked hcreate hlink).value hanswered
  funext id
  rw [listed?_eq, hkept]
  exact (listed?_eq ctx id).symm

/-- What a link of a program comes to now, if there is such a program and the link can be carried
out. -/
def linkSummary? (ctx : Context) (program : ObjectId) : Option (Nat × ProgramObject) :=
  (ctx.objects.programs.get? program).bind fun p =>
    (Linking.link ctx.objects.shaders ctx.nextId p).map Linking.Outcome.summary

/-- A link gives out a number for each loose uniform, and leaves the program as its outcome says. It
makes no object. -/
theorem exec_linkProgram {summary : Nat × ProgramObject}
    (h : ctx.linkSummary? program = some summary) :
    (ctx.exec (.linkProgram program)).2.nextId = ctx.nextId + summary.1 ∧
      (ctx.exec (.linkProgram program)).2.listed? program = some summary.2 ∧
      ∀ what id, (ctx.exec (.linkProgram program)).2.objects.Has what id ↔
        ctx.objects.Has what id := by
  obtain ⟨p, hp, hsummary⟩ := Option.bind_eq_some_iff.mp h
  obtain ⟨outcome, hlink, rfl⟩ := Option.map_eq_some_iff.mp hsummary
  rw [exec_linkProgram_some hp hlink]
  refine ⟨rfl, ?_, (SameObjects.replaceProgram hp outcome.program).has_iff⟩
  rw [listed?, Table.get?_insert, if_pos rfl]
  rfl

/-- What a link goes by, as far as the context tells: the interfaces of the shaders attached, or why
there is none, and the locations wanted. -/
structure LinksAlike (ctx : Context) (program : ObjectId) (ctx' : Context)
    (program' : ObjectId) : Prop where
  isSome_eq : (ctx'.draft? program').isSome = (ctx.draft? program).isSome
  inputs : ∀ p p', ctx.objects.programs.get? program = some p →
    ctx'.objects.programs.get? program' = some p' →
    Linking.SameInputs ctx.objects.shaders p ctx'.objects.shaders p'

theorem LinksAlike.linkSummary?_eq (h : ctx.LinksAlike program ctx' program') :
    ctx'.linkSummary? program' = ctx.linkSummary? program := by
  have hsome := h.isSome_eq
  simp only [draft?, Option.isSome_map] at hsome
  cases hp : ctx.objects.programs.get? program with
  | none =>
      have hp' : ctx'.objects.programs.get? program' = none := by
        rw [hp] at hsome
        exact Option.not_isSome_iff_eq_none.mp (by simp [hsome])
      rw [linkSummary?, linkSummary?, hp, hp']
      rfl
  | some p =>
      obtain ⟨p', hp'⟩ : ∃ p', ctx'.objects.programs.get? program' = some p' := by
        rw [hp] at hsome
        exact Option.isSome_iff_exists.mp hsome
      rw [linkSummary?, linkSummary?, hp, hp']
      exact (h.inputs p p' hp hp').link_eq ctx.nextId ctx'.nextId

end Context

end GlPlayback
