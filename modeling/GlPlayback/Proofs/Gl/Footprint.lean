import GlPlayback.Proofs.Gl.Growth

/-!
Which parts of a context a call may change. Every other part is what it was before, and a call
that is refused changes none of them but the flag of the error.
-/
namespace GlPlayback

/-- The parts of a context. The count of calls and the numbers given out are none of them. -/
inductive Part where
  | fixed
  | program
  | vertexArray
  | framebuffer
  | buffers
  | indexed
  | activeTexture
  | units
  | drawBuffers
  | generic
  | shaderObjects
  | programObjects
  | bufferObjects
  | textureObjects
  | framebufferObjects
  | vertexArrayObjects
  | defaultVertexArray
  | uniforms
  | draws
  | error
  deriving DecidableEq

abbrev Part.Value : Part → Type
  | fixed => FixedState
  | program | vertexArray | framebuffer => Option ObjectId
  | buffers => Table UInt32 ObjectId
  | indexed => Table IndexedTarget ObjectId
  | activeTexture => Nat
  | units => Vector (Table UInt32 ObjectId) textureUnits
  | drawBuffers => List UInt32
  | generic => Table UInt32 GenericAttribute
  | shaderObjects => Table ObjectId ShaderObject
  | programObjects => Table ObjectId ProgramObject
  | bufferObjects => Table ObjectId BufferObject
  | textureObjects => Table ObjectId TextureObject
  | framebufferObjects => Table ObjectId FramebufferObject
  | vertexArrayObjects => Table ObjectId VertexArrayObject
  | defaultVertexArray => VertexArrayObject
  | uniforms => Table ObjectId UniformValue
  | draws => Array DrawCall
  | error => Option GlError

/-- The parts that a call may change. -/
def Call.touches : Call → List Part
  | getError => [.error]
  | getExtension _ | viewport _ | enable _ | disable _ | clearColor _ | frontFace _ | cullFace _
  | depthFunc _ | depthMask _ | depthRange _ _ | blendColor _ | blendEquation _
  | blendEquationSeparate _ _ | blendFunc _ _ | blendFuncSeparate _ | pixelStore _ _ => [.fixed]
  | createShader _ | shaderSource _ _ | compileShader _ | deleteShader _ => [.shaderObjects]
  | createProgram | attachShader _ _ | bindAttributeLocation _ _ _ | linkProgram _
  | validateProgram _ | uniformBlockBinding _ _ _ => [.programObjects]
  | getShaderParameter _ _ | getShaderLog _ | getProgramParameter _ _ | getProgramLog _
  | getActiveUniform _ _ | getActiveUniforms _ _ _ | getUniformBlockIndex _ _
  | getActiveBlockName _ _ | getActiveBlockParameter _ _ _ | getUniformLocation _ _
  | getActiveAttribute _ _ | getAttributeLocation _ _ | getBufferParameter _ _ => []
  | useProgram _ => [.program]
  | uniformFloats _ _ _ | uniformInts _ _ _ | uniformUInts _ _ _ | uniformMatrix _ _ _ _ _ =>
      [.uniforms]
  | createBuffer | bufferData _ _ _ | bufferDataSize _ _ _ | bufferSubData _ _ _ =>
      [.bufferObjects]
  | bindBuffer _ _ => [.bufferObjects, .buffers, .vertexArrayObjects, .defaultVertexArray]
  | bindBufferBase _ _ _ => [.indexed, .buffers]
  | createVertexArray => [.vertexArrayObjects]
  | bindVertexArray _ => [.vertexArray]
  | attributePointer _ _ _ _ _ _ | attributeIPointer _ _ _ _ _ | enableAttribute _
  | disableAttribute _ => [.vertexArrayObjects, .defaultVertexArray]
  | attributeFloats _ _ | attributeInts _ _ | attributeUInts _ _ => [.generic]
  | createTexture | generateMipmap _ | texImage2D _ _ | texImage3D _ _ | texStorage2D _ _ _ _ _
  | texStorage3D _ _ _ _ _ _ | texParameterInt _ _ _ | texParameterFloat _ _ _ =>
      [.textureObjects]
  | bindTexture _ _ => [.textureObjects, .units]
  | activeTexture _ => [.activeTexture]
  | createFramebuffer | framebufferTexture2D _ _ _ => [.framebufferObjects]
  | bindFramebuffer _ _ => [.framebuffer]
  | drawBuffers _ => [.framebufferObjects, .drawBuffers]
  | clear _ | drawArrays _ _ _ | drawArraysInstanced _ _ _ _ | drawElements _ _ _ _
  | drawElementsInstanced _ _ _ _ _ => [.draws]

/-- A call that only answers. -/
def Call.IsQuestion (call : Call) : Prop :=
  call.touches = []

/-- Only the question for the error reads it away. -/
theorem Call.error_mem_touches_iff (call : Call) : .error ∈ call.touches ↔ call = .getError := by
  cases call <;> simp [touches]

theorem Call.program_mem_touches_iff (call : Call) :
    .program ∈ call.touches ↔ ∃ program, call = .useProgram program := by
  cases call <;> simp [touches]

theorem Call.vertexArray_mem_touches_iff (call : Call) :
    .vertexArray ∈ call.touches ↔ ∃ array, call = .bindVertexArray array := by
  cases call <;> simp [touches]

namespace Context

def part (ctx : Context) : (part : Part) → part.Value
  | .fixed => ctx.fixed
  | .program => ctx.bindings.program
  | .vertexArray => ctx.bindings.vertexArray
  | .framebuffer => ctx.bindings.framebuffer
  | .buffers => ctx.bindings.buffers
  | .indexed => ctx.bindings.indexed
  | .activeTexture => ctx.bindings.activeTexture
  | .units => ctx.bindings.units
  | .drawBuffers => ctx.bindings.drawBuffers
  | .generic => ctx.bindings.generic
  | .shaderObjects => ctx.objects.shaders
  | .programObjects => ctx.objects.programs
  | .bufferObjects => ctx.objects.buffers
  | .textureObjects => ctx.objects.textures
  | .framebufferObjects => ctx.objects.framebuffers
  | .vertexArrayObjects => ctx.objects.vertexArrays
  | .defaultVertexArray => ctx.objects.defaultVertexArray
  | .uniforms => ctx.objects.uniforms
  | .draws => ctx.draws
  | .error => ctx.error

def put (ctx : Context) : (part : Part) → part.Value → Context
  | .fixed, fixed => { ctx with fixed }
  | .program, program => { ctx with bindings.program := program }
  | .vertexArray, array => { ctx with bindings.vertexArray := array }
  | .framebuffer, framebuffer => { ctx with bindings.framebuffer := framebuffer }
  | .buffers, buffers => { ctx with bindings.buffers := buffers }
  | .indexed, indexed => { ctx with bindings.indexed := indexed }
  | .activeTexture, unit => { ctx with bindings.activeTexture := unit }
  | .units, units => { ctx with bindings.units := units }
  | .drawBuffers, buffers => { ctx with bindings.drawBuffers := buffers }
  | .generic, generic => { ctx with bindings.generic := generic }
  | .shaderObjects, shaders => { ctx with objects.shaders := shaders }
  | .programObjects, programs => { ctx with objects.programs := programs }
  | .bufferObjects, buffers => { ctx with objects.buffers := buffers }
  | .textureObjects, textures => { ctx with objects.textures := textures }
  | .framebufferObjects, framebuffers => { ctx with objects.framebuffers := framebuffers }
  | .vertexArrayObjects, arrays => { ctx with objects.vertexArrays := arrays }
  | .defaultVertexArray, array => { ctx with objects.defaultVertexArray := array }
  | .uniforms, uniforms => { ctx with objects.uniforms := uniforms }
  | .draws, draws => { ctx with draws }
  | .error, error => { ctx with error }

/-- The other context differs at most in these parts. -/
def ChangesWithin (ctx : Context) (parts : List Part) (ctx' : Context) : Prop :=
  ∀ part, part ∉ parts → ctx'.part part = ctx.part part

variable {ctx ctx' ctx'' : Context} {parts : List Part}

theorem part_put_of_ne {part other : Part} (hne : other ≠ part) (value : part.Value) :
    (ctx.put part value).part other = ctx.part other := by
  cases part <;> cases other <;> first | rfl | exact absurd rfl hne

namespace ChangesWithin

theorem refl (ctx : Context) (parts : List Part) : ctx.ChangesWithin parts ctx :=
  fun _ _ => rfl

theorem trans (h : ctx.ChangesWithin parts ctx') (h' : ctx'.ChangesWithin parts ctx'') :
    ctx.ChangesWithin parts ctx'' :=
  fun part hpart => (h' part hpart).trans (h part hpart)

theorem mono {more : List Part} (h : ctx.ChangesWithin parts ctx') (hparts : parts ⊆ more) :
    ctx.ChangesWithin more ctx' :=
  fun part hpart => h part fun hmem => hpart (hparts hmem)

theorem put (part : Part) (hpart : part ∈ parts) (value : part.Value) :
    ctx.ChangesWithin parts (ctx.put part value) := by
  intro other hother
  refine part_put_of_ne ?_ value
  rintro rfl
  exact hother hpart

/-- Taking a number changes no part. -/
theorem takeId (h : ctx.takeId.2.ChangesWithin parts ctx') : ctx.ChangesWithin parts ctx' := by
  intro part hpart
  refine (h part hpart).trans ?_
  cases part <;> rfl

end ChangesWithin

end Context

open Attempt

/-- An attempt that, if it is not refused, changes the context at most in these parts. -/
abbrev Attempt.StaysWithin (ctx : Context) (parts : List Part) : Attempt Context → Prop :=
  Yields (ctx.ChangesWithin parts) fun _ => True

namespace Context

variable {ctx : Context} {parts : List Part}

theorem StaysWithin.check {condition : Bool} {e : GlError} {next : Attempt Context}
    (h : StaysWithin ctx parts next) :
    StaysWithin ctx parts (Attempt.check condition e >>= fun _ => next) :=
  (any_attempt _).bind fun _ _ => h

theorem changeBuffer_within (target : UInt32) (change : BufferObject → Attempt BufferObject) :
    StaysWithin ctx [.bufferObjects] (ctx.changeBuffer target change) := by
  refine StaysWithin.check ?_
  split
  · trivial
  · split
    · exact .refl ctx _
    · exact (any_attempt _).bind fun _ _ => .put .bufferObjects (by simp) _

theorem changeTexture_within (target : UInt32) (change : TextureObject → Attempt TextureObject) :
    StaysWithin ctx [.textureObjects] (ctx.changeTexture target change) := by
  simp only [changeTexture]
  split
  · trivial
  · split
    · exact .refl ctx _
    · exact (any_attempt _).bind fun _ _ => .put .textureObjects (by simp) _

theorem changeVertexArray_within (change : VertexArrayObject → VertexArrayObject) :
    ctx.ChangesWithin [.vertexArrayObjects, .defaultVertexArray]
      (ctx.changeVertexArray change) := by
  simp only [changeVertexArray]
  split
  · exact .put .defaultVertexArray (by simp) _
  · split
    · exact .put .vertexArrayObjects (by simp) _
    · exact .put .defaultVertexArray (by simp) _

theorem changeShader_within (id : ObjectId) (change : ShaderObject → ShaderObject) :
    StaysWithin ctx [.shaderObjects] (ctx.changeShader id change) := by
  simp only [changeShader]
  split
  · trivial
  · exact .put .shaderObjects (by simp) _

theorem deleteShader_within (id : ObjectId) :
    ctx.ChangesWithin [.shaderObjects] (ctx.deleteShader id) := by
  simp only [deleteShader]
  split
  · exact .refl ctx _
  · exact .put .shaderObjects (by simp) _

theorem createShader_within (type : UInt32) :
    Yields (fun made => ctx.ChangesWithin [.shaderObjects] made.2) (fun _ => True)
      (ctx.createShader type) := by
  simp only [createShader]
  split
  · trivial
  · exact .takeId (.put .shaderObjects (by simp) _)

theorem changeProgram_within (id : ObjectId) (change : ProgramObject → Attempt ProgramObject) :
    StaysWithin ctx [.programObjects] (ctx.changeProgram id change) := by
  simp only [changeProgram]
  split
  · trivial
  · exact (any_attempt _).bind fun _ _ => .put .programObjects (by simp) _

theorem attachShader_within (program shader : ObjectId) :
    StaysWithin ctx [.programObjects] (ctx.attachShader program shader) := by
  simp only [attachShader]
  split
  · trivial
  · exact changeProgram_within program _

/-- A link gives out numbers, which are no part of the context. -/
theorem linkProgram_within (program : ObjectId) :
    StaysWithin ctx [.programObjects] (ctx.linkProgram program) := by
  simp only [linkProgram]
  split
  · trivial
  · split
    · trivial
    · next outcome _ =>
        have hput : ctx.ChangesWithin [.programObjects] (ctx.put .programObjects _) :=
          .put .programObjects (by simp) (ctx.objects.programs.insert program outcome.program)
        intro part hpart
        refine Eq.trans ?_ (hput part hpart)
        cases part <;> rfl

theorem useProgram_within (program : Option ObjectId) :
    StaysWithin ctx [.program] (ctx.useProgram program) := by
  have hput : ctx.ChangesWithin [.program] { ctx with bindings.program := program } :=
    .put .program (by simp) program
  cases program with
  | none => exact hput
  | some id => exact StaysWithin.check hput

theorem setUniform_within (location : ObjectId) (length width : Nat) (value : UniformValue) :
    StaysWithin ctx [.uniforms] (ctx.setUniform location length width value) :=
  StaysWithin.check (StaysWithin.check (.put .uniforms (by simp) _))

theorem bindBuffer_within (target : UInt32) (buffer : Option ObjectId) :
    StaysWithin ctx (Call.bindBuffer target buffer).touches (ctx.bindBuffer target buffer) := by
  have hbound (ctx' : Context)
      (h : ctx.ChangesWithin (Call.bindBuffer target buffer).touches ctx') :
      StaysWithin ctx (Call.bindBuffer target buffer).touches
        (if target = Enumerant.elementArrayBuffer then
          return ctx'.changeVertexArray fun array => { array with elementBuffer := buffer }
        else
          return { ctx' with bindings.buffers := ctx'.bindings.buffers.set target buffer }) := by
    split
    · exact h.trans (ChangesWithin.mono (changeVertexArray_within _) (by simp [Call.touches]))
    · exact h.trans (.put .buffers (by simp [Call.touches]) _)
  refine StaysWithin.check ?_
  cases buffer with
  | none => exact hbound ctx (.refl ctx _)
  | some id =>
      simp only
      cases ctx.objects.buffers.get? id with
      | none => trivial
      | some b => exact hbound _ (.put .bufferObjects (by simp [Call.touches]) _)

theorem bindBufferBase_within (target index : UInt32) (buffer : Option ObjectId) :
    StaysWithin ctx [.indexed, .buffers] (ctx.bindBufferBase target index buffer) := by
  refine StaysWithin.check (StaysWithin.check ?_)
  have hindexed : ctx.ChangesWithin [.indexed, .buffers] (ctx.put .indexed _) :=
    .put .indexed (by simp) (ctx.bindings.indexed.set ⟨target, index⟩ buffer)
  exact hindexed.trans
    (.put .buffers (by simp) (ctx.bindings.buffers.set target buffer))

theorem bindVertexArray_within (array : Option ObjectId) :
    StaysWithin ctx [.vertexArray] (ctx.bindVertexArray array) := by
  have hput : ctx.ChangesWithin [.vertexArray] { ctx with bindings.vertexArray := array } :=
    .put .vertexArray (by simp) array
  cases array with
  | none => exact hput
  | some id => exact StaysWithin.check hput

theorem genericAttribute_within (index : UInt32) (value : GenericAttribute) :
    StaysWithin ctx [.generic] (ctx.genericAttribute index value) :=
  (any_attempt _).bind fun _ _ => .put .generic (by simp) _

theorem attributeFloats_within (index : UInt32) (values : List Single) :
    StaysWithin ctx [.generic] (ctx.attributeFloats index values) := by
  refine (any_attempt _).bind fun _ _ => ?_
  cases quadOf? values with
  | none => trivial
  | some quad => exact genericAttribute_within index _

theorem bindTexture_within (target : UInt32) (texture : Option ObjectId) :
    StaysWithin ctx [.textureObjects, .units] (ctx.bindTexture target texture) := by
  have hbound (ctx' : Context) (units : Vector (Table UInt32 ObjectId) textureUnits)
      (h : ctx.ChangesWithin [.textureObjects, .units] ctx') :
      ctx.ChangesWithin [.textureObjects, .units] { ctx' with bindings.units := units } :=
    h.trans (.put .units (by simp) units)
  refine StaysWithin.check ?_
  cases texture with
  | none => exact hbound ctx _ (.refl ctx _)
  | some id =>
      simp only
      cases ctx.objects.textures.get? id with
      | none => trivial
      | some t =>
          exact StaysWithin.check
            (hbound _ _ (.put .textureObjects (by simp) _))

theorem framebufferTexture_within (attachment : UInt32) (texture : Option TextureAttachment) :
    StaysWithin ctx [.framebufferObjects] (ctx.framebufferTexture attachment texture) := by
  simp only [framebufferTexture]
  split
  · trivial
  · exact .put .framebufferObjects (by simp) _

theorem setDrawBuffers_within (buffers : List UInt32) :
    StaysWithin ctx [.framebufferObjects, .drawBuffers] (ctx.setDrawBuffers buffers) := by
  simp only [setDrawBuffers]
  split
  · exact .put .framebufferObjects (by simp) _
  · exact StaysWithin.check (.put .drawBuffers (by simp) _)

theorem getExtension_within (name : String) :
    ctx.ChangesWithin [.fixed] (ctx.getExtension name).2 := by
  simp only [getExtension]
  split
  · exact .put .fixed (by simp) _
  · exact .refl ctx _

/-- A call that is not refused changes only what it touches. -/
theorem attempt_within (ctx : Context) (call : Call) :
    Yields (fun answered => ctx.ChangesWithin call.touches answered.2) (fun _ => True)
      (ctx.attempt call) := by
  have heffect {parts : List Part} {changed : Attempt Context}
      (h : StaysWithin ctx parts changed) :
      Yields (fun answered => ctx.ChangesWithin parts answered.2) (fun _ => True)
        (effect changed) := h.map fun _ h => h
  have hanswer {α : Type} (reply : Attempt α) :
      Yields (fun answered => ctx.ChangesWithin [] answered.2) (fun _ => True)
        (answer ctx reply) := (any_attempt reply).map fun _ _ => .refl ctx []
  cases call with
  | getError => exact .put .error List.mem_cons_self none
  | getExtension name => exact getExtension_within name
  | viewport _ | frontFace _ | cullFace _ | depthFunc _ | depthRange _ _ | pixelStore _ _ =>
      exact heffect (StaysWithin.check (.put .fixed List.mem_cons_self _))
  | enable _ | disable _ | clearColor _ | depthMask _ | blendColor _ | blendEquation _
  | blendEquationSeparate _ _ | blendFunc _ _ | blendFuncSeparate _ =>
      exact ChangesWithin.put .fixed List.mem_cons_self _
  | clear _ => exact ChangesWithin.put .draws List.mem_cons_self _
  | createShader type => exact createShader_within type
  | shaderSource shader _ | compileShader shader => exact heffect (changeShader_within shader _)
  | deleteShader shader => exact deleteShader_within shader
  | createProgram =>
      exact ChangesWithin.takeId (.put .programObjects List.mem_cons_self _)
  | attachShader program shader => exact heffect (attachShader_within program shader)
  | bindAttributeLocation program _ _ =>
      exact heffect ((any_attempt _).bind fun _ _ => changeProgram_within program _)
  | linkProgram program => exact heffect (linkProgram_within program)
  | validateProgram program => exact heffect (changeProgram_within program _)
  | uniformBlockBinding program _ _ =>
      exact heffect (StaysWithin.check (changeProgram_within program _))
  | getShaderParameter _ _ | getShaderLog _ | getProgramParameter _ _ | getProgramLog _
  | getActiveUniform _ _ | getActiveUniforms _ _ _ | getUniformBlockIndex _ _
  | getActiveBlockName _ _ | getActiveBlockParameter _ _ _ | getUniformLocation _ _
  | getActiveAttribute _ _ | getAttributeLocation _ _ | getBufferParameter _ _ =>
      exact hanswer _
  | useProgram program => exact heffect (useProgram_within program)
  | uniformFloats _ _ _ | uniformInts _ _ _ | uniformUInts _ _ _ | uniformMatrix _ _ _ _ _ =>
      exact heffect (setUniform_within _ _ _ _)
  | createBuffer =>
      exact ChangesWithin.takeId (.put .bufferObjects List.mem_cons_self _)
  | bindBuffer target buffer => exact heffect (bindBuffer_within target buffer)
  | bindBufferBase target index buffer => exact heffect (bindBufferBase_within target index buffer)
  | bufferData target _ _ | bufferDataSize target _ _ | bufferSubData target _ _ =>
      exact heffect (changeBuffer_within target _)
  | createVertexArray =>
      exact ChangesWithin.takeId (.put .vertexArrayObjects List.mem_cons_self _)
  | bindVertexArray array => exact heffect (bindVertexArray_within array)
  | attributePointer _ _ _ _ _ _ =>
      exact heffect ((any_attempt _).bind fun _ _ =>
        StaysWithin.check (StaysWithin.check (changeVertexArray_within _)))
  | attributeIPointer _ _ _ _ _ =>
      exact heffect ((any_attempt _).bind fun _ _ =>
        StaysWithin.check (changeVertexArray_within _))
  | enableAttribute _ | disableAttribute _ =>
      exact heffect ((any_attempt _).bind fun _ _ => changeVertexArray_within _)
  | attributeFloats index values => exact heffect (attributeFloats_within index values)
  | attributeInts index _ | attributeUInts index _ =>
      exact heffect (genericAttribute_within index _)
  | createTexture =>
      exact ChangesWithin.takeId (.put .textureObjects List.mem_cons_self _)
  | bindTexture target texture => exact heffect (bindTexture_within target texture)
  | activeTexture _ =>
      exact heffect (StaysWithin.check (.put .activeTexture List.mem_cons_self _))
  | generateMipmap target | texParameterInt target _ _ | texParameterFloat target _ _ =>
      exact heffect (changeTexture_within target _)
  | texImage2D target _ | texStorage2D target _ _ _ _ | texStorage3D target _ _ _ _ _ =>
      exact heffect (StaysWithin.check (changeTexture_within target _))
  | texImage3D target _ =>
      exact heffect (StaysWithin.check (StaysWithin.check (changeTexture_within target _)))
  | createFramebuffer =>
      exact ChangesWithin.takeId (.put .framebufferObjects List.mem_cons_self _)
  | bindFramebuffer _ _ =>
      exact heffect (StaysWithin.check (StaysWithin.check
        (.put .framebuffer List.mem_cons_self _)))
  | framebufferTexture2D _ attachment texture =>
      exact heffect (framebufferTexture_within attachment texture)
  | drawBuffers buffers => exact heffect (setDrawBuffers_within buffers)
  | drawArrays _ _ _ | drawArraysInstanced _ _ _ _ =>
      exact heffect ((any_attempt _).bind fun _ _ =>
        StaysWithin.check (.put .draws List.mem_cons_self _))
  | drawElements _ _ _ _ | drawElementsInstanced _ _ _ _ _ =>
      exact heffect ((any_attempt _).bind fun _ _ => (any_attempt _).bind fun _ _ =>
        StaysWithin.check (StaysWithin.check (.put .draws List.mem_cons_self _)))

theorem part_countCall (name : String) (part : Part) :
    (ctx.countCall name).part part = ctx.part part := by
  cases part <;> rfl

/-- What is true of the result of a call, and if it is refused, whatever the flags are, of the
context before it, is true once the call was made. -/
theorem exec_of_yields (P : Context → Prop) {call : Call}
    (hattempt : Yields (fun answered => P answered.2)
      (fun _ => ∀ error lost, P { ctx.countCall call.name with error, lost })
      ((ctx.countCall call.name).attempt call)) : P (ctx.exec call).2 := by
  simp only [exec]
  cases h : (ctx.countCall call.name).attempt call with
  | ok answered => exact hattempt.value h
  | error refusal =>
      cases refusal with
      | error e => exact hattempt.failure h (ctx.error <|> some e) ctx.lost
      | impossible => exact hattempt.failure h ctx.error true

/-- What is true of the result of a call, and whatever the flags are also of the context before it,
is true once the call was made. -/
theorem exec_of_attempt (P : Context → Prop) {call : Call}
    (hattempt : Yields (fun answered => P answered.2) (fun _ => True)
      ((ctx.countCall call.name).attempt call))
    (hrefused : ∀ error lost, P { ctx.countCall call.name with error, lost }) :
    P (ctx.exec call).2 :=
  exec_of_yields P (Yields.of_forall _ (fun _ h => hattempt.value h) fun _ _ => hrefused)

theorem exec_grows (ctx : Context) (call : Call) : ctx.Grows (ctx.exec call).2 := by
  refine exec_of_attempt ctx.Grows ?_ fun error lost => SameObjects.grows (.of_eq rfl rfl)
  have hcounted : ctx.Grows (ctx.countCall call.name) := SameObjects.grows (.of_eq rfl rfl)
  exact Yields.of_forall _ (fun answered h => hcounted.trans ((attempt_lets call).value h))
    fun _ _ => trivial

/-- A call that makes no object and links no program leaves the objects and the next number. -/
theorem exec_same {call : Call} (hcall : call.givesNumbers = false) :
    ctx.SameObjects (ctx.exec call).2 := by
  refine exec_of_attempt ctx.SameObjects ?_ fun error lost => .of_eq rfl rfl
  have hcounted : ctx.SameObjects (ctx.countCall call.name) := .of_eq rfl rfl
  exact Yields.of_forall _ (fun answered h => hcounted.trans ((attempt_leaves hcall).value h))
    fun _ _ => trivial

theorem issue_grows (ctx : Context) (call : Call) : ctx.Grows (ctx.issue call) :=
  ctx.exec_grows call

/-- Whether a call is refused or not, it changes only what it touches, and the error's flag. -/
theorem exec_part {call : Call} {part : Part} (hpart : part ∉ call.touches)
    (herror : part ≠ .error) : (ctx.exec call).2.part part = ctx.part part := by
  have hwithin := (ctx.countCall call.name).attempt_within call
  refine exec_of_attempt (fun ctx' => ctx'.part part = ctx.part part) ?_ ?_
  · exact Yields.of_forall _ (fun answered h =>
      (hwithin.value h part hpart).trans (part_countCall _ part)) fun _ _ => trivial
  · intro error lost
    cases part <;> first | rfl | exact absurd rfl herror

theorem issueAll_part {calls : List Call} {part : Part}
    (hcalls : ∀ call ∈ calls, part ∉ call.touches) (herror : part ≠ .error) :
    (ctx.issueAll calls).part part = ctx.part part := by
  induction calls generalizing ctx with
  | nil => rfl
  | cons call rest ih =>
      have hrest : ((ctx.issue call).issueAll rest).part part = (ctx.issue call).part part :=
        ih fun other hother => hcalls other (List.mem_cons_of_mem call hother)
      exact hrest.trans (exec_part (hcalls call List.mem_cons_self) herror)

theorem issueAll_append (ctx : Context) (first rest : List Call) :
    ctx.issueAll (first ++ rest) = (ctx.issueAll first).issueAll rest :=
  List.foldl_append

end Context

/-- A relation between contexts that holds across any number of calls. -/
structure KeptByCalls (R : Context → Context → Prop) : Prop where
  refl : ∀ ctx, R ctx ctx
  trans : ∀ {ctx ctx' ctx''}, R ctx ctx' → R ctx' ctx'' → R ctx ctx''
  exec : ∀ ctx call, R ctx (Context.exec ctx call).2

theorem KeptByCalls.issueAll {R : Context → Context → Prop} (hR : KeptByCalls R) (ctx : Context)
    (calls : List Call) : R ctx (ctx.issueAll calls) := by
  induction calls generalizing ctx with
  | nil => exact hR.refl ctx
  | cons call rest ih => exact hR.trans (hR.exec ctx call) (ih (ctx.issue call))

theorem keptByCalls_grows : KeptByCalls Context.Grows :=
  ⟨Context.Grows.refl, Context.Grows.trans, Context.exec_grows⟩

end GlPlayback
