import GlPlayback.Proofs.Gl.Objects

/-!
What each call does to the objects of a context. Six calls make an object; every other call, and
every call that is refused, leaves the objects as they are, up to what is in them.
-/
namespace GlPlayback

open Attempt

/-- The calls that may give out numbers: they make an object or link a program. -/
def Call.givesNumbers : Call → Bool
  | createShader _ | createProgram | createBuffer | createVertexArray | createTexture
  | createFramebuffer | linkProgram _ => true
  | _ => false

/-- An attempt that, if it is not refused, leaves the objects of the context. -/
abbrev Attempt.Spares (ctx : Context) : Attempt Context → Prop :=
  Yields ctx.SameObjects fun _ => True

namespace Context

variable {ctx : Context}

theorem any_attempt {α : Type} (x : Attempt α) : Yields (fun _ => True) (fun _ => True) x :=
  Yields.of_forall x (fun _ _ => trivial) (fun _ _ => trivial)

theorem Spares.check {condition : Bool} {e : GlError} {next : Attempt Context}
    (h : Attempt.Spares ctx next) : Attempt.Spares ctx (check condition e >>= fun _ => next) :=
  (any_attempt _).bind fun _ _ => h

theorem changeBuffer_spares (target : UInt32) (change : BufferObject → Attempt BufferObject) :
    Attempt.Spares ctx (ctx.changeBuffer target change) := by
  refine Spares.check ?_
  cases ctx.boundBuffer? target with
  | none => trivial
  | some id =>
      simp only
      cases h : ctx.objects.buffers.get? id with
      | none => exact SameObjects.refl ctx
      | some b => exact (any_attempt (change b)).bind fun b' _ => .replaceBuffer h b'

theorem changeTexture_spares (target : UInt32) (change : TextureObject → Attempt TextureObject) :
    Attempt.Spares ctx (ctx.changeTexture target change) := by
  simp only [changeTexture]
  cases ctx.boundTexture? target with
  | none => trivial
  | some id =>
      simp only
      cases h : ctx.objects.textures.get? id with
      | none => exact SameObjects.refl ctx
      | some t => exact (any_attempt (change t)).bind fun t' _ => .replaceTexture h t'

theorem changeVertexArray_same (change : VertexArrayObject → VertexArrayObject) :
    ctx.SameObjects (ctx.changeVertexArray change) := by
  have hdefault (v : VertexArrayObject) :
      ctx.SameObjects { ctx with objects.defaultVertexArray := v } :=
    ⟨rfl, fun what _ => by cases what <;> rfl⟩
  simp only [changeVertexArray]
  cases ctx.bindings.vertexArray with
  | none => exact hdefault _
  | some id =>
      simp only
      cases h : ctx.objects.vertexArrays.get? id with
      | none => exact hdefault _
      | some v => exact .replaceVertexArray h _

theorem changeShader_spares (id : ObjectId) (change : ShaderObject → ShaderObject)
    (hstage : ∀ s, (change s).stage = s.stage) :
    Attempt.Spares ctx (ctx.changeShader id change) := by
  simp only [changeShader]
  cases h : ctx.objects.shaders.get? id with
  | none => trivial
  | some s => exact .replaceShader h (hstage s)

theorem changeProgram_spares (id : ObjectId) (change : ProgramObject → Attempt ProgramObject) :
    Attempt.Spares ctx (ctx.changeProgram id change) := by
  simp only [changeProgram]
  cases h : ctx.objects.programs.get? id with
  | none => trivial
  | some p => exact (any_attempt (change p)).bind fun p' _ => .replaceProgram h p'

theorem framebuffer?_some {id : ObjectId} {f : FramebufferObject}
    (h : ctx.framebuffer? = some (id, f)) : ctx.objects.framebuffers.get? id = some f := by
  simp only [framebuffer?, Option.bind_eq_bind, Option.bind_eq_some_iff] at h
  obtain ⟨id', -, f', hf, hpair⟩ := h
  cases hpair
  exact hf

theorem compile_stage (s : ShaderObject) : s.compile.stage = s.stage := by
  simp only [ShaderObject.compile]
  split <;> rfl

theorem deleteShader_same (id : ObjectId) : ctx.SameObjects (ctx.deleteShader id) := by
  simp only [deleteShader]
  cases h : ctx.objects.shaders.get? id with
  | none => exact SameObjects.refl ctx
  | some s => exact .replaceShader h rfl

theorem attachShader_spares (program shader : ObjectId) :
    Attempt.Spares ctx (ctx.attachShader program shader) := by
  simp only [attachShader]
  cases ctx.objects.shaders.get? shader with
  | none => trivial
  | some s => exact changeProgram_spares program _

/-- A link takes numbers for locations, which are no objects. -/
theorem linkProgram_lets (program : ObjectId) :
    Yields ctx.Grows (fun _ => True) (ctx.linkProgram program) := by
  simp only [linkProgram]
  cases h : ctx.objects.programs.get? program with
  | none => trivial
  | some p =>
      simp only
      cases Linking.link ctx.objects.shaders ctx.nextId p with
      | none => trivial
      | some outcome =>
          have hprogram := SameObjects.replaceProgram h outcome.program
          exact grows_of_has_iff (Nat.le_add_right _ _) hprogram.has_iff

theorem useProgram_spares (program : Option ObjectId) :
    Attempt.Spares ctx (ctx.useProgram program) := by
  cases program with
  | none => exact SameObjects.of_eq rfl rfl
  | some id => exact Spares.check (SameObjects.of_eq rfl rfl)

theorem bindVertexArray_spares (array : Option ObjectId) :
    Attempt.Spares ctx (ctx.bindVertexArray array) := by
  cases array with
  | none => exact SameObjects.of_eq rfl rfl
  | some id => exact Spares.check (SameObjects.of_eq rfl rfl)

theorem setUniform_spares (location : ObjectId) (length width : Nat) (value : UniformValue) :
    Attempt.Spares ctx (ctx.setUniform location length width value) :=
  Spares.check (Spares.check ⟨rfl, fun what _ => by cases what <;> rfl⟩)

theorem bindBuffer_spares (target : UInt32) (buffer : Option ObjectId) :
    Attempt.Spares ctx (ctx.bindBuffer target buffer) := by
  have hbound (ctx' : Context) (hsame : ctx.SameObjects ctx') : Attempt.Spares ctx
      (if target = Enumerant.elementArrayBuffer then
        return ctx'.changeVertexArray fun array => { array with elementBuffer := buffer }
      else return { ctx' with bindings.buffers := ctx'.bindings.buffers.set target buffer }) := by
    split
    · exact hsame.trans (changeVertexArray_same _)
    · exact ⟨hsame.nextId_eq, hsame.has_iff⟩
  refine Spares.check ?_
  cases buffer with
  | none => exact hbound ctx (.refl ctx)
  | some id =>
      simp only
      cases h : ctx.objects.buffers.get? id with
      | none => trivial
      | some b => exact hbound _ (.replaceBuffer h _)

theorem bindTexture_spares (target : UInt32) (texture : Option ObjectId) :
    Attempt.Spares ctx (ctx.bindTexture target texture) := by
  refine Spares.check ?_
  cases texture with
  | none => exact SameObjects.of_eq rfl rfl
  | some id =>
      simp only
      cases h : ctx.objects.textures.get? id with
      | none => trivial
      | some t =>
          have hsame := SameObjects.replaceTexture h { t with target := some target }
          exact Spares.check ⟨hsame.nextId_eq, hsame.has_iff⟩

theorem framebufferTexture_spares (attachment : UInt32) (texture : Option TextureAttachment) :
    Attempt.Spares ctx (ctx.framebufferTexture attachment texture) := by
  simp only [framebufferTexture]
  cases h : ctx.framebuffer? with
  | none => trivial
  | some found => exact .replaceFramebuffer (framebuffer?_some h) _

theorem setDrawBuffers_spares (buffers : List UInt32) :
    Attempt.Spares ctx (ctx.setDrawBuffers buffers) := by
  simp only [setDrawBuffers]
  cases h : ctx.framebuffer? with
  | none => exact Spares.check (SameObjects.of_eq rfl rfl)
  | some found => exact .replaceFramebuffer (framebuffer?_some h) _

theorem drawArrays_spares (mode : UInt32) (first count instances : Int32) :
    Attempt.Spares ctx (ctx.drawArrays mode first count instances) :=
  (any_attempt _).bind fun _ _ => Spares.check (SameObjects.of_eq rfl rfl)

theorem drawElements_spares (mode : UInt32) (count : Int32) (type : UInt32)
    (offset instances : Int32) :
    Attempt.Spares ctx (ctx.drawElements mode count type offset instances) :=
  (any_attempt _).bind fun _ _ => (any_attempt _).bind fun _ _ =>
    Spares.check (Spares.check (SameObjects.of_eq rfl rfl))

theorem attributePointer_spares (index : UInt32) (size : Int32) (type : UInt32)
    (normalized : Bool) (stride offset : Int32) :
    Attempt.Spares ctx (ctx.attributePointer index size type normalized stride offset) :=
  (any_attempt _).bind fun _ _ => Spares.check (Spares.check (changeVertexArray_same _))

theorem attributeIPointer_spares (index : UInt32) (size : Int32) (type : UInt32)
    (stride offset : Int32) :
    Attempt.Spares ctx (ctx.attributeIPointer index size type stride offset) :=
  (any_attempt _).bind fun _ _ => Spares.check (changeVertexArray_same _)

theorem switchAttribute_spares (index : UInt32) (enabled : Bool) :
    Attempt.Spares ctx (ctx.switchAttribute index enabled) :=
  (any_attempt _).bind fun _ _ => changeVertexArray_same _

theorem genericAttribute_spares (index : UInt32) (value : GenericAttribute) :
    Attempt.Spares ctx (ctx.genericAttribute index value) :=
  (any_attempt _).bind fun _ _ => SameObjects.of_eq rfl rfl

theorem attributeFloats_spares (index : UInt32) (values : List Single) :
    Attempt.Spares ctx (ctx.attributeFloats index values) := by
  refine (any_attempt _).bind fun _ _ => ?_
  cases quadOf? values with
  | none => trivial
  | some quad => exact genericAttribute_spares index _

theorem getExtension_same (name : String) : ctx.SameObjects (ctx.getExtension name).2 := by
  simp only [getExtension]
  split
  · exact SameObjects.of_eq rfl rfl
  · exact SameObjects.refl ctx

/-- An attempt that, if it is not refused, lets the context grow. -/
abbrev Lets {α : Type} (ctx : Context) : Attempt (α × Context) → Prop :=
  Yields (fun answered => ctx.Grows answered.2) fun _ => True

/-- An attempt that, if it is not refused, leaves the objects and the next number. -/
abbrev Leaves {α : Type} (ctx : Context) : Attempt (α × Context) → Prop :=
  Yields (fun answered => ctx.SameObjects answered.2) fun _ => True

theorem leaves_effect {changed : Attempt Context} (h : Attempt.Spares ctx changed) :
    ctx.Leaves (effect changed) :=
  h.map fun _ hsame => hsame

theorem leaves_answer {α : Type} (reply : Attempt α) : ctx.Leaves (answer ctx reply) :=
  (any_attempt reply).map fun _ _ => SameObjects.refl ctx

theorem createTexture_makes : ctx.Makes .texture ctx.createTexture.2 := by
  refine ⟨rfl, fun _ what _ => ?_⟩
  cases what <;> simp [createTexture, takeId, ObjectTables.Has, isSome_get?_insert]

theorem createProgram_makes : ctx.Makes .program ctx.createProgram.2 := by
  refine ⟨rfl, fun _ what _ => ?_⟩
  cases what <;> simp [createProgram, takeId, ObjectTables.Has, isSome_get?_insert]

theorem createBuffer_makes : ctx.Makes .buffer ctx.createBuffer.2 := by
  refine ⟨rfl, fun _ what _ => ?_⟩
  cases what <;> simp [createBuffer, takeId, ObjectTables.Has, isSome_get?_insert]

theorem createVertexArray_makes : ctx.Makes .vertexArray ctx.createVertexArray.2 := by
  refine ⟨rfl, fun _ what _ => ?_⟩
  cases what <;> simp [createVertexArray, takeId, ObjectTables.Has, isSome_get?_insert]

theorem createFramebuffer_makes : ctx.Makes .framebuffer ctx.createFramebuffer.2 := by
  refine ⟨rfl, fun _ what _ => ?_⟩
  cases what <;> simp [createFramebuffer, takeId, ObjectTables.Has, isSome_get?_insert]

def withShader (ctx : Context) (stage : Stage) : Context :=
  { ctx.takeId.2 with
    objects.shaders := ctx.objects.shaders.insert ctx.nextId { stage } }

theorem createShader_of_ofCode? {code : UInt32} {stage : Stage}
    (h : Stage.ofCode? code = some stage) :
    ctx.createShader code = .ok (some ctx.nextId, ctx.withShader stage) := by
  simp only [createShader, h]
  rfl

theorem withShader_makes (stage : Stage) : ctx.Makes (.shader stage) (ctx.withShader stage) := by
  refine ⟨rfl, fun hn what id => ?_⟩
  cases what with
  | shader stage' =>
      have hfree := hn.nextId_free (.shader stage')
      simp only [withShader, ObjectTables.Has, Table.get?_insert, NewObject.shader.injEq] at hfree ⊢
      split
      · next heq =>
          subst heq
          simp [hfree, eq_comm]
      · next hne => simp [Ne.symm hne]
  | texture | program | buffer | vertexArray | framebuffer =>
      simp [withShader, takeId, ObjectTables.Has]

theorem createShader_lets (code : UInt32) : ctx.Lets (ctx.createShader code) := by
  cases h : Stage.ofCode? code with
  | none =>
      simp only [createShader, h]
      trivial
  | some stage =>
      rw [createShader_of_ofCode? h]
      exact (withShader_makes stage).grows

/-- A call that makes no object and links no program gives out no number. -/
theorem attempt_leaves {call : Call} (hcall : call.givesNumbers = false) :
    ctx.Leaves (ctx.attempt call) := by
  cases call with
  | createShader _ | createProgram | createBuffer | createVertexArray | createTexture
  | createFramebuffer | linkProgram _ => cases hcall
  | getError | clearColor _ | clear _ | depthMask _ | blendColor _ | blendEquation _
  | blendEquationSeparate _ _ | blendFunc _ _ | blendFuncSeparate _ | enable _ | disable _ =>
      exact SameObjects.of_eq rfl rfl
  | getExtension name => exact getExtension_same name
  | viewport _ | frontFace _ | cullFace _ | depthFunc _ | depthRange _ _ | pixelStore _ _
  | activeTexture _ =>
      exact leaves_effect (Spares.check (SameObjects.of_eq rfl rfl))
  | shaderSource shader _ => exact leaves_effect (changeShader_spares shader _ fun _ => rfl)
  | compileShader shader => exact leaves_effect (changeShader_spares shader _ compile_stage)
  | deleteShader shader => exact deleteShader_same shader
  | attachShader program shader => exact leaves_effect (attachShader_spares program shader)
  | bindAttributeLocation program _ _ =>
      exact leaves_effect ((any_attempt _).bind fun _ _ => changeProgram_spares program _)
  | validateProgram program => exact leaves_effect (changeProgram_spares program _)
  | useProgram program => exact leaves_effect (useProgram_spares program)
  | uniformBlockBinding program _ _ =>
      exact leaves_effect (Spares.check (changeProgram_spares program _))
  | getShaderParameter _ _ | getShaderLog _ | getProgramParameter _ _ | getProgramLog _
  | getActiveUniform _ _ | getActiveUniforms _ _ _ | getUniformBlockIndex _ _
  | getActiveBlockName _ _ | getActiveBlockParameter _ _ _ | getUniformLocation _ _
  | getActiveAttribute _ _ | getAttributeLocation _ _ | getBufferParameter _ _ =>
      exact leaves_answer _
  | uniformFloats _ _ _ | uniformInts _ _ _ | uniformUInts _ _ _ | uniformMatrix _ _ _ _ _ =>
      exact leaves_effect (setUniform_spares _ _ _ _)
  | bindBuffer target buffer => exact leaves_effect (bindBuffer_spares target buffer)
  | bindBufferBase _ _ _ =>
      exact leaves_effect (Spares.check (Spares.check (SameObjects.of_eq rfl rfl)))
  | bufferData target _ _ | bufferDataSize target _ _ | bufferSubData target _ _ =>
      exact leaves_effect (changeBuffer_spares target _)
  | bindVertexArray array => exact leaves_effect (bindVertexArray_spares array)
  | attributePointer _ _ _ _ _ _ => exact leaves_effect (attributePointer_spares _ _ _ _ _ _)
  | attributeIPointer _ _ _ _ _ => exact leaves_effect (attributeIPointer_spares _ _ _ _ _)
  | enableAttribute index | disableAttribute index =>
      exact leaves_effect (switchAttribute_spares index _)
  | attributeFloats index values => exact leaves_effect (attributeFloats_spares index values)
  | attributeInts index _ | attributeUInts index _ =>
      exact leaves_effect (genericAttribute_spares index _)
  | bindTexture target texture => exact leaves_effect (bindTexture_spares target texture)
  | generateMipmap target | texParameterInt target _ _ | texParameterFloat target _ _ =>
      exact leaves_effect (changeTexture_spares target _)
  | texImage2D target _ | texStorage2D target _ _ _ _ | texStorage3D target _ _ _ _ _ =>
      exact leaves_effect (Spares.check (changeTexture_spares target _))
  | texImage3D target _ =>
      exact leaves_effect (Spares.check (Spares.check (changeTexture_spares target _)))
  | bindFramebuffer _ _ =>
      exact leaves_effect (Spares.check (Spares.check (SameObjects.of_eq rfl rfl)))
  | framebufferTexture2D _ attachment texture =>
      exact leaves_effect (framebufferTexture_spares attachment texture)
  | drawBuffers buffers => exact leaves_effect (setDrawBuffers_spares buffers)
  | drawArrays _ _ _ | drawArraysInstanced _ _ _ _ =>
      exact leaves_effect (drawArrays_spares _ _ _ _)
  | drawElements _ _ _ _ | drawElementsInstanced _ _ _ _ _ =>
      exact leaves_effect (drawElements_spares _ _ _ _ _)

theorem attempt_lets (call : Call) : ctx.Lets (ctx.attempt call) := by
  cases hgives : call.givesNumbers with
  | false =>
      exact Yields.of_forall _ (fun _ h => ((attempt_leaves hgives).value h).grows)
        fun _ _ => trivial
  | true =>
      cases call with
      | createShader code => exact createShader_lets code
      | createProgram => exact createProgram_makes.grows
      | createBuffer => exact createBuffer_makes.grows
      | createVertexArray => exact createVertexArray_makes.grows
      | createTexture => exact createTexture_makes.grows
      | createFramebuffer => exact createFramebuffer_makes.grows
      | linkProgram program => exact (linkProgram_lets program).map fun _ h => h
      | _ => cases hgives

end Context

end GlPlayback
