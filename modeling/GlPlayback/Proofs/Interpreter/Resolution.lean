import GlPlayback.Interpreter.Operation
import GlPlayback.Proofs.Resource.Registry

/-!
What resolving a command comes to. A resolved operation speaks of handles and objects that the
registry knows. Only a payload reference that leads nowhere is blamed on the reference, and nothing
is blamed on the context.
-/
namespace GlPlayback

/-- An error over a payload reference: its index, its type, or the bytes that it names. -/
def CommandError.BlamesReference : CommandError → Prop
  | payloadIndex .. | element (.unknownType _) | element (.length ..) => True
  | _ => False

namespace Surroundings

variable (s : Surroundings) (command : Command)

/-- An error that blames the payload reference is that of the command's own reference. -/
def Blames (e : CommandError) : Prop :=
  e.BlamesReference → s.payload? command = .error e

/-- What is wrong with a command as it was sent. -/
structure Faults (e : CommandError) : Prop where
  blames : s.Blames command e
  own : ∀ cause, e ≠ .gl cause

variable {s command}

theorem handle_yields (raw : Int) :
    Yields s.registry.IsRegistered (s.Faults command) (s.handle raw) :=
  (Yields.of_forall (s.registry.handle raw)
    (fun _ hh => Registry.isRegistered_of_handle hh) (fun _ _ => trivial)).mapError
    fun _ _ => ⟨False.elim, nofun⟩

theorem optionalHandle_yields (raw : Int) :
    Yields (fun _ => True) (s.Faults command) (s.optionalHandle raw) :=
  (Yields.of_forall (s.registry.optionalHandle raw)
    (fun _ _ => trivial) (fun _ _ => trivial)).mapError fun _ _ => ⟨False.elim, nofun⟩

theorem object_yields (h : Handle) (kind : ResourceKind) :
    Yields (fun id => s.registry.object h kind = .ok id) (s.Faults command) (s.object h kind) :=
  (Yields.of_forall (s.registry.object h kind)
    (fun _ hid => hid) (fun _ _ => trivial)).mapError fun _ _ => ⟨False.elim, nofun⟩

theorem resource_yields (raw : Int) (kind : ResourceKind) :
    Yields (fun x => s.registry.object x.1 kind = .ok x.2) (s.Faults command)
      (s.resource raw kind) :=
  (handle_yields raw).bind fun h _ => (object_yields h kind).bind fun _ hid => hid

theorem optionalResource_yields (raw : Int) (kind : ResourceKind) :
    Yields (fun x => ∀ h id, x = some (h, id) → s.registry.object h kind = .ok id)
      (s.Faults command) (s.optionalResource raw kind) := by
  refine (optionalHandle_yields raw).bind ?_
  intro found _
  cases found with
  | none => exact fun _ _ hx => nomatch hx
  | some h =>
      refine (object_yields h kind).bind ?_
      intro id hid h' id' hx
      cases hx
      exact hid

theorem get_yields (h : Handle) :
    Yields (fun x => s.registry.get h = .ok x) (s.Faults command)
      ((s.registry.get h).mapError .registry) :=
  (Yields.of_forall (s.registry.get h) (fun _ hx => hx) (fun _ _ => trivial)).mapError
    fun _ _ => ⟨False.elim, nofun⟩

theorem programRecord_yields (h : Handle) :
    Yields (fun record => ∃ x, s.registry.get h = .ok x ∧ x.record = .program record)
      (s.Faults command) (s.programRecord h) := by
  refine (get_yields h).bind ?_
  rintro ⟨object, record⟩ hx
  cases record with
  | program record => exact ⟨_, hx, rfl⟩
  | unset | buffer _ | shader _ _ | vertexArray _ | texture | framebuffer =>
      exact ⟨False.elim, nofun⟩

theorem programRecord_eq_ok_iff {h : Handle} {record : ProgramRecord} :
    s.programRecord h = .ok record ↔ s.registry.record h = .program record := by
  simp only [programRecord, Registry.record]
  cases s.registry.get h with
  | error e =>
      constructor
      · intro hrecord
        cases hrecord
      · intro hrecord
        cases hrecord
  | ok x =>
      obtain ⟨object, current⟩ := x
      cases current with
      | program current => exact ⟨by rintro ⟨⟩; rfl, by rintro ⟨⟩; rfl⟩
      | unset | buffer _ | shader _ _ | vertexArray _ | texture | framebuffer =>
          exact ⟨by rintro ⟨⟩, by rintro ⟨⟩⟩

theorem payload?_own : Yields (fun _ => True) (fun e => ∀ cause, e ≠ CommandError.gl cause)
    (s.payload? command) := by
  have helement {α : Type} (x : Except ElementError α) :
      Yields (fun _ => True) (fun e => ∀ cause, e ≠ CommandError.gl cause)
        (x.mapError .element) :=
    (Yields.of_forall x (fun _ _ => trivial) (fun _ _ => trivial)).mapError fun _ _ => nofun
  simp only [payload?]
  split
  · trivial
  · split
    · exact nofun
    · refine (helement _).bind fun type _ => (helement _).bind fun elements _ => ?_
      trivial

theorem payload?_yields : Yields (fun _ => True) (s.Faults command) (s.payload? command) :=
  Yields.of_forall _ (fun _ _ => trivial) fun _ he => ⟨fun _ => he, payload?_own.failure he⟩

theorem payload_yields : Yields (fun _ => True) (s.Faults command) (s.payload command) := by
  refine payload?_yields.bind ?_
  rintro (_ | p) _
  · exact ⟨False.elim, nofun⟩
  · trivial

theorem pixels_yields : Yields (fun _ => True) (s.Faults command) (s.pixels command) :=
  payload?_yields.bind fun _ _ => trivial

theorem attributeLocation_yields (ref : AttributeRef) :
    Yields (fun _ => True) (s.Faults command) (s.attributeLocation ref) := by
  cases ref with
  | location n => trivial
  | name name =>
      simp only [attributeLocation]
      cases s.bindings.program with
      | none => exact ⟨False.elim, nofun⟩
      | some h =>
          refine (programRecord_yields h).bind ?_
          intro record _
          cases record.attribute? name with
          | none => exact ⟨False.elim, nofun⟩
          | some a =>
              simp only
              split
              · exact ⟨False.elim, nofun⟩
              · trivial

theorem vertexArray_of_pointerPlace {array buffer : Handle}
    (hplace : s.pointerPlace = some (array, buffer)) : s.bindings.vertexArray = some array := by
  simp only [pointerPlace, Option.bind_eq_bind, Option.bind_eq_some_iff] at hplace
  obtain ⟨array', harray, buffer', -, hpair⟩ := hplace
  cases hpair
  exact harray

end Surroundings

/-- The calls that a command may stand for without further ado. They answer nothing, and what they
bind the interpreter keeps no account of. -/
def Call.IsPlain : Call → Prop
  | getError | getExtension _ | createShader _ | compileShader _ | getShaderParameter _ _
  | getShaderLog _ | createProgram | linkProgram _ | validateProgram _ | getProgramParameter _ _
  | getProgramLog _ | useProgram _ | getActiveUniform _ _ | getActiveUniforms _ _ _
  | getUniformBlockIndex _ _ | getActiveBlockName _ _ | getActiveBlockParameter _ _ _
  | getUniformLocation _ _ | getActiveAttribute _ _ | getAttributeLocation _ _ | createBuffer
  | bindBuffer _ _ | bufferData _ _ _ | bufferDataSize _ _ _ | getBufferParameter _ _
  | createVertexArray | bindVertexArray _ | createTexture | createFramebuffer => False
  | _ => True

/-- The calls that hand on what a payload holds. -/
def Call.IsUpload : Call → Prop
  | uniformFloats _ _ _ | uniformInts _ _ _ | uniformUInts _ _ _ | uniformMatrix _ _ _ _ _
  | bufferSubData _ _ _ | attributeFloats _ _ | attributeInts _ _ | attributeUInts _ _ => True
  | _ => False

namespace Operation

open Surroundings

/-- What is known of an operation that a command was resolved into. -/
def Resolved (s : Surroundings) : Operation → Prop
  | nothing => True
  | issue call => call.IsPlain
  | create h _ => s.registry.IsRegistered h
  | compile h shader => s.registry.object h .shader = .ok shader
  | link h program => s.registry.object h .program = .ok program
  | useProgram program =>
      ∀ h id, program = some (h, id) → s.registry.object h .program = .ok id
  | bindVertexArray array =>
      ∀ h id, array = some (h, id) → s.registry.object h .vertexArray = .ok id
  | bindBuffer _ buffer =>
      ∀ h id, buffer = some (h, id) → s.registry.object h .buffer = .ok id
  | bufferData target _ _ shown => ∀ h, shown = some h → s.bindings.buffers.get? target = some h
  | createUniformBuffer h _ _ => s.registry.IsRegistered h
  | setPointer call place _ => call.IsPlain ∧
      ∀ array buffer, place = some (array, buffer) → s.bindings.vertexArray = some array

variable {s : Surroundings} {command : Command}

theorem token_yields (family : TokenFamily) (word : String) :
    Yields (fun _ => True) (s.Faults command) (token family word) := by
  simp only [token]
  cases family.resolve? word with
  | none => exact ⟨False.elim, nofun⟩
  | some code => trivial

theorem bufferTarget_yields (word : String) :
    Yields (fun _ => True) (s.Faults command) (bufferTarget word) := by
  simp only [bufferTarget]
  cases BufferTarget.ofToken? word with
  | none => exact ⟨False.elim, nofun⟩
  | some target => trivial

theorem capabilities_yields (args : CapabilityArgs) :
    Yields (fun _ => True) (s.Faults command) (capabilities args) := by
  simp only [capabilities]
  cases args.mask with
  | none => trivial
  | some bits =>
      simp only
      split
      · trivial
      · exact ⟨False.elim, nofun⟩

theorem pixelStoreValue_yields (name : UInt32) (value : PixelStoreArg) :
    Yields (fun _ => True) (s.Faults command) (pixelStoreValue name value) := by
  cases value with
  | flag _ | number _ => trivial
  | token word =>
      simp only [pixelStoreValue]
      split
      · exact (token_yields .colorspaceConversion word).map fun _ _ => trivial
      · exact ⟨False.elim, nofun⟩

theorem image_yields (args : ImageArgs) (pixels : Option (List UInt8)) :
    Yields (fun _ => True) (s.Faults command) (image args pixels) :=
  (token_yields .internalFormat args.internalFormat).bind fun _ _ =>
    (token_yields .pixelFormat args.format).bind fun _ _ =>
      (token_yields .pixelType args.type).bind fun _ _ => trivial

/-- An operation that hands on what a payload holds, or does nothing. -/
def IsUpload : Operation → Prop
  | nothing => True
  | issue call => call.IsUpload
  | _ => False

theorem IsUpload.resolved {op : Operation} (hop : op.IsUpload) : op.Resolved s := by
  cases op with
  | nothing => trivial
  | issue call =>
      cases call with
      | uniformFloats _ _ _ | uniformInts _ _ _ | uniformUInts _ _ _ | uniformMatrix _ _ _ _ _
      | bufferSubData _ _ _ | attributeFloats _ _ | attributeInts _ _ | attributeUInts _ _ =>
          trivial
      | _ => exact hop.elim
  | _ => exact hop.elim

/-- An attempt that, if it succeeds, hands on what a payload holds. -/
abbrev Uploading (s : Surroundings) (command : Command) : Except CommandError Operation → Prop :=
  Yields IsUpload (s.Faults command)

theorem Uploading.resolved {x : Except CommandError Operation} (hx : Uploading s command x) :
    Yields (Resolved s) (s.Faults command) x :=
  hx.imp (fun _ hop => hop.resolved) fun _ => id

theorem matrixCall_yields (location : ObjectId) (p : Payload) :
    Yields Call.IsUpload (s.Faults command) (matrixCall location p) := by
  simp only [matrixCall]
  split
  · split
    · split
      · trivial
      · exact ⟨False.elim, nofun⟩
    · exact ⟨False.elim, nofun⟩
  · exact ⟨False.elim, nofun⟩

theorem vectorCall_yields (location : ObjectId) (p : Payload) :
    Yields Call.IsUpload (s.Faults command) (vectorCall location p) := by
  simp only [vectorCall]
  split
  · exact ⟨False.elim, nofun⟩
  · split
    · trivial
    · trivial
    · trivial
    · exact ⟨False.elim, nofun⟩

theorem upload_yields (name : String) {call : ObjectId → Payload → Except CommandError Call}
    (hcall : ∀ location p, Yields Call.IsUpload (s.Faults command) (call location p)) :
    Uploading s command (upload s command name call) := by
  simp only [upload]
  cases s.bindings.program with
  | none => trivial
  | some h =>
      refine (programRecord_yields h).bind ?_
      intro record _
      cases (record.uniform? name).bind (·.location) with
      | none => trivial
      | some location =>
          exact payload_yields.bind fun p _ => (hcall location p).bind fun _ hupload => hupload

/-- A slice beyond the payload's elements is not blamed on the reference. -/
theorem slice_yields (e : Elements) (start : Nat) (limit : Option Nat) :
    Yields (fun _ => True) (s.Faults command) ((e.slice start limit).mapError .element) := by
  simp only [Elements.slice]
  split
  · exact ⟨False.elim, nofun⟩
  · trivial

theorem subData_yields (target : BufferTarget) (start sourceStart : Nat) (limit : Option Nat)
    (payload : Option Payload) :
    Uploading s command (subData target start sourceStart limit payload) := by
  cases payload with
  | none => trivial
  | some p => exact (slice_yields p.elements sourceStart limit).bind fun _ _ => trivial

theorem memberOffset_yields (target : BufferTarget) (member : String) :
    Yields (fun _ => True) (s.Faults command) (memberOffset s target member) := by
  simp only [memberOffset]
  cases s.bindings.buffers.get? target with
  | none => exact ⟨False.elim, nofun⟩
  | some h =>
      refine (get_yields h).bind ?_
      intro x _
      cases x.record.asBuffer?.bind (·.block) with
      | none => exact ⟨False.elim, nofun⟩
      | some block =>
          simp only
          cases block.member? member with
          | none => exact ⟨False.elim, nofun⟩
          | some m =>
              simp only
              split
              · exact ⟨False.elim, nofun⟩
              · trivial

theorem attributeFloats_yields (index : UInt32) (p : Payload) :
    Uploading s command (attributeFloats index p) := by
  simp only [attributeFloats]
  split
  · exact ⟨False.elim, nofun⟩
  · split
    · exact ⟨False.elim, nofun⟩
    · split
      · trivial
      · exact ⟨False.elim, nofun⟩

theorem attributeInts_yields (index : UInt32) (p : Payload) :
    Uploading s command (attributeInts index p) := by
  simp only [attributeInts]
  split
  · split
    · trivial
    · exact ⟨False.elim, nofun⟩
  · split
    · trivial
    · exact ⟨False.elim, nofun⟩
  · exact ⟨False.elim, nofun⟩

theorem newObject_yields (what : Creation) :
    Yields (fun _ => True) (s.Faults command) (newObject what) := by
  cases what with
  | shader type =>
      exact ((token_yields .shaderKind type).bind fun _ _ => trivial : Yields (fun _ => True) _
        (shaderStage type)).map fun _ _ => trivial
  | texture | program | buffer | vertexArray | framebuffer => trivial

theorem issue_word_yields (family : TokenFamily) (word : String) {call : UInt32 → Call}
    (hcall : ∀ code, (call code).IsPlain) :
    Yields (Resolved s) (s.Faults command)
      (token family word >>= fun code => pure (.issue (call code))) :=
  (token_yields family word).bind fun code _ => hcall code

theorem issue_words_yields (family family' : TokenFamily) (word word' : String)
    {call : UInt32 → UInt32 → Call} (hcall : ∀ code code', (call code code').IsPlain) :
    Yields (Resolved s) (s.Faults command)
      (token family word >>= fun code => token family' word' >>= fun code' =>
        pure (.issue (call code code'))) :=
  (token_yields family word).bind fun code _ => issue_word_yields family' word' (hcall code)

theorem issue_attribute_yields (ref : AttributeRef) {call : UInt32 → Call}
    (hcall : ∀ index, (call index).IsPlain) :
    Yields (Resolved s) (s.Faults command)
      (s.attributeLocation ref >>= fun index => pure (.issue (call index))) :=
  (attributeLocation_yields ref).bind fun index _ => hcall index

/-- Every command is resolved into an operation that the registry and the bindings know. -/
theorem resolve_yields (s : Surroundings) (command : Command) :
    Yields (Resolved s) (s.Faults command) (resolve s command) := by
  simp only [resolve]
  cases command.action with
  | viewport _ | clearColor _ | clear _ _ _ | depthMask _ | depthRange _ _ | blendColor _ =>
      trivial
  | enable args | disable args => exact (capabilities_yields args).bind fun _ _ => trivial
  | frontFace _ | cullFace _ | depthFunc _ | blendEquation _ | generateMipmap _ | drawArrays _ _ _
  | drawArraysInstanced _ _ _ _ => exact issue_word_yields _ _ fun _ => trivial
  | blendEquationSeparate _ _ | blendFunc _ _ | texStorage2D _ _ _ _ _ | texStorage3D _ _ _ _ _ _
  | texParameterInt _ _ _ | texParameterFloat _ _ _ | drawElements _ _ _ _
  | drawElementsInstanced _ _ _ _ _ => exact issue_words_yields _ _ _ _ fun _ _ => trivial
  | blendFuncSeparate f =>
      exact (token_yields _ _).bind fun _ _ => (token_yields _ _).bind fun _ _ =>
        issue_words_yields _ _ _ _ fun _ _ => trivial
  | pixelStore name value =>
      exact (token_yields _ name).bind fun code _ =>
        (pixelStoreValue_yields code value).bind fun _ _ => trivial
  | create what raw =>
      exact (handle_yields raw).bind fun h hh => (newObject_yields what).bind fun _ _ => hh
  | bindTexture target raw =>
      exact (token_yields _ target).bind fun _ _ =>
        (optionalResource_yields raw .texture).bind fun _ _ => trivial
  | activeTexture unit =>
      simp only
      split
      · trivial
      · exact ⟨False.elim, nofun⟩
  | texImage2D target args | texImage3D target args =>
      exact pixels_yields.bind fun pixels _ => (token_yields _ target).bind fun _ _ =>
        (image_yields args pixels).bind fun _ _ => trivial
  | texParameterToken target name value =>
      exact (token_yields _ target).bind fun _ _ => issue_words_yields _ _ _ _ fun _ _ => trivial
  | shaderSource raw _ | deleteShader raw =>
      exact (resource_yields raw .shader).bind fun _ _ => trivial
  | compileShader raw =>
      exact (resource_yields raw .shader).bind fun _ hid => hid
  | attachShader program shader =>
      exact (handle_yields program).bind fun p _ => (handle_yields shader).bind fun sh _ =>
        (object_yields p .program).bind fun _ _ => (object_yields sh .shader).bind
          fun _ _ => trivial
  | bindAttributeLocation raw _ _ =>
      exact (resource_yields raw .program).bind fun _ _ => trivial
  | linkProgram raw => exact (resource_yields raw .program).bind fun _ hid => hid
  | useProgram raw => exact (optionalResource_yields raw .program).bind fun _ hx => hx
  | uniform name => exact (upload_yields name vectorCall_yields).resolved
  | uniformMatrix name => exact (upload_yields name matrixCall_yields).resolved
  | uniformBlockBinding raw name _ =>
      refine (resource_yields raw .program).bind ?_
      rintro ⟨h, program⟩ _
      refine (programRecord_yields h).bind ?_
      intro record _
      cases record.block? name with
      | none => exact ⟨False.elim, nofun⟩
      | some block => trivial
  | bindBuffer target raw =>
      exact (bufferTarget_yields target).bind fun _ _ =>
        (optionalResource_yields raw .buffer).bind fun _ hx => hx
  | bindBufferBase target _ raw =>
      exact (bufferTarget_yields target).bind fun _ _ =>
        (optionalResource_yields raw .buffer).bind fun _ _ => trivial
  | bufferData target usage update size =>
      refine (bufferTarget_yields target).bind fun target _ =>
        (token_yields .usageHint usage).bind fun _ _ => payload?_yields.bind ?_
      intro contents _ h hshown
      cases update with
      | true => exact hshown
      | false => cases hshown
  | bufferSubData target start sourceStart limit =>
      exact (bufferTarget_yields target).bind fun target _ =>
        payload?_yields.bind fun p _ =>
          (subData_yields target start sourceStart limit p).resolved
  | bufferSubDataAt target member sourceStart =>
      exact (bufferTarget_yields target).bind fun target _ =>
        (memberOffset_yields target member).bind fun start _ =>
          payload?_yields.bind fun p _ =>
            (subData_yields target start sourceStart none p).resolved
  | createUniformBuffer buffer program name usage =>
      refine (handle_yields buffer).bind fun h hh => (resource_yields program .program).bind ?_
      rintro ⟨program, _⟩ _
      refine (programRecord_yields program).bind ?_
      intro record _
      cases record.block? name with
      | none => exact ⟨False.elim, nofun⟩
      | some block => exact (token_yields .usageHint usage).bind fun _ _ => hh
  | bindVertexArray raw => exact (optionalResource_yields raw .vertexArray).bind fun _ hx => hx
  | attributePointer args _ | attributeIPointer args =>
      exact (attributeLocation_yields args.index).bind fun _ _ =>
        (token_yields .vertexType args.type).bind fun _ _ =>
          ⟨trivial, fun _ _ hplace => vertexArray_of_pointerPlace hplace⟩
  | enableAttribute ref | disableAttribute ref => exact issue_attribute_yields ref fun _ => trivial
  | attributeFloats ref =>
      exact (attributeLocation_yields ref).bind fun index _ =>
        payload_yields.bind fun p _ => (attributeFloats_yields index p).resolved
  | attributeInts ref =>
      exact (attributeLocation_yields ref).bind fun index _ =>
        payload_yields.bind fun p _ => (attributeInts_yields index p).resolved
  | bindFramebuffer target raw =>
      exact (token_yields _ target).bind fun _ _ =>
        (optionalResource_yields raw .framebuffer).bind fun _ _ => trivial
  | framebufferTexture2D target attachment textureTarget raw _ =>
      exact (optionalResource_yields raw .texture).bind fun _ _ =>
        (token_yields _ target).bind fun _ _ => issue_words_yields _ _ _ _ fun _ _ => trivial
  | drawBuffers buffers =>
      exact (Yields.mapM (fun word => token_yields .drawBuffer word) buffers).bind
        fun _ _ => trivial
  | unknown => exact ⟨False.elim, nofun⟩

end Operation

end GlPlayback
