import GlPlayback.Proofs.Interpreter.Cells
import GlPlayback.Proofs.Interpreter.Echoes

/-!
What a command is resolved into goes by a few cells. Where another machine has the same in these,
but for the numbers of objects and locations, the command is resolved there as well, and into the
same operation but for these numbers.
-/
namespace GlPlayback

namespace Surroundings

variable (s : Surroundings)

def named (raw : Int) : List Cell :=
  match s.registry.handle raw with
  | .ok h => [.resource h]
  | .error _ => []

def recorded (raw : Int) : List Cell :=
  match s.registry.handle raw with
  | .ok h => [.resource h, .record h]
  | .error _ => []

def programCells : List Cell :=
  .program :: (s.bindings.program.map Cell.record).toList

def attributeCells : AttributeRef → List Cell
  | .location _ => []
  | .name _ => s.programCells

/-- The cells that resolving a command goes by. -/
def consults : Action → List Cell
  | .bindTexture _ raw | .bindBuffer _ raw | .bindBufferBase _ _ raw | .bindVertexArray raw
  | .useProgram raw | .bindFramebuffer _ raw | .framebufferTexture2D _ _ _ raw _
  | .shaderSource raw _ | .compileShader raw | .deleteShader raw
  | .bindAttributeLocation raw _ _ | .linkProgram raw => s.named raw
  | .attachShader program shader => s.named program ++ s.named shader
  | .uniformBlockBinding raw _ _ | .createUniformBuffer _ raw _ _ => s.recorded raw
  | .uniform _ | .uniformMatrix _ => s.programCells
  | .attributePointer args _ | .attributeIPointer args =>
      s.attributeCells args.index ++ [.vertexArray, .buffer .array]
  | .enableAttribute ref | .disableAttribute ref | .attributeFloats ref | .attributeInts ref =>
      s.attributeCells ref
  | .bufferData word _ true _ => ((BufferTarget.ofToken? word).map Cell.buffer).toList
  | .bufferSubDataAt word _ _ =>
      match BufferTarget.ofToken? word with
      | some target =>
          .buffer target :: ((s.bindings.buffers.get? target).map Cell.record).toList
      | none => []
  | _ => []

end Surroundings

/-- The operation with the objects that it is about under other numbers. -/
def Operation.rename (f : ObjectId → ObjectId) : Operation → Operation
  | issue call => .issue (call.rename f)
  | compile h shader => .compile h (f shader)
  | link h program => .link h (f program)
  | useProgram program => .useProgram (program.map fun (h, id) => (h, f id))
  | bindVertexArray array => .bindVertexArray (array.map fun (h, id) => (h, f id))
  | bindBuffer target buffer => .bindBuffer target (buffer.map fun (h, id) => (h, f id))
  | setPointer call place record => .setPointer (call.rename f) place record
  | op => op

/-- Both operations put one call on the side, or they are the same but for the numbers of
objects. -/
inductive Operation.Follows (f : ObjectId → ObjectId) : Operation → Operation → Prop
  | aside {call call' : Call} (hcall : call.isAside = true) (hcall' : call'.isAside = true) :
      Follows f (.issue call) (.issue call')
  | renamed (op : Operation) : Follows f op (op.rename f)

namespace ProgramRecord

variable {record record' : ProgramRecord} (h : record'.unnumbered = record.unnumbered)
include h

theorem attribute?_of_unnumbered (name : String) :
    record'.attribute? name = record.attribute? name :=
  congrArg (fun r => r.attribute? name) h

theorem block?_of_unnumbered (name : String) : record'.block? name = record.block? name :=
  congrArg (fun r => r.block? name) h

theorem location_of_unnumbered (name : String) :
    ((record'.uniform? name).bind (·.location)).isSome =
      ((record.uniform? name).bind (·.location)).isSome := by
  have hunnumbered (r : ProgramRecord) : ((r.uniform? name).bind (·.location)).isSome =
      ((r.unnumbered.uniform? name).bind (·.location)).isSome := by
    have hnames : ((fun u : UniformRecord => u.name == name || u.name == name ++ "[0]") ∘
        UniformRecord.unnumbered) = fun u => u.name == name || u.name == name ++ "[0]" := rfl
    simp only [uniform?, unnumbered, List.find?_map, hnames, Option.bind_map]
    cases r.uniforms.find? fun u => u.name == name || u.name == name ++ "[0]" with
    | none => rfl
    | some u => exact Option.isSome_map.symm
  rw [hunnumbered record', hunnumbered record, h]

end ProgramRecord

theorem ResourceRecord.asBuffer?_unnumbered (record : ResourceRecord) :
    record.unnumbered.asBuffer? = record.asBuffer? := by
  cases record <;> rfl

namespace Machine

/-- The other machine has the same in the cells that are known, with the objects under other
numbers. -/
structure Echoes (f : ObjectId → ObjectId) (known : Cell → Prop) (m m' : Machine) : Prop where
  context : m.context.Echoes f (fun cell => known (.context cell)) m'.context
  size_eq : m'.registry.size = m.registry.size
  agrees : ∀ cell, known cell → cell.Agrees f m m'

end Machine

namespace Surroundings

variable {f : ObjectId → ObjectId} {known : Cell → Prop} {m m' : Machine}
  {payloads : List (List UInt8)}

theorem known_of_named {raw : Int} {handle : Handle}
    (hknown : ∀ cell ∈ (m.surroundings payloads).named raw, known cell)
    (hraw : m.registry.handle raw = .ok handle) : known (.resource handle) := by
  apply hknown
  simp only [named, Machine.surroundings, hraw, List.mem_singleton]

theorem named_of_recorded {raw : Int}
    (hknown : ∀ cell ∈ (m.surroundings payloads).recorded raw, known cell) :
    ∀ cell ∈ (m.surroundings payloads).named raw, known cell := by
  intro cell hcell
  apply hknown
  simp only [named, recorded] at hcell ⊢
  split at hcell
  · exact List.mem_cons.mpr (.inl (List.mem_singleton.mp hcell))
  · cases hcell

theorem known_of_recorded {raw : Int} {handle : Handle}
    (hknown : ∀ cell ∈ (m.surroundings payloads).recorded raw, known cell)
    (hraw : m.registry.handle raw = .ok handle) : known (.record handle) := by
  apply hknown
  simp [recorded, Machine.surroundings, hraw]

section Lookups

variable (h : m.Echoes f known m')
include h

theorem registry_handle_echoes (raw : Int) : m'.registry.handle raw = m.registry.handle raw := by
  rw [Registry.handle, Registry.handle, h.size_eq]

theorem handle_echoes (raw : Int) :
    KeepsUp (fun a a' => a' = a ∧ m.registry.handle raw = .ok a)
      ((m.surroundings payloads).handle raw) ((m'.surroundings payloads).handle raw) := by
  apply KeepsUp.mapError
  intro a ha
  exact ⟨a, (registry_handle_echoes h raw).trans ha, rfl, ha⟩

theorem optionalHandle_echoes (raw : Int) :
    KeepsUp (fun a a' => a' = a ∧ ∀ handle, a = some handle → m.registry.handle raw = .ok handle)
      ((m.surroundings payloads).optionalHandle raw)
      ((m'.surroundings payloads).optionalHandle raw) := by
  apply KeepsUp.mapError
  intro a ha
  simp only [Machine.surroundings, Registry.optionalHandle, registry_handle_echoes h] at ha ⊢
  refine ⟨a, ha, rfl, ?_⟩
  rintro handle rfl
  split at ha
  · cases ha
  · obtain ⟨found, hraw, ⟨⟩⟩ := map_eq_ok_iff.mp ha
    exact hraw

theorem object_echoes {handle : Handle} (hknown : known (.resource handle)) (kind : ResourceKind) :
    KeepsUp (fun id id' => id' = f id) ((m.surroundings payloads).object handle kind)
      ((m'.surroundings payloads).object handle kind) := by
  apply KeepsUp.mapError
  intro id hid
  obtain ⟨hwhat, hobject⟩ := h.agrees _ hknown
  obtain ⟨hkind, hid⟩ := Registry.object_eq_ok_iff_recorded.mp hid
  have hid : m.registry.objectOf? handle = some id := hid
  have hkind' : (m'.registry.record handle).kind? = some kind := by
    rw [ResourceRecord.kind?_eq, hwhat, ← ResourceRecord.kind?_eq]
    exact hkind
  have hid' : m'.registry.objectOf? handle = some (f id) := by
    rw [hobject, hid, Option.map_some]
  exact ⟨f id, Registry.object_eq_ok_iff_recorded.mpr ⟨hkind', hid'⟩, rfl⟩

theorem resource_echoes {raw : Int}
    (hknown : ∀ cell ∈ (m.surroundings payloads).named raw, known cell) (kind : ResourceKind) :
    KeepsUp (fun x x' => x' = (x.1, f x.2) ∧ m.registry.handle raw = .ok x.1)
      ((m.surroundings payloads).resource raw kind)
      ((m'.surroundings payloads).resource raw kind) := by
  apply (handle_echoes h raw).bind
  rintro handle _ ⟨rfl, hraw⟩
  apply (object_echoes h (known_of_named hknown hraw) kind).bind
  rintro id _ rfl
  exact .value ⟨rfl, hraw⟩

theorem optionalResource_echoes {raw : Int}
    (hknown : ∀ cell ∈ (m.surroundings payloads).named raw, known cell) (kind : ResourceKind) :
    KeepsUp (fun x x' => x' = x.map fun (h, id) => (h, f id))
      ((m.surroundings payloads).optionalResource raw kind)
      ((m'.surroundings payloads).optionalResource raw kind) := by
  apply (optionalHandle_echoes h raw).bind
  rintro _ found ⟨rfl, hraw⟩
  cases found with
  | none => exact .value rfl
  | some handle =>
      apply (object_echoes h (known_of_named hknown (hraw handle rfl)) kind).bind
      rintro id _ rfl
      exact .value rfl

theorem programRecord_echoes {handle : Handle} (hknown : known (.record handle)) :
    KeepsUp (fun record record' => record'.unnumbered = record.unnumbered)
      ((m.surroundings payloads).programRecord handle)
      ((m'.surroundings payloads).programRecord handle) := by
  intro record hrecord
  have hagrees : (m'.registry.record handle).unnumbered = (m.registry.record handle).unnumbered :=
    h.agrees _ hknown
  rw [programRecord_eq_ok_iff] at hrecord
  have hsame : m.registry.record handle = .program record := hrecord
  rw [hsame] at hagrees
  cases hrecord' : m'.registry.record handle with
  | program record' =>
      rw [hrecord'] at hagrees
      exact ⟨record', programRecord_eq_ok_iff.mpr hrecord',
        ResourceRecord.program.inj hagrees⟩
  | _ =>
      rw [hrecord'] at hagrees
      cases hagrees

theorem get_echoes {handle : Handle} (hknown : known (.record handle)) :
    KeepsUp (fun x x' => x'.record.unnumbered = x.record.unnumbered) (m.registry.get handle)
      (m'.registry.get handle) := by
  intro x hx
  have hagrees : (m'.registry.record handle).unnumbered = (m.registry.record handle).unnumbered :=
    h.agrees _ hknown
  obtain ⟨x', hx'⟩ : m'.registry.IsRegistered handle := by
    rw [Registry.isRegistered_iff, h.size_eq, ← Registry.isRegistered_iff]
    exact ⟨x, hx⟩
  rw [Registry.record_of_get hx, Registry.record_of_get hx'] at hagrees
  exact ⟨x', hx', hagrees⟩

theorem attributeLocation_echoes {ref : AttributeRef}
    (hknown : ∀ cell ∈ (m.surroundings payloads).attributeCells ref, known cell) :
    KeepsUp (fun n n' => n' = n) ((m.surroundings payloads).attributeLocation ref)
      ((m'.surroundings payloads).attributeLocation ref) := by
  cases ref with
  | location n => exact .value rfl
  | name name =>
      have hprogram : (m'.surroundings payloads).bindings.program =
          (m.surroundings payloads).bindings.program :=
        h.agrees .program (hknown _ List.mem_cons_self)
      simp only [attributeLocation, hprogram]
      cases hbound : (m.surroundings payloads).bindings.program with
      | none => exact .failure _
      | some handle =>
          have hrecord : known (.record handle) :=
            hknown _ (by simp [attributeCells, programCells, hbound])
          apply (programRecord_echoes h hrecord).bind
          intro record record' hsame
          simp only [record.attribute?_of_unnumbered hsame]
          cases record.attribute? name with
          | none => exact .failure _
          | some a =>
              simp only
              split
              · exact .failure _
              · exact .value rfl

theorem pointerPlace_echoes (harray : known .vertexArray) (hbuffer : known (.buffer .array)) :
    (m'.surroundings payloads).pointerPlace = (m.surroundings payloads).pointerPlace := by
  have harray' : m'.bindings.vertexArray = m.bindings.vertexArray := h.agrees _ harray
  have hbuffer' : m'.bindings.buffers.get? .array = m.bindings.buffers.get? .array :=
    h.agrees _ hbuffer
  simp only [pointerPlace, Machine.surroundings, harray', hbuffer']

end Lookups

end Surroundings

namespace Operation

open Surroundings

variable {f : ObjectId → ObjectId} {known : Cell → Prop} {m m' : Machine}
  {payloads : List (List UInt8)}

/-- An attempt to resolve a command that another one keeps up with. -/
abbrev Following (f : ObjectId → ObjectId) : Except CommandError Operation →
    Except CommandError Operation → Prop :=
  KeepsUp (Follows f)

theorem following_aside {call call' : Call} (hcall : call.isAside = true)
    (hcall' : call'.isAside = true) : Following f (.ok (.issue call)) (.ok (.issue call')) :=
  .value (.aside hcall hcall')

theorem vectorCall_follows (location location' : ObjectId) (p : Payload) :
    KeepsUp (fun call call' => call.isAside = true ∧ call'.isAside = true)
      (vectorCall location p) (vectorCall location' p) := by
  simp only [vectorCall]
  cases extent? 1 p.shape.getLast? with
  | none => exact .failure _
  | some components =>
      cases p.elements.asSingles? with
      | some data => exact .value ⟨rfl, rfl⟩
      | none =>
          cases p.elements.asInts? with
          | some data => exact .value ⟨rfl, rfl⟩
          | none =>
              cases p.elements.asUInts? with
              | some data => exact .value ⟨rfl, rfl⟩
              | none => exact .failure _

theorem matrixCall_follows (location location' : ObjectId) (p : Payload) :
    KeepsUp (fun call call' => call.isAside = true ∧ call'.isAside = true)
      (matrixCall location p) (matrixCall location' p) := by
  simp only [matrixCall]
  split
  · split
    · cases p.elements.asSingles? with
      | some data => exact .value ⟨rfl, rfl⟩
      | none => exact .failure _
    · exact .failure _
  · exact .failure _

theorem IsUpload.follows {op : Operation} (hop : op.IsUpload) : op.Follows f op := by
  cases op with
  | nothing => exact .renamed .nothing
  | issue call =>
      have haside : call.isAside = true := by
        cases call with
        | uniformFloats _ _ _ | uniformInts _ _ _ | uniformUInts _ _ _ | uniformMatrix _ _ _ _ _
        | bufferSubData _ _ _ | attributeFloats _ _ | attributeInts _ _ | attributeUInts _ _ =>
            rfl
        | _ => exact hop.elim
      exact .aside haside haside
  | _ => exact hop.elim

theorem Uploading.follows (s : Surroundings) (command : Command)
    {x : Except CommandError Operation} (hx : Uploading s command x) : Following f x x :=
  hx.keepsUp fun _ hop => hop.follows

theorem ofToken?_of_bufferTarget {word : String} {target : BufferTarget}
    (h : bufferTarget word = .ok target) : BufferTarget.ofToken? word = some target := by
  simp only [bufferTarget] at h
  cases hword : BufferTarget.ofToken? word with
  | none =>
      rw [hword] at h
      cases h
  | some found =>
      rw [hword] at h
      cases h
      rfl

section Resolve

variable (h : m.Echoes f known m') {command : Command}
include h

theorem upload_follows (name : String)
    {call : ObjectId → Payload → Except CommandError Call}
    (hknown : ∀ cell ∈ (m.surroundings payloads).programCells, known cell)
    (hcall : ∀ location location' p, KeepsUp
      (fun made made' : Call => made.isAside = true ∧ made'.isAside = true)
      (call location p) (call location' p)) :
    Following f (upload (m.surroundings payloads) command name call)
      (upload (m'.surroundings payloads) command name call) := by
  have hprogram : (m'.surroundings payloads).bindings.program =
      (m.surroundings payloads).bindings.program :=
    h.agrees .program (hknown _ List.mem_cons_self)
  simp only [upload, hprogram]
  cases hbound : (m.surroundings payloads).bindings.program with
  | none => exact .value (.renamed .nothing)
  | some handle =>
      have hrecord : known (.record handle) := hknown _ (by simp [programCells, hbound])
      apply (programRecord_echoes h hrecord).bind
      intro record record' hsame
      have hlocation := record.location_of_unnumbered hsame name
      generalize (record.uniform? name).bind (·.location) = found at hlocation
      generalize (record'.uniform? name).bind (·.location) = found' at hlocation
      cases found with
      | none =>
          rw [Option.isSome_none, Option.isSome_eq_false_iff, Option.isNone_iff_eq_none]
            at hlocation
          subst hlocation
          exact .value (.renamed .nothing)
      | some location =>
          obtain ⟨location', rfl⟩ := Option.isSome_iff_exists.mp hlocation
          apply KeepsUp.both
          intro p
          apply (hcall location location' p).bind
          rintro made made' ⟨hmade, hmade'⟩
          exact following_aside hmade hmade'

theorem memberOffset_follows {target : BufferTarget} (member : String)
    (hbuffer : known (.buffer target))
    (hrecord : ∀ handle, m.bindings.buffers.get? target = some handle → known (.record handle)) :
    KeepsUp (fun n n' => n' = n) (memberOffset (m.surroundings payloads) target member)
      (memberOffset (m'.surroundings payloads) target member) := by
  have hbound' : m'.bindings.buffers.get? target = m.bindings.buffers.get? target :=
    h.agrees _ hbuffer
  simp only [memberOffset, Machine.surroundings, hbound']
  cases hbound : m.bindings.buffers.get? target with
  | none => exact .failure _
  | some handle =>
      apply (get_echoes h (hrecord handle hbound)).mapError.bind
      intro x x' hsame
      have hbuffer : x'.record.asBuffer? = x.record.asBuffer? := by
        rw [← ResourceRecord.asBuffer?_unnumbered, hsame, ResourceRecord.asBuffer?_unnumbered]
      simp only [hbuffer]
      cases x.record.asBuffer?.bind (·.block) with
      | none => exact .failure _
      | some block =>
          cases hmember : block.member? member with
          | none =>
              simp only [hmember]
              exact .failure _
          | some found =>
              simp only [hmember]
              split
              · exact .failure _
              · exact .value rfl

/-- Where the resource of a number is looked up, both machines go on with the same handle. -/
theorem resource_follows {raw : Int}
    (hknown : ∀ cell ∈ (m.surroundings payloads).named raw, known cell) (kind : ResourceKind)
    {go go' : Handle × ObjectId → Except CommandError Operation}
    (hgo : ∀ handle id, m.registry.handle raw = .ok handle →
      Following f (go (handle, id)) (go' (handle, f id))) :
    Following f ((m.surroundings payloads).resource raw kind >>= go)
      ((m'.surroundings payloads).resource raw kind >>= go') := by
  apply (resource_echoes h hknown kind).bind
  rintro ⟨handle, id⟩ _ ⟨rfl, hraw⟩
  exact hgo handle id hraw

theorem optionalResource_follows {raw : Int}
    (hknown : ∀ cell ∈ (m.surroundings payloads).named raw, known cell) (kind : ResourceKind)
    {go go' : Option (Handle × ObjectId) → Except CommandError Operation}
    (hgo : ∀ found, Following f (go found) (go' (found.map fun (h, id) => (h, f id)))) :
    Following f ((m.surroundings payloads).optionalResource raw kind >>= go)
      ((m'.surroundings payloads).optionalResource raw kind >>= go') := by
  apply (optionalResource_echoes h hknown kind).bind
  rintro found _ rfl
  exact hgo found

/-- A buffer whose contents are to be shown is the same one in both machines. -/
theorem shown_eq {word usage : String} {update : Bool} {size : Option Nat}
    {target : BufferTarget} (htarget : bufferTarget word = .ok target)
    (hknown : ∀ cell ∈ (m.surroundings payloads).consults (.bufferData word usage update size),
      known cell) :
    (if update then m'.bindings.buffers.get? target else none) =
      if update then m.bindings.buffers.get? target else none := by
  cases update with
  | false => rfl
  | true =>
      have hword := ofToken?_of_bufferTarget htarget
      exact h.agrees (.buffer target) (hknown _ (by simp [consults, hword]))

/-- A command is resolved by the other machine as well, where the machines have the same in the
cells that the command goes by. -/
theorem resolve_follows
    (hknown : ∀ cell ∈ (m.surroundings payloads).consults command.action, known cell) :
    Following f (resolve (m.surroundings payloads) command)
      (resolve (m'.surroundings payloads) command) := by
  simp only [resolve]
  generalize command.action = action at hknown
  cases action with
  | viewport _ | clearColor _ | clear _ _ _ | depthMask _ | depthRange _ _ | blendColor _ =>
      exact following_aside rfl rfl
  | enable _ | disable _ | frontFace _ | cullFace _ | depthFunc _ | blendEquation _
  | generateMipmap _ | drawBuffers _ | drawArrays _ _ _ | drawArraysInstanced _ _ _ _ =>
      exact .both _ fun _ => following_aside rfl rfl
  | blendEquationSeparate _ _ | blendFunc _ _ | texStorage2D _ _ _ _ _ | texStorage3D _ _ _ _ _ _
  | texParameterInt _ _ _ | texParameterFloat _ _ _ | pixelStore _ _ | drawElements _ _ _ _
  | drawElementsInstanced _ _ _ _ _ =>
      exact .both _ fun _ => .both _ fun _ => following_aside rfl rfl
  | texImage2D _ _ | texImage3D _ _ | texParameterToken _ _ _ =>
      exact .both _ fun _ => .both _ fun _ => .both _ fun _ => following_aside rfl rfl
  | blendFuncSeparate _ =>
      exact .both _ fun _ => .both _ fun _ => .both _ fun _ => .both _ fun _ =>
        following_aside rfl rfl
  | activeTexture unit =>
      simp only
      split
      · exact following_aside rfl rfl
      · exact .failure _
  | create what raw =>
      apply (handle_echoes h raw).bind
      rintro handle _ ⟨rfl, -⟩
      exact .both _ fun object => .value (.renamed (.create _ object))
  | bindTexture _ raw | bindFramebuffer _ raw =>
      exact .both _ fun _ => optionalResource_follows h hknown _ fun _ => following_aside rfl rfl
  | framebufferTexture2D _ _ _ raw _ =>
      apply optionalResource_follows h hknown
      intro found
      exact .both _ fun _ => .both _ fun _ => .both _ fun _ => following_aside rfl rfl
  | shaderSource raw source =>
      apply resource_follows h hknown
      intro handle shader _
      exact .value (.renamed (.issue (.shaderSource shader source)))
  | compileShader raw =>
      apply resource_follows h hknown
      intro handle shader _
      exact .value (.renamed (.compile handle shader))
  | deleteShader raw =>
      exact resource_follows h hknown _ fun _ _ _ => following_aside rfl rfl
  | attachShader program shader =>
      obtain ⟨hprogram, hshader⟩ := List.forall_mem_append.mp hknown
      apply (handle_echoes h program).bind
      rintro program _ ⟨rfl, hraw⟩
      apply (handle_echoes h shader).bind
      rintro shader _ ⟨rfl, hraw'⟩
      apply (object_echoes h (known_of_named hprogram hraw) _).bind
      rintro p _ rfl
      apply (object_echoes h (known_of_named hshader hraw') _).bind
      rintro x _ rfl
      exact .value (.renamed (.issue (.attachShader p x)))
  | bindAttributeLocation raw index name =>
      apply resource_follows h hknown
      intro handle program _
      exact .value (.renamed (.issue (.bindAttributeLocation program index name)))
  | linkProgram raw =>
      apply resource_follows h hknown
      intro handle program _
      exact .value (.renamed (.link handle program))
  | useProgram raw =>
      exact optionalResource_follows h hknown _ fun found => .value (.renamed (.useProgram found))
  | bindVertexArray raw =>
      apply optionalResource_follows h hknown
      intro found
      exact .value (.renamed (.bindVertexArray found))
  | bindBuffer _ raw =>
      apply KeepsUp.both
      intro target
      apply optionalResource_follows h hknown
      intro found
      exact .value (.renamed (.bindBuffer target found))
  | bindBufferBase _ index raw =>
      apply KeepsUp.both
      intro target
      apply optionalResource_follows h hknown
      intro found
      have hrenamed : (found.map fun (h, id) => (h, f id)).map (·.2) =
          (found.map (·.2)).map f := by cases found <;> rfl
      simp only [hrenamed]
      exact .value (.renamed (.issue (.bindBufferBase target.code index (found.map (·.2)))))
  | uniform name => exact upload_follows h name hknown vectorCall_follows
  | uniformMatrix name => exact upload_follows h name hknown matrixCall_follows
  | uniformBlockBinding raw name binding =>
      apply resource_follows h (named_of_recorded hknown)
      intro handle program hraw
      apply (programRecord_echoes h (known_of_recorded hknown hraw)).bind
      intro record record' hsame
      simp only [record.block?_of_unnumbered hsame]
      cases record.block? name with
      | none => exact .failure _
      | some block => exact following_aside rfl rfl
  | createUniformBuffer buffer raw name usage =>
      apply (handle_echoes h buffer).bind
      rintro buffer _ ⟨rfl, -⟩
      apply resource_follows h (named_of_recorded hknown)
      intro handle program hraw
      apply (programRecord_echoes h (known_of_recorded hknown hraw)).bind
      intro record record' hsame
      simp only [record.block?_of_unnumbered hsame]
      cases record.block? name with
      | none => exact .failure _
      | some block =>
          exact .both _ fun usage => .value (.renamed (.createUniformBuffer _ block usage))
  | bufferData word usage update size =>
      apply KeepsUp.bothOf
      intro target htarget
      apply KeepsUp.both
      intro usage
      apply KeepsUp.both
      intro payload
      simp only [Machine.surroundings, shown_eq h htarget hknown]
      exact .value (.renamed (.bufferData target _ usage _))
  | bufferSubData _ _ _ _ =>
      exact .both _ fun target => .both _ fun payload =>
        (subData_yields target _ _ _ payload).follows (m.surroundings payloads) command
  | bufferSubDataAt word member sourceStart =>
      apply KeepsUp.bothOf
      intro target htarget
      have hword := ofToken?_of_bufferTarget htarget
      simp only [consults, hword] at hknown
      have hrecord (handle : Handle) (hbound : m.bindings.buffers.get? target = some handle) :
          known (.record handle) := hknown _ (by simp [Machine.surroundings, hbound])
      apply (memberOffset_follows h member (hknown _ List.mem_cons_self) hrecord).bind
      rintro start _ rfl
      exact .both _ fun payload =>
        (subData_yields target _ _ _ payload).follows (m.surroundings payloads) command
  | attributePointer args _ | attributeIPointer args =>
      obtain ⟨hindex, hplace⟩ := List.forall_mem_append.mp hknown
      have hplace : (m'.surroundings payloads).pointerPlace =
          (m.surroundings payloads).pointerPlace :=
        pointerPlace_echoes h (hplace _ (by simp)) (hplace _ (by simp))
      apply (attributeLocation_echoes h hindex).bind
      rintro index _ rfl
      simp only [hplace]
      exact .both _ fun type => .value (.renamed (.setPointer _ _ _))
  | enableAttribute _ | disableAttribute _ =>
      apply (attributeLocation_echoes h hknown).bind
      rintro index _ rfl
      exact following_aside rfl rfl
  | attributeFloats _ =>
      apply (attributeLocation_echoes h hknown).bind
      rintro _ index rfl
      exact .both _ fun p =>
        (attributeFloats_yields index p).follows (m.surroundings payloads) command
  | attributeInts _ =>
      apply (attributeLocation_echoes h hknown).bind
      rintro _ index rfl
      exact .both _ fun p =>
        (attributeInts_yields index p).follows (m.surroundings payloads) command
  | unknown => exact .failure _

end Resolve

end Operation

end GlPlayback
