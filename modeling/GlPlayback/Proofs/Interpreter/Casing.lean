import GlPlayback.Proofs.Command.Casing
import GlPlayback.Proofs.Interpreter.Runs
import GlPlayback.Proofs.Resource.Casing
import Mathlib.Data.List.Forall2

/-!
Commands that differ in the letter case of their words for constants. A word only ever serves to look
a constant up, in a family that does not mind its case, so two such commands do the same; they differ
in what they quote, which is the type in an attribute pointer's record and a word that is not known.
-/
namespace GlPlayback

open Text

/-- Two attempts to resolve commands come to related values, or to errors that quote the same word
up to its case. -/
def SameOutcome {α β : Type} (R : α → β → Prop) :
    Except CommandError α → Except CommandError β → Prop
  | .ok a, .ok b => R a b
  | .error e, .error e' => e.SameButCase e'
  | _, _ => False

namespace SameOutcome

variable {α β γ δ : Type} {R : α → β → Prop} {S : γ → δ → Prop} {x : Except CommandError α}
  {y : Except CommandError β} {f : α → Except CommandError γ} {g : β → Except CommandError δ}

theorem value {a : α} {b : β} (h : R a b) : SameOutcome R (.ok a) (.ok b) :=
  h

theorem failure (e : CommandError) : SameOutcome R (.error e) (.error e) :=
  (rfl : e.SameButCase e)

theorem refl {R : α → α → Prop} [Std.Refl R] (x : Except CommandError α) : SameOutcome R x x := by
  cases x with
  | ok a => exact .value (Std.Refl.refl a)
  | error e => exact .failure e

theorem ok_or_error (h : SameOutcome R x y) :
    (∃ a b, x = .ok a ∧ y = .ok b ∧ R a b) ∨
      ∃ e e', x = .error e ∧ y = .error e' ∧ e.SameButCase e' := by
  cases x with
  | ok a =>
      cases y with
      | ok b => exact .inl ⟨a, b, rfl, rfl, h⟩
      | error e => exact h.elim
  | error e =>
      cases y with
      | ok b => exact h.elim
      | error e' => exact .inr ⟨e, e', rfl, rfl, h⟩

theorem bind (hxy : SameOutcome R x y) (hfg : ∀ a b, R a b → SameOutcome S (f a) (g b)) :
    SameOutcome S (x >>= f) (y >>= g) := by
  obtain ⟨a, b, rfl, rfl, hab⟩ | ⟨e, e', rfl, rfl, herror⟩ := hxy.ok_or_error
  · exact hfg a b hab
  · exact herror

/-- Attempts that come to the same value, after which two go on with it. -/
theorem bindEq {x y : Except CommandError α} {g : α → Except CommandError δ}
    (hxy : SameOutcome Eq x y) (hfg : ∀ a, SameOutcome S (f a) (g a)) :
    SameOutcome S (x >>= f) (y >>= g) :=
  hxy.bind fun a _ hab => hab ▸ hfg a

/-- One attempt, after which two go on with its value. -/
theorem both (x : Except CommandError α) {g : α → Except CommandError δ}
    (hfg : ∀ a, SameOutcome S (f a) (g a)) : SameOutcome S (x >>= f) (x >>= g) :=
  (refl x).bindEq hfg

theorem map {x y : Except CommandError α} (hxy : SameOutcome Eq x y) (f : α → β) :
    SameOutcome Eq (x.map f) (y.map f) := by
  obtain ⟨a, _, rfl, rfl, rfl⟩ | ⟨e, e', rfl, rfl, herror⟩ := hxy.ok_or_error
  · exact .value rfl
  · exact herror

theorem mapM {word : String → String} {look : String → Except CommandError α}
    (hlook : ∀ w, SameOutcome Eq (look w) (look (word w))) (words : List String) :
    SameOutcome Eq (words.mapM look) ((words.map word).mapM look) := by
  induction words with
  | nil => exact .value rfl
  | cons first rest ih =>
      rw [List.map_cons, List.mapM_cons, List.mapM_cons]
      exact (hlook first).bindEq fun a => ih.bindEq fun as => .value rfl

end SameOutcome

namespace Surroundings

variable (s : Surroundings)

def lowered : Surroundings :=
  { s with registry := s.registry.lowered }

@[simp] theorem handle_lowered (raw : Int) : s.lowered.handle raw = s.handle raw := by
  simp only [handle, lowered, Registry.handle_lowered]

@[simp] theorem object_lowered (h : Handle) (kind : ResourceKind) :
    s.lowered.object h kind = s.object h kind := by
  simp only [object, lowered, Registry.object_lowered]

@[simp] theorem resource_lowered (raw : Int) (kind : ResourceKind) :
    s.lowered.resource raw kind = s.resource raw kind := by
  simp only [resource, handle_lowered, object_lowered]

@[simp] theorem optionalResource_lowered (raw : Int) (kind : ResourceKind) :
    s.lowered.optionalResource raw kind = s.optionalResource raw kind := by
  simp only [optionalResource, object_lowered]
  simp only [optionalHandle, lowered, Registry.optionalHandle_lowered]

@[simp] theorem programRecord_lowered (h : Handle) :
    s.lowered.programRecord h = s.programRecord h := by
  simp only [programRecord, lowered, Registry.get_lowered]
  cases s.registry.get h with
  | error e => rfl
  | ok x =>
      simp [Except.map, Except.mapError, bind, Except.bind, Resource.lowered]

@[simp] theorem attributeLocation_lowered (ref : AttributeRef) :
    s.lowered.attributeLocation ref = s.attributeLocation ref := by
  cases ref with
  | location n => rfl
  | name name =>
      simp only [attributeLocation, programRecord_lowered]
      rfl

@[simp] theorem payload?_lowered (command : Command) :
    s.lowered.payload? command = s.payload? command :=
  rfl

@[simp] theorem payload_lowered (command : Command) :
    s.lowered.payload command = s.payload command :=
  rfl

@[simp] theorem pixels_lowered (command : Command) :
    s.lowered.pixels command = s.pixels command :=
  rfl

@[simp] theorem pointerPlace_lowered : s.lowered.pointerPlace = s.pointerPlace :=
  rfl

@[simp] theorem bindings_lowered : s.lowered.bindings = s.bindings :=
  rfl

end Surroundings

namespace Operation

/-- The operation with the type that it records, if any, in lower case. -/
def lowered : Operation → Operation
  | setPointer call place record => .setPointer call place record.lowered
  | op => op

def SameButCase (op op' : Operation) : Prop :=
  op.lowered = op'.lowered

section Surroundings

variable (s : Surroundings)

@[simp] theorem upload_lowered (command : Command) (name : String)
    (call : ObjectId → Payload → Except CommandError Call) :
    upload s.lowered command name call = upload s command name call := by
  simp only [upload, Surroundings.programRecord_lowered, Surroundings.bindings_lowered,
    Surroundings.payload_lowered]

@[simp] theorem memberOffset_lowered (target : BufferTarget) (member : String) :
    memberOffset s.lowered target member = memberOffset s target member := by
  simp only [memberOffset, Surroundings.bindings_lowered]
  cases s.bindings.buffers.get? target with
  | none => rfl
  | some h =>
      simp only [Surroundings.lowered, Registry.get_lowered]
      cases s.registry.get h with
      | error e => rfl
      | ok x =>
          simp [Except.map, Except.mapError, bind, Except.bind, Resource.lowered]

/-- No command looks at the type that a pointer was recorded with. -/
theorem resolve_lowered_surroundings (command : Command) :
    resolve s.lowered command = resolve s command := by
  simp only [resolve, Surroundings.handle_lowered, Surroundings.object_lowered,
    Surroundings.resource_lowered, Surroundings.optionalResource_lowered,
    Surroundings.programRecord_lowered, Surroundings.attributeLocation_lowered,
    Surroundings.payload?_lowered, Surroundings.payload_lowered, Surroundings.pixels_lowered,
    Surroundings.pointerPlace_lowered, Surroundings.bindings_lowered, upload_lowered,
    memberOffset_lowered]

end Surroundings

theorem token_cased (family : TokenFamily) (word : String) :
    SameOutcome Eq (token family word) (token family (lowerAscii word)) := by
  simp only [token, TokenFamily.resolve?_lowerAscii]
  cases family.resolve? word with
  | some code => exact .value rfl
  | none => exact congrArg (CommandError.unknownToken family.label) (lowerAscii_lowerAscii word).symm

theorem bufferTarget_cased (word : String) :
    SameOutcome Eq (bufferTarget word) (bufferTarget (lowerAscii word)) := by
  simp only [bufferTarget, BufferTarget.ofToken?_lowerAscii]
  cases BufferTarget.ofToken? word with
  | some target => exact .value rfl
  | none =>
      exact congrArg (CommandError.unknownToken "buffer target") (lowerAscii_lowerAscii word).symm

theorem pixelStoreValue_cased (name : UInt32) (value : PixelStoreArg) :
    SameOutcome Eq (pixelStoreValue name value) (pixelStoreValue name value.lowered) := by
  cases value with
  | flag b | number n => exact .refl _
  | token word =>
      simp only [pixelStoreValue, PixelStoreArg.lowered]
      split
      · exact (token_cased .colorspaceConversion word).map UInt32.toInt32
      · exact congrArg (CommandError.unknownToken "pixel store value")
          (lowerAscii_lowerAscii word).symm

theorem shaderStage_cased (word : String) :
    SameOutcome Eq (shaderStage word) (shaderStage (lowerAscii word)) :=
  (token_cased .shaderKind word).bindEq fun _ => .value rfl

theorem newObject_cased (what : Creation) :
    SameOutcome Eq (newObject what) (newObject what.lowered) := by
  cases what with
  | shader type => exact (shaderStage_cased type).map NewObject.shader
  | texture | program | buffer | vertexArray | framebuffer => exact .refl _

theorem image_cased (args : ImageArgs) (pixels : Option (List UInt8)) :
    SameOutcome Eq (image args pixels) (image args.lowered pixels) :=
  (token_cased .internalFormat args.internalFormat).bindEq fun _ =>
    (token_cased .pixelFormat args.format).bindEq fun _ =>
      (token_cased .pixelType args.type).bindEq fun _ => .value rfl

instance : Std.Refl SameButCase :=
  ⟨fun _ => rfl⟩

/-- An attempt to resolve a command that comes to what another one does. -/
abbrev Cased : Except CommandError Operation → Except CommandError Operation → Prop :=
  SameOutcome SameButCase

theorem issue_word_cased (family : TokenFamily) (word : String) (call : UInt32 → Call) :
    Cased (token family word >>= fun code => pure (.issue (call code)))
      (token family (lowerAscii word) >>= fun code => pure (.issue (call code))) :=
  (token_cased family word).bindEq fun _ => .refl _

theorem issue_words_cased (family family' : TokenFamily) (word word' : String)
    (call : UInt32 → UInt32 → Call) :
    Cased (token family word >>= fun code => token family' word' >>= fun code' =>
        pure (.issue (call code code')))
      (token family (lowerAscii word) >>= fun code => token family' (lowerAscii word') >>=
        fun code' => pure (.issue (call code code'))) :=
  (token_cased family word).bindEq fun code => issue_word_cased family' word' (call code)

/-- A command is resolved alike with its words in lower case. -/
theorem resolve_cased (s : Surroundings) (command : Command) :
    Cased (resolve s command) (resolve s command.lowered) := by
  obtain ⟨action, payload⟩ := command
  simp only [resolve, Command.lowered]
  cases action with
  | viewport _ | clearColor _ | clear _ _ _ | depthMask _ | depthRange _ _ | blendColor _
  | enable _ | disable _ | activeTexture _ | shaderSource _ _ | compileShader _ | deleteShader _
  | attachShader _ _ | bindAttributeLocation _ _ _ | linkProgram _ | useProgram _ | uniform _
  | uniformMatrix _ | uniformBlockBinding _ _ _ | bindVertexArray _ | enableAttribute _
  | disableAttribute _ | attributeFloats _ | attributeInts _ | unknown => exact .refl _
  | frontFace _ | cullFace _ | depthFunc _ | blendEquation _ | generateMipmap _ | drawArrays _ _ _
  | drawArraysInstanced _ _ _ _ => exact issue_word_cased _ _ _
  | blendEquationSeparate _ _ | blendFunc _ _ | texStorage2D _ _ _ _ _ | texStorage3D _ _ _ _ _ _
  | texParameterInt _ _ _ | texParameterFloat _ _ _ | drawElements _ _ _ _
  | drawElementsInstanced _ _ _ _ _ => exact issue_words_cased _ _ _ _ _
  | blendFuncSeparate f =>
      exact (token_cased _ f.x).bindEq fun _ => (token_cased _ f.y).bindEq fun _ =>
        issue_words_cased _ _ _ _ _
  | pixelStore name value =>
      exact (token_cased _ name).bindEq fun code =>
        (pixelStoreValue_cased code value).bindEq fun _ => .refl _
  | create what raw =>
      exact .both _ fun h => (newObject_cased what).bindEq fun _ => .refl _
  | bindTexture target _ | bindFramebuffer target _ =>
      exact (token_cased _ target).bindEq fun _ => .refl _
  | texImage2D target args | texImage3D target args =>
      exact .both _ fun pixels => (token_cased _ target).bindEq fun _ =>
        (image_cased args pixels).bindEq fun _ => .refl _
  | texParameterToken target name value =>
      exact (token_cased _ target).bindEq fun _ => issue_words_cased _ _ _ _ _
  | bindBuffer target _ | bindBufferBase target _ _ =>
      exact (bufferTarget_cased target).bindEq fun _ => .refl _
  | bufferData target usage _ _ =>
      exact (bufferTarget_cased target).bindEq fun _ => (token_cased _ usage).bindEq fun _ =>
        .refl _
  | bufferSubData target _ _ _ | bufferSubDataAt target _ _ =>
      exact (bufferTarget_cased target).bindEq fun _ => .refl _
  | createUniformBuffer buffer program name usage =>
      refine .both _ fun h => .both _ fun found => .both _ fun record => ?_
      cases record.block? name with
      | none => exact .refl _
      | some block => exact (token_cased _ usage).bindEq fun _ => .refl _
  | attributePointer args _ | attributeIPointer args =>
      refine .both _ fun index => (token_cased _ args.type).bindEq fun type => .value ?_
      simp only [SameButCase, lowered, PointerRecord.lowered, PointerArgs.lowered,
        lowerAscii_lowerAscii]
  | framebufferTexture2D target attachment textureTarget raw level =>
      exact .both _ fun texture => (token_cased _ target).bindEq fun _ =>
        issue_words_cased _ _ _ _ _
  | drawBuffers buffers =>
      exact (SameOutcome.mapM (token_cased .drawBuffer) buffers).bindEq fun _ => .refl _

end Operation

/-- Two attempts that come to what a third one does come to the same. -/
theorem Operation.Cased.join {x y z : Except CommandError Operation} (hx : Cased x z)
    (hy : Cased y z) : Cased x y := by
  obtain ⟨op, op'', rfl, rfl, hop⟩ | ⟨e, e'', rfl, rfl, he⟩ := hx.ok_or_error
  · obtain ⟨op', _, rfl, ⟨⟩, hop'⟩ | ⟨_, _, _, ⟨⟩, -⟩ := hy.ok_or_error
    exact Eq.trans hop (Eq.symm hop')
  · obtain ⟨_, _, _, ⟨⟩, -⟩ | ⟨e', _, rfl, ⟨⟩, he'⟩ := hy.ok_or_error
    exact Eq.trans he (Eq.symm he')

namespace Machine

variable (m : Machine)

/-- The machine with the types that its registry recorded in lower case. -/
def lowered : Machine :=
  { m with registry := m.registry.lowered }

/-- The machines differ at most in the letter case of the types that are recorded for attribute
pointers: the contexts with their counts of calls and what is bound are the same. -/
def SameButCase (m m' : Machine) : Prop :=
  m.lowered = m'.lowered

theorem sameButCase_iff {m m' : Machine} : m.SameButCase m' ↔
    m.context = m'.context ∧ m.bindings = m'.bindings ∧
      m.registry.lowered = m'.registry.lowered := by
  obtain ⟨context, registry, bindings⟩ := m
  obtain ⟨context', registry', bindings'⟩ := m'
  simp only [SameButCase, lowered, mk.injEq]
  tauto

theorem settle_lowered (result : Except RegistryError Registry) :
    m.lowered.settle (result.map Registry.lowered) =
      ((m.settle result).1, (m.settle result).2.lowered) := by
  cases result <;> rfl

theorem asking_lowered {α : Type} (conversation : Asking α) :
    m.lowered.asking conversation =
      ((m.asking conversation).1, (m.asking conversation).2.lowered) :=
  rfl

theorem place_lowered (h : Handle) (object : NewObject) {record : ResourceRecord}
    (hrecord : record.lowered = record) (made : Option ObjectId) :
    m.lowered.place h object record made =
      ((m.place h object record made).1, (m.place h object record made).2.lowered) := by
  cases made with
  | none => rfl
  | some id =>
      have hcreate := Registry.create_lowered (r := m.registry) (h := h) id record
      rw [hrecord] at hcreate
      simp only [place]
      rw [show m.lowered.registry = m.registry.lowered from rfl, hcreate]
      exact m.settle_lowered _

/-- Carrying an operation out never looks at a type that was recorded, nor at the one it records. -/
theorem perform_lowered (op : Operation) :
    m.lowered.perform op.lowered = ((m.perform op).1, (m.perform op).2.lowered) := by
  cases op with
  | nothing | issue _ | useProgram _ | bindVertexArray _ | bindBuffer _ _ => rfl
  | create h object =>
      have hrecord : object.record.lowered = object.record := by cases object <;> rfl
      simp only [Operation.lowered, perform, asking_lowered]
      exact place_lowered _ h object hrecord _
  | compile h shader =>
      simp only [Operation.lowered, perform, asking_lowered]
      generalize m.asking (Asking.compile shader) = told
      refine (congrArg told.2.lowered.settle (Registry.changeRecord_lowered ?_)).trans
        (told.2.settle_lowered _)
      intro record
      cases record <;> rfl
  | link h program =>
      simp only [Operation.lowered, perform, asking_lowered]
      generalize (m.asking (Asking.link program)).2 = linked
      rw [show linked.lowered.surroundings [] = (linked.surroundings []).lowered from rfl,
        Surroundings.programRecord_lowered]
      cases (linked.surroundings []).programRecord h with
      | error e => rfl
      | ok before =>
          simp only
          generalize linked.asking (Asking.linked program before) = told
          have hset := Registry.setRecord_lowered (r := told.2.registry) (h := h)
            (.program told.1)
          rw [show told.2.lowered.registry = told.2.registry.lowered from rfl]
          exact (congrArg told.2.lowered.settle hset).trans (told.2.settle_lowered _)
  | bufferData target contents usage shown =>
      simp only [Operation.lowered, perform, asking_lowered]
      generalize m.asking (Asking.fill target.code usage contents) = filled
      cases shown with
      | none => rfl
      | some h =>
          have hset := Registry.setRecord_lowered (r := filled.2.registry) (h := h)
            (.buffer { size := some filled.1, target := some target })
          exact (congrArg filled.2.lowered.settle hset).trans (filled.2.settle_lowered _)
  | createUniformBuffer h block usage =>
      rcases hmade : m.asking (Asking.makeBlockBuffer block usage) with ⟨made, told⟩
      have hlowered : m.lowered.asking (Asking.makeBlockBuffer block usage) =
          (made, told.lowered) := by rw [asking_lowered, hmade]
      simp only [Operation.lowered, perform, hmade, hlowered]
      cases made with
      | none => rfl
      | some id =>
          exact place_lowered { told with bindings := { told.bindings with
            buffers := told.bindings.buffers.erase .uniform } } h .buffer rfl (some id)
  | setPointer call place record =>
      cases place with
      | none => rfl
      | some place =>
          obtain ⟨array, buffer⟩ := place
          have hadd := Registry.addPointer_lowered (r := m.registry) (h := array) buffer record
          exact (congrArg (m.issue call).lowered.settle hadd).trans
            ((m.issue call).settle_lowered _)

variable {m} {m' : Machine} (checks : Bool) (payloads : List (List UInt8))

theorem poll_lowered : m.lowered.poll = (m.poll.1, m.poll.2.lowered) := by
  simp only [poll, asking_lowered]
  cases GlError.ofCode? (m.asking (Asking.ask .getError)).1 <;> rfl

theorem SameButCase.poll (hm : m.SameButCase m') :
    m.poll.1 = m'.poll.1 ∧ m.poll.2.SameButCase m'.poll.2 := by
  have hpoll : (m.poll.1, m.poll.2.lowered) = (m'.poll.1, m'.poll.2.lowered) := by
    rw [← poll_lowered, ← poll_lowered, show m.lowered = m'.lowered from hm]
  exact Prod.mk.inj hpoll

theorem SameButCase.perform (hm : m.SameButCase m') {op op' : Operation}
    (hop : op.SameButCase op') :
    (m.perform op).1 = (m'.perform op').1 ∧ (m.perform op).2.SameButCase (m'.perform op').2 := by
  have hperform : ((m.perform op).1, (m.perform op).2.lowered) =
      ((m'.perform op').1, (m'.perform op').2.lowered) := by
    rw [← perform_lowered, ← perform_lowered, show m.lowered = m'.lowered from hm,
      show op.lowered = op'.lowered from hop]
  exact Prod.mk.inj hperform

theorem SameButCase.resolve (hm : m.SameButCase m') {command command' : Command}
    (hcommand : command.SameButCase command') :
    Operation.Cased (Operation.resolve (m.surroundings payloads) command)
      (Operation.resolve (m'.surroundings payloads) command') := by
  have hlowered (m : Machine) (command : Command) :
      Operation.Cased (Operation.resolve (m.surroundings payloads) command)
        (Operation.resolve (m.lowered.surroundings payloads) command.lowered) := by
    rw [show m.lowered.surroundings payloads = (m.surroundings payloads).lowered from rfl,
      Operation.resolve_lowered_surroundings]
    exact Operation.resolve_cased _ command
  have hleft := hlowered m command
  rw [show m.lowered = m'.lowered from hm,
    show command.lowered = command'.lowered from hcommand] at hleft
  exact hleft.join (hlowered m' command')

/-- A command comes to the same in either case, and leaves the same behind. -/
theorem SameButCase.executeCommand (hm : m.SameButCase m') {command command' : Command}
    (hcommand : command.SameButCase command') :
    SameOutcome Eq (m.executeCommand checks payloads command).1
        (m'.executeCommand checks payloads command').1 ∧
      (m.executeCommand checks payloads command).2.SameButCase
        (m'.executeCommand checks payloads command').2 := by
  simp only [Machine.executeCommand]
  obtain ⟨op, op', hop, hop', hsame⟩ | ⟨e, e', he, he', hsame⟩ :=
    (hm.resolve payloads hcommand).ok_or_error
  · obtain ⟨hresult, hperformed⟩ := hm.perform hsame
    simp only [hop, hop']
    generalize m.perform op = performed at hresult hperformed
    generalize m'.perform op' = performed' at hresult hperformed
    obtain ⟨result, next⟩ := performed
    obtain ⟨result', next'⟩ := performed'
    obtain rfl : result = result' := hresult
    cases result with
    | error e => exact ⟨.failure e, hperformed⟩
    | ok _ =>
        cases checks with
        | false => exact ⟨.value rfl, hperformed⟩
        | true =>
            obtain ⟨hpolled, hleft⟩ := SameButCase.poll hperformed
            refine ⟨?_, hleft⟩
            simp only [if_true, hpolled]
            exact .refl _
  · simp only [he, he']
    exact ⟨hsame, hm⟩

end Machine

/-- The failures are of the same command, for the same reason. -/
structure Failure.SameButCase (f f' : Failure) : Prop where
  index_eq : f.index = f'.index
  command_eq : f.command = f'.command
  error : f.error.SameButCase f'.error

structure Report.SameButCase (r r' : Report) : Prop where
  executed_eq : r.executed = r'.executed
  failures : List.Forall₂ Failure.SameButCase r.failures r'.failures

namespace Machine

variable {m m' : Machine} (checks : Bool) (payloads : List (List UInt8))

theorem SameButCase.step (hm : m.SameButCase m') {report report' : Report}
    (hreport : report.SameButCase report') {command command' : Command}
    (hcommand : command.SameButCase command') (k : Nat) :
    let stepped := Machine.step checks payloads (report, m) (command, k)
    let stepped' := Machine.step checks payloads (report', m') (command', k)
    stepped.1.SameButCase stepped'.1 ∧ stepped.2.SameButCase stepped'.2 := by
  obtain ⟨hresult, hleft⟩ := hm.executeCommand checks payloads hcommand
  simp only [Machine.step]
  generalize m.executeCommand checks payloads command = done at hresult hleft
  generalize m'.executeCommand checks payloads command' = done' at hresult hleft
  obtain ⟨result, next⟩ := done
  obtain ⟨result', next'⟩ := done'
  obtain ⟨_, _, rfl, rfl, -⟩ | ⟨e, e', rfl, rfl, herror⟩ := hresult.ok_or_error
  · exact ⟨⟨congrArg (· + 1) hreport.executed_eq, hreport.failures⟩, hleft⟩
  · refine ⟨⟨hreport.executed_eq, ?_⟩, hleft⟩
    exact List.rel_append hreport.failures (.cons ⟨rfl, hcommand.name_eq, herror⟩ .nil)

theorem SameButCase.foldl_step (hm : m.SameButCase m') {report report' : Report}
    (hreport : report.SameButCase report') {commands commands' : List Command}
    (hcommands : List.Forall₂ Command.SameButCase commands commands') (k : Nat) :
    let stepped := (commands.zipIdx k).foldl (Machine.step checks payloads) (report, m)
    let stepped' := (commands'.zipIdx k).foldl (Machine.step checks payloads) (report', m')
    stepped.1.SameButCase stepped'.1 ∧ stepped.2.SameButCase stepped'.2 := by
  induction hcommands generalizing m m' report report' k with
  | nil => exact ⟨hreport, hm⟩
  | cons hfirst _ ih =>
      obtain ⟨hreport', hm'⟩ := hm.step checks payloads hreport hfirst k
      exact ih hm' hreport' (k + 1)

theorem SameButCase.execute (hm : m.SameButCase m') {commands commands' : List Command}
    (hcommands : List.Forall₂ Command.SameButCase commands commands') :
    let ended := m.execute checks commands payloads
    let ended' := m'.execute checks commands' payloads
    ended.1.SameButCase ended'.1 ∧ ended.2.SameButCase ended'.2 := by
  have hopened : (m.readAway checks).SameButCase (m'.readAway checks) := by
    cases checks with
    | false => exact hm
    | true => exact congrArg (issue · .getError) (show m.lowered = m'.lowered from hm)
  exact hopened.foldl_step checks payloads ⟨rfl, .nil⟩ hcommands 0

/-- Whatever the state, two lists of commands that differ in the letter case of their words for
constants do the same, command by command: each pair of commands succeeds or fails for the same
reason, the counts and the failures are the same after each, and so are the context with its counts
of calls, what is bound and the registry. Different are at most the words that errors quote as not
known and the types that are recorded for attribute pointers, in their letter case. -/
theorem execute_sameButCase (m : Machine) (checks : Bool) (payloads : List (List UInt8))
    {commands commands' : List Command}
    (hcommands : List.Forall₂ Command.SameButCase commands commands') :
    (∀ i,
      let ended := m.execute checks (commands.take i) payloads
      let ended' := m.execute checks (commands'.take i) payloads
      ended.1.SameButCase ended'.1 ∧
      ended.2.context = ended'.2.context ∧
      ended.2.bindings = ended'.2.bindings ∧
      ended.2.registry.lowered = ended'.2.registry.lowered) ∧
    ∀ i command command', commands[i]? = some command → commands'[i]? = some command' →
      SameOutcome Eq
        ((m.execute checks (commands.take i) payloads).2.executeCommand checks payloads command).1
        ((m.execute checks (commands'.take i) payloads).2.executeCommand checks payloads
          command').1 := by
  have hfirst (i : Nat) := SameButCase.execute checks payloads (rfl : m.SameButCase m)
    (List.forall₂_take i hcommands)
  refine ⟨fun i => ⟨(hfirst i).1, sameButCase_iff.mp (hfirst i).2⟩, ?_⟩
  intro i command command' hcommand hcommand'
  have hpair : command.SameButCase command' := by
    obtain ⟨hi, rfl⟩ := List.getElem?_eq_some_iff.mp hcommand
    obtain ⟨hi', rfl⟩ := List.getElem?_eq_some_iff.mp hcommand'
    exact (List.forall₂_iff_get.mp hcommands).2 i hi hi'
  exact ((hfirst i).2.executeCommand checks payloads hpair).1

/-- A comparison in either case, then a word that is no winding order: one command runs, and the
other fails over the word as it was sent. -/
theorem execute_sameButCase_less :
    let lower : List Command := [⟨.depthFunc "less", none⟩, ⟨.frontFace "sunwise", none⟩]
    let upper : List Command := [⟨.depthFunc "LESS", none⟩, ⟨.frontFace "Sunwise", none⟩]
    let m : Machine := { context := Context.new 64 32 }
    List.Forall₂ Command.SameButCase lower upper ∧
      (m.execute false lower []).2.context = (m.execute false upper []).2.context ∧
      (m.execute false lower []).1 =
        ⟨1, [⟨1, "frontFace", .unknownToken "front face" "sunwise"⟩]⟩ ∧
      (m.execute false upper []).1 =
        ⟨1, [⟨1, "frontFace", .unknownToken "front face" "Sunwise"⟩]⟩ := by
  intro lower upper m
  have hcommands : List.Forall₂ Command.SameButCase lower upper :=
    .cons (by decide) (.cons (by decide) .nil)
  obtain ⟨hprefixes, -⟩ := execute_sameButCase m false [] hcommands
  exact ⟨hcommands, (hprefixes 2).2.1, by decide, by decide⟩

end Machine

end GlPlayback
