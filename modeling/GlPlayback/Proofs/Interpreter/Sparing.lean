import GlPlayback.Proofs.Gl.Unbound
import GlPlayback.Proofs.Interpreter.Lasting

/-!
A buffer of the context that no resource stands for. Commands bind buffers of the registry and new
ones only, so they never reach its store, if no resource is created as objects of two kinds.
-/
namespace GlPlayback

def Creation.kind : Creation → ResourceKind
  | texture => .texture
  | shader _ => .shader
  | program => .program
  | buffer => .buffer
  | vertexArray => .vertexArray
  | framebuffer => .framebuffer

/-- The number of the resource that a command creates, and its kind. -/
def Command.creates? (command : Command) : Option (Int × ResourceKind) :=
  match command.action with
  | .create what raw => some (raw, what.kind)
  | .createUniformBuffer raw _ _ _ => some (raw, .buffer)
  | _ => none

/-- A command creates a resource only as what goes with its number. -/
def Command.Follows (kinds : Int → ResourceKind) (command : Command) : Prop :=
  ∀ raw kind, command.creates? = some (raw, kind) → kind = kinds raw

namespace Operation

variable {s : Surroundings} {command : Command} {op : Operation}

/-- The object that an operation makes, and the resource that it makes it for. -/
def makes? : Operation → Option (Handle × NewObject)
  | create h what => some (h, what)
  | createUniformBuffer h _ _ => some (h, .buffer)
  | _ => none

theorem created?_eq (op : Operation) : op.created? = op.makes?.map (·.1) := by
  cases op <;> rfl

/-- Where an operation takes the resource from that it creates, and a buffer that it binds without
the interpreter's taking note of it. -/
def Stems (s : Surroundings) (command : Command) : Operation → Prop
  | create h what => command.creates? = some (↑h.index, what.kind)
  | createUniformBuffer h _ _ => command.creates? = some (↑h.index, ResourceKind.buffer)
  | issue call | setPointer call _ _ =>
      ∀ target id, call.Binds target id → ∃ h, s.registry.object h .buffer = .ok id
  | _ => True

/-- An attempt that, if it succeeds, resolves the command into an operation of this sort. -/
abbrev ResolvesStemming (s : Surroundings) (command : Command) :
    Except CommandError Operation → Prop :=
  Yields (Stems s command) fun _ => True

theorem ResolvesStemming.bind {α : Type} (x : Except CommandError α)
    {f : α → Except CommandError Operation} (hf : ∀ a, ResolvesStemming s command (f a)) :
    ResolvesStemming s command (x >>= f) :=
  (Yields.any x).bind fun a _ => hf a

theorem handle_index (s : Surroundings) (raw : Int) :
    Yields (fun h => (h.index : Int) = raw) (fun _ => True) (s.handle raw) := by
  have hhandle : Yields (fun h => (h.index : Int) = raw) (fun _ => True)
      (s.registry.handle raw) := by
    rw [Registry.handle]
    split
    · next hraw => exact Int.toNat_of_nonneg hraw.1
    · trivial
  exact hhandle.mapError fun _ _ => trivial

theorem newObject_kind (what : Creation) :
    Yields (fun object => object.kind = what.kind) (fun _ => True) (newObject what) := by
  cases what with
  | shader type => exact (Yields.any (shaderStage type)).map fun _ _ => rfl
  | texture | program | buffer | vertexArray | framebuffer => rfl

theorem optionalResource_object (s : Surroundings) (raw : Int) (kind : ResourceKind) :
    Yields (fun found => ∀ id, found.map (·.2) = some id → ∃ h, s.registry.object h kind = .ok id)
      (fun _ => True) (s.optionalResource raw kind) := by
  have hyields : Yields _ (s.Faults ⟨.unknown, none⟩) (s.optionalResource raw kind) :=
    Surroundings.optionalResource_yields raw kind
  refine Yields.of_forall _ (fun found hfound id hid => ?_) fun _ _ => trivial
  obtain ⟨⟨h, id⟩, rfl, rfl⟩ := Option.map_eq_some_iff.mp hid
  exact ⟨h, hyields.value hfound h id rfl⟩

theorem IsUpload.stems (hop : op.IsUpload) : op.Stems s command := by
  cases op with
  | nothing => trivial
  | issue call =>
      intro target id hbinds
      cases call with
      | bindBuffer _ _ | bindBufferBase _ _ _ => exact hop.elim
      | _ => exact hbinds.elim
  | _ => exact hop.elim

theorem Uploading.stems {x : Except CommandError Operation} (hx : Uploading s command x) :
    ResolvesStemming s command x :=
  hx.imp (fun _ hop => hop.stems) fun _ _ => trivial

theorem resolve_stems (s : Surroundings) (command : Command) :
    ResolvesStemming s command (resolve s command) := by
  simp only [resolve]
  cases haction : command.action with
  | create what raw =>
      refine (handle_index s raw).bind fun h hindex =>
        (newObject_kind what).bind fun object hkind => ?_
      simp only [Yields, Stems, Command.creates?, haction, hindex, hkind, pure, Except.pure]
  | createUniformBuffer raw program name usage =>
      refine (handle_index s raw).bind fun h hindex => ResolvesStemming.bind _ fun found =>
        ResolvesStemming.bind _ fun record => ?_
      split
      · trivial
      · refine ResolvesStemming.bind _ fun usage => ?_
        simp only [Yields, Stems, Command.creates?, haction, hindex, pure, Except.pure]
  | bindBufferBase target index raw =>
      refine .bind _ fun code => (optionalResource_object s raw .buffer).bind fun found hfound => ?_
      exact fun _ id hbinds => hfound id hbinds.2
  | viewport _ | clearColor _ | clear _ _ _ | depthMask _ | depthRange _ _ | blendColor _ =>
      exact fun _ _ => False.elim
  | enable _ | disable _ | frontFace _ | cullFace _ | depthFunc _ | blendEquation _
  | generateMipmap _ | drawArrays _ _ _ | drawArraysInstanced _ _ _ _ | shaderSource _ _
  | deleteShader _ | bindAttributeLocation _ _ _ | enableAttribute _ | disableAttribute _
  | drawBuffers _ =>
      exact .bind _ fun _ _ _ => False.elim
  | blendEquationSeparate _ _ | blendFunc _ _ | texStorage2D _ _ _ _ _ | texStorage3D _ _ _ _ _ _
  | texParameterInt _ _ _ | texParameterFloat _ _ _ | drawElements _ _ _ _
  | drawElementsInstanced _ _ _ _ _ | pixelStore _ _ | bindTexture _ _ | bindFramebuffer _ _
  | attributePointer _ _ | attributeIPointer _ =>
      exact .bind _ fun _ => .bind _ fun _ _ _ => False.elim
  | texImage2D _ _ | texImage3D _ _ | texParameterToken _ _ _ =>
      exact .bind _ fun _ => .bind _ fun _ => .bind _ fun _ _ _ => False.elim
  | blendFuncSeparate _ | attachShader _ _ | framebufferTexture2D _ _ _ _ _ =>
      exact .bind _ fun _ => .bind _ fun _ => .bind _ fun _ => .bind _ fun _ _ _ => False.elim
  | activeTexture unit =>
      simp only
      split
      · exact fun _ _ => False.elim
      · trivial
  | compileShader _ | linkProgram _ | useProgram _ | bindVertexArray _ =>
      exact .bind _ fun _ => trivial
  | bindBuffer _ _ => exact .bind _ fun _ => .bind _ fun _ => trivial
  | bufferData _ _ _ _ => exact .bind _ fun _ => .bind _ fun _ => .bind _ fun _ => trivial
  | uniform name => exact (upload_yields name vectorCall_yields).stems
  | uniformMatrix name => exact (upload_yields name matrixCall_yields).stems
  | uniformBlockBinding raw name _ =>
      refine .bind _ fun found => .bind _ fun record => ?_
      split
      · trivial
      · exact fun _ _ => False.elim
  | bufferSubData _ _ _ _ =>
      exact .bind _ fun target => .bind _ fun p => (subData_yields target _ _ _ p).stems
  | bufferSubDataAt _ _ _ =>
      exact .bind _ fun target => .bind _ fun start => .bind _ fun p =>
        (subData_yields target start _ _ p).stems
  | attributeFloats _ =>
      exact .bind _ fun index => .bind _ fun p => (attributeFloats_yields index p).stems
  | attributeInts _ =>
      exact .bind _ fun index => .bind _ fun p => (attributeInts_yields index p).stems
  | unknown => trivial

/-- An operation of a command makes objects only of the kinds that go with their resources. -/
theorem Stems.kind_eq {kinds : Int → ResourceKind} (hop : op.Stems s command)
    (hcommand : command.Follows kinds) {h : Handle} {what : NewObject}
    (hmakes : op.makes? = some (h, what)) : what.kind = kinds h.index := by
  cases op with
  | create h' what' =>
      cases hmakes
      exact hcommand _ _ hop
  | createUniformBuffer h' block usage =>
      cases hmakes
      exact hcommand _ _ hop
  | nothing | issue _ | compile _ _ | link _ _ | useProgram _ | bindVertexArray _ | bindBuffer _ _
  | bufferData _ _ _ _ | setPointer _ _ _ => cases hmakes

/-- A buffer that is neither in the registry nor new is bound by no operation. -/
theorem Stems.not_binds (hstems : op.Stems s command) (hop : op.Resolved s) {buffer : ObjectId}
    (haside : ∀ h, s.registry.objectOf? h ≠ some buffer) {r : Registry} {ctx : Context}
    (hold : buffer ≠ ctx.nextId) {call : Call} (hcall : call ∈ op.calls r ctx) (target : UInt32) :
    ¬ call.Binds target buffer := by
  intro hbinds
  have hframe (hbuffers : .buffers ∉ op.touches) : False :=
    hbuffers (op.touches_of_mem_calls hcall hbinds.touches)
  have hresource {h : Handle} (hid : s.registry.object h .buffer = .ok buffer) : False :=
    haside h (Registry.objectOf?_of_object hid)
  cases op with
  | issue other | setPointer other _ _ =>
      cases List.mem_singleton.mp hcall
      obtain ⟨h, hid⟩ := hstems target buffer hbinds
      exact hresource hid
  | bindBuffer other bound =>
      cases List.mem_singleton.mp hcall
      obtain ⟨⟨h, id⟩, rfl, rfl⟩ := Option.map_eq_some_iff.mp hbinds.2
      exact hresource (hop h id rfl)
  | createUniformBuffer h block usage =>
      rw [calls, Asking.calls_makeBlockBuffer] at hcall
      simp only [List.mem_cons, List.not_mem_nil, or_false] at hcall
      rcases hcall with rfl | rfl | rfl | rfl
      · exact hbinds
      · exact hold (Option.some.inj hbinds.2).symm
      · exact hbinds
      · cases hbinds.2
  | create h what =>
      refine hframe ?_
      cases what <;> simp [touches, Asking.creation, Call.touches]
  | nothing | compile _ _ | link _ _ | useProgram _ | bindVertexArray _ | bufferData _ _ _ _ =>
      exact hframe (by simp [touches])

end Operation

namespace Machine

variable {m m' : Machine} {op : Operation} {kinds : Int → ResourceKind} {buffer : ObjectId}
  {h : Handle}

theorem settle_eq_ok {result : Except RegistryError Registry}
    (hsettle : m.settle result = (.ok (), m')) : result = .ok m'.registry := by
  cases result with
  | ok registry =>
      cases hsettle
      rfl
  | error e => cases hsettle

theorem place_eq_ok {what : NewObject} {record : ResourceRecord} {made : Option ObjectId}
    (hplace : m.place h what record made = (.ok (), m')) :
    ∃ id, m.registry.create h id record = .ok m'.registry := by
  cases made with
  | none => cases hplace
  | some id => exact ⟨id, settle_eq_ok hplace⟩

/-- The record of a new object is about an object of its kind. -/
theorem CarriesOut.what?_made (hop : m.CarriesOut op m') {what : NewObject}
    (hmakes : op.makes? = some (h, what)) : (m'.registry.record h).what? = some what := by
  have hperformed := hop.performed
  have hplaced {made : Machine} {record : ResourceRecord} {object : Option ObjectId}
      (hplace : made.place h what record object = (.ok (), m'))
      (hwhat : record.what? = some what) : (m'.registry.record h).what? = some what := by
    obtain ⟨id, hcreate⟩ := place_eq_ok hplace
    rw [Registry.record_of_create hcreate, if_pos rfl, hwhat]
  cases op with
  | create h' what' =>
      cases hmakes
      exact hplaced hperformed what.what?_record
  | createUniformBuffer h' block usage =>
      cases hmakes
      simp only [perform] at hperformed
      exact hplaced hperformed rfl
  | nothing | issue _ | compile _ _ | link _ _ | useProgram _ | bindVertexArray _ | bindBuffer _ _
  | bufferData _ _ _ _ | setPointer _ _ _ => cases hmakes

/-- A record goes on to be about an object of the same kind, unless its resource is created. -/
theorem Writes.what?_eq (hw : m.Writes op m') (hkeeps : op.KeepsKind m.registry)
    (hnew : op.created? ≠ some h) :
    (m'.registry.record h).what? = (m.registry.record h).what? := by
  have hwritten {other : Handle} {x : Resource} {change : Resource → Resource}
      (hx : m.registry.get other = .ok x)
      (hchange : (change x).record.what? = x.record.what?)
      (hregistry : m'.registry = m.registry.write other change) :
      (m'.registry.record h).what? = (m.registry.record h).what? := by
    rw [hregistry]
    by_cases heq : h = other
    · subst heq
      have hget : (m.registry.write h change).get h = .ok (change x) := by
        rw [Registry.get_write_self, hx]
        rfl
      rw [Registry.record_of_get hget, Registry.record_of_get hx, hchange]
    · rw [Registry.record_write_of_ne _ _ _ heq]
  cases hw with
  | nothing _ _ _ hregistry => rw [hregistry]
  | creation _ hcreated _ _ _ _ hregistry =>
      rw [hregistry, Registry.record_write_of_ne]
      rintro rfl
      exact hnew hcreated
  | revision _ _ _ hx _ hwhat hregistry =>
      refine hwritten hx ?_ hregistry
      exact hwhat
  | upload _ _ hshown hh hregistry =>
      obtain ⟨x, hx, hset⟩ := hh
      obtain ⟨what, hwas⟩ := what?_of_set hset
      have hbuffer := (ResourceRecord.kind?_eq_buffer_iff hwas).mp (hkeeps _ x hshown hx)
      refine hwritten hx ?_ hregistry
      exact (hwas.trans (congrArg some hbuffer.symm)).symm

/-- The object behind a resource stays, unless it is new. -/
theorem Writes.objectOf?_cases (hw : m.Writes op m') (h : Handle) :
    m'.registry.objectOf? h = m.registry.objectOf? h ∨
      m'.registry.objectOf? h = some m.context.nextId := by
  have hwritten {other : Handle} (hh : m.registry.IsRegistered other)
      {change : Resource → Resource}
      (hchange : ∀ x, (change x).object = x.object ∨
        (change x).object = some m.context.nextId)
      (hregistry : m'.registry = m.registry.write other change) :
      m'.registry.objectOf? h = m.registry.objectOf? h ∨
        m'.registry.objectOf? h = some m.context.nextId := by
    rw [hregistry]
    by_cases heq : h = other
    · subst heq
      obtain ⟨x, hx⟩ := hh
      have hget : (m.registry.write h change).get h = .ok (change x) := by
        rw [Registry.get_write_self, hx]
        rfl
      rw [Registry.objectOf?_of_get hget, Registry.objectOf?_of_get hx]
      exact hchange x
    · left
      simp only [Registry.objectOf?, Registry.get_write_of_ne _ _ _ heq]
  cases hw with
  | nothing _ _ _ hregistry => exact .inl (by rw [hregistry])
  | creation _ _ _ hh _ _ hregistry =>
      refine hwritten hh ?_ hregistry
      exact fun _ => .inr rfl
  | revision _ _ _ hx _ _ hregistry =>
      refine hwritten ⟨_, hx⟩ ?_ hregistry
      exact fun _ => .inl rfl
  | upload _ _ _ hh hregistry =>
      refine hwritten hh.isRegistered ?_ hregistry
      exact fun _ => .inl rfl

/-- A buffer of the context that no resource stands for. The records are about objects of the kinds
that go with their resources, and what is bound as a buffer is one. -/
structure Reserves (kinds : Int → ResourceKind) (m : Machine) (buffer : ObjectId) : Prop where
  sound : m.Sound
  kind_eq : ∀ {h what}, (m.registry.record h).what? = some what → what.kind = kinds h.index
  has : m.context.objects.Has .buffer buffer
  aside : ∀ h, m.registry.objectOf? h ≠ some buffer

theorem reserves_empty {ctx : Context} (hn : ctx.Numbered) (hhas : ctx.objects.Has .buffer buffer) :
    Reserves kinds { context := ctx } buffer where
  sound :=
    { bindsCreated := BindingState.boundIn_empty _
      accounted := ⟨hn, (nomatch ·), (nomatch ·), (nomatch ·)⟩
      truthful := fun _ _ _ hx => nomatch hx
      buffers := fun hbound => nomatch hbound }
  kind_eq hwhat := nomatch hwhat
  has := hhas
  aside _ hid := nomatch hid

theorem Reserves.ne_nextId (hm : m.Reserves kinds buffer) : buffer ≠ m.context.nextId :=
  Nat.ne_of_lt (hm.sound.accounted.numbered.below hm.has)

section Frame

variable (hm : m.Reserves kinds buffer)
include hm

theorem Reserves.of_sound (hsound : m'.Sound) (hgrows : m.context.Grows m'.context)
    (hrecord : ∀ h, m'.registry.record h = m.registry.record h)
    (hobject : ∀ h id, m'.registry.objectOf? h = some id → m.registry.objectOf? h = some id) :
    m'.Reserves kinds buffer where
  sound := hsound
  kind_eq {h what} hwhat := by
    rw [hrecord] at hwhat
    exact hm.kind_eq hwhat
  has := hgrows.has hm.sound.accounted.numbered hm.has
  aside h hid := hm.aside h (hobject h buffer hid)

theorem Reserves.calls (hcalls : m.Calls m') : m'.Reserves kinds buffer := by
  refine hm.of_sound ⟨hcalls.bindsCreated hm.sound.bindsCreated,
    hcalls.accounted hm.sound.accounted,
    (hcalls.truthful_iff hm.sound.accounted).mpr hm.sound.truthful, ?_⟩ hcalls.grows ?_ ?_
  · rw [hcalls.registry_eq, hcalls.bindings_eq]
    exact hm.sound.buffers
  · intro h
    rw [hcalls.registry_eq]
  · intro h id hid
    rwa [hcalls.registry_eq] at hid

theorem Reserves.register {uid : Nat} {registry : Registry}
    (hregister : m.registry.register uid = .ok (h, registry)) :
    Reserves kinds { m with registry } buffer := by
  have hreact : m.react (.register uid) = { m with registry } := by
    simp only [react, hregister]
  have hadmits : m.Admits (.register uid) := admits_of_creates?_eq_none trivial rfl
  refine hm.of_sound (hreact ▸ hm.sound.react hadmits) (.refl _)
    (Registry.record_register hregister) fun other id hid => ?_
  obtain ⟨x, hx, hobject⟩ := Registry.objectOf?_eq_some_iff.mp hid
  rcases (Registry.get_register_eq_ok_iff hregister).mp hx with ⟨-, rfl⟩ | ⟨-, hold⟩
  · cases hobject
  · exact Registry.objectOf?_eq_some_iff.mpr ⟨x, hold, hobject⟩

theorem Reserves.takeDirty :
    Reserves kinds { m with registry := m.registry.takeDirty.2 } buffer := by
  have hadmits : m.Admits .takeDirty := admits_of_creates?_eq_none trivial rfl
  exact hm.of_sound (hm.sound.react hadmits) (.refl _) (fun _ => rfl) fun _ _ => id

theorem Reserves.restart : Reserves kinds { m with bindings := {} } buffer := by
  have hsound : (m.react .restart).Sound :=
    ⟨react_bindsCreated hm.sound.bindsCreated .restart,
      react_accounted hm.sound.bindsCreated hm.sound.accounted .restart,
      (react_truthful_iff hm.sound.bindsCreated hm.sound.accounted hm.sound.truthful
        .restart).mpr trivial, fun hbound => nomatch hbound⟩
  exact hm.of_sound hsound (.refl _) (fun _ => rfl) fun _ _ => id

end Frame

section Step

variable {checks : Bool} {payloads : List (List UInt8)} {command : Command}
  (hm : m.Reserves kinds buffer) (hcommand : command.Follows kinds)
include hm hcommand

theorem Reserves.carriesOut
    (hresolve : Operation.resolve (m.surroundings payloads) command = .ok op)
    (hop : m.CarriesOut op m') : m'.Reserves kinds buffer := by
  have hresolved := (Operation.resolve_yields (m.surroundings payloads) command).value hresolve
  have hstems := (Operation.resolve_stems (m.surroundings payloads) command).value hresolve
  have hkeeps := hm.sound.keepsKinds (.command false payloads command) op hresolve
  obtain ⟨hsound, hkind, hhas, haside⟩ := hm
  have hrecord {h : Handle} {what : NewObject}
      (hwhat : (m'.registry.record h).what? = some what) : what.kind = kinds h.index := by
    cases hmakes : op.makes? with
    | none =>
        have hnew : op.created? ≠ some h := by simp [op.created?_eq, hmakes]
        exact hkind ((hop.writes.what?_eq hkeeps hnew).symm.trans hwhat)
    | some made =>
        obtain ⟨h', what'⟩ := made
        by_cases heq : h' = h
        · subst heq
          cases (hop.what?_made hmakes).symm.trans hwhat
          exact hstems.kind_eq hcommand hmakes
        · have hnew : op.created? ≠ some h := by simp [op.created?_eq, hmakes, heq]
          exact hkind ((hop.writes.what?_eq hkeeps hnew).symm.trans hwhat)
  have hbuffer {target : BufferTarget} {h : Handle}
      (hbound : m'.bindings.buffers.get? target = some h) :
      (m'.registry.record h).what? = some .buffer := by
    have hwas : (m.registry.record h).what? = some .buffer := by
      rw [hop.bindings_eq] at hbound
      rcases hresolved.bound_or_buffer hbound with hold | ⟨id, hid⟩
      · exact hsound.buffers hold
      · exact Registry.what?_of_buffer hid
    have hcreated : m'.registry.IsCreated h := by
      rw [hop.writes.isCreated_iff, Registry.isCreated_iff]
      exact .inl fun hunset => by rw [hunset] at hwas; cases hwas
    obtain ⟨what, hwhat⟩ := what?_of_set (Registry.isCreated_iff.mp hcreated)
    have hsame : what.kind = .buffer := (hrecord hwhat).trans (hkind hwas).symm
    rw [hwhat]
    cases what with
    | buffer => rfl
    | texture | shader _ | program | vertexArray | framebuffer => cases hsame
  refine ⟨⟨hop.bindsCreated, hop.accounted hsound.accounted,
    (hop.truthful_iff hsound.accounted hsound.truthful).mpr hkeeps, hbuffer⟩, hrecord,
    hop.grows.has hsound.accounted.numbered hhas, fun h hobject => ?_⟩
  rcases hop.writes.objectOf?_cases h with hold | hnew
  · exact haside h (hold.symm.trans hobject)
  · exact Nat.ne_of_lt (hsound.accounted.numbered.below hhas)
      (Option.some.inj (hobject.symm.trans hnew))

end Step

/-- The other machine still reserves the buffer, which is bound nowhere and has the same store. -/
structure Spares (kinds : Int → ResourceKind) (m : Machine) (buffer : ObjectId) (m' : Machine) :
    Prop where
  reserves : m'.Reserves kinds buffer
  unbound : m'.context.Unbound buffer
  store_eq : m'.context.store? buffer = m.context.store? buffer

section Run

variable (hm : m.Reserves kinds buffer) (hfree : m.context.Unbound buffer)
include hm hfree

theorem Reserves.spares_of_calls {calls : List Call} (hreserves : m'.Reserves kinds buffer)
    (hcontext : m'.context = m.context.issueAll calls)
    (hcalls : ∀ call ∈ calls, ∀ target, ¬ call.Binds target buffer) :
    m.Spares kinds buffer m' := by
  refine ⟨hreserves, ?_, ?_⟩
  · rw [hcontext]
    exact hfree.issueAll List.not_mem_nil fun call hcall target hbinds =>
      absurd hbinds (hcalls call hcall target)
  · rw [hcontext]
    exact Context.Unbound.store?_issueAll hm.sound.accounted.numbered hm.has hfree hcalls

theorem Reserves.readAway (checks : Bool) : m.Spares kinds buffer (m.readAway checks) := by
  have hreserves := hm.calls (readAway_calls checks m)
  cases checks with
  | false => exact ⟨hreserves, hfree, rfl⟩
  | true =>
      have hcalls : ∀ call ∈ [Call.getError], ∀ target, ¬ call.Binds target buffer := by
        simp [Call.Binds]
      exact hm.spares_of_calls hfree hreserves rfl hcalls

theorem Reserves.executeCommand (checks : Bool) (payloads : List (List UInt8))
    {command : Command} (hcommand : command.Follows kinds) :
    m.Spares kinds buffer (m.executeCommand checks payloads command).2 := by
  rcases executeCommand_moves hm.sound.bindsCreated checks payloads command with
    ⟨e, -, hleft⟩ | ⟨op, m', hresolve, hop, hleft⟩
  · rw [hleft]
    exact ⟨hm, hfree, rfl⟩
  · rw [hleft]
    have hresolved := (Operation.resolve_yields (m.surroundings payloads) command).value hresolve
    have hstems := (Operation.resolve_stems (m.surroundings payloads) command).value hresolve
    have hcarried := hm.spares_of_calls hfree (hm.carriesOut hcommand hresolve hop) hop.context_eq
      fun call hcall => hstems.not_binds hresolved hm.aside hm.ne_nextId hcall
    have hleftAway := hcarried.reserves.readAway hcarried.unbound checks
    exact ⟨hleftAway.reserves, hleftAway.unbound, hleftAway.store_eq.trans hcarried.store_eq⟩

theorem Reserves.run (checks : Bool) (payloads : List (List UInt8)) {commands : List Command}
    (hcommands : ∀ command ∈ commands, command.Follows kinds) :
    m.Spares kinds buffer (m.run checks payloads commands) := by
  induction commands generalizing m with
  | nil => exact ⟨hm, hfree, rfl⟩
  | cons command rest ih =>
      obtain ⟨hfirst, hrest⟩ := List.forall_mem_cons.mp hcommands
      have hstep := hm.executeCommand hfree checks payloads hfirst
      have hlater := ih hstep.reserves hstep.unbound hrest
      exact ⟨hlater.reserves, hlater.unbound, hlater.store_eq.trans hstep.store_eq⟩

end Run

end Machine

end GlPlayback
