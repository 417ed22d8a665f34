import GlPlayback.Proofs.Interpreter.Calling
import GlPlayback.Proofs.Interpreter.Coherence
import GlPlayback.Proofs.Interpreter.Writing

/-!
Histories of commands alone, in which nothing is created twice. There a created resource keeps its
object, and what is bound as a buffer stays one.
-/
namespace GlPlayback

/-- A record is about the kind of object that it is asked for. -/
theorem Registry.what?_of_object {r : Registry} {h : Handle} {kind : ResourceKind} {id : ObjectId}
    (hid : r.object h kind = .ok id) :
    ∃ what, (r.record h).what? = some what ∧ what.kind = kind := by
  obtain ⟨x, hx, hkind, -⟩ := object_eq_ok_iff.mp hid
  rw [ResourceRecord.kind?_eq] at hkind
  rw [record_of_get hx]
  exact Option.map_eq_some_iff.mp hkind

theorem Registry.what?_of_buffer {r : Registry} {h : Handle} {id : ObjectId}
    (hid : r.object h .buffer = .ok id) : (r.record h).what? = some .buffer := by
  obtain ⟨what, hwhat, hkind⟩ := what?_of_object hid
  cases what with
  | buffer => exact hwhat
  | texture | shader _ | program | vertexArray | framebuffer => cases hkind

/-- The buffers bound after an operation were bound before, or are new ones. -/
theorem Operation.Resolved.bound_or_buffer {s : Surroundings} {op : Operation}
    (hop : op.Resolved s) {b : BindingState} {target : BufferTarget} {h : Handle}
    (hbound : (op.bindingsAfter b).buffers.get? target = some h) :
    b.buffers.get? target = some h ∨ ∃ id, s.registry.object h .buffer = .ok id := by
  cases op with
  | bindBuffer other buffer =>
      simp only [bindingsAfter, Table.get?_set] at hbound
      split at hbound
      · obtain ⟨⟨h', id⟩, hnew, rfl⟩ := Option.map_eq_some_iff.mp hbound
        exact .inr ⟨id, hop h' id hnew⟩
      · exact .inl hbound
  | createUniformBuffer _ _ _ =>
      simp only [bindingsAfter, Table.get?_erase] at hbound
      split at hbound
      · cases hbound
      · exact .inl hbound
  | nothing | issue _ | create _ _ | compile _ _ | link _ _ | useProgram _ | bindVertexArray _
  | bufferData _ _ _ _ | setPointer _ _ _ => exact .inl hbound

namespace Machine

variable {m m' : Machine} {event : Event} {h : Handle} {x : Resource}

/-- An event by which nobody but the commands changes the context or what is bound. -/
def Event.IsOwn : Event → Prop
  | .register _ | .command _ _ _ | .takeDirty => True
  | .call made => made.touches ⊆ [.error]
  | .restart => False

/-- The operation that an event is resolved into. -/
def operation? (m : Machine) : Event → Option Operation
  | .command _ payloads command =>
      (Operation.resolve (m.surroundings payloads) command).toOption
  | _ => none

def creates? (m : Machine) (event : Event) : Option Handle :=
  (m.operation? event).bind Operation.created?

/-- An event of a history of commands alone, in which nothing is created twice. -/
structure Admits (m : Machine) (event : Event) : Prop where
  own : event.IsOwn
  new : ∀ h, m.creates? event = some h → ¬ m.registry.IsCreated h

instance : (event : Event) → Decidable event.IsOwn
  | .register _ | .command _ _ _ | .takeDirty => .isTrue trivial
  | .call made => inferInstanceAs (Decidable (made.touches ⊆ [.error]))
  | .restart => .isFalse id

instance (m : Machine) (event : Event) : Decidable (m.Admits event) :=
  decidable_of_iff (event.IsOwn ∧ ∀ h, m.creates? event = some h → ¬ m.registry.IsCreated h)
    ⟨fun h => ⟨h.1, h.2⟩, fun h => ⟨h.own, h.new⟩⟩

theorem admits_of_creates?_eq_none (hown : event.IsOwn) (hnone : m.creates? event = none) :
    m.Admits event :=
  ⟨hown, fun h hcreates => (Option.some_ne_none h (hcreates.symm.trans hnone)).elim⟩

theorem Writes.resource_kept {op : Operation} (hw : m.Writes op m')
    (hx : m.registry.get h = .ok x) (hnew : op.created? ≠ some h) :
    ∃ y, m'.registry.get h = .ok y ∧ y.object = x.object ∧
      (y.record.what? = x.record.what? ∨ y.record.what? = some .buffer) := by
  have hrewritten {other : Handle} {change : ResourceRecord → ResourceRecord}
      (hchange : other = h → (change x.record).what? = x.record.what? ∨
        (change x.record).what? = some .buffer)
      (hregistry : m'.registry =
        m.registry.write other fun x => { x with record := change x.record }) :
      ∃ y, m'.registry.get h = .ok y ∧ y.object = x.object ∧
        (y.record.what? = x.record.what? ∨ y.record.what? = some .buffer) := by
    by_cases heq : h = other
    · subst heq
      refine ⟨{ x with record := change x.record }, ?_, rfl, hchange rfl⟩
      rw [hregistry, Registry.get_write_self, hx]
      rfl
    · refine ⟨x, ?_, rfl, .inl rfl⟩
      rw [hregistry, Registry.get_write_of_ne _ _ _ heq, hx]
  cases hw with
  | nothing _ _ _ hregistry => exact ⟨x, by rw [hregistry, hx], rfl, .inl rfl⟩
  | creation _ hcreated _ _ _ _ hregistry =>
      refine ⟨x, ?_, rfl, .inl rfl⟩
      rw [hregistry, Registry.get_write_of_ne, hx]
      rintro rfl
      exact hnew hcreated
  | revision _ _ _ hx' _ hwhat hregistry =>
      refine hrewritten (fun heq => ?_) hregistry
      cases (heq ▸ hx').symm.trans hx
      exact .inl hwhat
  | @upload _ record _ _ _ _ hregistry =>
      exact @hrewritten _ (fun _ => .buffer record) (fun _ => .inr rfl) hregistry

/-- Nothing else is bound, no resource is changed, and of the context at most the flag of the
error. -/
structure Quiet (m m' : Machine) : Prop where
  bindings_eq : m'.bindings = m.bindings
  get_eq : ∀ {h x}, m.registry.get h = .ok x → m'.registry.get h = .ok x
  part_eq : ∀ {part}, part ≠ .error → m'.context.part part = m.context.part part

theorem Quiet.refl (m : Machine) : m.Quiet m :=
  ⟨rfl, id, fun _ => rfl⟩

theorem issue_quiet {call : Call} (hcall : call.touches ⊆ [.error]) : m.Quiet (m.issue call) where
  bindings_eq := rfl
  get_eq := id
  part_eq hne := Context.exec_part (fun hmem => hne (List.mem_singleton.mp (hcall hmem))) hne

theorem readAway_quiet (checks : Bool) (m : Machine) : m.Quiet (m.readAway checks) := by
  cases checks with
  | false => exact .refl m
  | true => exact issue_quiet (List.Subset.refl _)

section Events

variable (hbound : m.BindsCreated) (hevent : m.Admits event)
include hbound hevent

/-- An event that is resolved into no operation is quiet, and so is what follows one. -/
theorem Admits.react_cases : (m.operation? event = none ∧ m.Quiet (m.react event)) ∨
    ∃ payloads op m', m.operation? event = some op ∧ op.Resolved (m.surroundings payloads) ∧
      m.CarriesOut op m' ∧ m'.Quiet (m.react event) := by
  cases event with
  | register uid =>
      refine .inl ⟨rfl, ?_⟩
      simp only [react]
      cases hregister : m.registry.register uid with
      | error e => exact .refl m
      | ok registered =>
          exact ⟨rfl, Registry.get_register_of_get hregister, fun _ => rfl⟩
  | command checks payloads command =>
      rcases executeCommand_moves hbound checks payloads command with
        ⟨e, hresolve, hleft⟩ | ⟨op, m', hresolve, hop, hleft⟩
      · refine .inl ⟨by simp only [operation?, hresolve, Except.toOption], ?_⟩
        simp only [react, hleft]
        exact .refl m
      · have hresolved := (Operation.resolve_yields _ command).value hresolve
        refine .inr ⟨payloads, op, m', by simp only [operation?, hresolve, Except.toOption],
          hresolved, hop, ?_⟩
        simp only [react, hleft]
        exact readAway_quiet checks m'
  | call made => exact .inl ⟨rfl, issue_quiet hevent.own⟩
  | takeDirty => exact .inl ⟨rfl, rfl, id, fun _ => rfl⟩
  | restart => exact hevent.own.elim

theorem Admits.resource_kept (hx : m.registry.get h = .ok x) (hset : x.record ≠ .unset) :
    ∃ y, (m.react event).registry.get h = .ok y ∧ y.object = x.object ∧
      (y.record.what? = x.record.what? ∨ y.record.what? = some .buffer) := by
  rcases hevent.react_cases hbound with ⟨-, hquiet⟩ | ⟨payloads, op, m', hresolve, -, hop, hquiet⟩
  · exact ⟨x, hquiet.get_eq hx, rfl, .inl rfl⟩
  · have hnew : op.created? ≠ some h := fun hcreated =>
      hevent.new h (by simp only [creates?, hresolve, Option.bind_some, hcreated]) ⟨x, hx, hset⟩
    obtain ⟨y, hy, hkept⟩ := hop.writes.resource_kept hx hnew
    exact ⟨y, hquiet.get_eq hy, hkept⟩

theorem Admits.objectOf?_eq (hh : m.registry.IsCreated h) :
    (m.react event).registry.objectOf? h = m.registry.objectOf? h := by
  obtain ⟨x, hx, hset⟩ := hh
  obtain ⟨y, hy, hobject, -⟩ := hevent.resource_kept hbound hx hset
  rw [Registry.objectOf?_of_get hx, Registry.objectOf?_of_get hy, hobject]

/-- What is bound is bound to the same object. -/
theorem Admits.bind_objectOf?_eq {bound : Option Handle}
    (hcreated : ∀ h, bound = some h → m.registry.IsCreated h) :
    bound.bind (m.react event).registry.objectOf? = bound.bind m.registry.objectOf? := by
  cases bound with
  | none => rfl
  | some h => exact hevent.objectOf?_eq hbound (hcreated h rfl)

/-- What a command names as an object is bound to that object afterwards. -/
theorem Admits.bind_objectOf?_of_object {kind : ResourceKind} {bound : Option (Handle × ObjectId)}
    (hobject : ∀ h id, bound = some (h, id) → m.registry.object h kind = .ok id) :
    (bound.map (·.1)).bind (m.react event).registry.objectOf? = bound.map (·.2) := by
  cases bound with
  | none => rfl
  | some bound =>
      obtain ⟨h, id⟩ := bound
      have hid := hobject h id rfl
      exact (hevent.objectOf?_eq hbound (Registry.isCreated_of_object hid)).trans
        (Registry.objectOf?_of_object hid)

theorem Admits.buffer_kept (hbuffer : (m.registry.record h).what? = some .buffer) :
    ((m.react event).registry.record h).what? = some .buffer := by
  obtain ⟨x, hx, hset⟩ : m.registry.IsCreated h := by
    rw [Registry.isCreated_iff]
    intro hunset
    rw [hunset] at hbuffer
    cases hbuffer
  obtain ⟨y, hy, -, hwhat⟩ := hevent.resource_kept hbound hx hset
  rw [Registry.record_of_get hx] at hbuffer
  rw [Registry.record_of_get hy]
  exact hwhat.elim (fun hsame => hsame.trans hbuffer) id

end Events

/-- What is known of a machine with such a history. -/
structure Sound (m : Machine) : Prop where
  bindsCreated : m.BindsCreated
  accounted : m.Accounted
  truthful : m.Truthful
  buffers : ∀ {target h}, m.bindings.buffers.get? target = some h →
    (m.registry.record h).what? = some .buffer

theorem fresh_sound (width height : UInt32) : (fresh width height).Sound where
  bindsCreated := fresh_bindsCreated width height
  accounted := fresh_accounted width height
  truthful := fresh_truthful width height
  buffers hbound := nomatch hbound

/-- A created resource has an object. -/
theorem Sound.objectOf?_isSome (hm : m.Sound) (hh : m.registry.IsCreated h) :
    ∃ id, m.registry.objectOf? h = some id := by
  obtain ⟨x, hx, hset⟩ := hh
  obtain ⟨id, hid⟩ := hm.accounted.present hx hset
  exact ⟨id, (Registry.objectOf?_of_get hx).trans hid⟩

theorem Sound.objectOf?_inj (hm : m.Sound) {h' : Handle} {id : ObjectId}
    (hid : m.registry.objectOf? h = some id) (hid' : m.registry.objectOf? h' = some id) :
    h = h' := by
  obtain ⟨x, hx, hobject⟩ := Registry.objectOf?_eq_some_iff.mp hid
  obtain ⟨x', hx', hobject'⟩ := Registry.objectOf?_eq_some_iff.mp hid'
  exact hm.accounted.distinct hx hx' hobject hobject'

/-- A record is about the object behind its resource. -/
theorem Sound.has (hm : m.Sound) {what : NewObject} {id : ObjectId}
    (hwhat : (m.registry.record h).what? = some what)
    (hid : m.registry.objectOf? h = some id) : m.context.objects.Has what id := by
  obtain ⟨x, hx, hobject⟩ := Registry.objectOf?_eq_some_iff.mp hid
  rw [Registry.record_of_get hx] at hwhat
  obtain ⟨id', hid', hhas⟩ := hm.truthful _ _ _ hx hwhat
  cases hobject.symm.trans hid'
  exact hhas

/-- What is shown of an upload is shown of a buffer. -/
theorem Sound.keepsKinds (hm : m.Sound) (event : Event) : m.KeepsKinds event := by
  cases event with
  | command checks payloads command =>
      intro op hresolve h x hshown hx
      have hop := (Operation.resolve_yields (m.surroundings payloads) command).value hresolve
      cases op with
      | bufferData target contents usage shown =>
          have hbuffer := hm.buffers (hop h hshown)
          rw [Registry.record_of_get hx] at hbuffer
          rw [ResourceRecord.kind?_eq, hbuffer]
          rfl
      | nothing | issue _ | create _ _ | compile _ _ | link _ _ | useProgram _
      | bindVertexArray _ | bindBuffer _ _ | createUniformBuffer _ _ _ | setPointer _ _ _ =>
          cases hshown
  | register _ | call _ | takeDirty | restart => trivial

theorem Sound.react (hm : m.Sound) (hevent : m.Admits event) : (m.react event).Sound where
  bindsCreated := react_bindsCreated hm.bindsCreated event
  accounted := react_accounted hm.bindsCreated hm.accounted event
  truthful := (react_truthful_iff hm.bindsCreated hm.accounted hm.truthful event).mpr
    (hm.keepsKinds event)
  buffers {target h} hbound := by
    refine hevent.buffer_kept hm.bindsCreated ?_
    rcases hevent.react_cases hm.bindsCreated with
      ⟨-, hquiet⟩ | ⟨payloads, op, m', -, hresolved, hop, hquiet⟩
    · rw [hquiet.bindings_eq] at hbound
      exact hm.buffers hbound
    · rw [hquiet.bindings_eq, hop.bindings_eq] at hbound
      rcases hresolved.bound_or_buffer hbound with hold | ⟨id, hid⟩
      · exact hm.buffers hold
      · exact Registry.what?_of_buffer hid

theorem after_sound (width height : UInt32) {events : List Event}
    (hevents : (fresh width height).Along Admits events) :
    ((fresh width height).after events).Sound :=
  hevents.invariant (fun _ _ => Sound.react) (fresh_sound width height)

end Machine

end GlPlayback
