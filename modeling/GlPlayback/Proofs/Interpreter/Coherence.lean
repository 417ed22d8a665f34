import GlPlayback.Proofs.Interpreter.Histories

/-!
The registry beside the context. Every created resource has an object of its own. Its record is
about an object of that kind, as long as no upload shows in a record that is not a buffer's.
-/
namespace GlPlayback

/-- An upload that is shown in a record meets a buffer's record there. -/
def Operation.KeepsKind (op : Operation) (r : Registry) : Prop :=
  ∀ h x, op.shown? = some h → r.get h = .ok x → x.record.kind? = some .buffer

theorem ResourceRecord.kind?_eq_buffer_iff {record : ResourceRecord} {what : NewObject}
    (hwhat : record.what? = some what) : record.kind? = some .buffer ↔ .buffer = what := by
  rw [kind?_eq, hwhat]
  cases what <;> simp [NewObject.kind]

namespace Machine

variable {m m' : Machine}

/-- What is known of the objects in the registry, whatever the records say. -/
structure Accounted (m : Machine) : Prop where
  numbered : m.context.Numbered
  known : ∀ {h x id}, m.registry.get h = .ok x → x.object = some id →
    ∃ what, m.context.objects.Has what id
  present : ∀ {h x}, m.registry.get h = .ok x → x.record ≠ .unset → ∃ id, x.object = some id
  distinct : ∀ {h h' x x' id}, m.registry.get h = .ok x → m.registry.get h' = .ok x' →
    x.object = some id → x'.object = some id → h = h'

/-- Every record is about the object behind its resource. -/
def Truthful (m : Machine) : Prop :=
  ∀ h x what, m.registry.get h = .ok x → x.record.what? = some what →
    ∃ id, x.object = some id ∧ m.context.objects.Has what id

/-- What the host and the commands may rely on. -/
structure Coherent (m : Machine) : Prop where
  has : ∀ h x what, m.registry.get h = .ok x → x.record.what? = some what →
    ∃ id, x.object = some id ∧ m.context.objects.Has what id
  distinct : ∀ h h' x x' id, m.registry.get h = .ok x → m.registry.get h' = .ok x' →
    x.object = some id → x'.object = some id → h = h'
  /-- An object that is handed on for a kind is of that kind. -/
  kind_eq : ∀ h kind id what, m.registry.object h kind = .ok id →
    m.context.objects.Has what id → what.kind = kind

theorem Accounted.coherent_iff (ha : m.Accounted) : m.Coherent ↔ m.Truthful := by
  refine ⟨fun hc => hc.has, fun ht => ⟨ht, fun _ _ _ _ _ => ha.distinct, ?_⟩⟩
  intro h kind id what hid hwhat
  obtain ⟨x, hx, hkind, hobject⟩ := Registry.object_eq_ok_iff.mp hid
  rw [ResourceRecord.kind?_eq, Option.map_eq_some_iff] at hkind
  obtain ⟨own, hown, rfl⟩ := hkind
  obtain ⟨id', hid', hhas⟩ := ht _ _ _ hx hown
  cases hobject.symm.trans hid'
  rw [ha.numbered.alone hwhat hhas]

theorem fresh_accounted (width height : UInt32) : (fresh width height).Accounted where
  numbered := Context.numbered_new width height
  known hx := nomatch hx
  present hx := nomatch hx
  distinct hx := nomatch hx

theorem fresh_truthful (width height : UInt32) : (fresh width height).Truthful :=
  fun _ _ _ hx => nomatch hx

section Frame

variable (hgrows : m.context.Grows m'.context)
  (hget : ∀ h, m'.registry.get h = m.registry.get h)
include hgrows hget

theorem Accounted.frame (ha : m.Accounted) : m'.Accounted where
  numbered := hgrows.numbered ha.numbered
  known hx hid := by
    obtain ⟨what, hwhat⟩ := ha.known (hget _ ▸ hx) hid
    exact ⟨what, hgrows.has ha.numbered hwhat⟩
  present hx := ha.present (hget _ ▸ hx)
  distinct hx hx' := ha.distinct (hget _ ▸ hx) (hget _ ▸ hx')

theorem Accounted.truthful_frame_iff (ha : m.Accounted) : m'.Truthful ↔ m.Truthful := by
  constructor
  · intro ht' h x what hx hwhat
    obtain ⟨id, hid, hhas'⟩ := ht' _ _ _ ((hget h).trans hx) hwhat
    obtain ⟨own, hown⟩ := ha.known hx hid
    cases (hgrows.numbered ha.numbered).alone hhas' (hgrows.has ha.numbered hown)
    exact ⟨id, hid, hown⟩
  · intro ht h x what hx hwhat
    obtain ⟨id, hid, hhas⟩ := ht _ _ _ (hget h ▸ hx) hwhat
    exact ⟨id, hid, hgrows.has ha.numbered hhas⟩

end Frame

section Register

variable {uid : Nat} {h : Handle} {registry : Registry}
  (hregister : m.registry.register uid = .ok (h, registry))
include hregister

theorem Accounted.register (ha : m.Accounted) : Accounted { m with registry } := by
  have hget {other y} (hy : registry.get other = .ok y) :
      (y.object = none ∧ y.record = .unset) ∨ m.registry.get other = .ok y := by
    rcases (Registry.get_register_eq_ok_iff hregister).mp hy with ⟨-, rfl⟩ | ⟨-, hy⟩
    · exact .inl ⟨rfl, rfl⟩
    · exact .inr hy
  refine ⟨ha.numbered, ?_, ?_, ?_⟩
  · intro other y id hy hid
    rcases hget hy with ⟨hnone, -⟩ | hy
    · cases hnone.symm.trans hid
    · exact ha.known hy hid
  · intro other y hy hset
    rcases hget hy with ⟨-, hunset⟩ | hy
    · exact absurd hunset hset
    · exact ha.present hy hset
  · intro other other' y y' id hy hy' hid hid'
    rcases hget hy with ⟨hnone, -⟩ | hy
    · cases hnone.symm.trans hid
    · rcases hget hy' with ⟨hnone, -⟩ | hy'
      · cases hnone.symm.trans hid'
      · exact ha.distinct hy hy' hid hid'

theorem truthful_register (ht : m.Truthful) : Truthful { m with registry } := by
  intro other y what hy hwhat
  rcases (Registry.get_register_eq_ok_iff hregister).mp hy with ⟨-, rfl⟩ | ⟨-, hy⟩
  · cases hwhat
  · exact ht _ _ _ hy hwhat

end Register

section Creation

variable {h : Handle} {what : NewObject} {record : ResourceRecord}
  (hgains : m.context.Gains what m'.context) (hwhat : record.what? = some what)
  (hregistry : m'.registry = m.registry.write h fun _ => ⟨some m.context.nextId, record⟩)
include hgains hregistry

/-- The number of a new object is that of no object in the registry. -/
theorem Accounted.creation (ha : m.Accounted) : m'.Accounted := by
  have hget {other y} (hy : m'.registry.get other = .ok y) :
      (other = h ∧ y.object = some m.context.nextId) ∨
        (other ≠ h ∧ m.registry.get other = .ok y) := by
    rw [hregistry] at hy
    rcases Registry.get_write_eq_ok_iff.mp hy with ⟨heq, x, -, rfl⟩ | hold
    · exact .inl ⟨heq, rfl⟩
    · exact .inr hold
  have hnew {other y} (hy : m.registry.get other = .ok y)
      (hid : y.object = some m.context.nextId) : False := by
    obtain ⟨what, hhas⟩ := ha.known hy hid
    exact ha.numbered.nextId_free what hhas
  refine ⟨hgains.grows.numbered ha.numbered, ?_, ?_, ?_⟩
  · intro other y id hy hid
    rcases hget hy with ⟨-, hobject⟩ | ⟨-, hy⟩
    · cases hobject.symm.trans hid
      exact ⟨what, hgains.has ha.numbered⟩
    · obtain ⟨kept, hhas⟩ := ha.known hy hid
      exact ⟨kept, hgains.grows.has ha.numbered hhas⟩
  · intro other y hy hset
    rcases hget hy with ⟨-, hobject⟩ | ⟨-, hy⟩
    · exact ⟨_, hobject⟩
    · exact ha.present hy hset
  · intro other other' y y' id hy hy' hid hid'
    rcases hget hy with ⟨heq, hobject⟩ | ⟨-, hold⟩ <;>
      rcases hget hy' with ⟨heq', hobject'⟩ | ⟨-, hold'⟩
    · rw [heq, heq']
    · cases hobject.symm.trans hid
      exact (hnew hold' hid').elim
    · cases hobject'.symm.trans hid'
      exact (hnew hold hid).elim
    · exact ha.distinct hold hold' hid hid'

include hwhat

theorem Accounted.truthful_creation (ha : m.Accounted) (ht : m.Truthful) : m'.Truthful := by
  intro other y kind hy hkind
  rw [hregistry] at hy
  rcases Registry.get_write_eq_ok_iff.mp hy with ⟨-, x, -, rfl⟩ | ⟨-, hy⟩
  · cases hwhat.symm.trans hkind
    exact ⟨_, rfl, hgains.has ha.numbered⟩
  · obtain ⟨id, hid, hhas⟩ := ht _ _ _ hy hkind
    exact ⟨id, hid, hgains.grows.has ha.numbered hhas⟩

end Creation

section Rewriting

variable {h : Handle} {x : Resource} (change : ResourceRecord → ResourceRecord)
  (hgrows : m.context.Grows m'.context) (hx : m.registry.get h = .ok x)
  (hregistry : m'.registry = m.registry.write h fun x => { x with record := change x.record })
include hgrows hx hregistry

/-- A new record leaves the objects, and a record that is not unset had an object already. -/
theorem Accounted.rewriting (ha : m.Accounted) (hset : x.record ≠ .unset) : m'.Accounted := by
  have hget {other y} (hy : m'.registry.get other = .ok y) :
      ∃ z, m.registry.get other = .ok z ∧ y.object = z.object ∧
        (y.record ≠ .unset → z.record ≠ .unset) := by
    rw [hregistry] at hy
    rcases Registry.get_write_eq_ok_iff.mp hy with ⟨rfl, z, hz, rfl⟩ | ⟨-, hold⟩
    · cases hx.symm.trans hz
      exact ⟨x, hx, rfl, fun _ => hset⟩
    · exact ⟨y, hold, rfl, id⟩
  refine ⟨hgrows.numbered ha.numbered, ?_, ?_, ?_⟩
  · intro other y id hy hid
    obtain ⟨z, hz, hobject, -⟩ := hget hy
    obtain ⟨what, hhas⟩ := ha.known hz (hobject.symm.trans hid)
    exact ⟨what, hgrows.has ha.numbered hhas⟩
  · intro other y hy hunset
    obtain ⟨z, hz, hobject, hwas⟩ := hget hy
    rw [hobject]
    exact ha.present hz (hwas hunset)
  · intro other other' y y' id hy hy' hid hid'
    obtain ⟨z, hz, hobject, -⟩ := hget hy
    obtain ⟨z', hz', hobject', -⟩ := hget hy'
    exact ha.distinct hz hz' (hobject.symm.trans hid) (hobject'.symm.trans hid')

/-- Only a record about an object of the same kind keeps the records true. -/
theorem Accounted.truthful_rewriting_iff (ha : m.Accounted) (ht : m.Truthful) {what : NewObject}
    (hwhat : x.record.what? = some what) {new : NewObject}
    (hnew : (change x.record).what? = some new) : m'.Truthful ↔ new = what := by
  obtain ⟨own, hown, hhas⟩ := ht _ _ _ hx hwhat
  have hkept := hgrows.has ha.numbered hhas
  have hget : m'.registry.get h = .ok { x with record := change x.record } := by
    rw [hregistry, Registry.get_write_self, hx]
    rfl
  constructor
  · intro ht'
    obtain ⟨id, hid, hhas'⟩ := ht' _ _ _ hget hnew
    cases hown.symm.trans hid
    exact (hgrows.numbered ha.numbered).alone hhas' hkept
  · rintro rfl
    intro other y kind hy hkind
    rw [hregistry] at hy
    rcases Registry.get_write_eq_ok_iff.mp hy with ⟨rfl, z, hz, rfl⟩ | ⟨-, hold⟩
    · cases hx.symm.trans hz
      cases hnew.symm.trans hkind
      exact ⟨own, hown, hkept⟩
    · obtain ⟨id, hid, hhas'⟩ := ht _ _ _ hold hkind
      exact ⟨id, hid, hgrows.has ha.numbered hhas'⟩

end Rewriting

theorem what?_of_set {record : ResourceRecord} (hset : record ≠ .unset) :
    ∃ what, record.what? = some what :=
  Option.ne_none_iff_exists'.mp fun hnone => hset (ResourceRecord.what?_eq_none_iff.mp hnone)

theorem CarriesOut.accounted {op : Operation} (hop : m.CarriesOut op m') (ha : m.Accounted) :
    m'.Accounted := by
  cases hop.writes with
  | nothing _ _ _ hregistry => exact ha.frame hop.grows fun h => by rw [hregistry]
  | creation _ _ _ _ hwhat hgains hregistry => exact ha.creation hgains hregistry
  | revision _ _ _ hx hset _ hregistry => exact ha.rewriting _ hop.grows hx hregistry hset
  | @upload h record _ _ _ hh hregistry =>
      obtain ⟨x, hx, hset⟩ := hh
      exact ha.rewriting (fun _ => .buffer record) hop.grows hx hregistry hset

/-- An operation keeps the records true exactly if it shows no upload in another kind of record. -/
theorem CarriesOut.truthful_iff {op : Operation} (hop : m.CarriesOut op m') (ha : m.Accounted)
    (ht : m.Truthful) : m'.Truthful ↔ op.KeepsKind m.registry := by
  have hsilent (hshown : op.shown? = none) : op.KeepsKind m.registry :=
    fun h x hh => nomatch hshown.symm.trans hh
  cases hop.writes with
  | nothing _ _ hshown hregistry =>
      have hframe := ha.truthful_frame_iff hop.grows fun h => by rw [hregistry]
      exact iff_of_true (hframe.mpr ht) (hsilent hshown)
  | creation _ _ hshown _ hwhat hgains hregistry =>
      exact iff_of_true (ha.truthful_creation hgains hwhat hregistry ht) (hsilent hshown)
  | revision _ _ hshown hx hset hwhat hregistry =>
      obtain ⟨what, hwas⟩ := what?_of_set hset
      exact iff_of_true ((ha.truthful_rewriting_iff _ hop.grows hx hregistry ht hwas
        (hwhat.trans hwas)).mpr rfl) (hsilent hshown)
  | @upload h record _ _ hshown hh hregistry =>
      obtain ⟨x, hx, hset⟩ := hh
      obtain ⟨what, hwas⟩ := what?_of_set hset
      rw [ha.truthful_rewriting_iff (fun _ => .buffer record) hop.grows hx hregistry ht hwas
        rfl, ← ResourceRecord.kind?_eq_buffer_iff hwas]
      constructor
      · intro hkind h' x' hh' hx'
        cases hshown.symm.trans hh'
        cases hx.symm.trans hx'
        exact hkind
      · intro hkeeps
        exact hkeeps h x hshown hx

theorem Calls.accounted (h : m.Calls m') (ha : m.Accounted) : m'.Accounted :=
  ha.frame h.grows fun _ => by rw [h.registry_eq]

theorem Calls.truthful_iff (h : m.Calls m') (ha : m.Accounted) : m'.Truthful ↔ m.Truthful :=
  ha.truthful_frame_iff h.grows fun _ => by rw [h.registry_eq]

/-- What an event shows in a record is shown in that of a buffer. -/
def KeepsKinds (m : Machine) : Event → Prop
  | .command _ payloads command =>
      ∀ op, Operation.resolve (m.surroundings payloads) command = .ok op → op.KeepsKind m.registry
  | _ => True

section Events

variable (hbound : m.BindsCreated) (ha : m.Accounted)
include hbound ha

theorem react_accounted (event : Event) : (m.react event).Accounted := by
  cases event with
  | register uid =>
      simp only [react]
      cases hregister : m.registry.register uid with
      | error e => exact ha
      | ok registered => exact ha.register hregister
  | command checks payloads command =>
      rcases executeCommand_moves hbound checks payloads command with
        ⟨e, -, hleft⟩ | ⟨op, m', -, hop, hleft⟩
      · simpa only [react, hleft] using ha
      · simpa only [react, hleft] using (readAway_calls checks m').accounted (hop.accounted ha)
  | call call => exact (m.issue_calls call).accounted ha
  | takeDirty => exact ha.frame (.refl m.context) fun _ => rfl
  | restart => exact ha.frame (.refl m.context) fun _ => rfl

theorem react_truthful_iff (ht : m.Truthful) (event : Event) :
    (m.react event).Truthful ↔ m.KeepsKinds event := by
  cases event with
  | register uid =>
      refine iff_of_true ?_ trivial
      simp only [react]
      cases hregister : m.registry.register uid with
      | error e => exact ht
      | ok registered => exact truthful_register hregister ht
  | command checks payloads command =>
      rcases executeCommand_moves hbound checks payloads command with
        ⟨e, hresolve, hleft⟩ | ⟨op, m', hresolve, hop, hleft⟩
      · simp only [react, hleft, KeepsKinds]
        refine iff_of_true ht ?_
        intro op hok
        cases hresolve.symm.trans hok
      · simp only [react, hleft, KeepsKinds]
        rw [(readAway_calls checks m').truthful_iff (hop.accounted ha), hop.truthful_iff ha ht]
        constructor
        · intro hkeeps op' hok
          cases hresolve.symm.trans hok
          exact hkeeps
        · intro hkeeps
          exact hkeeps op hresolve
  | call call => exact iff_of_true (((m.issue_calls call).truthful_iff ha).mpr ht) trivial
  | takeDirty =>
      exact iff_of_true ((ha.truthful_frame_iff (.refl m.context) fun _ => rfl).mpr ht) trivial
  | restart =>
      exact iff_of_true ((ha.truthful_frame_iff (.refl m.context) fun _ => rfl).mpr ht) trivial

theorem after_accounted (events : List Event) : (m.after events).Accounted := by
  induction events generalizing m with
  | nil => exact ha
  | cons event rest ih =>
      exact ih (react_bindsCreated hbound event) (react_accounted hbound ha event)

/-- The records stay true throughout a history exactly if every event shows its upload in the
record of a buffer. -/
theorem truthful_throughout_iff (ht : m.Truthful) (events : List Event) :
    (∀ before rest, events = before ++ rest → (m.after before).Truthful) ↔
      ∀ before event rest, events = before ++ event :: rest →
        (m.after before).KeepsKinds event := by
  rw [← throughout_iff, ← along_iff]
  exact throughout_iff_along (fun m event (hm : m.BindsCreated ∧ m.Accounted) _ =>
      ⟨react_bindsCreated hm.1 event, react_accounted hm.1 hm.2 event⟩)
    (fun m event hm _ ht => react_truthful_iff hm.1 hm.2 ht event)
    ⟨hbound, ha⟩ (along_of_forall (fun _ _ => trivial) m events) ht

end Events

end Machine

end GlPlayback
