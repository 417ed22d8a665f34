import GlPlayback.Proofs.Outcome
import GlPlayback.Proofs.Store.Order
import GlPlayback.Resource.Registry

/-!
The registry through one view, `get`: what each operation does to the resource behind a handle,
and that no operation forgets a handle.
-/
namespace GlPlayback

instance : IsStrictTotalOrder Handle (· < ·) where
  trichotomous a b hab hba := by
    obtain ⟨a⟩ := a
    obtain ⟨b⟩ := b
    rw [Handle.mk.injEq]
    exact Nat.le_antisymm (Nat.not_lt.mp hba) (Nat.not_lt.mp hab)
  irrefl a := Nat.lt_irrefl a.index
  trans _ _ _ := Nat.lt_trans

namespace Registry

variable {r : Registry} {h other : Handle} {x : Resource}

/-- A handle that was given out. -/
def IsRegistered (r : Registry) (h : Handle) : Prop :=
  ∃ x, r.get h = .ok x

/-- A handle whose record is about an object. -/
def IsCreated (r : Registry) (h : Handle) : Prop :=
  ∃ x, r.get h = .ok x ∧ x.record ≠ .unset

/-- The record of a resource. That of an unknown handle is unset. -/
def record (r : Registry) (h : Handle) : ResourceRecord :=
  match r.get h with
  | .ok x => x.record
  | .error _ => .unset

/-- The object behind a handle, whatever its record says. -/
def objectOf? (r : Registry) (h : Handle) : Option ObjectId :=
  match r.get h with
  | .ok x => x.object
  | .error _ => none

theorem objectOf?_of_get (hx : r.get h = .ok x) : r.objectOf? h = x.object := by
  simp only [objectOf?, hx]

theorem objectOf?_eq_some_iff {id : ObjectId} :
    r.objectOf? h = some id ↔ ∃ x, r.get h = .ok x ∧ x.object = some id := by
  cases hx : r.get h with
  | ok x => simp [objectOf?, hx]
  | error e => simp [objectOf?, hx]

theorem record_of_get (hx : r.get h = .ok x) : r.record h = x.record := by
  simp only [record, hx]

theorem isCreated_iff : r.IsCreated h ↔ r.record h ≠ .unset := by
  cases hx : r.get h with
  | ok x => simp [IsCreated, record, hx]
  | error e => simp [IsCreated, record, hx]

instance (r : Registry) (h : Handle) : Decidable (r.IsCreated h) :=
  decidable_of_iff _ isCreated_iff.symm

theorem IsCreated.isRegistered (hh : r.IsCreated h) : r.IsRegistered h :=
  hh.imp fun _ hx => hx.1

theorem get_eq_ok_iff : r.get h = .ok x ↔ r.resources[h.index]? = some x := by
  simp only [get]
  cases r.resources[h.index]? <;> simp

theorem isRegistered_iff : r.IsRegistered h ↔ h.index < r.size := by
  simp only [IsRegistered, get_eq_ok_iff, size]
  constructor
  · rintro ⟨x, hx⟩
    exact (List.getElem?_eq_some_iff.mp hx).1
  · intro hlt
    exact ⟨_, List.getElem?_eq_getElem hlt⟩

theorem isRegistered_of_handle {raw : Int} (hh : r.handle raw = .ok h) : r.IsRegistered h := by
  rw [isRegistered_iff]
  simp only [handle] at hh
  split at hh
  · next hraw =>
      cases hh
      change raw.toNat < r.size
      omega
  · cases hh

theorem object_eq_ok_iff {kind : ResourceKind} {id : ObjectId} :
    r.object h kind = .ok id ↔
      ∃ x, r.get h = .ok x ∧ x.record.kind? = some kind ∧ x.object = some id := by
  cases hx : r.get h with
  | error e => simp [object, hx, bind, Except.bind]
  | ok x =>
      obtain ⟨object, record⟩ := x
      cases hk : record.kind? with
      | none =>
          simp [Registry.object, hx, hk, bind, Except.bind, throw, throwThe, MonadExceptOf.throw]
      | some found =>
          by_cases hf : found = kind
          · cases object <;>
              simp [Registry.object, hx, hk, hf, bind, Except.bind, pure, Except.pure, throw,
                throwThe, MonadExceptOf.throw]
          · simp [Registry.object, hx, hk, hf, bind, Except.bind, throw, throwThe,
              MonadExceptOf.throw]

/-- The object is handed on for the kind that is recorded. -/
theorem object_eq_ok_iff_recorded {kind : ResourceKind} {id : ObjectId} :
    r.object h kind = .ok id ↔ (r.record h).kind? = some kind ∧ r.objectOf? h = some id := by
  rw [object_eq_ok_iff]
  cases hx : r.get h with
  | error e => simp [objectOf?, hx]
  | ok x => simp [objectOf?, record, hx]

theorem objectOf?_of_object {kind : ResourceKind} {id : ObjectId}
    (hid : r.object h kind = .ok id) : r.objectOf? h = some id := by
  obtain ⟨x, hx, -, hobject⟩ := object_eq_ok_iff.mp hid
  rw [objectOf?_of_get hx, hobject]

theorem isCreated_of_object {kind : ResourceKind} {id : ObjectId}
    (hid : r.object h kind = .ok id) : r.IsCreated h := by
  obtain ⟨x, hx, hkind, -⟩ := object_eq_ok_iff.mp hid
  refine ⟨x, hx, fun hunset => ?_⟩
  rw [hunset] at hkind
  cases hkind

section Write

variable (r h) (change : Resource → Resource)

theorem get_write : (r.write h change).get other =
    if other = h then (r.get other).map change else r.get other := by
  obtain ⟨i⟩ := h
  obtain ⟨j⟩ := other
  simp only [get, write, markDirty, List.getElem?_modify, Handle.mk.injEq]
  by_cases hij : i = j
  · subst hij
    cases r.resources[i]? <;> simp [Except.map]
  · cases r.resources[j]? <;> simp [hij, Ne.symm hij]

theorem size_write : (r.write h change).size = r.size := by
  simp only [size, write, markDirty, List.length_modify]

theorem handle_write (raw : Int) : (r.write h change).handle raw = r.handle raw := by
  rw [handle, handle, size_write]

theorem get_write_self : (r.write h change).get h = (r.get h).map change := by
  simp [get_write]

theorem get_write_of_ne (hne : other ≠ h) : (r.write h change).get other = r.get other := by
  simp [get_write, hne]

theorem record_write_of_ne (hne : other ≠ h) :
    (r.write h change).record other = r.record other := by
  simp only [record, get_write_of_ne r h change hne]

theorem mem_dirty_write :
    other ∈ (r.write h change).dirty.keys ↔ other = h ∨ other ∈ r.dirty.keys :=
  Table.mem_keys_insert

end Write

theorem IsCreated.write {change : Resource → Resource}
    (hchange : ∀ x, r.get h = .ok x → (change x).record ≠ .unset) (hother : r.IsCreated other) :
    (r.write h change).IsCreated other := by
  obtain ⟨x, hx, hset⟩ := hother
  by_cases heq : other = h
  · subst heq
    refine ⟨change x, ?_, hchange x hx⟩
    rw [get_write_self, hx]
    rfl
  · exact ⟨x, by rw [get_write_of_ne r h change heq, hx], hset⟩

theorem IsRegistered.isCreated_write {change : Resource → Resource}
    (hchange : ∀ x, r.get h = .ok x → (change x).record ≠ .unset) (hh : r.IsRegistered h) :
    (r.write h change).IsCreated h := by
  obtain ⟨x, hx⟩ := hh
  exact ⟨change x, by rw [get_write_self, hx]; rfl, hchange x hx⟩

theorem get_write_eq_ok_iff {change : Resource → Resource} {y : Resource} :
    (r.write h change).get other = .ok y ↔
      (other = h ∧ ∃ x, r.get h = .ok x ∧ y = change x) ∨ (other ≠ h ∧ r.get other = .ok y) := by
  by_cases heq : other = h
  · subst heq
    rw [get_write_self]
    cases r.get other with
    | ok x => simp [Except.map, eq_comm]
    | error e => simp [Except.map]
  · rw [get_write_of_ne r h change heq]
    simp [heq]

section Written

variable {change : Resource → Resource}

theorem objectOf?_write_of_ne (hne : other ≠ h) :
    (r.write h change).objectOf? other = r.objectOf? other := by
  simp only [objectOf?, get_write_of_ne r h change hne]

/-- A new record leaves the object. -/
theorem objectOf?_rewrite (change : ResourceRecord → ResourceRecord) (other : Handle) :
    (r.write h fun x => { x with record := change x.record }).objectOf? other =
      r.objectOf? other := by
  by_cases heq : other = h
  · subst heq
    simp only [objectOf?, get_write_self]
    cases r.get other <;> rfl
  · exact objectOf?_write_of_ne heq

theorem record_write_of_get {x : Resource} (hx : r.get h = .ok x) :
    (r.write h change).record h = (change x).record := by
  apply record_of_get
  rw [get_write_self, hx]
  rfl

theorem objectOf?_write_of_get {x : Resource} (hx : r.get h = .ok x) :
    (r.write h change).objectOf? h = (change x).object := by
  apply objectOf?_of_get
  rw [get_write_self, hx]
  rfl

end Written

theorem create_of_isRegistered (hh : r.IsRegistered h) (object : ObjectId)
    (record : ResourceRecord) :
    r.create h object record = .ok (r.write h fun _ => ⟨some object, record⟩) := by
  obtain ⟨x, hx⟩ := hh
  simp only [create, hx]
  rfl

theorem changeRecord_of_isRegistered (hh : r.IsRegistered h)
    (change : ResourceRecord → ResourceRecord) :
    r.changeRecord h change =
      .ok (r.write h fun x => { x with record := change x.record }) := by
  obtain ⟨x, hx⟩ := hh
  simp only [changeRecord, hx]
  rfl

theorem addPointer_vertexArray {v : VertexArrayRecord} (hx : r.get h = .ok x)
    (hrecord : x.record = .vertexArray v) (buffer : Handle) (pointer : PointerRecord) :
    r.addPointer h buffer pointer =
      r.changeRecord h fun _ => .vertexArray (v.add buffer pointer) := by
  simp only [addPointer, hx, bind, Except.bind, hrecord]
  rfl

theorem addPointer_of_ne (hx : r.get h = .ok x) (hrecord : ∀ v, x.record ≠ .vertexArray v)
    (buffer : Handle) (pointer : PointerRecord) : r.addPointer h buffer pointer = .ok r := by
  simp only [addPointer, hx, bind, Except.bind]
  rfl

section Written

variable {object : ObjectId} {record : ResourceRecord} {change : ResourceRecord → ResourceRecord}
  {r' : Registry}

theorem create_eq_ok (hr : r.create h object record = .ok r') :
    r.IsRegistered h ∧ r' = r.write h fun _ => ⟨some object, record⟩ := by
  obtain ⟨x, hx, ⟨⟩⟩ := bind_eq_ok_iff.mp hr
  exact ⟨⟨x, hx⟩, rfl⟩

theorem changeRecord_eq_ok (hr : r.changeRecord h change = .ok r') :
    r.IsRegistered h ∧ r' = r.write h fun x => { x with record := change x.record } := by
  obtain ⟨x, hx, ⟨⟩⟩ := bind_eq_ok_iff.mp hr
  exact ⟨⟨x, hx⟩, rfl⟩

theorem record_of_create (hr : r.create h object record = .ok r') (other : Handle) :
    r'.record other = if other = h then record else r.record other := by
  obtain ⟨⟨x, hx⟩, rfl⟩ := create_eq_ok hr
  split
  · next heq =>
      rw [heq, Registry.record, get_write_self, hx]
      rfl
  · next hne => exact record_write_of_ne _ _ _ hne

theorem record_of_changeRecord (hr : r.changeRecord h change = .ok r') (other : Handle) :
    r'.record other = if other = h then change (r.record h) else r.record other := by
  obtain ⟨⟨x, hx⟩, rfl⟩ := changeRecord_eq_ok hr
  split
  · next heq =>
      rw [heq, record_of_get hx, Registry.record, get_write_self, hx]
      rfl
  · next hne => exact record_write_of_ne _ _ _ hne

end Written

/-- What a command does to a registry: it writes nothing, or the record of one resource, which it
does not unset. -/
inductive Step (r : Registry) : Option Handle → Registry → Prop where
  | none : Step r none r
  | write {h : Handle} (change : Resource → Resource) (hh : r.IsRegistered h)
      (hset : ∀ x, r.get h = .ok x → (change x).record ≠ .unset) :
      Step r (some h) (r.write h change)

namespace Step

variable {written : Option Handle} {r' : Registry}

theorem isCreated (hstep : r.Step written r') (hh : r.IsCreated h) : r'.IsCreated h := by
  cases hstep with
  | none => exact hh
  | write change _ hset => exact hh.write hset

theorem isCreated_written (hstep : r.Step (some h) r') : r'.IsCreated h := by
  cases hstep with
  | write change hh hset => exact hh.isCreated_write hset

theorem record_eq (hstep : r.Step written r') (hne : written ≠ some h) :
    r'.record h = r.record h := by
  cases hstep with
  | none => rfl
  | @write h' change _ _ =>
      exact record_write_of_ne _ _ _ fun heq => hne (congrArg some heq.symm)

theorem size_eq (hstep : r.Step written r') : r'.size = r.size := by
  cases hstep with
  | none => rfl
  | write change _ _ => exact size_write _ _ _

theorem mem_dirty (hstep : r.Step written r') :
    h ∈ r'.dirty.keys ↔ written = some h ∨ h ∈ r.dirty.keys := by
  cases hstep with
  | none => simp
  | @write h' change _ _ =>
      rw [mem_dirty_write, Option.some.injEq]
      exact or_congr_left eq_comm

theorem ascending (hstep : r.Step written r') (hr : r.dirty.Ascending) : r'.dirty.Ascending := by
  cases hstep with
  | none => exact hr
  | @write h' change _ _ => exact hr.insert h' ()

end Step

section Register

variable {uid : Nat} {r' : Registry}

theorem register_eq_ok_iff : r.register uid = .ok (h, r') ↔
    uid = r.size ∧ h = ⟨uid⟩ ∧ r' = { r with resources := r.resources ++ [{}] } := by
  simp only [register]
  split
  · next hu => simp [hu, eq_comm]
  · next hu => simp [hu]

theorem get_register (hr : r.register uid = .ok (h, r')) (other : Handle) :
    r'.get other = if other = h then .ok {} else r.get other := by
  obtain ⟨rfl, rfl, rfl⟩ := register_eq_ok_iff.mp hr
  obtain ⟨j⟩ := other
  simp only [get, size, List.getElem?_append, Handle.mk.injEq]
  rcases Nat.lt_trichotomy j r.resources.length with hlt | heq | hgt
  · rw [if_pos hlt, if_neg (Nat.ne_of_lt hlt)]
  · subst heq
    simp
  · have hne : j ≠ r.resources.length := by omega
    have hout : r.resources[j]? = none := List.getElem?_eq_none (by omega)
    have hsingle : ([{}] : List Resource)[j - r.resources.length]? = none :=
      List.getElem?_eq_none (by simp; omega)
    rw [if_neg (by omega), if_neg hne, hsingle, hout]

theorem get_register_eq_ok_iff (hr : r.register uid = .ok (h, r')) {y : Resource} :
    r'.get other = .ok y ↔ (other = h ∧ y = {}) ∨ (other ≠ h ∧ r.get other = .ok y) := by
  rw [get_register hr]
  by_cases heq : other = h <;> simp [heq, eq_comm]

theorem get_of_register (hr : r.register uid = .ok (h, r')) :
    r.get h = .error (.unknown h.index) := by
  obtain ⟨rfl, rfl, -⟩ := register_eq_ok_iff.mp hr
  have hout : r.resources[r.size]? = none := List.getElem?_eq_none (Nat.le_refl _)
  simp only [get, hout]

theorem get_register_of_get (hr : r.register uid = .ok (h, r')) (hx : r.get other = .ok x) :
    r'.get other = .ok x := by
  rw [get_register hr, if_neg ?_, hx]
  rintro rfl
  cases hx.symm.trans (get_of_register hr)

theorem record_register (hr : r.register uid = .ok (h, r')) (other : Handle) :
    r'.record other = r.record other := by
  simp only [record, get_register hr]
  by_cases heq : other = h
  · subst heq
    simp only [if_true, get_of_register hr]
  · simp only [heq, if_false]

theorem dirty_register (hr : r.register uid = .ok (h, r')) : r'.dirty = r.dirty := by
  obtain ⟨-, -, rfl⟩ := register_eq_ok_iff.mp hr
  rfl

end Register

end Registry

end GlPlayback
