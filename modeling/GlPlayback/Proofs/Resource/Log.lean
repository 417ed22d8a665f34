import GlPlayback.Proofs.Resource.Registry
import Mathlib.Data.List.Induction

/-!
The registry and the log of what was asked of it. From the log alone follows which requests are
granted, and from those what the registry holds: resources are numbered without gaps, the last write
to a resource counts, and a change is reported once.
-/
namespace GlPlayback

namespace Registry

/-- What can be asked of a registry that changes it. -/
inductive Request where
  | register (uid : Nat)
  | create (h : Handle) (object : ObjectId) (record : ResourceRecord)
  | setRecord (h : Handle) (record : ResourceRecord)
  | markDirty (h : Handle)
  | takeDirty
  deriving DecidableEq

inductive Reply where
  | registered (h : Handle)
  | done
  | taken (handles : List Handle)
  | refused (error : RegistryError)

/-- The reply to a request that changes the registry or fails. -/
def settle (r : Registry) : Except RegistryError Registry → Reply × Registry
  | .ok r' => (.done, r')
  | .error error => (.refused error, r)

def perform (r : Registry) : Request → Reply × Registry
  | .register uid =>
      match r.register uid with
      | .ok (h, r') => (.registered h, r')
      | .error error => (.refused error, r)
  | .create h object record => r.settle (r.create h object record)
  | .setRecord h record => r.settle (r.setRecord h record)
  | .markDirty h => (.done, r.markDirty h)
  | .takeDirty => (.taken r.takeDirty.1, r.takeDirty.2)

/-- The registry behind a log. -/
def after (r : Registry) (log : List Request) : Registry :=
  log.foldl (fun r request => (r.perform request).2) r

namespace Request

/-- Whether a request can be granted while so many resources are registered. -/
def IsGranted (registered : Nat) : Request → Prop
  | register uid => uid = registered
  | create h _ _ | setRecord h _ => h.index < registered
  | markDirty _ | takeDirty => True

instance (registered : Nat) : DecidablePred (IsGranted registered)
  | register uid => inferInstanceAs (Decidable (uid = registered))
  | create h _ _ => inferInstanceAs (Decidable (h.index < registered))
  | setRecord h _ => inferInstanceAs (Decidable (h.index < registered))
  | markDirty _ => isTrue trivial
  | takeDirty => isTrue trivial

def isRegistration : Request → Bool
  | register _ => true
  | _ => false

/-- The object that a request puts behind a handle. -/
def object? (h : Handle) : Request → Option ObjectId
  | create h' object _ => if h' = h then some object else none
  | _ => none

/-- The record that a request gives to a handle. -/
def record? (h : Handle) : Request → Option ResourceRecord
  | create h' _ record | setRecord h' record => if h' = h then some record else none
  | _ => none

/-- The request says of the handle that its record changed. -/
def Marks (h : Handle) : Request → Prop
  | create h' _ _ | setRecord h' _ | markDirty h' => h' = h
  | _ => False

end Request

section Log

open Request

/-- How many registrations a log holds. -/
def registrations (log : List Request) : Nat :=
  log.countP isRegistration

/-- The requests of a log that are granted, each in view of those before it. -/
def granted (log : List Request) : List Request :=
  log.foldl (fun done request =>
    if request.IsGranted (registrations done) then done ++ [request] else done) []

def lastObject? (h : Handle) (log : List Request) : Option ObjectId :=
  (log.filterMap (object? h)).getLast?

def lastRecord? (h : Handle) (log : List Request) : Option ResourceRecord :=
  (log.filterMap (record? h)).getLast?

/-- The handle was marked, and the marks were not taken since. -/
def IsMarked (h : Handle) (log : List Request) : Prop :=
  ∃ before request later, log = before ++ request :: later ∧ request.Marks h ∧
    Request.takeDirty ∉ later

variable {log : List Request} {request : Request} {h : Handle}

theorem granted_concat (log : List Request) (request : Request) :
    granted (log ++ [request]) =
      if request.IsGranted (registrations (granted log)) then granted log ++ [request]
      else granted log :=
  List.foldl_concat _ _ _ _

theorem registrations_concat (log : List Request) (request : Request) :
    registrations (log ++ [request]) =
      registrations log + if request.isRegistration then 1 else 0 := by
  rw [registrations, List.countP_append, List.countP_singleton]
  rfl

theorem lastObject?_concat (h : Handle) (log : List Request) (request : Request) :
    lastObject? h (log ++ [request]) = (request.object? h).or (lastObject? h log) := by
  rw [lastObject?, List.filterMap_append, List.getLast?_append, lastObject?]
  cases hobject : request.object? h <;> simp [hobject]

theorem lastRecord?_concat (h : Handle) (log : List Request) (request : Request) :
    lastRecord? h (log ++ [request]) = (request.record? h).or (lastRecord? h log) := by
  rw [lastRecord?, List.filterMap_append, List.getLast?_append, lastRecord?]
  cases hrecord : request.record? h <;> simp [hrecord]

theorem not_isMarked_nil (h : Handle) : ¬ IsMarked h [] := by
  rintro ⟨before, request, later, hlog, -⟩
  exact List.append_ne_nil_of_right_ne_nil before (List.cons_ne_nil _ _) hlog.symm

theorem isMarked_concat : IsMarked h (log ++ [request]) ↔
    request.Marks h ∨ request ≠ .takeDirty ∧ IsMarked h log := by
  constructor
  · rintro ⟨before, marking, later, hlog, hmarks, htaken⟩
    rcases List.eq_nil_or_concat' later with rfl | ⟨later, last, rfl⟩
    · obtain ⟨-, heq⟩ := List.append_inj' hlog rfl
      cases heq
      exact .inl hmarks
    · rw [← List.cons_append, ← List.append_assoc] at hlog
      obtain ⟨rfl, heq⟩ := List.append_inj' hlog rfl
      cases heq
      rw [List.mem_append, not_or] at htaken
      exact .inr ⟨fun h => htaken.2 (List.mem_singleton.mpr h.symm),
        before, marking, later, rfl, hmarks, htaken.1⟩
  · rintro (hmarks | ⟨hne, before, marking, later, rfl, hmarks, htaken⟩)
    · exact ⟨log, request, [], rfl, hmarks, List.not_mem_nil⟩
    · refine ⟨before, marking, later ++ [request], by simp, hmarks, ?_⟩
      rw [List.mem_append, not_or, List.mem_singleton]
      exact ⟨htaken, hne.symm⟩

end Log

/-- The registry holds what was granted. -/
structure Reflects (r : Registry) (log : List Request) : Prop where
  size_eq : r.size = registrations log
  object_eq : ∀ h, r.objectOf? h = lastObject? h log
  record_eq : ∀ h, r.record h = (lastRecord? h log).getD .unset
  mem_dirty_iff : ∀ h, h ∈ r.dirty.keys ↔ IsMarked h log
  ascending : r.dirty.Ascending

variable {r r' : Registry} {log : List Request}

section Writes

variable {h : Handle} {uid : Nat} {object : ObjectId} {record : ResourceRecord}

theorem get_of_isRegistered (hh : h.index < r.size) :
    r.get h = .ok ⟨r.objectOf? h, r.record h⟩ := by
  obtain ⟨x, hx⟩ := isRegistered_iff.mpr hh
  rw [objectOf?_of_get hx, record_of_get hx, hx]

theorem get_of_not_isRegistered (hh : ¬ h.index < r.size) :
    r.get h = .error (.unknown h.index) := by
  rw [get, List.getElem?_eq_none (Nat.not_lt.mp hh)]

theorem perform_register (r : Registry) (uid : Nat) : r.perform (.register uid) =
    if uid = r.size then (.registered ⟨uid⟩, { r with resources := r.resources ++ [{}] })
    else (.refused (.desync r.size uid), r) := by
  rw [perform, register]
  by_cases huid : uid = r.size
  · rw [if_pos huid, if_pos huid]
  · rw [if_neg huid, if_neg huid]

theorem objectOf?_register (hr : r.register uid = .ok (h, r')) (other : Handle) :
    r'.objectOf? other = r.objectOf? other := by
  simp only [objectOf?, get_register hr]
  by_cases heq : other = h
  · subst heq
    simp only [if_true, get_of_register hr]
  · simp only [heq, if_false]

theorem objectOf?_of_create (hr : r.create h object record = .ok r') (other : Handle) :
    r'.objectOf? other = if other = h then some object else r.objectOf? other := by
  obtain ⟨⟨x, hx⟩, rfl⟩ := create_eq_ok hr
  split
  · next heq => rw [heq, objectOf?_write_of_get hx]
  · next hne => exact objectOf?_write_of_ne hne

theorem objectOf?_of_changeRecord {change : ResourceRecord → ResourceRecord}
    (hr : r.changeRecord h change = .ok r') (other : Handle) :
    r'.objectOf? other = r.objectOf? other := by
  obtain ⟨-, rfl⟩ := changeRecord_eq_ok hr
  exact objectOf?_rewrite change other

end Writes

namespace Reflects

variable {h : Handle} {uid : Nat} {object : ObjectId} {record : ResourceRecord}

theorem empty : Reflects {} [] where
  size_eq := rfl
  object_eq _ := rfl
  record_eq _ := rfl
  mem_dirty_iff h := iff_of_false List.not_mem_nil (not_isMarked_nil h)
  ascending := Table.ascending_empty

theorem register (hr : r.Reflects log) (hregister : r.register uid = .ok (h, r')) :
    r'.Reflects (log ++ [.register uid]) where
  size_eq := by
    obtain ⟨-, -, rfl⟩ := register_eq_ok_iff.mp hregister
    rw [registrations_concat, ← hr.size_eq]
    exact List.length_append
  object_eq other := by
    rw [objectOf?_register hregister, hr.object_eq, lastObject?_concat]
    rfl
  record_eq other := by
    rw [record_register hregister, hr.record_eq, lastRecord?_concat]
    rfl
  mem_dirty_iff other := by
    rw [dirty_register hregister, hr.mem_dirty_iff, isMarked_concat]
    simp [Request.Marks]
  ascending := by
    rw [dirty_register hregister]
    exact hr.ascending

theorem create (hr : r.Reflects log) (hcreate : r.create h object record = .ok r') :
    r'.Reflects (log ++ [.create h object record]) where
  size_eq := by
    obtain ⟨-, rfl⟩ := create_eq_ok hcreate
    rw [registrations_concat, size_write, hr.size_eq]
    rfl
  object_eq other := by
    rw [objectOf?_of_create hcreate, hr.object_eq, lastObject?_concat, Request.object?]
    by_cases heq : other = h
    · simp [heq]
    · simp [heq, Ne.symm heq]
  record_eq other := by
    rw [record_of_create hcreate, hr.record_eq, lastRecord?_concat, Request.record?]
    by_cases heq : other = h
    · simp [heq]
    · simp [heq, Ne.symm heq]
  mem_dirty_iff other := by
    obtain ⟨-, rfl⟩ := create_eq_ok hcreate
    rw [mem_dirty_write, hr.mem_dirty_iff, isMarked_concat]
    simp [Request.Marks, eq_comm]
  ascending := by
    obtain ⟨-, rfl⟩ := create_eq_ok hcreate
    exact hr.ascending.insert h ()

theorem setRecord (hr : r.Reflects log) (hset : r.setRecord h record = .ok r') :
    r'.Reflects (log ++ [.setRecord h record]) where
  size_eq := by
    obtain ⟨-, rfl⟩ := changeRecord_eq_ok hset
    rw [registrations_concat, size_write, hr.size_eq]
    rfl
  object_eq other := by
    rw [objectOf?_of_changeRecord hset, hr.object_eq, lastObject?_concat]
    rfl
  record_eq other := by
    rw [record_of_changeRecord hset, hr.record_eq, lastRecord?_concat, Request.record?]
    by_cases heq : other = h
    · simp [heq]
    · simp [heq, Ne.symm heq]
  mem_dirty_iff other := by
    obtain ⟨-, rfl⟩ := changeRecord_eq_ok hset
    rw [mem_dirty_write, hr.mem_dirty_iff, isMarked_concat]
    simp [Request.Marks, eq_comm]
  ascending := by
    obtain ⟨-, rfl⟩ := changeRecord_eq_ok hset
    exact hr.ascending.insert h ()

theorem markDirty (hr : r.Reflects log) (h : Handle) :
    (r.markDirty h).Reflects (log ++ [.markDirty h]) where
  size_eq := by
    rw [registrations_concat, ← hr.size_eq]
    rfl
  object_eq other := by
    rw [lastObject?_concat]
    exact hr.object_eq other
  record_eq other := by
    rw [lastRecord?_concat]
    exact hr.record_eq other
  mem_dirty_iff other := by
    rw [isMarked_concat, ← hr.mem_dirty_iff]
    simp [Registry.markDirty, Table.mem_keys_insert, Request.Marks, eq_comm]
  ascending := hr.ascending.insert h ()

theorem takeDirty (hr : r.Reflects log) :
    r.takeDirty.2.Reflects (log ++ [.takeDirty]) where
  size_eq := by
    rw [registrations_concat, ← hr.size_eq]
    rfl
  object_eq other := by
    rw [lastObject?_concat]
    exact hr.object_eq other
  record_eq other := by
    rw [lastRecord?_concat]
    exact hr.record_eq other
  mem_dirty_iff other := by
    rw [isMarked_concat]
    exact iff_of_false List.not_mem_nil fun h => h.elim id fun h => h.1 rfl
  ascending := Table.ascending_empty

/-- A granted request is done, and the registry reflects it too. -/
theorem perform (hr : r.Reflects log) {request : Request}
    (hgranted : request.IsGranted (registrations log)) :
    (r.perform request).2.Reflects (log ++ [request]) ∧
      ∀ error, (r.perform request).1 ≠ .refused error := by
  rw [← hr.size_eq] at hgranted
  cases request with
  | register uid =>
      have hregister : r.register uid = .ok (⟨uid⟩, _) := if_pos hgranted
      rw [Registry.perform, hregister]
      exact ⟨hr.register hregister, nofun⟩
  | create h object record =>
      have hcreate := create_of_isRegistered (isRegistered_iff.mpr hgranted) object record
      rw [Registry.perform, hcreate]
      exact ⟨hr.create hcreate, nofun⟩
  | setRecord h record =>
      have hset := changeRecord_of_isRegistered (isRegistered_iff.mpr hgranted) fun _ => record
      rw [Registry.perform, Registry.setRecord, hset]
      exact ⟨hr.setRecord hset, nofun⟩
  | markDirty h => exact ⟨hr.markDirty h, nofun⟩
  | takeDirty => exact ⟨hr.takeDirty, nofun⟩

/-- A request that cannot be granted leaves the registry as it is. -/
theorem refuse (hr : r.Reflects log) {request : Request}
    (hgranted : ¬ request.IsGranted (registrations log)) :
    ∃ error, r.perform request = (.refused error, r) := by
  rw [← hr.size_eq] at hgranted
  cases request with
  | register uid => exact ⟨_, (perform_register r uid).trans (if_neg hgranted)⟩
  | create h object record =>
      refine ⟨.unknown h.index, ?_⟩
      rw [Registry.perform, Registry.create, get_of_not_isRegistered hgranted]
      rfl
  | setRecord h record =>
      refine ⟨.unknown h.index, ?_⟩
      rw [Registry.perform, Registry.setRecord, changeRecord, get_of_not_isRegistered hgranted]
      rfl
  | markDirty | takeDirty => exact absurd trivial hgranted

end Reflects

theorem after_reflects (log : List Request) : (after {} log).Reflects (granted log) := by
  induction log using List.reverseRecOn with
  | nil => exact .empty
  | append_singleton log request ih =>
      rw [after, List.foldl_concat, granted_concat]
      by_cases hgranted : request.IsGranted (registrations (granted log))
      · rw [if_pos hgranted]
        exact (ih.perform hgranted).1
      · obtain ⟨error, hrefused⟩ := ih.refuse hgranted
        rw [after] at ih hrefused
        rw [if_neg hgranted, hrefused]
        exact ih

end Registry

end GlPlayback
