import GlPlayback.Resource.Record

/-!
The registry numbers resources in the order of their registration and keeps, for each of them,
the object behind it and its record. It remembers which records changed.
-/
namespace GlPlayback

inductive RegistryError where
  /-- A registration out of order. -/
  | desync (expected got : Nat)
  | unknown (raw : Int)
  | notCreated (handle : Handle)
  | wrongKind (handle : Handle) (expected found : ResourceKind)
  deriving DecidableEq, Repr

def RegistryError.message : RegistryError → String
  | desync expected got =>
      "registration out of order: expected uid " ++ toString expected ++ ", got " ++ toString got
  | unknown raw => "unknown resource handle " ++ toString raw
  | notCreated handle => "resource " ++ handle.text ++ " has not been created"
  | wrongKind handle expected found =>
      "resource " ++ handle.text ++ " is a " ++ found.name ++ ", expected a " ++ expected.name

structure Resource where
  object : Option ObjectId := none
  record : ResourceRecord := .unset
  deriving DecidableEq, Repr

structure Registry where
  /-- The resource with handle `n` is the `n`-th. -/
  resources : List Resource := []
  /-- Handles whose records changed, in order and each once. -/
  dirty : Table Handle Unit := ∅
  deriving DecidableEq, Repr

namespace Registry

def size (r : Registry) : Nat :=
  r.resources.length

/-- Registers the next resource, whose number the host has to know. -/
def register (r : Registry) (uid : Nat) : Except RegistryError (Handle × Registry) :=
  if uid = r.size then .ok (⟨uid⟩, { r with resources := r.resources ++ [{}] })
  else .error (.desync r.size uid)

/-- The handle that a number in a command means. -/
def handle (r : Registry) (raw : Int) : Except RegistryError Handle :=
  if 0 ≤ raw ∧ raw < r.size then .ok ⟨raw.toNat⟩ else .error (.unknown raw)

/-- Like `handle`, with negative numbers for none. -/
def optionalHandle (r : Registry) (raw : Int) : Except RegistryError (Option Handle) :=
  if raw < 0 then .ok none else (r.handle raw).map some

def get (r : Registry) (h : Handle) : Except RegistryError Resource :=
  match r.resources[h.index]? with
  | some resource => .ok resource
  | none => .error (.unknown h.index)

/-- The object behind a handle, which has to be of the given kind. -/
def object (r : Registry) (h : Handle) (kind : ResourceKind) :
    Except RegistryError ObjectId := do
  let resource ← r.get h
  match resource.record.kind?, resource.object with
  | none, _ => throw (.notCreated h)
  | some found, object =>
      if found ≠ kind then throw (.wrongKind h kind found)
      match object with
      | some id => return id
      | none => throw (.notCreated h)

def markDirty (r : Registry) (h : Handle) : Registry :=
  { r with dirty := r.dirty.insert h () }

/-- Writes a resource and remembers that its record changed. -/
def write (r : Registry) (h : Handle) (change : Resource → Resource) : Registry :=
  { r with resources := r.resources.modify h.index change }.markDirty h

def create (r : Registry) (h : Handle) (object : ObjectId) (record : ResourceRecord) :
    Except RegistryError Registry := do
  let _ ← r.get h
  return r.write h fun _ => ⟨some object, record⟩

def changeRecord (r : Registry) (h : Handle) (change : ResourceRecord → ResourceRecord) :
    Except RegistryError Registry := do
  let _ ← r.get h
  return r.write h fun resource => { resource with record := change resource.record }

def setRecord (r : Registry) (h : Handle) (record : ResourceRecord) :
    Except RegistryError Registry :=
  r.changeRecord h fun _ => record

/-- Adds a pointer to the record of a vertex array. A resource of another kind is passed over. -/
def addPointer (r : Registry) (array buffer : Handle) (pointer : PointerRecord) :
    Except RegistryError Registry := do
  match (← r.get array).record with
  | .vertexArray v => r.setRecord array (.vertexArray (v.add buffer pointer))
  | _ => return r

/-- The handles whose records changed since this was last asked, in order. -/
def takeDirty (r : Registry) : List Handle × Registry :=
  (r.dirty.keys, { r with dirty := ∅ })

end Registry

end GlPlayback
