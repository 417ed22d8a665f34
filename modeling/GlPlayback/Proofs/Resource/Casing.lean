import GlPlayback.Resource.Registry
import GlPlayback.Text.AsciiCase
import Mathlib.Data.List.Basic

/-!
The letter case of the types that are written into records of attribute pointers. The registry works
the same whatever it is: it stores these texts and never looks at them.
-/
namespace GlPlayback

def PointerRecord.lowered (p : PointerRecord) : PointerRecord :=
  { p with type := Text.lowerAscii p.type }

def PointerGroup.lowered (group : PointerGroup) : PointerGroup :=
  { group with pointers := group.pointers.map PointerRecord.lowered }

namespace VertexArrayRecord

def lowered (v : VertexArrayRecord) : VertexArrayRecord :=
  ⟨v.groups.map PointerGroup.lowered⟩

theorem addTo_lowered (buffer : Handle) (pointer : PointerRecord) (groups : List PointerGroup) :
    addTo buffer pointer.lowered (groups.map PointerGroup.lowered) =
      (addTo buffer pointer groups).map PointerGroup.lowered := by
  induction groups with
  | nil => rfl
  | cons group rest ih =>
      by_cases hbuffer : group.buffer = buffer
      · simp [addTo, hbuffer, PointerGroup.lowered]
      · have hlowered : group.lowered.buffer ≠ buffer := hbuffer
        simp [addTo, hbuffer, hlowered, ih]

theorem add_lowered (v : VertexArrayRecord) (buffer : Handle) (pointer : PointerRecord) :
    v.lowered.add buffer pointer.lowered = (v.add buffer pointer).lowered :=
  congrArg mk (addTo_lowered buffer pointer v.groups)

end VertexArrayRecord

namespace ResourceRecord

/-- The record with the types of its pointers, if any, in lower case. -/
def lowered : ResourceRecord → ResourceRecord
  | vertexArray v => .vertexArray v.lowered
  | record => record

@[simp] theorem kind?_lowered (record : ResourceRecord) : record.lowered.kind? = record.kind? := by
  cases record <;> rfl

@[simp] theorem asProgram?_lowered (record : ResourceRecord) :
    record.lowered.asProgram? = record.asProgram? := by
  cases record <;> rfl

@[simp] theorem asBuffer?_lowered (record : ResourceRecord) :
    record.lowered.asBuffer? = record.asBuffer? := by
  cases record <;> rfl

end ResourceRecord

def Resource.lowered (resource : Resource) : Resource :=
  { resource with record := resource.record.lowered }

namespace Registry

variable (r : Registry) (h : Handle)

def lowered : Registry :=
  { r with resources := r.resources.map Resource.lowered }

@[simp] theorem size_lowered : r.lowered.size = r.size :=
  List.length_map _

@[simp] theorem handle_lowered (raw : Int) : r.lowered.handle raw = r.handle raw := by
  simp only [handle, size_lowered]

@[simp] theorem optionalHandle_lowered (raw : Int) :
    r.lowered.optionalHandle raw = r.optionalHandle raw := by
  simp only [optionalHandle, handle_lowered]

theorem get_lowered : r.lowered.get h = (r.get h).map Resource.lowered := by
  simp only [get, lowered, List.getElem?_map]
  cases r.resources[h.index]? <;> rfl

@[simp] theorem object_lowered (kind : ResourceKind) :
    r.lowered.object h kind = r.object h kind := by
  simp only [object, get_lowered]
  cases r.get h with
  | error e => rfl
  | ok x => simp [Except.map, bind, Except.bind, Resource.lowered]

variable {r h}

theorem write_lowered {change change' : Resource → Resource}
    (hchange : ∀ x, change' x.lowered = (change x).lowered) :
    r.lowered.write h change' = (r.write h change).lowered := by
  have hmodify : (r.resources.map Resource.lowered).modify h.index change' =
      (r.resources.modify h.index change).map Resource.lowered := by
    refine List.ext_getElem? fun i => ?_
    simp only [List.getElem?_modify, List.getElem?_map]
    cases r.resources[i]? with
    | none => rfl
    | some x => by_cases hi : h.index = i <;> simp [hi, hchange]
  simp only [write, markDirty, lowered, hmodify]

theorem create_lowered (object : ObjectId) (record : ResourceRecord) :
    r.lowered.create h object record.lowered = (r.create h object record).map lowered := by
  simp only [create, get_lowered]
  cases r.get h with
  | error e => rfl
  | ok x => exact congrArg Except.ok (write_lowered fun _ => rfl)

theorem changeRecord_lowered {change change' : ResourceRecord → ResourceRecord}
    (hchange : ∀ record, change' record.lowered = (change record).lowered) :
    r.lowered.changeRecord h change' = (r.changeRecord h change).map lowered := by
  simp only [changeRecord, get_lowered]
  cases r.get h with
  | error e => rfl
  | ok x =>
      refine congrArg Except.ok (write_lowered fun resource => ?_)
      simp only [Resource.lowered, hchange]

theorem setRecord_lowered (record : ResourceRecord) :
    r.lowered.setRecord h record.lowered = (r.setRecord h record).map lowered :=
  changeRecord_lowered fun _ => rfl

theorem addPointer_lowered (buffer : Handle) (pointer : PointerRecord) :
    r.lowered.addPointer h buffer pointer.lowered = (r.addPointer h buffer pointer).map lowered := by
  simp only [addPointer, get_lowered]
  cases hx : r.get h with
  | error e => rfl
  | ok x =>
      simp only [Except.map, bind, Except.bind, Resource.lowered]
      cases hrecord : x.record with
      | vertexArray v =>
          simp only [ResourceRecord.lowered, VertexArrayRecord.add_lowered]
          exact setRecord_lowered (.vertexArray (v.add buffer pointer))
      | _ => rfl

end Registry

end GlPlayback
