import GlPlayback.Proofs.Interpreter.BlockRecords

/-!
Names are looked up alike in the record of a program and in the context: loose uniforms by the names
they go by, blocks that have members, and attributes. The record lists what the context has in the
same order, but for the members of blocks, which have no location and answer to no lookup.
-/
namespace GlPlayback

theorem LinkedUniform.map_location_looseRecord? (u : LinkedUniform) :
    u.looseRecord?.map (·.location) = u.place.location?.map some := by
  rw [looseRecord?, Option.map_map]
  rfl

namespace ProgramObject

variable {p : ProgramObject} {name : String}

/-- The record that is found under a name is that of the first loose uniform that goes by it. -/
theorem find?_looseRecords (p : ProgramObject) (name : String) :
    (p.looseRecords.find? fun r => r.name == name || r.name == name ++ "[0]") =
      p.uniforms.findSome? fun u => if u.active.goesBy name then u.looseRecord? else none := by
  rw [looseRecords]
  induction p.uniforms with
  | nil => rfl
  | cons u rest ih =>
      rw [List.findSome?_cons, List.filterMap_cons, ← ih]
      cases hplace : u.place.location? with
      | none =>
          have hnone : u.looseRecord? = none := by rw [LinkedUniform.looseRecord?, hplace]; rfl
          rw [hnone, ite_self]
      | some location =>
          have hrecord : u.looseRecord? =
              some ⟨u.active.name, u.active.type.label, u.active.size, some location⟩ := by
            rw [LinkedUniform.looseRecord?, hplace]
            rfl
          rw [hrecord, List.find?_cons, ← ActiveVariable.goesBy]
          cases u.active.goesBy name <;> rfl

theorem find?_looseRecords_location (p : ProgramObject) (name : String) :
    (p.looseRecords.find? fun r => r.name == name || r.name == name ++ "[0]").map (·.location) =
      (p.uniformLocation? name).map some := by
  rw [find?_looseRecords, uniformLocation?, List.map_findSome?, List.map_findSome?]
  refine congrArg (List.findSome? · p.uniforms) (funext fun u => ?_)
  simp only [Function.comp_apply]
  split
  · exact u.map_location_looseRecord?
  · rfl

/-- A loose uniform is found under each name that it goes by. -/
theorem IsJoined.find?_looseRecords (hjoined : p.IsJoined) {u : LinkedUniform}
    (hu : u ∈ p.uniforms) {location : ObjectId} (hplace : u.place = .loose location)
    (hname : u.active.goesBy name) :
    (p.looseRecords.find? fun r => r.name == name || r.name == name ++ "[0]") =
      some ⟨u.active.name, u.active.type.label, u.active.size, some location⟩ := by
  have hrecord : u.looseRecord? =
      some ⟨u.active.name, u.active.type.label, u.active.size, some location⟩ := by
    rw [LinkedUniform.looseRecord?, hplace]
    rfl
  obtain ⟨start, loose, blocks, h⟩ := hjoined
  rw [h.uniforms] at hu
  rcases List.mem_append.mp hu with hu | hu
  · rw [ProgramObject.find?_looseRecords, h.uniforms, ← hrecord]
    exact Linking.findSome?_looseUniforms h.plain h.distinct hu hname (by rw [hrecord]; rfl) _
  · obtain ⟨index, offset, hmember, -⟩ := Linking.of_mem_memberUniforms hu
    cases hmember.symm.trans hplace

/-- The location that is recorded under a name, -1 if there is none, is that of the attribute. -/
theorem find?_attributeRecords_location (p : ProgramObject) (name : String) :
    (((p.attributes.map p.attributeRecord).find? fun r => r.name == name).map
      (·.location)).getD (-1) = p.attributeLocation name := by
  rw [List.find?_map, Option.map_map]
  have hsame : ((fun r : AttributeRecord => r.name == name) ∘ p.attributeRecord) =
      fun a => a.active.name == name := rfl
  rw [hsame]
  cases hfind : p.attributes.find? fun a => a.active.name == name with
  | none =>
      rw [attributeLocation, hfind]
      rfl
  | some a =>
      have hname : a.active.name = name := by simpa using List.find?_some hfind
      rw [← hname]
      rfl

/-- The block that is recorded under a name has the index of the block of that name. -/
theorem IsJoined.index_of_mem_blockRecords (hjoined : p.IsJoined) (hcounted : p.IsCounted)
    {record : BlockRecord} (hrecord : record ∈ p.blockRecords) :
    (p.blocks.findIdx? fun b => b.name == record.name).map UInt32.ofNat = some record.index := by
  obtain ⟨i, block, hblock, rfl⟩ := exists_of_mem_blockRecords hcounted hrecord
  obtain ⟨hi, hget⟩ := List.getElem?_eq_some_iff.mp hblock
  have hfind : (p.blocks.findIdx? fun b => b.name == block.name) = some i := by
    refine List.findIdx?_eq_some_iff_getElem.mpr ⟨hi, by simp [hget], fun j hj hsame => ?_⟩
    have hother : p.blocks[j]? = some p.blocks[j] := List.getElem?_eq_getElem (Nat.lt_trans hj hi)
    have heq := hjoined.index_of_name hother hblock (by simpa using hsame)
    exact absurd heq (Nat.ne_of_lt hj)
  rw [hfind]
  rfl

/-- A block that has members is recorded. -/
theorem IsJoined.exists_blockRecord (hjoined : p.IsJoined) (hcounted : p.IsCounted)
    {block : LinkedBlock} (hblock : block ∈ p.blocks) (hmembers : block.activeUniforms ≠ 0) :
    ∃ record ∈ p.blockRecords, record.name = block.name := by
  obtain ⟨i, hi⟩ := List.mem_iff_getElem?.mp hblock
  obtain ⟨location, loose, blocks, h⟩ := hjoined
  have hsome : p.membersOf i ≠ [] := by
    intro hnone
    have hlength := h.length_membersOf hi
    rw [hnone] at hlength
    exact hmembers hlength.symm
  refine ⟨p.blockRecord (UInt32.ofNat i) (p.membersOf i), ?_, ?_⟩
  · refine List.mem_flatMap.mpr ⟨(block, i), List.mem_zipIdx_iff_getElem?.mpr hi, ?_⟩
    rw [filled, if_neg hsome]
    exact List.mem_singleton_self _
  · rw [blockRecord, hcounted.toNat_index hi, hi]
    rfl

end ProgramObject

namespace Machine

variable {h : Handle} {id : ObjectId} {record : ProgramRecord} {p : ProgramObject}

end Machine

end GlPlayback
