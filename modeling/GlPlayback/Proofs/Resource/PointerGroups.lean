import GlPlayback.Resource.Record
import Mathlib.Data.List.Basic
import Mathlib.Data.List.Induction

/-!
The pointers that a vertex array's record holds, against the calls that set them. Whatever the
calls, each buffer has one group, the groups stand in the order in which their buffers were first
used, and each holds the pointers of its buffer in the order of the calls.
-/
namespace GlPlayback

/-- The pointers that were set while a buffer was bound, in order. -/
def pointersOf (buffer : Handle) (calls : List (Handle × PointerRecord)) : List PointerRecord :=
  (calls.filter (·.1 = buffer)).map Prod.snd

section Calls

variable {buffer : Handle} {calls : List (Handle × PointerRecord)} {p : PointerRecord}

theorem pointersOf_append (buffer : Handle) (calls more : List (Handle × PointerRecord)) :
    pointersOf buffer (calls ++ more) = pointersOf buffer calls ++ pointersOf buffer more := by
  rw [pointersOf, List.filter_append, List.map_append]
  rfl

theorem pointersOf_self (buffer : Handle) (p : PointerRecord) :
    pointersOf buffer [(buffer, p)] = [p] := by
  simp [pointersOf]

theorem pointersOf_of_not_mem (h : buffer ∉ calls.map Prod.fst) : pointersOf buffer calls = [] := by
  have hnone : calls.filter (·.1 = buffer) = [] := by
    rw [List.filter_eq_nil_iff]
    intro call hcall heq
    exact h (of_decide_eq_true heq ▸ List.mem_map_of_mem hcall)
  rw [pointersOf, hnone, List.map_nil]

end Calls

namespace PointerGroup

/-- The group with the pointers of more calls behind its own. -/
def extend (group : PointerGroup) (calls : List (Handle × PointerRecord)) : PointerGroup :=
  { group with pointers := group.pointers ++ pointersOf group.buffer calls }

theorem extend_append (group : PointerGroup) (calls more : List (Handle × PointerRecord)) :
    (group.extend calls).extend more = group.extend (calls ++ more) := by
  simp [extend, pointersOf_append]

theorem extend_own (group : PointerGroup) (p : PointerRecord) :
    group.extend [(group.buffer, p)] = { group with pointers := group.pointers ++ [p] } := by
  rw [extend, pointersOf_self]

theorem extend_other {group : PointerGroup} {buffer : Handle} (h : group.buffer ≠ buffer)
    (p : PointerRecord) : group.extend [(buffer, p)] = group := by
  rw [extend, pointersOf_of_not_mem (by simpa using h), List.append_nil]

end PointerGroup

namespace VertexArrayRecord

/-- All pointers of a record, each with the buffer that was bound. -/
def entries (v : VertexArrayRecord) : List (Handle × PointerRecord) :=
  v.groups.flatMap fun group => group.pointers.map (group.buffer, ·)

/-- The buffers that have a group. -/
def buffers (v : VertexArrayRecord) : List Handle :=
  v.groups.map PointerGroup.buffer

/-- The record after calls that each set a pointer while a buffer is bound. -/
def addAll (v : VertexArrayRecord) (calls : List (Handle × PointerRecord)) : VertexArrayRecord :=
  calls.foldl (fun v call => v.add call.1 call.2) v

variable {v : VertexArrayRecord} {buffer buffer' : Handle} {p p' : PointerRecord}
  {calls : List (Handle × PointerRecord)}

section Call

/-- Exactly one entry is added. -/
theorem entries_add (v : VertexArrayRecord) (buffer : Handle) (p : PointerRecord) :
    (v.add buffer p).entries.Perm ((buffer, p) :: v.entries) := by
  obtain ⟨groups⟩ := v
  simp only [add, entries]
  induction groups with
  | nil => exact .refl _
  | cons group rest ih =>
      rw [addTo]
      split
      · next heq =>
          simp only [List.flatMap_cons, List.map_append, List.map_cons, List.map_nil, heq,
            List.append_assoc]
          exact List.perm_middle
      · simp only [List.flatMap_cons]
        exact (ih.append_left _).trans List.perm_middle

theorem add_ne (v : VertexArrayRecord) (buffer : Handle) (p : PointerRecord) :
    v.add buffer p ≠ v := by
  intro h
  have hlength := (entries_add v buffer p).length_eq
  rw [h, List.length_cons] at hlength
  omega

theorem add_inj (h : v.add buffer p = v.add buffer' p') : buffer = buffer' ∧ p = p' := by
  have hperm := (entries_add v buffer p).symm.trans (h ▸ entries_add v buffer' p')
  have hcount := hperm.count_eq (buffer, p)
  simp only [List.count_cons, beq_self_eq_true, if_true, Nat.add_left_cancel_iff] at hcount
  split at hcount
  · next heq => exact Prod.mk.inj (eq_of_beq heq).symm
  · cases hcount

theorem buffers_add (v : VertexArrayRecord) (buffer : Handle) (p : PointerRecord) :
    (v.add buffer p).buffers = v.buffers ++ if buffer ∈ v.buffers then [] else [buffer] := by
  obtain ⟨groups⟩ := v
  simp only [add, buffers]
  induction groups with
  | nil => rfl
  | cons group rest ih =>
      rw [addTo]
      split
      · next heq => simp [heq]
      · next hne => simp [ih, Ne.symm hne]

/-- The pointer goes to the group of its buffer, or to a new group behind the others. -/
theorem groups_add (hv : v.buffers.Nodup) (buffer : Handle) (p : PointerRecord) :
    (v.add buffer p).groups = v.groups.map (·.extend [(buffer, p)]) ++
      if buffer ∈ v.buffers then [] else [⟨buffer, [p]⟩] := by
  obtain ⟨groups⟩ := v
  simp only [add, buffers] at hv ⊢
  induction groups with
  | nil => rfl
  | cons group rest ih =>
      obtain ⟨hgroup, hrest⟩ := List.nodup_cons.mp hv
      rw [addTo]
      split
      · next heq =>
          subst heq
          have hothers : rest.map (·.extend [(group.buffer, p)]) = rest := by
            refine (List.map_congr_left fun other hother => ?_).trans (List.map_id _)
            refine PointerGroup.extend_other (fun heq => hgroup ?_) p
            exact heq ▸ List.mem_map_of_mem hother
          simp [hothers, PointerGroup.extend_own]
      · next hne => simp [ih hrest, PointerGroup.extend_other hne, Ne.symm hne]

end Call

section Calls

theorem addAll_append (v : VertexArrayRecord) (calls more : List (Handle × PointerRecord)) :
    v.addAll (calls ++ more) = (v.addAll calls).addAll more :=
  List.foldl_append

/-- The record groups the pointers of these calls. -/
structure Groups (v : VertexArrayRecord) (calls : List (Handle × PointerRecord)) : Prop where
  mem_buffers_iff (buffer : Handle) : buffer ∈ v.buffers ↔ buffer ∈ calls.map Prod.fst
  /-- The buffer of an earlier group was used before that of a later one. -/
  ordered : v.buffers.Pairwise fun a b =>
    (calls.map Prod.fst).idxOf a < (calls.map Prod.fst).idxOf b
  pointers_eq : ∀ group ∈ v.groups, group.pointers = pointersOf group.buffer calls

namespace Groups

theorem empty : Groups {} [] where
  mem_buffers_iff _ := .rfl
  ordered := .nil
  pointers_eq := nofun

theorem nodup (h : v.Groups calls) : v.buffers.Nodup := by
  refine h.ordered.imp fun hlt => ?_
  rintro rfl
  exact Nat.lt_irrefl _ hlt

theorem add (h : v.Groups calls) (buffer : Handle) (p : PointerRecord) :
    (v.add buffer p).Groups (calls ++ [(buffer, p)]) where
  mem_buffers_iff other := by
    rw [buffers_add, List.map_append, List.mem_append, List.mem_append, h.mem_buffers_iff]
    split
    · next hbuffer =>
        rw [h.mem_buffers_iff] at hbuffer
        have hother : other = buffer → other ∈ calls.map Prod.fst := fun heq => heq ▸ hbuffer
        simpa using hother
    · simp
  ordered := by
    have hbefore {a : Handle} (ha : a ∈ v.buffers) :
        ((calls ++ [(buffer, p)]).map Prod.fst).idxOf a = (calls.map Prod.fst).idxOf a := by
      rw [List.map_append, List.idxOf_append_of_mem ((h.mem_buffers_iff a).mp ha)]
    have hold : v.buffers.Pairwise fun a b => ((calls ++ [(buffer, p)]).map Prod.fst).idxOf a <
        ((calls ++ [(buffer, p)]).map Prod.fst).idxOf b :=
      h.ordered.imp_of_mem fun ha hb hlt => by rwa [hbefore ha, hbefore hb]
    rw [buffers_add]
    split
    · rwa [List.append_nil]
    · next hnew =>
        rw [h.mem_buffers_iff] at hnew
        refine List.pairwise_append.mpr ⟨hold, List.pairwise_singleton _ _, fun a ha b hb => ?_⟩
        obtain rfl := List.mem_singleton.mp hb
        rw [hbefore ha, List.map_append, List.idxOf_append_of_notMem hnew]
        exact Nat.lt_add_right _ (List.idxOf_lt_length_of_mem ((h.mem_buffers_iff a).mp ha))
  pointers_eq group hgroup := by
    rw [groups_add h.nodup, List.mem_append] at hgroup
    rcases hgroup with hold | hnew
    · obtain ⟨before, hbefore, rfl⟩ := List.mem_map.mp hold
      rw [PointerGroup.extend, h.pointers_eq before hbefore, pointersOf_append]
    · split at hnew
      · cases hnew
      · next hbuffer =>
          obtain rfl := List.mem_singleton.mp hnew
          rw [h.mem_buffers_iff] at hbuffer
          rw [pointersOf_append, pointersOf_of_not_mem hbuffer, pointersOf_self, List.nil_append]

end Groups

theorem groups_addAll (calls : List (Handle × PointerRecord)) :
    (addAll {} calls).Groups calls := by
  induction calls using List.reverseRecOn with
  | nil => exact .empty
  | append_singleton calls call ih =>
      rw [addAll_append]
      exact ih.add call.1 call.2

theorem entries_addAll (calls : List (Handle × PointerRecord)) :
    (addAll {} calls).entries.Perm calls := by
  induction calls using List.reverseRecOn with
  | nil => exact .refl _
  | append_singleton calls call ih =>
      rw [addAll_append]
      have hadd := (entries_add (addAll {} calls) call.1 call.2).trans (ih.cons call)
      exact hadd.trans (List.perm_append_singleton call calls).symm

/-- Further calls add to the groups that there are, and put new ones behind them. -/
theorem exists_groups_append (calls more : List (Handle × PointerRecord)) :
    ∃ added, (addAll {} (calls ++ more)).groups =
      (addAll {} calls).groups.map (·.extend more) ++ added := by
  induction more using List.reverseRecOn with
  | nil =>
      refine ⟨[], ?_⟩
      have hsame : (fun group : PointerGroup => group.extend []) = id :=
        funext fun group => congrArg (PointerGroup.mk group.buffer) (List.append_nil _)
      rw [hsame, List.map_id, List.append_nil, List.append_nil]
  | append_singleton more call ih =>
      obtain ⟨added, h⟩ := ih
      have hcalls : addAll {} (calls ++ (more ++ [call])) =
          (addAll {} (calls ++ more)).add call.1 call.2 := by
        rw [← List.append_assoc, addAll_append]
        rfl
      have hextend : (addAll {} calls).groups.map
            ((fun group => group.extend [call]) ∘ fun group => group.extend more) =
          (addAll {} calls).groups.map (·.extend (more ++ [call])) :=
        List.map_congr_left fun group _ => group.extend_append more [call]
      have hadd := groups_add (groups_addAll (calls ++ more)).nodup call.1 call.2
      rw [h, List.map_append, List.map_map, hextend, List.append_assoc] at hadd
      rw [hcalls]
      exact ⟨_, hadd⟩

end Calls

/-- A fresh record groups the pointers that it is told of by the buffers that were bound. Each of
these has one group, and the groups stand in the order in which their buffers were first used. A
group holds the pointers of its buffer in the order of the calls, so that there are as many entries
as calls. Further calls leave every group in its place and every pointer in its group. -/
theorem addAll_grouped (calls : List (Handle × PointerRecord)) :
    let v := addAll {} calls
    let used := calls.map Prod.fst
    v.buffers.Nodup ∧ (∀ buffer, buffer ∈ v.buffers ↔ buffer ∈ used) ∧
      v.buffers.Pairwise (fun a b => used.idxOf a < used.idxOf b) ∧
      (∀ group ∈ v.groups, group.pointers = pointersOf group.buffer calls) ∧
      v.entries.length = calls.length ∧
      ∀ more, ∃ added, (addAll {} (calls ++ more)).groups =
        v.groups.map (fun group =>
          { group with pointers := group.pointers ++ pointersOf group.buffer more }) ++ added := by
  intro v used
  have hgroups : v.Groups calls := groups_addAll calls
  exact ⟨hgroups.nodup, hgroups.mem_buffers_iff, hgroups.ordered, hgroups.pointers_eq,
    (entries_addAll calls).length_eq, exists_groups_append calls⟩

example (p q r : PointerRecord) :
    (addAll {} [(⟨4⟩, p), (⟨5⟩, q), (⟨4⟩, r)]).groups = [⟨⟨4⟩, [p, r]⟩, ⟨⟨5⟩, [q]⟩] :=
  rfl

end VertexArrayRecord

end GlPlayback
