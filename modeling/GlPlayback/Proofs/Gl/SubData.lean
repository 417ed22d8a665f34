import GlPlayback.Proofs.Gl.Bound
import GlPlayback.Proofs.Gl.Flag

/-!
Writes to a part of the bound buffer. The end of the part is computed in 64 bits and then compared
with the length of the store. An end that wraps around passes for one in the store, and the write
cannot be carried out.
-/
namespace GlPlayback.Context

open Attempt

theorem length_overwrite {data bytes : List UInt8} {start : Nat}
    (hfits : start + bytes.length ≤ data.length) :
    (overwrite data start bytes).length = data.length := by
  simp only [overwrite, List.length_append, List.length_take, List.length_drop]
  omega

/-- Exactly the bytes that are written change. -/
theorem getElem?_overwrite {data bytes : List UInt8} {start : Nat}
    (hfits : start + bytes.length ≤ data.length) (k : Nat) :
    (overwrite data start bytes)[k]? =
      if start ≤ k ∧ k < start + bytes.length then bytes[k - start]? else data[k]? := by
  have hstart : (data.take start).length = start := by
    rw [List.length_take]
    omega
  rw [overwrite, List.append_assoc]
  by_cases hlower : k < start
  · rw [List.getElem?_append_left (by omega), List.getElem?_take_of_lt hlower, if_neg (by omega)]
  · rw [List.getElem?_append_right (by omega), hstart]
    by_cases hupper : k - start < bytes.length
    · rw [List.getElem?_append_left hupper, if_pos (by omega)]
    · rw [List.getElem?_append_right (by omega), List.getElem?_drop, if_neg (by omega)]
      congr 1
      omega

/-- A part of a store from `start` on ends beyond 64 bits, and its end, without its higher bits,
does not lie beyond the store. -/
def WrapsInto (start length size : Nat) : Prop :=
  UInt64.size ≤ start + length ∧ (start + length) % UInt64.size ≤ size

instance (start length size : Nat) : Decidable (WrapsInto start length size) :=
  inferInstanceAs (Decidable (_ ∧ _))

variable {ctx : Context} {target : UInt32} {id : ObjectId} {b : BufferObject} {start : Nat}
  {bytes : List UInt8}

section Bound

variable (htarget : bufferTargets.contains target) (hbound : ctx.boundBuffer? target = some id)
  (hbuffer : ctx.objects.buffers.get? id = some b)
include htarget hbound hbuffer

theorem countCall_bufferSubData (name : String) (start : Nat) (bytes : List UInt8) :
    (ctx.countCall name).bufferSubData target start bytes =
      if (start + bytes.length) % UInt64.size ≤ b.data.length then
        if (start + bytes.length) % UInt64.size < start then .error .impossible
        else .ok { ctx.countCall name with
          objects.buffers :=
            ctx.objects.buffers.insert id { b with data := overwrite b.data start bytes } }
      else .error (.error .invalidValue) := by
  have hbound' : (ctx.countCall name).boundBuffer? target = some id := hbound
  have hbuffer' : (ctx.countCall name).objects.buffers.get? id = some b := hbuffer
  simp only [bufferSubData, changeBuffer, check, htarget, if_true, hbound', hbuffer',
    decide_eq_true_eq]
  split
  · split <;> rfl
  · rfl

/-- A write that stays in the store replaces a part of it. -/
theorem bufferSubData_fits (hsize : b.data.length < UInt64.size)
    (hfits : start + bytes.length ≤ b.data.length) :
    ctx.Effect (.bufferSubData target start bytes) none { ctx.objects with
      buffers := ctx.objects.buffers.insert id
        { b with data := overwrite b.data start bytes } } := by
  have hstop : (start + bytes.length) % UInt64.size = start + bytes.length :=
    Nat.mod_eq_of_lt (Nat.lt_of_le_of_lt hfits hsize)
  have hstart : ¬ start + bytes.length < start := Nat.not_lt.mpr (Nat.le_add_right _ _)
  have hcounted := countCall_bufferSubData htarget hbound hbuffer "buffer_sub_data" start bytes
  rw [hstop, if_pos hfits, if_neg hstart] at hcounted
  exact effect_of_ok (congrArg effect hcounted)

/-- A write whose end lies beyond the store is refused. -/
theorem bufferSubData_beyond (hbeyond : b.data.length < (start + bytes.length) % UInt64.size) :
    ctx.Effect (.bufferSubData target start bytes) (some .invalidValue) ctx.objects := by
  have hcounted : (ctx.countCall "buffer_sub_data").bufferSubData target start bytes =
      .error (.error .invalidValue) :=
    (countCall_bufferSubData htarget hbound hbuffer _ start bytes).trans
      (if_neg (Nat.not_le.mpr hbeyond))
  exact effect_of_refused (congrArg effect hcounted)

/-- A write whose end wraps around is neither refused nor carried out. -/
theorem bufferSubData_wraps (hlength : bytes.length < UInt64.size)
    (hwraps : WrapsInto start bytes.length b.data.length) :
    ctx.raises (.bufferSubData target start bytes) = none ∧
      (ctx.issue (.bufferSubData target start bytes)).lost = true := by
  obtain ⟨hover, hinside⟩ := hwraps
  have hstop : (start + bytes.length) % UInt64.size < start := by
    have hmod := Nat.mod_le (start + bytes.length - UInt64.size) UInt64.size
    rw [Nat.mod_eq_sub_mod hover]
    omega
  have hcounted : (ctx.countCall "buffer_sub_data").bufferSubData target start bytes =
      .error .impossible :=
    (countCall_bufferSubData htarget hbound hbuffer _ start bytes).trans
      ((if_pos hinside).trans (if_pos hstop))
  have hattempt : (ctx.countCall "buffer_sub_data").attempt (.bufferSubData target start bytes) =
      .error .impossible := congrArg effect hcounted
  simp only [raises, issue, exec, Call.name, hattempt, and_self]

/-- Whether a write is refused because it goes beyond the store depends on whether its end wraps
around. -/
theorem bufferSubData_refused_iff (hlength : bytes.length < UInt64.size)
    (hbeyond : b.data.length < start + bytes.length) :
    ctx.Effect (.bufferSubData target start bytes) (some .invalidValue) ctx.objects ↔
      ¬ WrapsInto start bytes.length b.data.length := by
  constructor
  · intro heffect hwraps
    have hraises := (bufferSubData_wraps htarget hbound hbuffer hlength hwraps).1
    cases heffect.raises_eq.symm.trans hraises
  · intro hstays
    refine bufferSubData_beyond htarget hbound hbuffer ?_
    by_cases hover : UInt64.size ≤ start + bytes.length
    · exact Nat.not_le.mp fun hinside => hstays ⟨hover, hinside⟩
    · rwa [Nat.mod_eq_of_lt (Nat.not_le.mp hover)]

end Bound

section Store

variable (data : List UInt8) (htarget : bufferTargets.contains target)
  (hbound : ctx.boundBuffer? target = some id) (hstore : ctx.store? id = some data)
  (hsize : data.length < UInt64.size) (hfits : start + bytes.length ≤ data.length)
include htarget hbound hstore hsize hfits

/-- A write to a part of a bound buffer leaves the rest of its store. -/
theorem exec_bufferSubData_store :
    (ctx.exec (.bufferSubData target start bytes)).2.store? id =
      some (overwrite data start bytes) := by
  obtain ⟨b, hb, rfl⟩ := Option.map_eq_some_iff.mp hstore
  have hissue := (bufferSubData_fits htarget hbound hb hsize hfits).issue_eq
  rw [issue] at hissue
  rw [hissue, store?, Table.get?_insert, if_pos rfl]
  rfl

/-- A write that stays in the store of the bound buffer raises no error. -/
theorem exec_bufferSubData_error :
    (ctx.exec (.bufferSubData target start bytes)).2.error = ctx.error := by
  obtain ⟨b, hb, rfl⟩ := Option.map_eq_some_iff.mp hstore
  have hissue := (bufferSubData_fits htarget hbound hb hsize hfits).issue_eq
  rw [issue] at hissue
  rw [hissue]
  exact Option.or_none

end Store

end GlPlayback.Context
