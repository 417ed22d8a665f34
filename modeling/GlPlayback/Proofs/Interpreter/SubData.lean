import GlPlayback.Proofs.Gl.SubData
import GlPlayback.Proofs.Interpreter.BoundBuffers
import GlPlayback.Proofs.Interpreter.Issuing

/-!
Commands that write a range of their payload's elements to a part of the bound buffer. The range is
checked against the elements, by an end that is cut off at the largest word, and the part against
the store, by an end that may wrap around.
-/
namespace GlPlayback

/-- A reference to whole elements of a type, and their bytes. No bytes in memory are more than the
largest signed word. -/
structure PayloadRef.Holds (ref : PayloadRef) (payloads : List (List UInt8)) (type : ElementType)
    (bytes : List UInt8) : Prop where
  found : payloads[ref.index]? = some bytes
  named : ElementType.ofName ref.type = .ok type
  whole : type.size ∣ bytes.length
  small : bytes.length < 2 ^ 63

/-- A buffer is bound to a target, and exists. -/
structure Context.HasBound (ctx : Context) (target : BufferTarget) (id : ObjectId)
    (b : BufferObject) : Prop where
  bound : ctx.boundBuffer? target.code = some id
  object : ctx.objects.buffers.get? id = some b
  small : b.data.length < 2 ^ 63

/-- The range is refused, or its bytes are put to the target's buffer. -/
theorem Operation.resolve_bufferSubData {s : Surroundings} {word : String} {target : BufferTarget}
    {ref : PayloadRef} {type : ElementType} {bytes : List UInt8}
    (hword : BufferTarget.ofToken? word = some target)
    (hpayload : ref.Holds s.payloads type bytes) (start sourceStart : Nat) (limit : Option Nat) :
    let count := bytes.length / type.size
    let stop := limit.elim count fun n => sourceStart + n
    resolve s ⟨.bufferSubData word start sourceStart limit, some ref⟩ =
      if count < sourceStart ∨ count < stop then
        .error (.element (.outOfRange sourceStart (min stop (UInt64.size - 1)) count))
      else .ok (.issue (.bufferSubData target.code start
        (bytes.extract (sourceStart * type.size) (stop * type.size)))) := by
  intro count stop
  have hreads := Elements.Reads.of_dvd hpayload.whole
  have hdecode := Elements.decode_eq_ok hpayload.whole
  generalize Elements.mk type (wordsOfBytes type.size (bytes.length / type.size) bytes) = e
    at hreads hdecode
  have hcount : e.count = count := hreads.count_eq
  have hstop : e.rangeEnd sourceStart limit = stop := by
    rw [Elements.rangeEnd, hcount]
  have hsmall := hreads.count_lt hpayload.small
  have htarget : bufferTarget word = .ok target := by
    simp only [bufferTarget, hword]
  simp only [resolve, htarget, Surroundings.payload?_eq_ok hpayload.found hpayload.named hdecode,
    subData, bind, Except.bind]
  by_cases hbeyond : count < sourceStart ∨ count < stop
  · have hrefused := Elements.slice_eq_error hsmall (hcount ▸ hstop ▸ hbeyond)
    rw [if_pos hbeyond, hrefused, hcount, hstop]
    rfl
  · have hstart : sourceStart ≤ e.count := by omega
    have hend : e.rangeEnd sourceStart limit ≤ e.count := by omega
    rw [if_neg hbeyond, Elements.slice_eq_ok (Nat.lt_of_lt_pred hsmall) hstart hend,
      hreads.bytes_eq, hreads.type_eq, hstop]
    rfl

namespace Machine

variable {payloads : List (List UInt8)} {word : String} {target : BufferTarget} {ref : PayloadRef}
  {type : ElementType} {bytes : List UInt8} {id : ObjectId} {b : BufferObject}

/-- A range beyond the payload's elements is refused and leaves everything. Any other is written to
the part of the bound buffer's store that begins at `start`, and nothing else changes; or, where the
part goes beyond the store, the context refuses the write and keeps its objects. It does so exactly
unless the end of the part wraps around and comes to lie in the store: such a write raises no error,
but the context is lost. -/
theorem bufferSubData_writes (m : Machine) (checks : Bool)
    (hword : BufferTarget.ofToken? word = some target) (hpayload : ref.Holds payloads type bytes)
    (hbuffer : m.context.HasBound target id b) (start sourceStart : Nat) (limit : Option Nat) :
    let command : Command := ⟨.bufferSubData word start sourceStart limit, some ref⟩
    let count := bytes.length / type.size
    let stop := limit.elim count fun n => sourceStart + n
    let slice := bytes.extract (sourceStart * type.size) (stop * type.size)
    let call := Call.bufferSubData target.code start slice
    (count < sourceStart ∨ count < stop → m.executeCommand checks payloads command =
      (.error (.element (.outOfRange sourceStart (min stop (UInt64.size - 1)) count)), m)) ∧
    (sourceStart ≤ count → stop ≤ count →
      (start + slice.length ≤ b.data.length → ∃ data : List UInt8,
        m.ComesTo checks payloads command [call] [] { m.context.objects with
          buffers := m.context.objects.buffers.insert id { b with data } } ∧
        data.length = b.data.length ∧ ∀ k, data[k]? =
          if start ≤ k ∧ k < start + slice.length then slice[k - start]? else b.data[k]?) ∧
      (b.data.length < start + slice.length →
        (m.ComesTo checks payloads command [call] [.invalidValue] m.context.objects ↔
          ¬ Context.WrapsInto start slice.length b.data.length) ∧
        (Context.WrapsInto start slice.length b.data.length →
          m.context.errorsOf [call] = [] ∧
          (m.executeCommand checks payloads command).2.context.lost = true))) := by
  intro command count stop slice call
  have hresolve : Operation.resolve (m.surroundings payloads) command =
      if count < sourceStart ∨ count < stop then
        .error (.element (.outOfRange sourceStart (min stop (UInt64.size - 1)) count))
      else .ok (.issue call) :=
    Operation.resolve_bufferSubData hword hpayload start sourceStart limit
  refine ⟨fun hbeyond => ?beyond, fun hstart hend => ?within⟩
  case beyond =>
    exact executeCommand_of_error (hresolve.trans (if_pos hbeyond))
  case within =>
    have hissue : Operation.resolve (m.surroundings payloads) command = .ok (.issue call) :=
      hresolve.trans (if_neg (by omega))
    have hlength : slice.length < UInt64.size := by
      have hle : slice.length ≤ bytes.length := by
        simp only [slice, List.extract_eq_take_drop, List.length_take, List.length_drop]
        omega
      exact Nat.lt_of_le_of_lt hle (Nat.lt_trans hpayload.small (by decide))
    have hsize : b.data.length < UInt64.size := Nat.lt_trans hbuffer.small (by decide)
    have hlost (hwraps : Context.WrapsInto start slice.length b.data.length) :
        m.context.errorsOf [call] = [] ∧ (m.issue call).context.lost = true := by
      obtain ⟨hraises, hlost⟩ := Context.bufferSubData_wraps target.contains_code hbuffer.bound
        hbuffer.object hlength hwraps
      exact ⟨by rw [Context.errorsOf_singleton, hraises]; rfl, hlost⟩
    refine ⟨fun hfits => ?fits, fun hover => ⟨⟨?unwrapped, ?refused⟩, fun hwraps => ?wraps⟩⟩
    case fits =>
      refine ⟨Context.overwrite b.data start slice, ?_, Context.length_overwrite hfits,
        Context.getElem?_overwrite hfits⟩
      exact comesTo_issue hissue
        (Context.bufferSubData_fits target.contains_code hbuffer.bound hbuffer.object hsize hfits)
    case unwrapped =>
      intro hrefused hwraps
      cases hrefused.raised_eq.symm.trans (hlost hwraps).1
    case refused =>
      intro hstays
      exact comesTo_issue hissue ((Context.bufferSubData_refused_iff target.contains_code
        hbuffer.bound hbuffer.object hlength hover).mpr hstays)
    case wraps =>
      refine ⟨(hlost hwraps).1, ?_⟩
      rw [executeCommand_machine hissue rfl]
      refine Eq.trans ?_ (hlost hwraps).2
      cases checks <;> rfl

/-- The second of three elements goes to the middle of a store of four bytes. -/
theorem bufferSubData_writes_middle :
    let events : List Event := [.register 0,
      .command true [] ⟨.create .buffer 0, none⟩,
      .command true [] ⟨.bindBuffer "ARRAY_BUFFER" 0, none⟩,
      .command true [] ⟨.bufferData "ARRAY_BUFFER" "STATIC_DRAW" false (some 4), none⟩]
    let m := (fresh 1 1).after events
    let ref : PayloadRef := ⟨0, "uint16", [3]⟩
    let payloads : List (List UInt8) := [[1, 2, 3, 4, 5, 6]]
    let b : BufferObject := ⟨some 0x8892, 0x88E4, [0, 0, 0, 0], false⟩
    m.context.HasBound .array 1 b ∧ ref.Holds payloads .uint16 [1, 2, 3, 4, 5, 6] ∧
    ∃ data : List UInt8,
      m.ComesTo true payloads ⟨.bufferSubData "ARRAY_BUFFER" 1 1 (some 1), some ref⟩
        [.bufferSubData 0x8892 1 [3, 4]] [] { m.context.objects with
          buffers := m.context.objects.buffers.insert 1 { b with data } } ∧
      data.length = 4 ∧ ∀ k, data[k]? =
        if 1 ≤ k ∧ k < 3 then [3, 4][k - 1]? else [0, 0, 0, 0][k]? := by
  intro events m ref payloads b
  have hbuffer : m.context.HasBound .array 1 b :=
    ⟨by decide +kernel, by decide +kernel, by decide⟩
  have hpayload : ref.Holds payloads .uint16 [1, 2, 3, 4, 5, 6] :=
    ⟨rfl, rfl, by decide, by decide⟩
  have hword : BufferTarget.ofToken? "ARRAY_BUFFER" = some .array := by decide
  obtain ⟨-, hwithin⟩ := bufferSubData_writes m true hword hpayload hbuffer 1 1 (some 1)
  exact ⟨hbuffer, hpayload, (hwithin (by decide) (by decide)).1 (by decide)⟩

/-- A byte beyond an empty store, at the end of the address space. -/
theorem bufferSubData_wraps_around :
    let events : List Event := [.register 0,
      .command true [] ⟨.create .buffer 0, none⟩,
      .command true [] ⟨.bindBuffer "ARRAY_BUFFER" 0, none⟩]
    let m := (fresh 1 1).after events
    let ref : PayloadRef := ⟨0, "uint8", [1]⟩
    let command : Command := ⟨.bufferSubData "ARRAY_BUFFER" (2 ^ 64 - 1) 0 none, some ref⟩
    let b : BufferObject := ⟨some 0x8892, 0, [], false⟩
    m.context.HasBound .array 1 b ∧ ref.Holds [[7]] .uint8 [7] ∧
      b.data.length < 2 ^ 64 - 1 + 1 ∧ m.context.lost = false ∧
      m.callsOf [[7]] command = [.bufferSubData 0x8892 (2 ^ 64 - 1) [7]] ∧
      m.context.errorsOf (m.callsOf [[7]] command) = [] ∧
      (m.executeCommand true [[7]] command).2.context.lost = true := by
  intro events m ref command b
  have hbuffer : m.context.HasBound .array 1 b :=
    ⟨by decide +kernel, by decide +kernel, by decide⟩
  have hpayload : ref.Holds [[7]] .uint8 [7] := ⟨rfl, rfl, by decide, by decide⟩
  refine ⟨hbuffer, hpayload, by decide, ?_⟩
  decide +kernel

end Machine

end GlPlayback
