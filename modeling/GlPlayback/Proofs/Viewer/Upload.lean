import GlPlayback.Proofs.Command.Element
import GlPlayback.Proofs.Gl.SubData
import GlPlayback.Proofs.Gl.Unbound
import GlPlayback.Proofs.Interpreter.Conversation
import GlPlayback.Viewer.ViewBlock

/-!
The buffer of the view block, as it is made and as the camera is written to it. It stays bound to
the uniform target at most, and where another buffer is restored there it is bound nowhere.
-/
namespace GlPlayback

namespace Camera

theorem length_matrixSingles (major : MatrixMajor) (m : Matrix4 Double) :
    (matrixSingles major m).length = 16 := by
  have hlist (n : Matrix4 Double) : n.toList.length = 16 := by
    simp [Matrix4.toList, List.length_flatMap, List.map_const']
  simp only [matrixSingles, List.length_map, hlist]

theorem length_singleBytes (singles : List Single) :
    (singleBytes singles).length = 4 * singles.length := by
  induction singles with
  | nil => rfl
  | cons s rest ih =>
      have hcons : singleBytes (s :: rest) = bytesOfWord 4 s.bits.toNat ++ singleBytes rest := rfl
      rw [hcons, List.length_append, length_bytesOfWord, ih, List.length_cons]
      omega

/-- The bytes of one matrix. -/
def matrixBytes (major : MatrixMajor) (m : Matrix4 Double) : List UInt8 :=
  singleBytes (matrixSingles major m)

theorem length_matrixBytes (major : MatrixMajor) (m : Matrix4 Double) :
    (matrixBytes major m).length = 64 := by
  rw [matrixBytes, length_singleBytes, length_matrixSingles]

theorem blockBytes_eq (c : Camera) (major : MatrixMajor) : c.blockBytes major =
    matrixBytes major c.camera ++ matrixBytes major c.view ++ matrixBytes major c.projection ++
      matrixBytes major c.viewProjection := by
  simp [blockBytes, matrices, matrixBytes]

theorem length_blockBytes (c : Camera) (major : MatrixMajor) :
    (c.blockBytes major).length = ViewBlock.size := by
  simp only [blockBytes_eq, List.length_append, length_matrixBytes]
  rfl

end Camera

namespace Context

variable {ctx : Context} {target : UInt32} {id : ObjectId} {filled rest bytes : List UInt8}

/-- The store of the buffer bound to a target is written up to some place. -/
structure Filled (ctx : Context) (target : UInt32) (id : ObjectId)
    (filled rest : List UInt8) : Prop where
  bound : ctx.boundBuffer? target = some id
  store : ctx.store? id = some (filled ++ rest)

theorem overwrite_append (filled rest bytes : List UInt8) :
    overwrite (filled ++ rest) filled.length bytes =
      filled ++ bytes ++ rest.drop bytes.length := by
  rw [overwrite, List.take_left' rfl, List.drop_append]
  simp

/-- Writes that follow one another fill a store from its start. -/
theorem Filled.write (h : ctx.Filled target id filled rest)
    (htarget : bufferTargets.contains target)
    (hsize : (filled ++ rest).length < UInt64.size) (hfits : bytes.length ≤ rest.length)
    {start : Nat} (hstart : start = filled.length) :
    (ctx.issue (.bufferSubData target start bytes)).Filled target id (filled ++ bytes)
      (rest.drop bytes.length) := by
  subst hstart
  refine ⟨?_, ?_⟩
  · exact (congrFun (exec_boundBuffer? (List.Subset.refl _)) target).trans h.bound
  · rw [← overwrite_append]
    refine exec_bufferSubData_store _ htarget h.bound h.store hsize ?_
    rw [List.length_append]
    omega

end Context

namespace ViewBlock

variable {ctx : Context} {buffer : ObjectId}

theorem uniform_mem : Context.bufferTargets.contains Enumerant.uniformBuffer := by
  decide

theorem uniform_ne_element : Enumerant.uniformBuffer ≠ Enumerant.elementArrayBuffer := by
  decide

/-- The calls that follow the creation of the block's buffer. -/
def setup (buffer : ObjectId) : List Call :=
  [.bindBuffer Enumerant.uniformBuffer (some buffer),
   .bufferDataSize Enumerant.uniformBuffer size Enumerant.dynamicDraw,
   .bindBuffer Enumerant.uniformBuffer none,
   .bindBufferBase Enumerant.uniformBuffer binding (some buffer),
   .getExtension "EXT_color_buffer_float"]

theorem create_eq (width height : UInt32) : create (Context.new width height) =
    (some 1, ((Context.new width height).issue .createBuffer).issueAll (setup 1)) :=
  rfl

/-- The block of a new context has a store as large as the four matrices, and is left bound to the
uniform target. -/
theorem create_new (width height : UInt32) :
    let ctx := (create (Context.new width height)).2
    ctx.Numbered ∧ ctx.objects.Has .buffer 1 ∧ ctx.BoundWithin 1 [Enumerant.uniformBuffer] ∧
      ctx.store? 1 = some (List.replicate size 0) := by
  intro ctx
  have hgrows : (Context.new width height).Grows ctx := by
    simp only [ctx, create_eq]
    exact ((Context.new width height).issue_grows .createBuffer).trans
      (keptByCalls_grows.issueAll _ _)
  have hfree := (Context.unbound_new width height 1).mono
    (List.nil_subset [Enumerant.uniformBuffer])
  have helement : Enumerant.elementArrayBuffer ∉ [Enumerant.uniformBuffer] := by decide
  refine ⟨hgrows.numbered (Context.numbered_new width height), rfl, ?_, rfl⟩
  simp only [ctx, create_eq]
  have hmade : ((Context.new width height).issue .createBuffer).BoundWithin 1
      [Enumerant.uniformBuffer] := hfree.exec helement fun _ => False.elim
  refine hmade.issueAll helement ?_
  simp +contextual [setup, Call.Binds, eq_comm]

section Upload

variable (major : MatrixMajor)

/-- Writes matrices one after the other. -/
def writes : (start : Nat) → List (Matrix4 Double) → List Call
  | _, [] => []
  | start, m :: rest =>
      .bufferSubData Enumerant.uniformBuffer start (Camera.matrixBytes major m) ::
        writes (start + 64) rest

theorem writes_fill {matrices : List (Matrix4 Double)} {filled rest : List UInt8}
    (h : ctx.Filled Enumerant.uniformBuffer buffer filled rest)
    (hsize : (filled ++ rest).length < UInt64.size) (hrest : rest.length = 64 * matrices.length) :
    (ctx.issueAll (writes major filled.length matrices)).Filled Enumerant.uniformBuffer buffer
      (filled ++ matrices.flatMap (Camera.matrixBytes major)) [] := by
  induction matrices generalizing ctx filled rest with
  | nil =>
      cases List.eq_nil_of_length_eq_zero hrest
      rw [List.flatMap_nil, List.append_nil]
      exact h
  | cons m later ih =>
      have hlength := Camera.length_matrixBytes major m
      rw [List.length_cons] at hrest
      have hfits : (Camera.matrixBytes major m).length ≤ rest.length := by omega
      have hwritten := h.write uniform_mem hsize hfits rfl
      rw [hlength] at hwritten
      have hnext := ih hwritten (by simp at hsize ⊢; omega) (by simp; omega)
      rw [List.length_append, hlength, List.append_assoc] at hnext
      exact hnext

/-- The writes themselves bind nothing. -/
theorem binds_writes {start : Nat} {matrices : List (Matrix4 Double)} {call : Call}
    (hcall : call ∈ writes major start matrices) (target : UInt32) :
    ¬ call.Binds target buffer := by
  induction matrices generalizing start with
  | nil => cases hcall
  | cons m rest ih =>
      rcases List.mem_cons.mp hcall with rfl | hlater
      · exact id
      · exact ih hlater

theorem upload_eq (camera : Camera) (restore : Option ObjectId) :
    upload ctx buffer camera major restore =
      (((ctx.issue (.bindBuffer Enumerant.uniformBuffer (some buffer))).issueAll
        (writes major 0 camera.matrices)).issue (.bindBuffer Enumerant.uniformBuffer restore)) :=
  rfl

theorem upload_grows (ctx : Context) (camera : Camera) (restore : Option ObjectId) :
    ctx.Grows (upload ctx buffer camera major restore) :=
  keptByCalls_grows.issueAll ctx _

/-- Writing the camera fills the whole store, and takes the block off the uniform target. -/
theorem upload_spec (hn : ctx.Numbered) (hhas : ctx.objects.Has .buffer buffer)
    (hbound : ctx.BoundWithin buffer [Enumerant.uniformBuffer]) {data : List UInt8}
    (hstore : ctx.store? buffer = some data) (hlength : data.length = size) (camera : Camera)
    {restore : Option ObjectId} (hrestore : ∀ id, restore = some id → ctx.objects.Has .buffer id)
    (hother : restore ≠ some buffer) :
    (upload ctx buffer camera major restore).Unbound buffer ∧
      (upload ctx buffer camera major restore).store? buffer =
        some (camera.blockBytes major) := by
  rw [upload_eq]
  generalize hfirst : ctx.issue (.bindBuffer Enumerant.uniformBuffer (some buffer)) = bound
  generalize hsecond : bound.issueAll (writes major 0 camera.matrices) = written
  have hgrows : ctx.Grows written := by
    rw [← hsecond, ← hfirst]
    exact (ctx.issue_grows _).trans (keptByCalls_grows.issueAll _ _)
  have hfilled : written.Filled Enumerant.uniformBuffer buffer (camera.blockBytes major) [] := by
    have hstart : bound.Filled Enumerant.uniformBuffer buffer [] data := by
      rw [← hfirst]
      refine ⟨Context.exec_bindBuffer uniform_mem fun id hid => ?_, ?_⟩
      · cases hid
        exact hhas
      · exact (congrFun (ctx.exec_bindBuffer_store _ _) buffer).trans hstore
    rw [← hsecond]
    exact writes_fill major hstart (by rw [List.nil_append, hlength]; decide) hlength
  have hwithin : (written.issue (.bindBuffer Enumerant.uniformBuffer restore)).BoundWithin buffer
      [Enumerant.uniformBuffer] := by
    have helement : Enumerant.elementArrayBuffer ∉ [Enumerant.uniformBuffer] := by decide
    have hbinds {bound : Option ObjectId} (target : UInt32)
        (h : (Call.bindBuffer Enumerant.uniformBuffer bound).Binds target buffer) :
        target ∈ [Enumerant.uniformBuffer] := List.mem_singleton.mpr h.1.symm
    rw [← hsecond, ← hfirst]
    refine ((hbound.exec helement hbinds).issueAll helement ?_).exec helement hbinds
    exact fun call hcall target h => absurd h (binds_writes major hcall target)
  refine ⟨hwithin.unbound uniform_ne_element ?_, ?_⟩
  · rw [Context.issue, Context.exec_bindBuffer uniform_mem fun id hid =>
      hgrows.has hn (hrestore id hid)]
    exact hother
  · rw [Context.issue, Context.exec_bindBuffer_store, hfilled.store, List.append_nil]

end Upload

end ViewBlock

end GlPlayback
