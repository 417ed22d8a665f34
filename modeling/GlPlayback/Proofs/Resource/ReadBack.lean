import GlPlayback.Proofs.Text.Numeral
import GlPlayback.Json.Decode
import GlPlayback.Resource.Record

/-!
Records are read back from their JSON form. Members are looked up by their names, whatever their
order, and a member that is missing stands for a value that is absent. As nothing is lost, two
records have the same form only if they are the same.
-/
namespace GlPlayback

namespace Json

section Digits

open Literal Text

theorem val_digitOf {c : Char} (hc : c.isDigit = true) :
    (digitOf c).val = c.toNat - '0'.toNat := by
  rw [Char.isDigit, Bool.and_eq_true, decide_eq_true_iff, decide_eq_true_iff] at hc
  have hle : c.toNat ≤ '9'.toNat := hc.2
  have hnine : '9'.toNat - '0'.toNat < 10 := by decide
  exact Nat.mod_eq_of_lt (by omega)

theorem valueOf_digitsOf (n : Nat) : valueOf (digitsOf n) = n := by
  have hfold {s : List Char} (hs : ∀ c ∈ s, c.isDigit = true) (acc : Nat) :
      (s.map digitOf).foldl (fun n d => n * 10 + d.val) acc = Nat.ofDigitChars 10 s acc := by
    induction s generalizing acc with
    | nil => rfl
    | cons c rest ih =>
        obtain ⟨hc, hrest⟩ := List.forall_mem_cons.mp hs
        rw [List.map_cons, List.foldl_cons, ih hrest, Nat.ofDigitChars_cons, val_digitOf hc,
          Nat.mul_comm]
  have hread := hfold (fun c => isDigit_of_mem_decimal (n := n) (c := c)) 0
  exact hread.trans Nat.ofDigitChars_ten_toDigits

end Digits

/-- Whatever was written is read back. -/
def Restores {α : Type} (read : Json → Option α) (write : α → Json) : Prop :=
  ∀ a, read (write a) = some a

/-- The value of the first member of this name. -/
def at? (name : String) : Json → Option Json
  | .object members => members.lookup name
  | _ => none

/-- A whole number of any size. -/
def whole? : Json → Option Int
  | .number ⟨negative, digits, [], none⟩ =>
      some (if negative then -(Literal.valueOf digits : Int) else Literal.valueOf digits)
  | _ => none

def count? (value : Json) : Option Nat :=
  value.whole?.map Int.toNat

def word? (value : Json) : Option UInt32 :=
  value.count?.map UInt32.ofNat

def signedWord? (value : Json) : Option Int32 :=
  value.whole?.map Int32.ofInt

/-- A member that has to be there. -/
def field? {α : Type} (name : String) (read : Json → Option α) (value : Json) : Option α :=
  (value.at? name).bind read

/-- A member that may be missing, in which case there is no value. -/
def optionalField? {α : Type} (name : String) (read : Json → Option α) (value : Json) :
    Option (Option α) :=
  match value.at? name with
  | none => some none
  | some found => (read found).map some

theorem restores_whole : Restores whole? int := by
  intro n
  simp only [whole?, int, Literal.ofInt, valueOf_digitsOf, decide_eq_true_eq, Option.some.injEq]
  split <;> omega

theorem restores_count : Restores count? nat := by
  intro n
  rw [count?, nat, restores_whole]
  rfl

theorem restores_word : Restores word? fun n : UInt32 => nat n.toNat := by
  intro n
  rw [word?, restores_count, Option.map_some, UInt32.ofNat_toNat]

theorem restores_signedWord : Restores signedWord? int32 := by
  intro n
  rw [signedWord?, int32, restores_whole, Option.map_some, Int32.ofInt_toInt]

theorem restores_string : Restores asString? string :=
  fun _ => rfl

theorem restores_bool : Restores asBool? bool :=
  fun _ => rfl

variable {α : Type} {read : Json → Option α} {write : α → Json}

theorem Restores.injective (h : Restores read write) : Function.Injective write := by
  intro a b heq
  have hread := h a
  rw [heq, h b] at hread
  exact (Option.some.inj hread).symm

theorem Restores.list (h : Restores read write) : Restores (asList? read) (Json.list write) := by
  intro xs
  simp only [asList?, Json.list]
  induction xs with
  | nil => rfl
  | cons x rest ih =>
      simp only [List.map_cons, List.mapM_cons, h x, ih]
      rfl

theorem Restores.orNull (h : Restores read write) (hnull : ∀ a, write a ≠ .null) :
    Restores (asNullable? read) (Json.orNull write) := by
  intro a
  cases a with
  | none => rfl
  | some a =>
      rw [Json.orNull, asNullable?.eq_2 _ _ (hnull a), h a]
      rfl

variable {name : String} {value : Json}

theorem Restores.field {a : α} (h : Restores read write)
    (hvalue : value.at? name = some (write a)) : value.field? name read = some a := by
  rw [field?, hvalue]
  exact h a

theorem Restores.optionalField {a : Option α} (h : Restores read write)
    (hvalue : value.at? name = a.map write) : value.optionalField? name read = some a := by
  rw [optionalField?, hvalue]
  cases a with
  | none => rfl
  | some a => exact congrArg (·.map some) (h a)

@[simp]
theorem at?_object (members : List (String × Json)) :
    (object members).at? name = members.lookup name :=
  rfl

@[simp]
theorem lookup_member (other : String) (rest : List (String × Json)) :
    ((name, value) :: rest).lookup other =
      if other = name then some value else rest.lookup other := by
  rw [List.lookup_cons]
  by_cases h : other = name
  · rw [if_pos h, beq_iff_eq.mpr h]
  · rw [if_neg h, beq_false_of_ne h]

@[simp]
theorem lookup_ifPresent (other : String) (a : Option α) :
    (ifPresent name write a).lookup other = if other = name then a.map write else none := by
  cases a with
  | none => exact (ite_self _).symm
  | some a => exact lookup_member other []

end Json

open Json

section Records

def UniformRecord.ofJson? (value : Json) : Option UniformRecord := do
  return {
    name := ← value.field? "name" asString?
    type := ← value.field? "type" asString?
    size := ← value.field? "size" signedWord?
    location := ← value.field? "location" (asNullable? count?) }

def MemberRecord.ofJson? (value : Json) : Option MemberRecord := do
  return {
    name := ← value.field? "name" asString?
    type := ← value.field? "type" asString?
    size := ← value.field? "size" signedWord?
    offset := ← value.field? "offset" signedWord? }

def BlockRecord.ofJson? (value : Json) : Option BlockRecord := do
  return {
    index := ← value.field? "index" word?
    name := ← value.field? "name" asString?
    size := ← value.field? "size" signedWord?
    members := ← value.field? "uniforms" (asList? MemberRecord.ofJson?) }

def AttributeRecord.ofJson? (value : Json) : Option AttributeRecord := do
  return {
    name := ← value.field? "name" asString?
    type := ← value.field? "type" asString?
    size := ← value.field? "size" signedWord?
    location := ← value.field? "location" signedWord? }

/-- A size is a number, or one text in place of it. -/
def StoreSize.ofJson? : Json → Option StoreSize
  | .string text => if text = "Undefined" then some .undefined else none
  | value => value.whole?.map .bytes

def BufferTarget.ofJson? (value : Json) : Option BufferTarget :=
  value.asString?.bind ofToken?

def PointerRecord.ofJson? (value : Json) : Option PointerRecord := do
  return {
    setting := {
      call := ← value.field? "pointer" asString?
      normalized := ← value.optionalField? "normalized" asBool? }
    index := ← value.field? "index" word?
    size := ← value.field? "size" signedWord?
    type := ← value.field? "type" asString?
    stride := ← value.field? "stride" signedWord?
    offset := ← value.field? "offset" signedWord? }

def PointerGroup.ofJson? (value : Json) : Option PointerGroup := do
  return {
    buffer := ⟨← value.field? "buffer_uid" count?⟩
    pointers := ← value.field? "attributes" (asList? PointerRecord.ofJson?) }

def BufferRecord.ofJson? (value : Json) : Option BufferRecord := do
  return {
    size := ← value.optionalField? "size" StoreSize.ofJson?
    target := ← value.optionalField? "target" BufferTarget.ofJson?
    block := ← value.optionalField? "uniformblock" BlockRecord.ofJson? }

def ShaderRecord.ofJson? (value : Json) : Option ShaderRecord := do
  return { message := ← value.optionalField? "message" asString? }

def ProgramRecord.ofJson? (value : Json) : Option ProgramRecord := do
  return {
    message := ← value.optionalField? "message" asString?
    uniforms := ← value.field? "uniforms" (asList? UniformRecord.ofJson?)
    blocks := ← value.field? "uniforms_blocks" (asList? BlockRecord.ofJson?)
    attributes := ← value.field? "attributes" (asList? AttributeRecord.ofJson?) }

def VertexArrayRecord.ofJson? (value : Json) : Option VertexArrayRecord := do
  return { groups := ← value.field? "bindings" (asList? PointerGroup.ofJson?) }

/-- What the JSON form of a record names as its type. -/
def ResourceRecord.typeName : ResourceRecord → String
  | unset => "not set"
  | buffer _ => "Buffer"
  | shader .vertex _ => "VERTEX_SHADER"
  | shader .fragment _ => "FRAGMENT_SHADER"
  | program _ => "Program"
  | vertexArray _ => "Vertex Array Object"
  | texture => "texture"
  | framebuffer => "Framebuffer"

/-- The type tells what kind of record it is, and whether there is more to read. -/
def ResourceRecord.ofJson? (value : Json) : Option ResourceRecord := do
  match ← value.field? "type" asString? with
  | "not set" => return .unset
  | "Buffer" => return .buffer (← BufferRecord.ofJson? value)
  | "VERTEX_SHADER" => return .shader .vertex (← ShaderRecord.ofJson? value)
  | "FRAGMENT_SHADER" => return .shader .fragment (← ShaderRecord.ofJson? value)
  | "Program" => return .program (← ProgramRecord.ofJson? value)
  | "Vertex Array Object" => return .vertexArray (← VertexArrayRecord.ofJson? value)
  | "texture" => return .texture
  | "Framebuffer" => return .framebuffer
  | _ => none

theorem restores_uniform : Restores UniformRecord.ofJson? UniformRecord.toJson := by
  intro u
  have hname : u.toJson.field? "name" asString? = some u.name := restores_string.field rfl
  have htype : u.toJson.field? "type" asString? = some u.type := restores_string.field rfl
  have hsize : u.toJson.field? "size" signedWord? = some u.size := restores_signedWord.field rfl
  have hlocation : u.toJson.field? "location" (asNullable? count?) = some u.location :=
    (restores_count.orNull nofun).field rfl
  simp only [UniformRecord.ofJson?, hname, htype, hsize, hlocation]
  rfl

theorem restores_member : Restores MemberRecord.ofJson? MemberRecord.toJson := by
  intro m
  have hname : m.toJson.field? "name" asString? = some m.name := restores_string.field rfl
  have htype : m.toJson.field? "type" asString? = some m.type := restores_string.field rfl
  have hsize : m.toJson.field? "size" signedWord? = some m.size := restores_signedWord.field rfl
  have hoffset : m.toJson.field? "offset" signedWord? = some m.offset :=
    restores_signedWord.field rfl
  simp only [MemberRecord.ofJson?, hname, htype, hsize, hoffset]
  rfl

theorem restores_block : Restores BlockRecord.ofJson? BlockRecord.toJson := by
  intro b
  have hindex : b.toJson.field? "index" word? = some b.index := restores_word.field rfl
  have hname : b.toJson.field? "name" asString? = some b.name := restores_string.field rfl
  have hsize : b.toJson.field? "size" signedWord? = some b.size := restores_signedWord.field rfl
  have hmembers : b.toJson.field? "uniforms" (asList? MemberRecord.ofJson?) = some b.members :=
    restores_member.list.field rfl
  simp only [BlockRecord.ofJson?, hindex, hname, hsize, hmembers]
  rfl

theorem restores_attribute : Restores AttributeRecord.ofJson? AttributeRecord.toJson := by
  intro a
  have hname : a.toJson.field? "name" asString? = some a.name := restores_string.field rfl
  have htype : a.toJson.field? "type" asString? = some a.type := restores_string.field rfl
  have hsize : a.toJson.field? "size" signedWord? = some a.size := restores_signedWord.field rfl
  have hlocation : a.toJson.field? "location" signedWord? = some a.location :=
    restores_signedWord.field rfl
  simp only [AttributeRecord.ofJson?, hname, htype, hsize, hlocation]
  rfl

theorem restores_storeSize : Restores StoreSize.ofJson? StoreSize.toJson := by
  intro size
  cases size with
  | bytes n => exact congrArg (·.map StoreSize.bytes) (restores_whole n)
  | undefined => rfl

theorem restores_bufferTarget :
    Restores BufferTarget.ofJson? fun target => .string target.name := by
  intro target
  cases target <;> decide

theorem restores_pointer : Restores PointerRecord.ofJson? PointerRecord.toJson := by
  intro p
  have hcall : p.toJson.field? "pointer" asString? = some p.setting.call :=
    restores_string.field (by simp [PointerRecord.toJson, List.lookup_append])
  have hnormalized : p.toJson.optionalField? "normalized" asBool? = some p.setting.normalized :=
    restores_bool.optionalField (by simp [PointerRecord.toJson, List.lookup_append])
  have hindex : p.toJson.field? "index" word? = some p.index :=
    restores_word.field (by simp [PointerRecord.toJson])
  have hsize : p.toJson.field? "size" signedWord? = some p.size :=
    restores_signedWord.field (by simp [PointerRecord.toJson, List.lookup_append])
  have htype : p.toJson.field? "type" asString? = some p.type :=
    restores_string.field (by simp [PointerRecord.toJson, List.lookup_append])
  have hstride : p.toJson.field? "stride" signedWord? = some p.stride :=
    restores_signedWord.field (by simp [PointerRecord.toJson, List.lookup_append])
  have hoffset : p.toJson.field? "offset" signedWord? = some p.offset :=
    restores_signedWord.field (by simp [PointerRecord.toJson, List.lookup_append])
  simp only [PointerRecord.ofJson?, hcall, hnormalized, hindex, hsize, htype, hstride, hoffset]
  rfl

theorem restores_group : Restores PointerGroup.ofJson? PointerGroup.toJson := by
  intro g
  have hbuffer : g.toJson.field? "buffer_uid" count? = some g.buffer.index :=
    restores_count.field rfl
  have hpointers : g.toJson.field? "attributes" (asList? PointerRecord.ofJson?) =
      some g.pointers := restores_pointer.list.field rfl
  simp only [PointerGroup.ofJson?, hbuffer, hpointers]
  rfl

theorem restores_buffer (b : BufferRecord) :
    BufferRecord.ofJson? (ResourceRecord.buffer b).toJson = some b := by
  have hsize : (ResourceRecord.buffer b).toJson.optionalField? "size" StoreSize.ofJson? =
      some b.size :=
    restores_storeSize.optionalField (by simp [ResourceRecord.toJson, List.lookup_append])
  have htarget : (ResourceRecord.buffer b).toJson.optionalField? "target" BufferTarget.ofJson? =
      some b.target :=
    restores_bufferTarget.optionalField (by simp [ResourceRecord.toJson, List.lookup_append])
  have hblock : (ResourceRecord.buffer b).toJson.optionalField? "uniformblock"
      BlockRecord.ofJson? = some b.block :=
    restores_block.optionalField (by simp [ResourceRecord.toJson, List.lookup_append])
  simp only [BufferRecord.ofJson?, hsize, htarget, hblock]
  rfl

theorem restores_shader (stage : Stage) (r : ShaderRecord) :
    ShaderRecord.ofJson? (ResourceRecord.shader stage r).toJson = some r := by
  have hmessage : (ResourceRecord.shader stage r).toJson.optionalField? "message" asString? =
      some r.message :=
    restores_string.optionalField (by simp [ResourceRecord.toJson, List.lookup_append])
  simp only [ShaderRecord.ofJson?, hmessage]
  rfl

theorem restores_program (p : ProgramRecord) :
    ProgramRecord.ofJson? (ResourceRecord.program p).toJson = some p := by
  have hmessage : (ResourceRecord.program p).toJson.optionalField? "message" asString? =
      some p.message :=
    restores_string.optionalField (by simp [ResourceRecord.toJson, List.lookup_append])
  have huniforms : (ResourceRecord.program p).toJson.field? "uniforms"
      (asList? UniformRecord.ofJson?) = some p.uniforms :=
    restores_uniform.list.field (by simp [ResourceRecord.toJson, List.lookup_append])
  have hblocks : (ResourceRecord.program p).toJson.field? "uniforms_blocks"
      (asList? BlockRecord.ofJson?) = some p.blocks :=
    restores_block.list.field (by simp [ResourceRecord.toJson, List.lookup_append])
  have hattributes : (ResourceRecord.program p).toJson.field? "attributes"
      (asList? AttributeRecord.ofJson?) = some p.attributes :=
    restores_attribute.list.field (by simp [ResourceRecord.toJson])
  simp only [ProgramRecord.ofJson?, hmessage, huniforms, hblocks, hattributes]
  rfl

theorem restores_vertexArray (v : VertexArrayRecord) :
    VertexArrayRecord.ofJson? (ResourceRecord.vertexArray v).toJson = some v := by
  have hgroups : (ResourceRecord.vertexArray v).toJson.field? "bindings"
      (asList? PointerGroup.ofJson?) = some v.groups := restores_group.list.field rfl
  simp only [VertexArrayRecord.ofJson?, hgroups]
  rfl

/-- The type of a record stands beside members of its own, none of which has that name. -/
theorem type_toJson (r : ResourceRecord) :
    r.toJson.field? "type" asString? = some r.typeName := by
  refine restores_string.field ?_
  cases r with
  | shader stage _ =>
      cases stage <;>
        simp [ResourceRecord.toJson, ResourceRecord.typeName, List.lookup_append]
  | _ => simp [ResourceRecord.toJson, ResourceRecord.typeName, List.lookup_append]

theorem restores_record : Restores ResourceRecord.ofJson? ResourceRecord.toJson := by
  intro r
  simp only [ResourceRecord.ofJson?, type_toJson, Option.bind_eq_bind, Option.bind_some]
  cases r with
  | buffer b => simp only [ResourceRecord.typeName, restores_buffer]; rfl
  | shader stage s =>
      cases stage <;> simp only [ResourceRecord.typeName, restores_shader] <;> rfl
  | program p => simp only [ResourceRecord.typeName, restores_program]; rfl
  | vertexArray v => simp only [ResourceRecord.typeName, restores_vertexArray]; rfl
  | unset | texture | framebuffer => rfl

/-- The JSON form of a record loses nothing: it is that of no other record, and by its members alone
the record is put together again, of the same kind and with the same values absent. -/
theorem ResourceRecord.toJson_lossless (r other : ResourceRecord) :
    (r.toJson = other.toJson ↔ r = other) ∧ ofJson? r.toJson = some r :=
  ⟨restores_record.injective.eq_iff, restores_record r⟩

end Records

end GlPlayback
