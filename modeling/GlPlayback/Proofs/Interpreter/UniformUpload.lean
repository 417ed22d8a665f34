import GlPlayback.Proofs.Gl.Uniforms
import GlPlayback.Proofs.Interpreter.Issuing
import GlPlayback.Proofs.Interpreter.Lookups

/-!
Commands that upload to a uniform of the program in use, by its name. A name that the program's
record does not list is passed over before the payload is looked at. The payload's shape says of
what the value is made, and the context checks that it is made of whole elements.
-/
namespace GlPlayback

namespace Asking

variable {program : ObjectId} {p : ProgramObject} {α β : Type}

/-- Of any context that has a program under a number, a conversation learns something like this, and
it leaves the program there. -/
def Learns (program : ObjectId) (p : ProgramObject) (Q : α → Prop) (x : Asking α) : Prop :=
  ∀ ctx : Context, ctx.objects.programs.get? program = some p →
    Q (x.run ctx).1 ∧ (x.run ctx).2.objects.programs.get? program = some p

namespace Learns

theorem pure {Q : α → Prop} {a : α} (ha : Q a) : Learns program p Q (Pure.pure a) :=
  fun _ hp => ⟨ha, hp⟩

theorem bind {P : α → Prop} {Q : β → Prop} {x : Asking α} {f : α → Asking β}
    (hx : Learns program p P x) (hf : ∀ a, P a → Learns program p Q (f a)) :
    Learns program p Q (x >>= f) := by
  intro ctx hp
  obtain ⟨ha, hp'⟩ := hx ctx hp
  rw [run_bind]
  exact hf _ ha _ hp'

theorem of_only {x : Asking α} (hx : Only Call.IsQuestion x) :
    Learns program p (fun _ => True) x := by
  intro ctx hp
  rw [programs_kept hx]
  exact ⟨trivial, hp⟩

theorem foldlM {Q : β → Prop} {f : β → α → Asking β}
    (hf : ∀ b a, Q b → Learns program p Q (f b a)) (as : List α) {b : β} (hb : Q b) :
    Learns program p Q (as.foldlM f b) := by
  induction as generalizing b with
  | nil => exact .pure hb
  | cons a rest ih =>
      rw [List.foldlM_cons]
      exact (hf b a hb).bind fun _ hb' => ih hb'

end Learns

theorem learns_location (name : String) :
    Learns program p (fun location : Option ObjectId => location = p.uniformLocation? name)
      (ask (.getUniformLocation program name)) := by
  intro ctx hp
  have hanswer : ctx.uniformLocation program name = p.uniformLocation? name := by
    rw [Context.uniformLocation, hp]
    rfl
  exact ⟨hanswer, hp⟩

/-- Loose uniforms that are known with the locations that the program has under their names. -/
def Uniforms.Located (p : ProgramObject) (found : Uniforms) : Prop :=
  ∀ r ∈ found.loose, r.location = p.uniformLocation? r.name

theorem learns_addUniform {found : Uniforms} (hfound : found.Located p) (index : UInt32)
    (block offset : Option Int32) :
    Learns program p (Uniforms.Located p) (addUniform program found index block offset) := by
  refine (Learns.of_only (.ask (by rfl))).bind fun active _ => ?_
  cases active with
  | none => exact .pure hfound
  | some active =>
      cases block.filter (0 ≤ ·) with
      | none =>
          refine (learns_location active.name).bind fun location hlocation => .pure ?_
          intro r hr
          rcases List.mem_append.mp hr with hold | hnew
          · exact hfound r hold
          · cases List.mem_singleton.mp hnew
            exact hlocation
      | some block =>
          refine (Learns.of_only (only_knowing program _ _)).bind fun blocks _ => .pure ?_
          exact hfound

/-- However many uniforms a program has, each that is learnt of has the location that the program
has under its name. -/
theorem learns_uniforms (program : ObjectId) (p : ProgramObject) :
    Learns program p (Uniforms.Located p) (uniforms program) := by
  refine (Learns.of_only (only_activeCount program _)).bind fun count _ => ?_
  refine (Learns.of_only (.ask (by rfl))).bind fun blocks _ => ?_
  refine (Learns.of_only (.ask (by rfl))).bind fun offsets _ => ?_
  have hnone : Uniforms.Located p {} := by simp [Uniforms.Located]
  exact .foldlM (fun found _ hfound => learns_addUniform hfound _ _ _) _ hnone

/-- The questions after a link that succeeded leave the program as the link left it. -/
theorem linked_keeps {ctx : Context} (h : ctx.ReportsLinked program) (before : ProgramRecord) :
    ctx.objects.Has .program program ∧
      ∃ q, ((linked program before).run ctx).2.objects.programs.get? program = some q ∧
        q.linked = true ∧ ctx.linked? program = some q.asLinked := by
  obtain ⟨log, hstate⟩ := Context.reportsLinked_iff.mp h
  obtain ⟨old, hold, -⟩ := Option.map_eq_some_iff.mp hstate
  have hstill : ((linked program before).run ctx).2.linkState? program = some (true, log) := by
    rw [linkState_kept (only_linked program before) (by simp [Call.IsQuestion, Call.touches])
      (fun other => by simp [Call.IsQuestion, Call.touches]), hstate]
  obtain ⟨q, hq, hlinked⟩ := Option.map_eq_some_iff.mp hstill
  have hlinked : q.linked = true := congrArg Prod.fst hlinked
  have hfinal : ((linked program before).run ctx).2.linked? program = some q.asLinked := by
    rw [Context.linked?, hq, Option.map_some]
  rw [run_context] at hfinal
  refine ⟨Option.isSome_of_eq_some hold, q, hq, hlinked,
    Context.issueAll_linked (fun call hcall heq => ?_) hfinal hlinked⟩
  subst heq
  rcases (only_linked program before).mem_calls _ _ hcall with hquestion | ⟨_, _, heq⟩
  · cases hquestion
  · cases heq

end Asking

namespace Context

variable {ctx : Context} {id : ObjectId} {record : ProgramRecord} {p : ProgramObject}

/-- The record of a program stems from its last link, which succeeded: it is what was found out
after that link, and the program is still as the link left it. -/
def Stems (ctx : Context) (id : ObjectId) (record : ProgramRecord) : Prop :=
  ∃ earlier before,
    let after := ((Asking.link id).run earlier).2
    after.ReportsLinked id ∧ ctx.linked? id = after.linked? id ∧
      record = ((Asking.linked id before).run after).1

/-- A record that stems from a link tells what the program has: each uniform in it has the location
that the program has under its name. -/
theorem Stems.program (h : ctx.Stems id record) :
    ∃ p, ctx.objects.programs.get? id = some p ∧
      (∀ r ∈ record.uniforms, r.location = p.uniformLocation? r.name) ∧
      (p.IsJoined → p.IsCounted → record.uniforms = p.looseRecords) := by
  obtain ⟨earlier, before, hreports, hkept, rfl⟩ := h
  generalize ((Asking.link id).run earlier).2 = after at hreports hkept
  obtain ⟨hhas, q, hq, hlinked, hafter⟩ := Asking.linked_keeps hreports before
  obtain ⟨ctx', -, hq', hrun⟩ := Asking.linked_listing before hhas hq hlinked
  obtain ⟨p, hp, hpq⟩ := Option.map_eq_some_iff.mp (hkept.trans hafter)
  have huniforms : p.asLinked.uniforms = q.asLinked.uniforms := by rw [hpq]
  change p.uniforms = q.uniforms at huniforms
  refine ⟨p, hp, ?_, fun hjoined hcounted => ?_⟩
  · rw [hrun, Asking.listing_run]
    intro r hr
    rw [((Asking.learns_uniforms id q) ctx' hq').1 r hr, ProgramObject.uniformLocation?,
      ProgramObject.uniformLocation?, huniforms]
  · have hreports' := Asking.linked_reports before hhas hq hlinked (hjoined.of_asLinked hpq.symm)
    have hcounted' : q.IsCounted := ProgramObject.isCounted_asLinked.mp
      (hpq ▸ ProgramObject.isCounted_asLinked.mpr hcounted)
    rw [hreports'.uniforms hcounted', ProgramObject.looseRecords, ProgramObject.looseRecords,
      huniforms]

end Context

/-- The two commands that upload to uniforms. -/
inductive UploadKind where
  | vectors
  | matrices
  deriving DecidableEq, Repr

def UploadKind.action (kind : UploadKind) (name : String) : Action :=
  match kind with
  | vectors => .uniform name
  | matrices => .uniformMatrix name

def UploadKind.uploadCall : UploadKind → ObjectId → Payload → Except CommandError Call
  | vectors => Operation.vectorCall
  | matrices => Operation.matrixCall

/-- The value that a payload stands for: vectors with as many components as the last number of its
shape says, or matrices with as many columns and rows as the last two say. -/
inductive Payload.StandsFor (p : Payload) : UploadKind → UniformValue → Prop
  | floats {front : List Nat} {components : Nat} {data : List Single}
      (shape : p.shape = front ++ [components]) (small : 1 ≤ components ∧ components ≤ 4)
      (elements : p.elements.asSingles? = some data) :
      StandsFor p .vectors (.float components data)
  | ints {front : List Nat} {components : Nat} {data : List Int32}
      (shape : p.shape = front ++ [components]) (small : 1 ≤ components ∧ components ≤ 4)
      (elements : p.elements.asInts? = some data) :
      StandsFor p .vectors (.int components data)
  | uints {front : List Nat} {components : Nat} {data : List UInt32}
      (shape : p.shape = front ++ [components]) (small : 1 ≤ components ∧ components ≤ 4)
      (elements : p.elements.asUInts? = some data) :
      StandsFor p .vectors (.uint components data)
  | matrix {front : List Nat} {columns rows : Nat} {data : List Single}
      (shape : p.shape = front ++ [columns, rows]) (wide : 2 ≤ columns ∧ columns ≤ 4)
      (high : 2 ≤ rows ∧ rows ≤ 4) (elements : p.elements.asSingles? = some data) :
      StandsFor p .matrices (.matrix columns rows false data)

theorem Elements.type_of_asInts? {e : Elements} {data : List Int32} (h : e.asInts? = some data) :
    e.type = .int32 := by
  rw [asInts?] at h
  split at h
  · assumption
  · cases h

theorem Elements.type_of_asUInts? {e : Elements} {data : List UInt32}
    (h : e.asUInts? = some data) : e.type = .uint32 := by
  rw [asUInts?] at h
  split at h
  · assumption
  · cases h

namespace Payload

variable {p : Payload} {kind : UploadKind} {value : UniformValue}

theorem extent?_eq_some_iff {extent : Option Nat} {n : Nat} :
    Operation.extent? 1 extent = some n ↔ extent = some n ∧ 1 ≤ n ∧ n ≤ 4 := by
  rw [Operation.extent?, Option.filter_eq_some_iff, Bool.and_eq_true, decide_eq_true_eq,
    decide_eq_true_eq]

/-- A payload stands for a value, which its call uploads, or it is refused for its shape or its
type. -/
theorem uploadCall_cases (kind : UploadKind) (location : ObjectId) (p : Payload) :
    (∃ value, p.StandsFor kind value ∧
      kind.uploadCall location p = .ok (value.call location)) ∨
    (∃ e, kind.uploadCall location p = .error e ∧ (e = .unsupportedShape p.shape ∨
      ∃ expected, e = .payloadType expected p.elements.type)) := by
  cases kind with
  | vectors =>
      simp only [UploadKind.uploadCall, Operation.vectorCall]
      cases hextent : Operation.extent? 1 p.shape.getLast? with
      | none => exact .inr ⟨_, rfl, .inl rfl⟩
      | some components =>
          obtain ⟨hlast, hsmall⟩ := extent?_eq_some_iff.mp hextent
          obtain ⟨front, hshape⟩ := List.getLast?_eq_some_iff.mp hlast
          simp only
          split
          · next hsingles => exact .inl ⟨_, .floats hshape hsmall hsingles, rfl⟩
          · next hints _ => exact .inl ⟨_, .ints hshape hsmall hints, rfl⟩
          · next huints _ _ => exact .inl ⟨_, .uints hshape hsmall huints, rfl⟩
          · exact .inr ⟨_, rfl, .inr ⟨_, rfl⟩⟩
  | matrices =>
      simp only [UploadKind.uploadCall, Operation.matrixCall]
      split
      · next rows columns rest hreverse =>
          have hshape : p.shape = rest.reverse ++ [columns, rows] := by
            rw [← List.reverse_reverse p.shape, hreverse]
            simp
          split
          · next hextents =>
              obtain ⟨hwide, hwide', hhigh⟩ := hextents
              cases hsingles : p.elements.asSingles? with
              | none => exact .inr ⟨_, rfl, .inr ⟨_, rfl⟩⟩
              | some data =>
                  exact .inl ⟨_, .matrix hshape ⟨hwide, hwide'⟩ hhigh hsingles, rfl⟩
          · exact .inr ⟨_, rfl, .inl rfl⟩
      · exact .inr ⟨_, rfl, .inl rfl⟩

theorem StandsFor.uploadCall_eq (h : p.StandsFor kind value) (location : ObjectId) :
    kind.uploadCall location p = .ok (value.call location) := by
  have hextent {front : List Nat} {components : Nat} (hshape : p.shape = front ++ [components])
      (hsmall : 1 ≤ components ∧ components ≤ 4) :
      Operation.extent? 1 p.shape.getLast? = some components :=
    extent?_eq_some_iff.mpr ⟨List.getLast?_eq_some_iff.mpr ⟨front, hshape⟩, hsmall⟩
  cases h with
  | floats hshape hsmall helements =>
      simp only [UploadKind.uploadCall, Operation.vectorCall, hextent hshape hsmall, helements]
      rfl
  | ints hshape hsmall helements =>
      have htype := Elements.type_of_asInts? helements
      have hsingles : p.elements.asSingles? = none := by rw [Elements.asSingles?, htype]; rfl
      simp only [UploadKind.uploadCall, Operation.vectorCall, hextent hshape hsmall, hsingles,
        helements]
      rfl
  | uints hshape hsmall helements =>
      have htype := Elements.type_of_asUInts? helements
      have hsingles : p.elements.asSingles? = none := by rw [Elements.asSingles?, htype]; rfl
      have hints : p.elements.asInts? = none := by rw [Elements.asInts?, htype]; rfl
      simp only [UploadKind.uploadCall, Operation.vectorCall, hextent hshape hsmall, hsingles,
        hints, helements]
      rfl
  | matrix hshape hwide hhigh helements =>
      simp only [UploadKind.uploadCall, Operation.matrixCall, hshape, List.reverse_append,
        List.reverse_cons, List.reverse_nil, List.nil_append, List.cons_append, helements]
      rw [if_pos ⟨hwide.1, hwide.2, hhigh⟩]
      rfl

end Payload

namespace Machine

variable {m : Machine} {h : Handle} {id : ObjectId} {record : ProgramRecord} {name : String}

/-- The program that commands bound is the one that the context uses, and its record stems from its
last link. -/
structure HasCurrent (m : Machine) (h : Handle) (id : ObjectId) (record : ProgramRecord) :
    Prop where
  bound : m.bindings.program = some h
  resource : m.registry.get h = .ok ⟨some id, .program record⟩
  current : m.context.bindings.program = some id
  stems : m.context.Stems id record

namespace HasCurrent

variable (hm : m.HasCurrent h id record)
include hm

/-- As far as a program's uniforms can be counted, its record has the same location under a name as
the program. -/
theorem location_eq (hjoined : m.context.Joined) {p : ProgramObject}
    (hp : m.context.objects.programs.get? id = some p) (hcounted : p.IsCounted) (name : String) :
    (record.uniform? name).bind (·.location) = p.uniformLocation? name := by
  obtain ⟨q, hq, -, hlisted⟩ := hm.stems.program
  cases hp.symm.trans hq
  have hfound := p.find?_looseRecords_location name
  rw [← hlisted (hjoined.programs id p hp) hcounted, ← ProgramRecord.uniform?] at hfound
  cases hr : record.uniform? name with
  | none =>
      rw [hr] at hfound
      exact (Option.map_eq_none_iff.mp hfound.symm).symm
  | some r =>
      rw [hr] at hfound
      obtain ⟨location, hlocation, hsame⟩ := Option.map_eq_some_iff.mp hfound.symm
      exact hsame.symm.trans hlocation.symm

/-- The location that the record has under a name is that of a uniform of the program in use, which
goes by the name that was found. -/
theorem exists_of_location {location : ObjectId}
    (hfound : (record.uniform? name).bind (·.location) = some location) :
    ∃ r p u, record.uniform? name = some r ∧ m.context.objects.programs.get? id = some p ∧
      u ∈ p.uniforms ∧ u.active.goesBy r.name ∧ u.place = .loose location := by
  obtain ⟨r, hr, hlocation⟩ := Option.bind_eq_some_iff.mp hfound
  obtain ⟨p, hp, hown, -⟩ := hm.stems.program
  have hplaced : p.uniformLocation? r.name = some location :=
    (hown r (List.mem_of_find?_eq_some hr)).symm.trans hlocation
  obtain ⟨u, hu, hfirst⟩ := List.exists_of_findSome?_eq_some hplaced
  split at hfirst
  · next hgoes =>
      refine ⟨r, p, u, hr, hp, hu, hgoes, ?_⟩
      cases hplace : u.place with
      | loose own =>
          rw [hplace] at hfirst
          rw [Option.some.inj hfirst]
      | member block offset =>
          rw [hplace] at hfirst
          cases hfirst
  · cases hfirst

theorem resolve_upload (payloads : List (List UInt8)) (kind : UploadKind) (name : String)
    (ref : Option PayloadRef) :
    Operation.resolve (m.surroundings payloads) ⟨kind.action name, ref⟩ =
      match (record.uniform? name).bind (·.location) with
      | none => .ok .nothing
      | some location =>
          (((m.surroundings payloads).payload ⟨kind.action name, ref⟩).bind
            (kind.uploadCall location)).map .issue := by
  have hrecord : (m.surroundings payloads).programRecord h = .ok record :=
    Surroundings.programRecord_eq_ok_iff.mpr (Registry.record_of_get hm.resource)
  have hupload : Operation.resolve (m.surroundings payloads) ⟨kind.action name, ref⟩ =
      Operation.upload (m.surroundings payloads) ⟨kind.action name, ref⟩ name
        kind.uploadCall := by
    cases kind <;> rfl
  have hbound : (m.surroundings payloads).bindings.program = some h := hm.bound
  rw [hupload, Operation.upload, hbound]
  simp only [hrecord, bind, Except.bind]
  cases (record.uniform? name).bind (·.location) with
  | none => rfl
  | some location =>
      cases (m.surroundings payloads).payload ⟨kind.action name, ref⟩ with
      | error e => rfl
      | ok p => cases kind.uploadCall location p <;> rfl

end HasCurrent

/-- An upload to a uniform, while the program that commands bound is the one that the context uses
and its record stems from its last link. A name that the record has no location for is passed over,
whatever the payload. Else a payload that is missing, cannot be read, or stands for no value makes
the command fail, and nothing changes. A value that is made of whole elements replaces the one at
the uniform's own location and no other; one that is not raises an error, and the objects stay. -/
theorem upload_sets (hm : m.HasCurrent h id record) (checks : Bool)
    (payloads : List (List UInt8)) (kind : UploadKind) (name : String) (ref : Option PayloadRef) :
    let command : Command := ⟨kind.action name, ref⟩
    let payload := (m.surroundings payloads).payload command
    let found := (record.uniform? name).bind (·.location)
    (m.context.Joined → ∀ p, m.context.objects.programs.get? id = some p → p.IsCounted →
      found = p.uniformLocation? name) ∧
    (found = none → m.ComesTo checks payloads command [] [] m.context.objects) ∧
    ∀ location, found = some location →
      (∃ r p u, record.uniform? name = some r ∧ m.context.objects.programs.get? id = some p ∧
        u ∈ p.uniforms ∧ u.active.goesBy r.name ∧ u.place = .loose location) ∧
      (∀ e, payload = .error e → m.executeCommand checks payloads command = (.error e, m)) ∧
      (∀ p, payload = .ok p → (∀ value, ¬ p.StandsFor kind value) →
        ∃ e, m.executeCommand checks payloads command = (.error e, m) ∧
          (e = .unsupportedShape p.shape ∨ ∃ expected, e = .payloadType expected p.elements.type)) ∧
      ∀ p value, payload = .ok p → p.StandsFor kind value →
        m.ComesTo checks payloads command [value.call location]
          (if value.IsWhole then [] else [.invalidValue])
          (if value.IsWhole then { m.context.objects with
            uniforms := m.context.objects.uniforms.insert location value }
          else m.context.objects) := by
  intro command payload found
  have hresolve : Operation.resolve (m.surroundings payloads) command =
      match found with
      | none => .ok .nothing
      | some location => (payload.bind (kind.uploadCall location)).map .issue :=
    hm.resolve_upload payloads kind name ref
  refine ⟨fun hjoined p hp hcounted => hm.location_eq hjoined hp hcounted name, fun hnone => ?_,
    fun location hsome => ?_⟩
  · rw [hnone] at hresolve
    exact comesTo_nothing hresolve
  rw [hsome] at hresolve
  have hnamed := hm.exists_of_location hsome
  refine ⟨hnamed, fun e he => ?error, fun p hp hno => ?refused, fun p value hp hvalue => ?value⟩
  case error =>
    rw [he] at hresolve
    exact executeCommand_of_error hresolve
  case refused =>
    rw [hp] at hresolve
    rcases Payload.uploadCall_cases kind location p with ⟨value, hvalue, -⟩ | ⟨e, hcall, he⟩
    · exact absurd hvalue (hno value)
    · exact ⟨e, executeCommand_of_error (hresolve.trans (congrArg (Except.map _) hcall)), he⟩
  case value =>
    rw [hp] at hresolve
    have hissue : Operation.resolve (m.surroundings payloads) command =
        .ok (.issue (value.call location)) :=
      hresolve.trans (congrArg (Except.map _) (hvalue.uploadCall_eq location))
    obtain ⟨r, p, u, -, hprogram, hu, -, hplace⟩ := hnamed
    have howned : m.context.Owns location := ⟨id, p, hm.current, hprogram, u, hu, hplace⟩
    have hcomes : m.ComesTo checks payloads command [value.call location] _ _ :=
      comesTo_issue hissue (Context.upload_effect howned value)
    by_cases hwhole : value.IsWhole
    · simp only [if_pos hwhole] at hcomes ⊢
      exact hcomes
    · simp only [if_neg hwhole] at hcomes ⊢
      exact hcomes

/-- Two vectors for an array, by its bare name. -/
theorem upload_sets_array :
    let before : List Event := [.register 0, .register 1, .register 2,
      .command true [] ⟨.create (.shader "VERTEX_SHADER") 0, none⟩,
      .command true [] ⟨.shaderSource 0 "uniform vec2 u[2]; void main(){}", none⟩,
      .command true [] ⟨.compileShader 0, none⟩,
      .command true [] ⟨.create (.shader "FRAGMENT_SHADER") 1, none⟩,
      .command true [] ⟨.shaderSource 1 "void main(){}", none⟩,
      .command true [] ⟨.compileShader 1, none⟩,
      .command true [] ⟨.create .program 2, none⟩,
      .command true [] ⟨.attachShader 2 0, none⟩,
      .command true [] ⟨.attachShader 2 1, none⟩]
    let m := (fresh 1 1).after (before ++
      [.command true [] ⟨.linkProgram 2, none⟩, .command true [] ⟨.useProgram 2, none⟩])
    let record : ProgramRecord := ⟨some "linked", [⟨"u[0]", "FLOAT_VEC2", 2, some 4⟩], [], []⟩
    let payloads : List (List UInt8) := [[1, 0, 0, 0, 2, 0, 0, 0, 3, 0, 0, 0, 4, 0, 0, 0]]
    let value : UniformValue := .float 2 [⟨1⟩, ⟨2⟩, ⟨3⟩, ⟨4⟩]
    m.HasCurrent ⟨2⟩ 3 record ∧
      m.ComesTo true payloads ⟨.uniform "u", some ⟨0, "float32", [2, 2]⟩⟩
        [.uniformFloats 4 2 [⟨1⟩, ⟨2⟩, ⟨3⟩, ⟨4⟩]] [] { m.context.objects with
          uniforms := m.context.objects.uniforms.insert 4 value } := by
  intro before m record payloads value
  have hm : m.HasCurrent ⟨2⟩ 3 record := by
    refine ⟨by decide +kernel, by decide +kernel, by decide +kernel,
      ((fresh 1 1).after before).context, {}, ?_⟩
    decide +kernel
  obtain ⟨-, -, hfound⟩ := upload_sets hm true payloads .vectors "u"
    (some ⟨0, "float32", [2, 2]⟩)
  obtain ⟨-, -, -, hvalue⟩ := hfound 4 (by decide)
  have hset := hvalue ⟨⟨.float32, [1, 2, 3, 4]⟩, [2, 2]⟩ value rfl
    (.floats (by rfl : [2, 2] = [2] ++ [2]) (by decide) rfl)
  have hwhole : value.IsWhole := by decide
  rw [if_pos hwhole, if_pos hwhole] at hset
  exact ⟨hm, hset⟩

end Machine

end GlPlayback
