import GlPlayback.Proofs.Viewer.Persistence

/-!
Batches that a viewer rejects. A batch is rejected for the first of its commands with a bad payload
reference, and then nothing changes; once it is accepted, no command of it ever blames its reference.
-/
namespace GlPlayback

theorem ElementType.ofName_eq_ok_iff {name : String} {type : ElementType} :
    ofName name = .ok type ↔ type.name = name := by
  constructor
  · intro h
    simp only [ofName] at h
    split at h
    · next found hfound =>
        cases h
        exact eq_of_beq (List.find?_some hfound :)
    · cases h
  · rintro rfl
    cases type <;> rfl

theorem ElementType.ofName_eq_error_iff {name : String} {e : ElementError} :
    ofName name = .error e ↔ (∀ type : ElementType, type.name ≠ name) ∧ e = .unknownType name := by
  cases h : ofName name with
  | ok type =>
      refine iff_of_false (by simp) fun hnone => ?_
      exact hnone.1 type (ofName_eq_ok_iff.mp h)
  | error cause =>
      have hcause : cause = .unknownType name := by
        simp only [ofName] at h
        split at h
        · cases h
        · cases h
          rfl
      have hnone (type : ElementType) : type.name ≠ name := fun hname => by
        cases h.symm.trans (ofName_eq_ok_iff.mpr hname)
      rw [Except.error.injEq, hcause]
      exact ⟨fun heq => ⟨hnone, heq.symm⟩, fun heq => heq.2.symm⟩

theorem ElementType.name_injective : Function.Injective ElementType.name := by
  intro type other hname
  have hother := ofName_eq_ok_iff.mpr hname.symm
  cases hother.symm.trans (ofName_eq_ok_iff.mpr rfl)
  rfl

/-- What is wrong with a payload reference among these payloads. The type is looked at first, then
the index, then the length of what it leads to. -/
inductive PayloadRef.IsFaulty (payloads : List (List UInt8)) (ref : PayloadRef) :
    CommandError → Prop
  | type (hname : ∀ type : ElementType, type.name ≠ ref.type) :
      IsFaulty payloads ref (.element (.unknownType ref.type))
  | index {type : ElementType} (hname : type.name = ref.type)
      (hindex : payloads.length ≤ ref.index) :
      IsFaulty payloads ref (.payloadIndex ref.index payloads.length)
  | length {type : ElementType} {bytes : List UInt8} (hname : type.name = ref.type)
      (hbytes : payloads[ref.index]? = some bytes) (hlength : ¬ type.size ∣ bytes.length) :
      IsFaulty payloads ref (.element (.length bytes.length type.size))

namespace PayloadRef

variable {payloads : List (List UInt8)} {ref : PayloadRef} {type : ElementType} {e : CommandError}

theorem isFaulty_of_unnamed (hnone : ∀ type : ElementType, type.name ≠ ref.type) :
    ref.IsFaulty payloads e ↔ e = .element (.unknownType ref.type) := by
  constructor
  · intro h
    cases h with
    | type => rfl
    | index hname | length hname => exact absurd hname (hnone _)
  · rintro rfl
    exact .type hnone

variable (hname : type.name = ref.type)
include hname

theorem isFaulty_of_missing (hbytes : payloads[ref.index]? = none) :
    ref.IsFaulty payloads e ↔ e = .payloadIndex ref.index payloads.length := by
  constructor
  · intro h
    cases h with
    | type hnone => exact absurd hname (hnone type)
    | index => rfl
    | length _ hfound => cases hbytes.symm.trans hfound
  · rintro rfl
    exact .index hname (List.getElem?_eq_none_iff.mp hbytes)

theorem isFaulty_of_found {bytes : List UInt8} (hbytes : payloads[ref.index]? = some bytes) :
    ref.IsFaulty payloads e ↔
      ¬ type.size ∣ bytes.length ∧ e = .element (.length bytes.length type.size) := by
  constructor
  · intro h
    cases h with
    | type hnone => exact absurd hname (hnone type)
    | index _ hindex => cases hbytes.symm.trans (List.getElem?_eq_none_iff.mpr hindex)
    | length hother hfound hlength =>
        cases ElementType.name_injective (hother.trans hname.symm)
        cases hbytes.symm.trans hfound
        exact ⟨hlength, rfl⟩
  · rintro ⟨hlength, rfl⟩
    exact .length hname hbytes hlength

end PayloadRef

/-- The payload reference of a command is wrong in this way. -/
def Command.IsFaulty (payloads : List (List UInt8)) (command : Command) (e : CommandError) : Prop :=
  ∃ ref, command.payload = some ref ∧ ref.IsFaulty payloads e

namespace Viewer

variable {v : Viewer} {batch : Batch} {payloads : List (List UInt8)} {command : Command}
  {e : CommandError}

/-- The check of a payload finds exactly what is wrong with the reference. -/
theorem checkPayload_eq_error_iff :
    checkPayload payloads command = .error e ↔ command.IsFaulty payloads e := by
  cases hpayload : command.payload with
  | none => simp [checkPayload, Command.IsFaulty, hpayload]
  | some ref =>
      simp only [checkPayload, Command.IsFaulty, hpayload, Option.some.injEq, exists_eq_left']
      cases htype : ElementType.ofName ref.type with
      | error cause =>
          obtain ⟨hnone, rfl⟩ := ElementType.ofName_eq_error_iff.mp htype
          rw [PayloadRef.isFaulty_of_unnamed hnone]
          exact (Iff.of_eq (Except.error.injEq _ _)).trans eq_comm
      | ok type =>
          have hname := ElementType.ofName_eq_ok_iff.mp htype
          cases hbytes : payloads[ref.index]? with
          | none =>
              rw [PayloadRef.isFaulty_of_missing hname hbytes]
              exact (Iff.of_eq (Except.error.injEq _ _)).trans eq_comm
          | some bytes =>
              rw [PayloadRef.isFaulty_of_found hname hbytes, Nat.dvd_iff_mod_eq_zero]
              by_cases hsize : bytes.length % type.size = 0
              · simp [Except.mapError, bind, Except.bind, hsize, pure, Except.pure]
              · simp [Except.mapError, bind, Except.bind, hsize, throw, throwThe,
                  MonadExceptOf.throw, eq_comm]

theorem checkPayload_eq_ok_iff_forall :
    checkPayload payloads command = .ok () ↔ ∀ e, ¬ command.IsFaulty payloads e := by
  simp only [← checkPayload_eq_error_iff]
  cases checkPayload payloads command <;> simp

/-- The first command of a list with a fault, and that fault. -/
def FirstFault (payloads : List (List UInt8)) (commands : List Command) (e : CommandError) :
    Prop :=
  ∃ before command rest, commands = before ++ command :: rest ∧
    (∀ earlier ∈ before, ∀ e, ¬ earlier.IsFaulty payloads e) ∧ command.IsFaulty payloads e

theorem checkPayloads_eq_error_iff {commands : List Command} :
    commands.forM (checkPayload payloads) = .error e ↔ FirstFault payloads commands e := by
  simp only [forM_eq_error_iff, FirstFault, checkPayload_eq_ok_iff_forall,
    checkPayload_eq_error_iff]

/-- A list has a first fault as soon as one of its commands has any. -/
theorem exists_firstFault_iff {commands : List Command} :
    (∃ e, FirstFault payloads commands e) ↔
      ∃ command ∈ commands, ∃ e, command.IsFaulty payloads e := by
  simp only [← checkPayloads_eq_error_iff]
  cases hcheck : commands.forM (checkPayload payloads) with
  | ok _ =>
      have hsound := forM_eq_ok_iff.mp hcheck
      refine iff_of_false (by simp) ?_
      rintro ⟨command, hc, e, hfaulty⟩
      exact checkPayload_eq_ok_iff_forall.mp (hsound command hc) e hfaulty
  | error e =>
      obtain ⟨before, command, rest, rfl, -, hfaulty⟩ := checkPayloads_eq_error_iff.mp hcheck
      refine iff_of_true ⟨e, rfl⟩ ⟨command, ?_, e, hfaulty⟩
      exact List.mem_append_right _ List.mem_cons_self

section Receive

variable {report : Report}

theorem receive_of_fault {cause : CommandError} (hv : v.isDegraded = false)
    (hcheck : batch.commands.forM (checkPayload payloads) = .error cause) :
    v.receive batch payloads = (.error (.rejected cause), v) := by
  simp only [receive, hv, Bool.false_eq_true, if_false, hcheck]

/-- A sound batch runs once ahead of all that is remembered, or is remembered and runs with it. -/
theorem receive_of_sound (hv : v.isDegraded = false)
    (hcheck : batch.commands.forM (checkPayload payloads) = .ok ()) :
    v.receive batch payloads =
      let w := v.clearFor batch
      if batch.onlyOnce then
        let (first, w) := w.execute batch.commands payloads
        (.ok (first.merge w.run.1), w.run.2)
      else (.ok (w.remember batch payloads).run.1, (w.remember batch payloads).run.2) := by
  simp only [receive, hv, Bool.false_eq_true, if_false, hcheck]

/-- A batch is rejected exactly for its first fault, and it then leaves the viewer as it was. -/
theorem receive_eq_error_iff (hv : v.isDegraded = false) {e : ViewerError} :
    (v.receive batch payloads).1 = .error e ↔
      ∃ cause, FirstFault payloads batch.commands cause ∧ e = .rejected cause := by
  simp only [← checkPayloads_eq_error_iff]
  cases hcheck : batch.commands.forM (checkPayload payloads) with
  | error cause => simp [receive_of_fault hv hcheck, eq_comm]
  | ok _ =>
      rw [receive_of_sound hv hcheck]
      cases batch.onlyOnce <;> simp

theorem receive_of_error (hv : v.isDegraded = false) {e : ViewerError}
    (he : (v.receive batch payloads).1 = .error e) : (v.receive batch payloads).2 = v := by
  obtain ⟨cause, hfault, -⟩ := (receive_eq_error_iff hv).mp he
  rw [receive_of_fault hv (checkPayloads_eq_error_iff.mpr hfault)]

theorem checked_of_receive (hv : v.isDegraded = false)
    (hreport : (v.receive batch payloads).1 = .ok report) :
    batch.commands.forM (checkPayload payloads) = .ok () := by
  cases hcheck : batch.commands.forM (checkPayload payloads) with
  | ok _ => rfl
  | error cause =>
      rw [receive_of_fault hv hcheck] at hreport
      cases hreport

/-- A pass over commands whose payloads were checked blames no payload reference. -/
theorem execute_not_blames {commands : List Command}
    (hcheck : commands.forM (checkPayload payloads) = .ok ()) :
    ∀ f ∈ (v.execute commands payloads).1.failures, ¬ f.error.BlamesReference := by
  intro f hf
  simp only [execute] at hf
  split at hf
  · cases hf
  · obtain ⟨i, command, m, m', hcommand, -, -, hfailed⟩ :=
      Machine.command_of_mem_failures commands 0 _ hf
    exact not_blames_of_checkPayload
      (forM_eq_ok_iff.mp hcheck command (List.mem_of_getElem? hcommand)) hfailed

/-- The commands of a list from one place on, up to another, never blame a payload reference: not
by any machine, and not with anything that is remembered behind them. -/
def ReadableBetween (v : Viewer) (start stop : Nat) : Prop :=
  ∀ (more : List Command) (morePayloads : List (List UInt8)) (checks : Bool) (m : Machine),
    ∀ f ∈ (m.execute checks (v.commands ++ more) (v.payloads ++ morePayloads)).1.failures,
      start ≤ f.index → f.index < stop → ¬ f.error.BlamesReference

/-- The commands of a batch, once remembered. -/
theorem remember_readable (w : Viewer)
    (hcheck : batch.commands.forM (checkPayload payloads) = .ok ()) :
    (w.remember batch payloads).ReadableBetween w.commands.length
      (w.commands.length + batch.commands.length) := by
  intro more morePayloads checks m f hf hstart hstop
  obtain ⟨i, command, m₁, m₂, hcommand, hindex, -, hfailed⟩ :=
    Machine.command_of_mem_failures _ 0 (m.readAway checks) hf
  rw [Nat.zero_add] at hindex
  subst hindex
  obtain ⟨own, hown, rfl⟩ : ∃ own ∈ batch.commands, command = rebase w.payloads.length own := by
    simp only [remember, List.append_assoc] at hcommand
    rw [List.getElem?_append_right hstart, List.getElem?_append_left (by simp; omega),
      List.getElem?_map] at hcommand
    obtain ⟨own, hown, rfl⟩ := Option.map_eq_some_iff.mp hcommand
    exact ⟨own, List.mem_of_getElem? hown, rfl⟩
  have hsound := forM_eq_ok_iff.mp hcheck own hown
  have hstands := (stands_rebase hsound w.payloads).append morePayloads
  exact not_blames_of_checkPayload (hstands.checkPayload hsound) hfailed

theorem ReadableBetween.run {start : Nat} (h : v.ReadableBetween start v.commands.length) :
    (∀ f ∈ v.run.1.failures, start ≤ f.index → ¬ f.error.BlamesReference) ∧
    v.run.2.ReadableBetween start v.commands.length := by
  obtain ⟨hcommands, hpayloads⟩ := v.run_keeps
  refine ⟨fun f hf hstart => ?_, ?_⟩
  · simp only [Viewer.run, execute] at hf
    split at hf
    · cases hf
    · split at hf
      · cases hf
      · obtain ⟨i, command, -, -, hcommand, hindex, -⟩ :=
          Machine.command_of_mem_failures v.commands 0 _ hf
        have hi : i < v.commands.length := (List.getElem?_eq_some_iff.mp hcommand).1
        have hread := h [] []
        simp only [List.append_nil] at hread
        exact hread _ _ f hf hstart (by omega)
  · simp only [ReadableBetween, hcommands, hpayloads]
    exact h

end Receive

/-- A viewer that takes part rejects a batch exactly if one of its commands has a bad payload
reference, and for what is wrong with the first of them; then nothing of the viewer changes. Once
it accepts a batch, no command of the batch ever blames its payload reference: not in the pass that
a batch makes which is meant to run once, and not in a replay of what is remembered, this one or any
later one. -/
theorem receive_rejects_first_fault (hv : v.isDegraded = false) (batch : Batch)
    (payloads : List (List UInt8)) :
    ((∃ e, (v.receive batch payloads).1 = .error e) ↔
      ∃ command ∈ batch.commands, ∃ cause, command.IsFaulty payloads cause) ∧
    (∀ e, (v.receive batch payloads).1 = .error e ↔
      ∃ cause, FirstFault payloads batch.commands cause ∧ e = .rejected cause) ∧
    (∀ e, (v.receive batch payloads).1 = .error e → (v.receive batch payloads).2 = v) ∧
    ∀ report, (v.receive batch payloads).1 = .ok report →
      let w := v.clearFor batch
      if batch.onlyOnce then
        ∃ later, report = (w.execute batch.commands payloads).1.merge later ∧
          ∀ f ∈ (w.execute batch.commands payloads).1.failures, ¬ f.error.BlamesReference
      else
        (∀ f ∈ report.failures, w.commands.length ≤ f.index → ¬ f.error.BlamesReference) ∧
        (v.receive batch payloads).2.ReadableBetween w.commands.length
          (w.commands.length + batch.commands.length) := by
  refine ⟨?_, fun e => receive_eq_error_iff hv, fun e => receive_of_error hv, ?_⟩
  · rw [← exists_firstFault_iff]
    simp only [receive_eq_error_iff hv]
    constructor
    · rintro ⟨-, cause, hfault, -⟩
      exact ⟨cause, hfault⟩
    · rintro ⟨cause, hfault⟩
      exact ⟨_, cause, hfault, rfl⟩
  · intro report hreport w
    have hcheck := checked_of_receive hv hreport
    have hsound := receive_of_sound hv hcheck
    cases honce : batch.onlyOnce with
    | true =>
        simp only [honce, if_true] at hsound ⊢
        rw [hsound] at hreport
        cases hreport
        exact ⟨_, rfl, execute_not_blames hcheck⟩
    | false =>
        simp only [honce, Bool.false_eq_true, if_false] at hsound ⊢
        rw [hsound] at hreport ⊢
        cases hreport
        have hlength : (w.remember batch payloads).commands.length =
            w.commands.length + batch.commands.length := by simp [remember]
        have hread := remember_readable w hcheck
        rw [← hlength] at hread ⊢
        exact hread.run

/-- The second command of a batch that clears names a payload that is not there. What the viewer
remembers stays. -/
theorem receive_rejects_first_fault_cleared :
    ∃ v, Viewer.new (some (Context.new 700 500)) {} false = .ok v ∧
      let upload (index : Nat) : Command :=
        ⟨.bufferData "ARRAY_BUFFER" "STATIC_DRAW" false none, some ⟨index, "uint8", [1]⟩⟩
      let w := { v with commands := [upload 0], payloads := [[7]] }
      let batch : Batch := { clear := true, commands := [upload 0, upload 3, upload 4] }
      w.isDegraded = false ∧
      (w.receive batch [[8]]).1 = .error (.rejected (.payloadIndex 3 1)) ∧
      (w.receive batch [[8]]).2 = w := by
  refine ⟨_, rfl, ?_⟩
  intro upload w batch
  have hw : w.isDegraded = false := rfl
  obtain ⟨-, herror, hkept, -⟩ := receive_rejects_first_fault hw batch [[8]]
  have hfault : FirstFault [[8]] batch.commands (.payloadIndex 3 1) := by
    refine ⟨[upload 0], upload 3, [upload 4], rfl, ?_, _, rfl, ?_⟩
    · rw [List.forall_mem_singleton, ← checkPayload_eq_ok_iff_forall]
      rfl
    · exact .index (show ElementType.uint8.name = "uint8" from rfl) (by decide)
  have hrejected := (herror _).mpr ⟨_, hfault, rfl⟩
  exact ⟨hw, hrejected, hkept _ hrejected⟩

end Viewer

end GlPlayback
