import GlPlayback.Proofs.Interpreter.Writing
import GlPlayback.Proofs.Viewer.Entries

/-!
The host's picture of the resources. Between entries nothing is left to tell, and what was last
told of a resource is its record; each pass tells of every record that it wrote, in order.
-/
namespace GlPlayback

namespace Journal

theorem lookup_map (text : Handle → Json) (handles : List Handle) (h : Handle) :
    (handles.map fun h => (h, text h)).lookup h = if h ∈ handles then some (text h) else none := by
  induction handles with
  | nil => rfl
  | cons other rest ih =>
      by_cases heq : h = other
      · subst heq
        simp
      · have hne : (h == other) = false := beq_false_of_ne heq
        simp [List.lookup_cons, hne, heq, ih]

/-- What was told last hides what was told before. -/
theorem latest?_append (j : Journal) (text : Handle → Json) (handles : List Handle) (h : Handle) :
    latest? ⟨j.entries ++ handles.map fun h => (h, text h)⟩ h =
      if h ∈ handles then some (text h) else j.latest? h := by
  have hnew := lookup_map text handles.reverse h
  rw [List.map_reverse] at hnew
  rw [latest?, List.reverse_append, List.lookup_append, hnew]
  by_cases hh : h ∈ handles <;> simp [hh, latest?]

end Journal

namespace Viewer

variable {v : Viewer} {created : List Handle}

def machine? (v : Viewer) : Option Machine :=
  v.uploadCamera.context.map fun context => ⟨context, v.registry, v.bindings⟩

/-- The resources that a pass creates. -/
def createdIn (v : Viewer) (p : Pass) : List Handle :=
  match v.machine? with
  | none => []
  | some m => (m.readAway v.checks).createdBy v.checks p.payloads p.commands

def createdDuring (v : Viewer) : List Pass → List Handle
  | [] => []
  | p :: rest => v.createdIn p ++ createdDuring (v.pass p) rest

/-- All resources that commands create while a host does something. -/
def createdBy (v : Viewer) : List Entry → List Handle
  | [] => []
  | entry :: rest =>
      (v.plan entry).1.createdDuring (v.plan entry).2 ++ createdBy (v.react entry) rest

/-- The host's picture is complete and up to date. -/
structure Mirrors (v : Viewer) (created : List Handle) : Prop where
  boundIn : v.bindings.BoundIn v.registry
  dirty_eq : v.registry.dirty = ∅
  isCreated_iff : ∀ h, v.registry.IsCreated h ↔ h ∈ created
  latest?_of_created : ∀ h, v.registry.IsCreated h →
    v.journal.latest? h = some (v.registry.record h).toJson
  latest?_of_unset : ∀ h, ¬ v.registry.IsCreated h → v.journal.latest? h = none

/-- A pass tells of resources in ascending order: of all whose records any of its commands
changes, and of none whose record no command writes. It tells what the records are in the end. -/
def Publishes (v : Viewer) (p : Pass) : Prop :=
  ∃ handles : List Handle,
    handles.Pairwise (· < ·) ∧
    (v.pass p).journal.entries = v.journal.entries ++
      handles.map (fun h => (h, ((v.pass p).registry.record h).toJson)) ∧
    (∀ m before command rest h, v.machine? = some m →
      p.commands = before ++ command :: rest →
      (m.execute v.checks (before ++ [command]) p.payloads).2.registry.record h ≠
        (m.execute v.checks before p.payloads).2.registry.record h → h ∈ handles) ∧
    ∀ h ∈ handles, ∃ m, v.machine? = some m ∧
      h ∈ (m.readAway v.checks).writtenBy v.checks p.payloads p.commands

theorem foldl_publish {r : Registry} {handles : List Handle}
    (hknown : ∀ h ∈ handles, r.IsRegistered h) (j : Journal) :
    handles.foldl (publish r) j = ⟨j.entries ++ handles.map fun h => (h, (r.record h).toJson)⟩ := by
  induction handles generalizing j with
  | nil => simp
  | cons h rest ih =>
      obtain ⟨x, hx⟩ := hknown h List.mem_cons_self
      have hpublish : publish r j h = j.publish h x.record := by
        simp only [publish, hx]
      rw [List.foldl_cons, hpublish, ih fun other ho => hknown other (List.mem_cons_of_mem h ho)]
      simp [Journal.publish, Registry.record_of_get hx]

/-- What is told is what is marked as changed, and nothing is marked afterwards. -/
theorem publishDirty_eq (hknown : ∀ h ∈ v.registry.dirty.keys, v.registry.IsRegistered h) :
    v.publishDirty = { v with
      registry := { v.registry with dirty := ∅ }
      journal := ⟨v.journal.entries ++
        v.registry.dirty.keys.map fun h => (h, (v.registry.record h).toJson)⟩ } := by
  have hfold := foldl_publish (r := { v.registry with dirty := ∅ }) hknown v.journal
  simp only [publishDirty, Registry.takeDirty, hfold]
  rfl

section Pass

variable {m : Machine}

theorem pass_of_none (hm : v.machine? = none) (p : Pass) : v.pass p = v.uploadCamera := by
  have hcontext : v.uploadCamera.context = none := Option.map_eq_none_iff.mp hm
  simp only [pass, execute, hcontext]

theorem pass_of_some (hm : v.machine? = some m) (p : Pass) : v.pass p =
    publishDirty { v.uploadCamera with
      context := some (m.execute v.checks p.commands p.payloads).2.context
      registry := (m.execute v.checks p.commands p.payloads).2.registry
      bindings := (m.execute v.checks p.commands p.payloads).2.bindings } := by
  obtain ⟨context, hcontext, rfl⟩ := Option.map_eq_some_iff.mp hm
  obtain ⟨camera, context', hupload⟩ := v.uploadCamera_eq
  simp only [pass, execute, hcontext]
  simp only [hupload]

variable (hbound : v.bindings.BoundIn v.registry) (hm : v.machine? = some m)
include hbound hm

theorem opened_of_machine? :
    (m.readAway v.checks).BindsCreated ∧ (m.readAway v.checks).registry = v.registry := by
  obtain ⟨context, -, rfl⟩ := Option.map_eq_some_iff.mp hm
  have hopened := Machine.readAway_calls v.checks ⟨context, v.registry, v.bindings⟩
  exact ⟨hopened.bindsCreated hbound, hopened.registry_eq⟩

variable (hdirty : v.registry.dirty = ∅)
include hdirty

/-- A pass tells of exactly the records that its commands write. -/
theorem pass_told (p : Pass) :
    let ended := (m.readAway v.checks).run v.checks p.payloads p.commands
    ∃ handles : List Handle, handles.Pairwise (· < ·) ∧
      (∀ h, h ∈ handles ↔
        h ∈ (m.readAway v.checks).writtenBy v.checks p.payloads p.commands) ∧
      (v.pass p).registry = { ended.registry with dirty := ∅ } ∧
      (v.pass p).bindings = ended.bindings ∧
      (v.pass p).journal = ⟨v.journal.entries ++
        handles.map fun h => (h, (ended.registry.record h).toJson)⟩ := by
  intro ended
  obtain ⟨hopened, hregistry⟩ := opened_of_machine? hbound hm
  have hmem (h : Handle) : h ∈ ended.registry.dirty.keys ↔
      h ∈ (m.readAway v.checks).writtenBy v.checks p.payloads p.commands := by
    rw [Machine.mem_dirty_run v.checks p.payloads hopened, hregistry, hdirty]
    exact or_iff_left List.not_mem_nil
  have hknown (h : Handle) (hh : h ∈ ended.registry.dirty.keys) : ended.registry.IsRegistered h :=
    (Machine.isCreated_run_of_mem v.checks p.payloads hopened p.commands
      ((hmem h).mp hh)).isRegistered
  refine ⟨ended.registry.dirty.keys, ?_, hmem, ?_⟩
  · refine Machine.ascending_dirty_run v.checks p.payloads hopened p.commands ?_
    rw [hregistry, hdirty]
    exact Table.ascending_empty
  · obtain ⟨camera, context, hupload⟩ := v.uploadCamera_eq
    rw [pass_of_some hm, Machine.execute_machine, publishDirty_eq hknown]
    simp only [hupload]
    exact ⟨rfl, rfl, rfl⟩

end Pass

/-- Nothing but the registry, what is bound and what was told matters to the picture. -/
theorem Mirrors.congr {w : Viewer} (hv : v.Mirrors created) (hregistry : w.registry = v.registry)
    (hbindings : w.bindings = v.bindings) (hjournal : w.journal = v.journal) :
    w.Mirrors created := by
  constructor
  · simp only [hregistry, hbindings, hv.boundIn]
  · simp only [hregistry, hv.dirty_eq]
  · simpa only [hregistry] using hv.isCreated_iff
  · simpa only [hregistry, hjournal] using hv.latest?_of_created
  · simpa only [hregistry, hjournal] using hv.latest?_of_unset

theorem Mirrors.pass (hv : v.Mirrors created) (p : Pass) :
    (v.pass p).Mirrors (created ++ v.createdIn p) := by
  cases hm : v.machine? with
  | none =>
      obtain ⟨camera, context, hupload⟩ := v.uploadCamera_eq
      simp only [createdIn, hm, List.append_nil, pass_of_none hm, hupload]
      exact hv.congr rfl rfl rfl
  | some m =>
      obtain ⟨hopened, hstart⟩ := opened_of_machine? hv.boundIn hm
      obtain ⟨handles, -, hwritten, hregistry, hbindings, hjournal⟩ :=
        pass_told hv.boundIn hm hv.dirty_eq p
      have hcreated (h : Handle) : (v.pass p).registry.IsCreated h ↔
          v.registry.IsCreated h ∨ h ∈ v.createdIn p := by
        rw [hregistry, createdIn, hm, ← hstart]
        exact Machine.isCreated_run_iff v.checks p.payloads hopened p.commands h
      have hlatest (h : Handle) : (v.pass p).journal.latest? h =
          if h ∈ handles then some ((v.pass p).registry.record h).toJson
          else v.journal.latest? h := by
        rw [hjournal, hregistry]
        exact Journal.latest?_append _ _ handles h
      constructor
      · rw [hregistry, hbindings]
        exact Machine.run_bindsCreated v.checks p.payloads hopened p.commands
      · rw [hregistry]
      · intro h
        rw [hcreated, hv.isCreated_iff, List.mem_append]
      · intro h hh
        rw [hlatest]
        split
        · rfl
        · next hsilent =>
            have hsame : (v.pass p).registry.record h = v.registry.record h := by
              rw [hregistry, ← hstart]
              exact Machine.record_run_eq v.checks p.payloads hopened p.commands
                (mt (hwritten h).mpr hsilent)
            rw [hsame]
            refine hv.latest?_of_created h (Registry.isCreated_iff.mpr ?_)
            rw [← hsame]
            exact Registry.isCreated_iff.mp hh
      · intro h hh
        rw [hlatest, if_neg]
        · exact hv.latest?_of_unset h fun hold => hh ((hcreated h).mpr (.inl hold))
        · intro htold
          refine hh ?_
          rw [hregistry]
          exact Machine.isCreated_run_of_mem v.checks p.payloads hopened p.commands
            ((hwritten h).mp htold)

theorem Mirrors.publishes (hv : v.Mirrors created) (p : Pass) : v.Publishes p := by
  cases hm : v.machine? with
  | none =>
      obtain ⟨camera, context, hupload⟩ := v.uploadCamera_eq
      refine ⟨[], List.Pairwise.nil, ?_, ?_, nofun⟩
      · simp only [pass_of_none hm, hupload, List.map_nil, List.append_nil]
      · intro m before command rest h hsome
        cases hm.symm.trans hsome
  | some m =>
      obtain ⟨hopened, -⟩ := opened_of_machine? hv.boundIn hm
      obtain ⟨handles, hascending, hwritten, hregistry, -, hjournal⟩ :=
        pass_told hv.boundIn hm hv.dirty_eq p
      refine ⟨handles, hascending, ?_, ?_, fun h hh => ⟨m, hm, (hwritten h).mp hh⟩⟩
      · rw [hjournal, hregistry]
        rfl
      · intro m' before command rest h hsome hsplit hne
        cases hm.symm.trans hsome
        rw [hwritten, hsplit]
        simp only [Machine.execute_machine] at hne
        exact Machine.mem_writtenBy_of_record_ne v.checks p.payloads hopened hne

theorem Mirrors.register (hv : v.Mirrors created) {uid : Nat} {h : Handle} {registry : Registry}
    (hregister : v.registry.register uid = .ok (h, registry)) :
    Mirrors { v with registry } created := by
  have hcreated (other : Handle) : registry.IsCreated other ↔ v.registry.IsCreated other := by
    rw [Registry.isCreated_iff, Registry.isCreated_iff, Registry.record_register hregister]
  constructor
  · exact hv.boundIn.mono fun other => (hcreated other).mpr
  · exact (Registry.dirty_register hregister).trans hv.dirty_eq
  · intro other
    exact (hcreated other).trans (hv.isCreated_iff other)
  · intro other ho
    simp only [Registry.record_register hregister]
    exact hv.latest?_of_created other ((hcreated other).mp ho)
  · intro other ho
    exact hv.latest?_of_unset other (mt (hcreated other).mpr ho)

/-- What comes before the passes of an entry tells nothing and changes no record. -/
theorem Mirrors.plan (hv : v.Mirrors created) (entry : Entry) :
    (v.plan entry).1.Mirrors created := by
  cases hquiet : entry.isQuiet with
  | true =>
      obtain ⟨hregistry, hbindings, hjournal, -, -⟩ := v.plan_agrees hquiet
      exact hv.congr hregistry hbindings hjournal
  | false =>
      cases entry with
      | withChecks checks =>
          exact ⟨BindingState.boundIn_empty _, hv.dirty_eq, hv.isCreated_iff,
            hv.latest?_of_created, hv.latest?_of_unset⟩
      | register uid =>
          simp only [Viewer.plan, react, Viewer.register]
          split
          · exact hv
          · cases hregister : v.registry.register uid with
            | error e => exact hv.congr rfl rfl rfl
            | ok registered => exact hv.register hregister
      | receive batch payloads =>
          simp only [Viewer.plan]
          split
          · exact hv
          · cases batch.commands.forM (checkPayload payloads) with
            | error e => exact hv
            | ok _ =>
                have hcleared : (v.clearFor batch).Mirrors created := by
                  simp only [clearFor]
                  split
                  · exact hv.congr rfl rfl rfl
                  · exact hv
                simp only
                split
                · exact hcleared
                · exact hcleared.congr rfl rfl rfl
      | _ => cases hquiet

theorem Mirrors.passes (hv : v.Mirrors created) (passes : List Pass) :
    (passes.foldl Viewer.pass v).Mirrors (created ++ v.createdDuring passes) := by
  induction passes generalizing v created with
  | nil =>
      rw [createdDuring, List.append_nil]
      exact hv
  | cons p rest ih =>
      rw [createdDuring, ← List.append_assoc]
      exact ih (hv.pass p)

theorem Mirrors.after (hv : v.Mirrors created) (entries : List Entry) :
    (v.after entries).Mirrors (created ++ v.createdBy entries) := by
  induction entries generalizing v created with
  | nil =>
      rw [createdBy, List.append_nil]
      exact hv
  | cons entry rest ih =>
      have hentry := (hv.plan entry).passes (v.plan entry).2
      rw [← react_eq_plan] at hentry
      rw [createdBy, ← List.append_assoc]
      exact ih hentry

theorem new_mirrors {context : Option Context} {config : ViewerConfig} {checks : Bool}
    (hnew : Viewer.new context config checks = .ok v) : v.Mirrors [] := by
  obtain ⟨hregistry, hbindings, hjournal, -, -⟩ := new_empty hnew
  have hcreated (h : Handle) : ¬ v.registry.IsCreated h := by
    rw [hregistry]
    exact fun ⟨x, hx, _⟩ => nomatch hx
  constructor
  · rw [hbindings]
    exact BindingState.boundIn_empty _
  · rw [hregistry]
  · intro h
    exact iff_of_false (hcreated h) List.not_mem_nil
  · intro h hh
    exact absurd hh (hcreated h)
  · intro h _
    rw [hjournal]
    rfl

/-- Whatever a host does with a new viewer, between its entries nothing is left to tell: of each
resource that a command created, the current record was told last, and of every other one nothing.
Each pass of an entry tells of the records that it changes, each once and in ascending order. -/
theorem mirror_consistent {context : Option Context} {config : ViewerConfig} {checks : Bool}
    (hnew : Viewer.new context config checks = .ok v) (entries : List Entry) :
    (v.after entries).registry.dirty = ∅ ∧
    (∀ h, h ∈ v.createdBy entries ↔ (v.after entries).registry.record h ≠ .unset) ∧
    (∀ h, (v.after entries).journal.latest? h = if h ∈ v.createdBy entries then
      some ((v.after entries).registry.record h).toJson else none) ∧
    ∀ entry,
      let planned := (v.after entries).plan entry
      (v.after entries).react entry = planned.2.foldl Viewer.pass planned.1 ∧
      ∀ before p rest, planned.2 = before ++ p :: rest →
        (before.foldl Viewer.pass planned.1).Publishes p := by
  have hmirrors := (new_mirrors hnew).after entries
  rw [List.nil_append] at hmirrors
  refine ⟨hmirrors.dirty_eq, ?_, ?_, ?_⟩
  · intro h
    rw [← hmirrors.isCreated_iff, Registry.isCreated_iff]
  · intro h
    split
    · next hh => exact hmirrors.latest?_of_created h ((hmirrors.isCreated_iff h).mpr hh)
    · next hh => exact hmirrors.latest?_of_unset h (mt (hmirrors.isCreated_iff h).mp hh)
  · intro entry
    refine ⟨react_eq_plan _ entry, fun before p rest _ => ?_⟩
    exact ((hmirrors.plan entry).passes before).publishes p

/-- A buffer that a batch creates is told of as a buffer. -/
theorem createBuffer_told :
    ∃ v, Viewer.new (some (Context.new 700 500)) {} false = .ok v ∧
      let w := v.after [.register 0, .receive { commands := [⟨.create .buffer 0, none⟩] } []]
      w.registry.dirty = ∅ ∧ w.registry.record ⟨0⟩ = .buffer {} ∧
        w.journal.latest? ⟨0⟩ = some (.object [("type", .string "Buffer")]) := by
  refine ⟨_, rfl, ?_⟩
  have h := mirror_consistent (rfl : Viewer.new (some (Context.new 700 500)) {} false = .ok _)
    [.register 0, .receive { commands := [⟨.create .buffer 0, none⟩] } []]
  exact ⟨h.1, rfl, (h.2.2.1 ⟨0⟩).trans rfl⟩

end Viewer

end GlPlayback
