import GlPlayback.Proofs.Interpreter.Runs
import GlPlayback.Proofs.Viewer.Entries
import Mathlib.Data.List.Forall2
import Mathlib.Data.List.Induction

/-!
What a viewer remembers of its batches. Every remembered command names, among the remembered
payloads, the one that it named in its own batch, so no replay finds a bad payload reference.
-/
namespace GlPlayback

namespace Viewer

structure Delivery where
  batch : Batch
  payloads : List (List UInt8)

/-- The batch that an entry brings, if the viewer takes part and does not reject it. -/
def accepted? (v : Viewer) : Entry → Option Delivery
  | .receive batch payloads =>
      if v.isDegraded then none
      else match (v.receive batch payloads).1 with
        | .ok _ => some ⟨batch, payloads⟩
        | .error _ => none
  | _ => none

def acceptedBy (v : Viewer) : List Entry → List Delivery
  | [] => []
  | entry :: rest => (v.accepted? entry).toList ++ acceptedBy (v.react entry) rest

/-- The commands to be remembered of batches, each with the payloads of its own batch. -/
def kept (deliveries : List Delivery) : List (Command × List (List UInt8)) :=
  (deliveries.filter (!·.batch.onlyOnce)).flatMap fun d => d.batch.commands.map (·, d.payloads)

/-- A remembered command is the one of a batch, up to the index of its payload, which leads to the
same bytes. -/
def Stands (remembered : List (List UInt8)) (command : Command)
    (origin : Command × List (List UInt8)) : Prop :=
  command.action = origin.1.action ∧
  match origin.1.payload with
  | none => command.payload = none
  | some ref => ∃ index bytes, command.payload = some { ref with index } ∧
      remembered[index]? = some bytes ∧ origin.2[ref.index]? = some bytes

variable {payloads : List (List UInt8)} {command : Command}

theorem checkPayload_eq_ok_iff : checkPayload payloads command = .ok () ↔
    ∀ ref, command.payload = some ref → ∃ type bytes, ElementType.ofName ref.type = .ok type ∧
      payloads[ref.index]? = some bytes ∧ bytes.length % type.size = 0 := by
  cases hpayload : command.payload with
  | none => simp [checkPayload, hpayload]
  | some ref =>
      simp only [checkPayload, hpayload, Option.some.injEq, forall_eq']
      cases htype : ElementType.ofName ref.type with
      | error e => simp [Except.mapError, bind, Except.bind]
      | ok type =>
          cases hbytes : payloads[ref.index]? with
          | none => simp [Except.mapError, bind, Except.bind, throw, throwThe, MonadExceptOf.throw]
          | some bytes =>
              by_cases hsize : bytes.length % type.size = 0
              · simp [Except.mapError, bind, Except.bind, hsize, pure, Except.pure]
              · simp [Except.mapError, bind, Except.bind, hsize, throw, throwThe,
                  MonadExceptOf.throw]

section Rebase

variable {remembered : List (List UInt8)} {origin : Command × List (List UInt8)}

theorem Stands.append (h : Stands remembered command origin) (payloads : List (List UInt8)) :
    Stands (remembered ++ payloads) command origin := by
  obtain ⟨haction, hpayload⟩ := h
  refine ⟨haction, ?_⟩
  cases horigin : origin.1.payload with
  | none => simpa only [horigin] using hpayload
  | some ref =>
      simp only [horigin] at hpayload ⊢
      obtain ⟨index, bytes, hcommand, hbytes, hown⟩ := hpayload
      refine ⟨index, bytes, hcommand, ?_, hown⟩
      rw [List.getElem?_append_left (List.getElem?_eq_some_iff.mp hbytes).1]
      exact hbytes

/-- A command of a batch stands where the batch's payloads begin. -/
theorem stands_rebase (hcheck : checkPayload payloads command = .ok ())
    (remembered : List (List UInt8)) :
    Stands (remembered ++ payloads) (rebase remembered.length command) (command, payloads) := by
  refine ⟨rfl, ?_⟩
  cases hpayload : command.payload with
  | none => simp [rebase, hpayload]
  | some ref =>
      obtain ⟨type, bytes, -, hbytes, -⟩ := checkPayload_eq_ok_iff.mp hcheck ref hpayload
      refine ⟨remembered.length + ref.index, bytes, ?_, ?_, hbytes⟩
      · simp [rebase, hpayload]
      · rw [List.getElem?_append_right (Nat.le_add_right _ _), Nat.add_sub_cancel_left]
        exact hbytes

theorem Stands.checkPayload (h : Stands remembered command origin)
    (hcheck : Viewer.checkPayload origin.2 origin.1 = .ok ()) :
    Viewer.checkPayload remembered command = .ok () := by
  rw [checkPayload_eq_ok_iff]
  intro ref href
  obtain ⟨-, hpayload⟩ := h
  cases horigin : origin.1.payload with
  | none =>
      simp only [horigin] at hpayload
      cases hpayload.symm.trans href
  | some own =>
      simp only [horigin] at hpayload
      obtain ⟨index, bytes, hcommand, hbytes, hown⟩ := hpayload
      cases hcommand.symm.trans href
      obtain ⟨type, bytes', htype, hown', hsize⟩ := checkPayload_eq_ok_iff.mp hcheck own horigin
      cases hown.symm.trans hown'
      exact ⟨type, bytes, htype, hbytes, hsize⟩

end Rebase

/-- The accepted batches that a viewer goes by: a batch that clears comes first among them. -/
def current (deliveries : List Delivery) : List Delivery :=
  deliveries.foldl (fun before d => if d.batch.clear then [d] else before ++ [d]) []

theorem current_append (before : List Delivery) (d : Delivery) : current (before ++ [d]) =
    (if d.batch.clear then [] else current before) ++ [d] := by
  simp only [current, List.foldl_append, List.foldl_cons, List.foldl_nil]
  split <;> rfl

/-- The batches from the last that clears on, that batch included, or from the start. -/
theorem exists_append_current (deliveries : List Delivery) :
    ∃ dropped, deliveries = dropped ++ current deliveries ∧
      (∀ d ∈ (current deliveries).tail, d.batch.clear = false) ∧
      (dropped = [] ∨ ∃ d rest, current deliveries = d :: rest ∧ d.batch.clear = true) := by
  induction deliveries using List.reverseRecOn with
  | nil => exact ⟨[], rfl, List.forall_mem_nil _, .inl rfl⟩
  | append_singleton before d ih =>
      obtain ⟨dropped, hsplit, htail, hhead⟩ := ih
      rw [current_append]
      cases hclear : d.batch.clear with
      | true => exact ⟨before, rfl, List.forall_mem_nil _, .inr ⟨d, [], rfl, hclear⟩⟩
      | false =>
          simp only [Bool.false_eq_true, if_false]
          refine ⟨dropped, by rw [← List.append_assoc, ← hsplit], ?_, ?_⟩
          · cases hcurrent : current before with
            | nil => exact List.forall_mem_nil _
            | cons first rest =>
                rw [hcurrent] at htail
                intro other ho
                rcases List.mem_append.mp ho with ho | ho
                · exact htail other ho
                · rwa [List.mem_singleton.mp ho]
          · refine hhead.imp_right ?_
            rintro ⟨first, rest, hcurrent, hfirst⟩
            exact ⟨first, rest ++ [d], by rw [hcurrent]; rfl, hfirst⟩

theorem kept_append (before : List Delivery) (d : Delivery) : kept (before ++ [d]) =
    kept before ++ if d.batch.onlyOnce then [] else d.batch.commands.map (·, d.payloads) := by
  cases h : d.batch.onlyOnce <;> simp [kept, h]

/-- What is remembered stands for the commands of the accepted batches. -/
structure Remembers (v : Viewer) (deliveries : List Delivery) : Prop where
  stands : List.Forall₂ (Stands v.payloads) v.commands (kept (current deliveries))
  checked : ∀ origin ∈ kept (current deliveries), checkPayload origin.2 origin.1 = .ok ()

section Receive

variable {v w : Viewer} {deliveries : List Delivery}

theorem Remembers.congr (hv : v.Remembers deliveries) (hcommands : w.commands = v.commands)
    (hpayloads : w.payloads = v.payloads) : w.Remembers deliveries := by
  refine ⟨?_, hv.checked⟩
  rw [hcommands, hpayloads]
  exact hv.stands

theorem Remembers.receive (hv : v.Remembers deliveries) {d : Delivery}
    (hcheck : d.batch.commands.forM (checkPayload d.payloads) = .ok ())
    (hw : w = if d.batch.onlyOnce then v.clearFor d.batch
      else (v.clearFor d.batch).remember d.batch d.payloads) :
    w.Remembers (deliveries ++ [d]) := by
  have hchecked := forM_eq_ok_iff.mp hcheck
  have hbase : List.Forall₂ (Stands (v.clearFor d.batch).payloads) (v.clearFor d.batch).commands
      (kept (if d.batch.clear then [] else current deliveries)) := by
    cases hclear : d.batch.clear with
    | true => simp [clearFor, hclear, kept]
    | false => simpa [clearFor, hclear] using hv.stands
  have hbaseChecked : ∀ origin ∈ kept (if d.batch.clear then [] else current deliveries),
      checkPayload origin.2 origin.1 = .ok () := by
    cases d.batch.clear with
    | true => exact List.forall_mem_nil _
    | false => exact hv.checked
  have happend : kept (current (deliveries ++ [d])) =
      kept (if d.batch.clear then [] else current deliveries) ++
        if d.batch.onlyOnce then [] else d.batch.commands.map (·, d.payloads) := by
    rw [current_append, kept_append]
  subst hw
  constructor
  · rw [happend]
    cases d.batch.onlyOnce with
    | true => simpa using hbase
    | false =>
        simp only [Bool.false_eq_true, if_false, remember]
        refine List.rel_append (hbase.imp fun _ _ h => h.append d.payloads) ?_
        rw [List.forall₂_map_left_iff, List.forall₂_map_right_iff, List.forall₂_same]
        exact fun command hc => stands_rebase (hchecked command hc) _
  · rw [happend]
    intro origin ho
    rcases List.mem_append.mp ho with hold | hnew
    · exact hbaseChecked origin hold
    · cases honce : d.batch.onlyOnce with
      | true =>
          rw [honce] at hnew
          cases hnew
      | false =>
          rw [honce] at hnew
          obtain ⟨command, hc, rfl⟩ := List.mem_map.mp hnew
          exact hchecked command hc

theorem Remembers.plan (hv : v.Remembers deliveries) (entry : Entry) :
    (v.plan entry).1.Remembers (deliveries ++ (v.accepted? entry).toList) := by
  cases hquiet : entry.isQuiet with
  | true =>
      have hnone : v.accepted? entry = none := by
        cases entry with
        | receive _ _ => cases hquiet
        | _ => rfl
      obtain ⟨-, -, -, hcommands, hpayloads⟩ := v.plan_agrees hquiet
      rw [hnone, Option.toList_none, List.append_nil]
      exact hv.congr hcommands hpayloads
  | false =>
      cases entry with
      | withChecks checks =>
          simp only [accepted?, Option.toList_none, List.append_nil]
          exact hv.congr rfl rfl
      | register uid =>
          simp only [accepted?, Option.toList_none, List.append_nil, Viewer.plan, react,
            Viewer.register]
          split
          · exact hv
          · cases v.registry.register uid with
            | error e => exact hv.congr rfl rfl
            | ok registered => exact hv.congr rfl rfl
      | receive batch payloads =>
          simp only [Viewer.plan, accepted?, Viewer.receive]
          cases hdegraded : v.isDegraded with
          | true => simpa using hv
          | false =>
              simp only [Bool.false_eq_true, if_false]
              cases hcheck : batch.commands.forM (Viewer.checkPayload payloads) with
              | error e => simpa using hv
              | ok _ =>
                  have hnext := hv.receive (d := ⟨batch, payloads⟩) hcheck rfl
                  cases honce : batch.onlyOnce with
                  | true => simpa [honce] using hnext
                  | false => simpa [honce] using hnext
      | _ => cases hquiet

/-- An entry changes what is remembered only by an accepted batch. -/
theorem Remembers.react (hv : v.Remembers deliveries) (entry : Entry) :
    (v.react entry).Remembers (deliveries ++ (v.accepted? entry).toList) := by
  obtain ⟨hcommands, hpayloads⟩ := passes_keep (v.plan entry).1 (v.plan entry).2
  rw [← react_eq_plan] at hcommands hpayloads
  exact (hv.plan entry).congr hcommands hpayloads

theorem Remembers.after (hv : v.Remembers deliveries) (entries : List Entry) :
    (v.after entries).Remembers (deliveries ++ v.acceptedBy entries) := by
  induction entries generalizing v deliveries with
  | nil =>
      rw [acceptedBy, List.append_nil]
      exact hv
  | cons entry rest ih =>
      rw [acceptedBy, ← List.append_assoc]
      exact ih (hv.react entry)

end Receive

theorem new_remembers {context : Option Context} {config : ViewerConfig} {checks : Bool}
    {v : Viewer} (hnew : Viewer.new context config checks = .ok v) : v.Remembers [] := by
  obtain ⟨-, -, -, hcommands, hpayloads⟩ := new_empty hnew
  refine ⟨?_, List.forall_mem_nil _⟩
  rw [hcommands, hpayloads]
  exact .nil

theorem Stands.exists_of_mem {remembered : List (List UInt8)} {commands : List Command}
    {origins : List (Command × List (List UInt8))}
    (h : List.Forall₂ (Stands remembered) commands origins) (hc : command ∈ commands) :
    ∃ origin ∈ origins, Stands remembered command origin := by
  induction h with
  | nil => cases hc
  | @cons first origin _ _ hfirst _ ih =>
      rcases List.mem_cons.mp hc with rfl | hc
      · exact ⟨origin, List.mem_cons_self, hfirst⟩
      · obtain ⟨origin', ho, hstands⟩ := ih hc
        exact ⟨origin', List.mem_cons_of_mem _ ho, hstands⟩

theorem Remembers.checkPayload {v : Viewer} {deliveries : List Delivery}
    (hv : v.Remembers deliveries) (hc : command ∈ v.commands) :
    Viewer.checkPayload v.payloads command = .ok () := by
  obtain ⟨origin, ho, hstands⟩ := Stands.exists_of_mem hv.stands hc
  exact hstands.checkPayload (hv.checked origin ho)

theorem payload?_of_checkPayload {s : Surroundings}
    (hcheck : Viewer.checkPayload s.payloads command = .ok ()) :
    ∃ payload, s.payload? command = .ok payload := by
  cases hpayload : command.payload with
  | none => exact ⟨none, by simp only [Surroundings.payload?, hpayload]⟩
  | some ref =>
      obtain ⟨type, bytes, htype, hbytes, hsize⟩ := checkPayload_eq_ok_iff.mp hcheck ref hpayload
      obtain ⟨elements, hdecode⟩ : ∃ elements, Elements.decode type bytes = .ok elements :=
        ⟨_, if_neg (not_not_intro hsize)⟩
      refine ⟨some ⟨elements, ref.shape⟩, ?_⟩
      simp only [Surroundings.payload?, hpayload, hbytes, htype]
      simp only [Except.mapError, bind, Except.bind, hdecode]
      rfl

/-- A command whose payload was checked never blames its payload reference. -/
theorem not_blames_of_checkPayload {checks : Bool} {m m' : Machine} {e : CommandError}
    (hcheck : Viewer.checkPayload payloads command = .ok ())
    (hfailed : m.executeCommand checks payloads command = (.error e, m')) :
    ¬ e.BlamesReference := by
  intro hblames
  obtain ⟨payload, hread⟩ := payload?_of_checkPayload (s := m.surroundings payloads) hcheck
  cases hread.symm.trans (Machine.executeCommand_blames hfailed hblames)

/-- No replay of what is remembered, by whatever machine, blames a payload reference. -/
theorem Remembers.replay {v : Viewer} {deliveries : List Delivery} (hv : v.Remembers deliveries)
    (checks : Bool) (m : Machine) :
    ∀ f ∈ (m.execute checks v.commands v.payloads).1.failures, ¬ f.error.BlamesReference := by
  intro f hf
  obtain ⟨i, command, m₁, m₂, hcommand, -, -, hfailed⟩ :=
    Machine.command_of_mem_failures v.commands 0 (m.readAway checks) hf
  exact not_blames_of_checkPayload (hv.checkPayload (List.mem_of_getElem? hcommand)) hfailed

/-- What a viewer remembers, whatever its host does: the commands of the accepted batches that
were not meant to run once, from the last batch that cleared on, each up to the index of its
payload, which leads to the bytes of the payload in its own batch. So no replay ever reports a
payload index, an element type or a payload length. -/
theorem remembered_commands {context : Option Context} {config : ViewerConfig} {checks : Bool}
    {v : Viewer} (hnew : Viewer.new context config checks = .ok v) (entries : List Entry) :
    (∃ dropped current, v.acceptedBy entries = dropped ++ current ∧
      (∀ d ∈ current.tail, d.batch.clear = false) ∧
      (dropped = [] ∨ ∃ d rest, current = d :: rest ∧ d.batch.clear = true) ∧
      List.Forall₂ (Stands (v.after entries).payloads) (v.after entries).commands
        (kept current)) ∧
    ∀ checks (m : Machine),
      ∀ f ∈ (m.execute checks (v.after entries).commands (v.after entries).payloads).1.failures,
        ¬ f.error.BlamesReference := by
  have hremembers := (new_remembers hnew).after entries
  rw [List.nil_append] at hremembers
  obtain ⟨dropped, hsplit, htail, hhead⟩ := exists_append_current (v.acceptedBy entries)
  exact ⟨⟨dropped, _, hsplit, htail, hhead, hremembers.stands⟩, hremembers.replay⟩

/-- The payload of a second batch comes behind that of the first, and both uploads find theirs. -/
theorem second_batch_rebased :
    ∃ v, Viewer.new (some (Context.new 700 500)) {} false = .ok v ∧
      let upload : Command :=
        ⟨.bufferData "ARRAY_BUFFER" "STATIC_DRAW" false none, some ⟨0, "uint8", [1]⟩⟩
      let w := v.after [.receive { commands := [upload] } [[7]],
        .receive { commands := [upload] } [[8]]]
      w.payloads = [[7], [8]] ∧ w.commands.map (·.payload.map (·.index)) = [some 0, some 1] ∧
        ∀ checks (m : Machine), ∀ f ∈ (m.execute checks w.commands w.payloads).1.failures,
          ¬ f.error.BlamesReference := by
  set_option maxRecDepth 2000 in
  refine ⟨_, rfl, rfl, rfl, ?_⟩
  exact (remembered_commands (rfl : Viewer.new (some (Context.new 700 500)) {} false = .ok _)
    [.receive { commands :=
        [⟨.bufferData "ARRAY_BUFFER" "STATIC_DRAW" false none, some ⟨0, "uint8", [1]⟩⟩] } [[7]],
      .receive { commands :=
        [⟨.bufferData "ARRAY_BUFFER" "STATIC_DRAW" false none, some ⟨0, "uint8", [1]⟩⟩] } [[8]]]).2

end Viewer

end GlPlayback
