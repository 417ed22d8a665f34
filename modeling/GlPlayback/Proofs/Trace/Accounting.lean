import GlPlayback.Proofs.Viewer.Progress
import GlPlayback.Trace.Replay

/-!
What a summary accounts for. Every batch is followed by all that is remembered, so a command is
counted once for each pass that it is part of; failures come batch by batch. More batches only add
to a summary.
-/
namespace GlPlayback

/-- How many commands run for batches, one batch after the other, on a viewer that remembers `n`:
for each batch all that is remembered after it, and its own commands if they run once. -/
def Batch.commandsRun : Nat → List Batch → Nat
  | _, [] => 0
  | n, batch :: rest =>
      batch.remembers n + (if batch.onlyOnce then batch.commands.length else 0) +
        commandsRun (batch.remembers n) rest

namespace Trace

variable {trace : Trace} {config : Option ViewerConfig} {checks : Bool}

theorem zipIdx_take {α : Type} (as : List α) (n k : Nat) :
    (as.take n).zipIdx k = (as.zipIdx k).take n := by
  refine List.ext_getElem? fun i => ?_
  simp only [List.getElem?_zipIdx, List.getElem?_take]
  split <;> rfl

/-- The first batches of a trace are decoded to the first ones of the whole. -/
theorem decode_take {batches : List (Batch × List (List UInt8))}
    (h : trace.decode = .ok batches) :
    batches.map (·.1) = trace.batches.map (·.batch) ∧
    ∀ n, decode { trace with batches := trace.batches.take n } = .ok (batches.take n) := by
  rw [decode, mapM_eq_ok_iff] at h
  refine ⟨?_, fun n => ?_⟩
  · have hbatches : List.Forall₂ (· = ·) (batches.map (·.1))
        (trace.batches.zipIdx.map (·.1.batch)) := by
      rw [List.forall₂_map_left_iff, List.forall₂_map_right_iff]
      refine h.flip.imp fun decoded numbered hdecoded => ?_
      obtain ⟨payloads, -, rfl⟩ := map_eq_ok_iff.mp hdecoded
      rfl
    rw [List.forall₂_eq_eq_eq] at hbatches
    have hfst : (trace.batches.zipIdx.map (·.1)).map (·.batch) = trace.batches.map (·.batch) := by
      rw [List.zipIdx_map_fst]
    rw [hbatches, ← hfst, List.map_map]
    rfl
  · rw [decode, mapM_eq_ok_iff, zipIdx_take]
    exact List.forall₂_take n h

theorem new_takesPart {ctx : Context} {config : ViewerConfig} {v : Viewer}
    (hnew : Viewer.new (some ctx) config checks = .ok v) : v.isDegraded = false := by
  obtain ⟨-, rfl⟩ := Viewer.new_eq_ok hnew
  rfl

theorem register_eq_ok {v w : Viewer} {uid : Nat} {h : Handle}
    (hregister : v.register uid = (.ok h, w)) :
    w.isDegraded = v.isDegraded ∧ w.commands = v.commands ∧
      w.registry.size = v.registry.size + 1 := by
  simp only [Viewer.register] at hregister
  split at hregister
  · cases hregister
  · cases hnext : v.registry.register uid with
    | error e =>
        rw [hnext] at hregister
        cases hregister
    | ok next =>
        rw [hnext] at hregister
        cases hregister
        obtain ⟨-, -, hregistered⟩ := Registry.register_eq_ok_iff.mp hnext
        refine ⟨rfl, rfl, ?_⟩
        simp only [hregistered, Registry.size, List.length_append, List.length_singleton]

theorem foldlM_register_eq_ok {uids : List Nat} {v w : Viewer}
    (h : uids.foldlM (m := Except ViewerError) (fun v uid => match v.register uid with
      | (.ok _, v) => .ok v
      | (.error e, _) => .error e) v = .ok w) :
    w.isDegraded = v.isDegraded ∧ w.commands = v.commands ∧
      w.registry.size = v.registry.size + uids.length := by
  induction uids generalizing v with
  | nil =>
      cases h
      exact ⟨rfl, rfl, rfl⟩
  | cons uid rest ih =>
      rw [List.foldlM_cons, bind_eq_ok_iff] at h
      obtain ⟨next, hfirst, hrest⟩ := h
      split at hfirst
      · next hregister =>
          cases hfirst
          obtain ⟨hdegraded, hcommands, hsize⟩ := register_eq_ok hregister
          obtain ⟨hdegraded', hcommands', hsize'⟩ := ih hrest
          refine ⟨hdegraded'.trans hdegraded, hcommands'.trans hcommands, ?_⟩
          rw [hsize', hsize, List.length_cons, Nat.add_right_comm, Nat.add_assoc]
      · cases hfirst

/-- The viewer of a trace takes part, remembers nothing and knows all resources of the trace. -/
theorem viewer_ready {v : Viewer} (h : trace.viewer config checks = .ok v) :
    v.isDegraded = false ∧ v.commands = [] ∧ v.registry.size = trace.resources := by
  rw [viewer, bind_eq_ok_iff] at h
  obtain ⟨fresh, hnew, hregistered⟩ := h
  obtain ⟨hregistry, -, -, hcommands, -⟩ := Viewer.new_empty hnew
  obtain ⟨hdegraded, hkept, hsize⟩ := foldlM_register_eq_ok hregistered
  refine ⟨hdegraded.trans (new_takesPart hnew), hkept.trans hcommands, ?_⟩
  rw [hsize, hregistry, List.length_range]
  exact Nat.zero_add _

section Send

variable {batch : Batch} {payloads : List (List UInt8)} {k : Nat} {state state' : Summary × Viewer}

/-- What becomes of a summary and its viewer while batches are sent, the first of them with number
`k`. -/
structure Continues (k : Nat) (batches : List Batch) (state state' : Summary × Viewer) : Prop where
  counted : state'.1.executed + state'.1.failures.length =
    state.1.executed + state.1.failures.length +
      Batch.commandsRun state.2.commands.length batches
  executed_le : state.1.executed ≤ state'.1.executed
  failures_eq : ∃ more, state'.1.failures = state.1.failures ++ more ∧
    more.Pairwise (·.batch ≤ ·.batch) ∧ ∀ f ∈ more, k ≤ f.batch
  advances : state.2.Advances state'.2

theorem send_adds (hactive : state.2.isDegraded = false)
    (h : send state ((batch, payloads), k) = .ok state') :
    ∃ report, state'.1 = state.1.add k report ∧
      state'.2.commands.length = batch.remembers state.2.commands.length ∧
      report.executed + report.failures.length =
        state'.2.commands.length + (if batch.onlyOnce then batch.commands.length else 0) ∧
      state.2.Advances state'.2 := by
  have hadvances := state.2.receive_advances batch payloads
  cases hreceive : state.2.receive batch payloads with
  | mk result v =>
      simp only [send, hreceive] at h hadvances
      cases result with
      | error e => cases h
      | ok report =>
          cases h
          obtain ⟨hremembered, hcounted⟩ := Viewer.receive_counts hactive hreceive
          exact ⟨report, rfl, hremembered, hcounted, hadvances⟩

theorem foldlM_send_continues (batches : List (Batch × List (List UInt8))) (k : Nat)
    (hactive : state.2.isDegraded = false)
    (h : (batches.zipIdx k).foldlM send state = .ok state') :
    Continues k (batches.map (·.1)) state state' := by
  induction batches generalizing k state with
  | nil =>
      cases h
      exact ⟨rfl, Nat.le_refl _, ⟨[], (List.append_nil _).symm, .nil, List.forall_mem_nil _⟩,
        .refl _⟩
  | cons first rest ih =>
      obtain ⟨batch, payloads⟩ := first
      rw [List.zipIdx_cons, List.foldlM_cons, bind_eq_ok_iff] at h
      obtain ⟨sent, hsend, hlater⟩ := h
      obtain ⟨report, hsummary, hremembered, hcounted, hadvances⟩ := send_adds hactive hsend
      have hrest := ih (k + 1) (hadvances.degraded_eq.trans hactive) hlater
      obtain ⟨more, hmore, hascending, hfrom⟩ := hrest.failures_eq
      -- The first batch's own failures all have its number, and the later ones larger numbers.
      let own := report.failures.map (TraceFailure.mk k)
      have hown (f : TraceFailure) (hf : f ∈ own) : f.batch = k := by
        obtain ⟨failure, -, rfl⟩ := List.mem_map.mp hf
        rfl
      refine ⟨?_, ?_, ⟨own ++ more, ?_, ?_, ?_⟩, hadvances.trans hrest.advances⟩
      · have htotal := hrest.counted
        rw [hsummary] at htotal
        simp only [Summary.add, List.length_append, List.length_map] at htotal
        simp only [List.map_cons, Batch.commandsRun, ← hremembered]
        omega
      · refine Nat.le_trans ?_ hrest.executed_le
        rw [hsummary]
        exact Nat.le_add_right _ _
      · rw [hmore, hsummary, ← List.append_assoc]
        rfl
      · rw [List.pairwise_append]
        refine ⟨?_, hascending, fun f hf g hg => ?_⟩
        · refine List.pairwise_of_forall_mem_list fun f hf g hg => ?_
          exact Nat.le_of_eq ((hown f hf).trans (hown g hg).symm)
        · rw [hown f hf]
          exact Nat.le_of_succ_le (hfrom g hg)
      · intro f hf
        rcases List.mem_append.mp hf with hf | hf
        · exact Nat.le_of_eq (hown f hf).symm
        · exact Nat.le_of_succ_le (hfrom f hf)

end Send

/-- A replay that succeeds, step by step. -/
theorem replay_eq_ok_iff {summary : Summary} {v : Viewer} :
    trace.replay config checks = .ok (summary, v) ↔
      ∃ batches fresh before, trace.decode = .ok batches ∧ trace.viewer config checks = .ok fresh ∧
        batches.zipIdx.foldlM send ({}, fresh) = .ok (before, v) ∧ summary = before.finish v := by
  simp only [replay, bind_eq_ok_iff, mapError_eq_ok_iff]
  constructor
  · rintro ⟨batches, hdecode, fresh, hviewer, ⟨before, w⟩, hsent, ⟨⟩⟩
    exact ⟨batches, fresh, before, hdecode, hviewer, hsent, rfl⟩
  · rintro ⟨batches, fresh, before, hdecode, hviewer, hsent, rfl⟩
    exact ⟨batches, hdecode, fresh, hviewer, (before, v), hsent, rfl⟩

/-- The records that a summary lists, each with the number that it is listed under. -/
theorem records_zipIdx (s : Summary) (v : Viewer) : (s.finish v).records.zipIdx =
    (List.range v.registry.size).map fun uid => (v.registry.record ⟨uid⟩, uid) := by
  refine List.ext_getElem? fun uid => ?_
  simp only [Summary.finish, List.getElem?_zipIdx, List.getElem?_map]
  by_cases huid : uid < v.registry.size
  · have hget : v.registry.resources[uid]? = some v.registry.resources[uid] :=
      List.getElem?_eq_getElem huid
    have hrecord : v.registry.record ⟨uid⟩ = v.registry.resources[uid].record :=
      Registry.record_of_get (Registry.get_eq_ok_iff.mpr hget)
    rw [List.getElem?_range huid, hget]
    simp [hrecord]
  · rw [List.getElem?_eq_none (Nat.not_lt.mp huid), List.getElem?_eq_none (by simpa using huid)]
    rfl

/-- A replay accounts for all that ran. What is executed and what failed together are, batch by
batch, the commands remembered after the batch and its own if they run once; failures come in the
order of their batches; and there is one record for each resource, in the order of their numbers.
Without its last batches a trace is replayed as well, with the first of the failures and with no
larger numbers. -/
theorem replay_accounts {summary : Summary} {v : Viewer}
    (h : trace.replay config checks = .ok (summary, v)) :
    summary.executed + summary.failures.length =
      Batch.commandsRun 0 (trace.batches.map (·.batch)) ∧
    summary.failures.Pairwise (·.batch ≤ ·.batch) ∧
    v.registry.size = trace.resources ∧
    (summary.records.zipIdx =
      (List.range trace.resources).map fun uid => (v.registry.record ⟨uid⟩, uid)) ∧
    ∀ n, ∃ summary' v',
      replay { trace with batches := trace.batches.take n } config checks = .ok (summary', v') ∧
      summary'.failures <+: summary.failures ∧
      summary'.executed ≤ summary.executed ∧
      summary'.drawCalls ≤ summary.drawCalls ∧
      summary'.updates ≤ summary.updates := by
  obtain ⟨batches, fresh, before, hdecode, hviewer, hsent, rfl⟩ := replay_eq_ok_iff.mp h
  obtain ⟨hactive, hcommands, hsize⟩ := viewer_ready hviewer
  obtain ⟨hbatches, htake⟩ := decode_take hdecode
  have hall := foldlM_send_continues batches 0 hactive hsent
  obtain ⟨failures, hfailures, hascending, -⟩ := hall.failures_eq
  have hknown : v.registry.size = trace.resources := hall.advances.size_eq.trans hsize
  refine ⟨?_, ?_, hknown, ?_, fun n => ?_⟩
  · have hcounted := hall.counted
    rw [hbatches, hcommands] at hcounted
    simpa [Summary.finish] using hcounted
  · rw [List.nil_append] at hfailures
    rw [← hfailures] at hascending
    exact hascending
  · rw [records_zipIdx, hknown]
  · rw [← List.take_append_drop n batches, List.zipIdx_append, List.foldlM_append,
      bind_eq_ok_iff] at hsent
    obtain ⟨⟨reached, w⟩, hfirst, hlater⟩ := hsent
    have hstart := foldlM_send_continues (batches.take n) 0 hactive hfirst
    have hrest := foldlM_send_continues (batches.drop n) _
      (hstart.advances.degraded_eq.trans hactive) hlater
    obtain ⟨more, hmore, -⟩ := hrest.failures_eq
    refine ⟨reached.finish w, w, ?_, ⟨more, hmore.symm⟩, hrest.executed_le,
      hrest.advances.drawn, hrest.advances.told.length_le⟩
    exact replay_eq_ok_iff.mpr ⟨_, _, _, htake n, hviewer, hfirst, rfl⟩

/-- A word that is no comparison, then a batch that runs once, then one that clears. The first
command runs twice and each of the others once. -/
theorem replay_accounts_cleared :
    let trace : Trace := ⟨none, 1,
      [⟨{ commands := [⟨.depthFunc "sometimes", none⟩] }, []⟩,
        ⟨{ onlyOnce := true, commands := [⟨.create .buffer 0, none⟩] }, []⟩,
        ⟨{ clear := true, commands := [⟨.unknown, none⟩] }, []⟩]⟩
    ∃ summary v, trace.replay none false = .ok (summary, v) ∧
      summary.executed + summary.failures.length = 4 ∧ summary.records.length = 1 := by
  intro trace
  have hreplayed : (trace.replay none false).toBool = true := by
    subst trace
    decide +kernel
  cases h : trace.replay none false with
  | error e =>
      rw [h] at hreplayed
      cases hreplayed
  | ok result =>
      obtain ⟨hcounted, -, -, hrecords, -⟩ := replay_accounts h
      refine ⟨result.1, result.2, rfl, hcounted, ?_⟩
      have hlength := congrArg List.length hrecords
      simpa [trace] using hlength

end Trace

end GlPlayback
