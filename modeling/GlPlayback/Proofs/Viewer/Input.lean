import GlPlayback.Proofs.Viewer.Camera
import Mathlib.Data.List.Induction

/-!
Move keys and frames. Which directions are held follows from the log of entries alone, and as long
as one is held a frame is pending, so that a frame that runs asks for the next one.
-/
namespace GlPlayback

namespace Direction

/-- The place of a direction's key among the move keys of a config. -/
def slot : Direction → Nat
  | forward => 0
  | left => 1
  | back => 2
  | right => 3

theorem getElem?_all {i : Nat} {d : Direction} : all[i]? = some d ↔ i = d.slot := by
  match i with
  | 0 | 1 | 2 | 3 | n + 4 => cases d <;> simp [all, slot]

end Direction

/-- Of several names for one key the first counts. -/
theorem findSome?_zip_eq_some_iff {α : Type} {c : Char} {a : α} (as : List α) (keys : List Char) :
    ((as.zip keys).findSome? fun (b, k) => if k = c then some b else none) = some a ↔
      ∃ i : Nat, as[i]? = some a ∧ keys[i]? = some c ∧ ∀ j < i, keys[j]? ≠ some c := by
  induction as generalizing keys with
  | nil => exact iff_of_false nofun fun ⟨i, h, _⟩ => nomatch h
  | cons b as ih =>
      cases keys with
      | nil => exact iff_of_false nofun fun ⟨i, _, h, _⟩ => nomatch h
      | cons k keys =>
          rw [List.zip_cons_cons, List.findSome?_cons]
          by_cases hk : k = c
          · simp only [if_pos hk]
            constructor
            · rintro ⟨⟩
              exact ⟨0, rfl, congrArg some hk, fun j hj => absurd hj (Nat.not_lt_zero j)⟩
            · rintro ⟨i, ha, -, hfirst⟩
              cases i with
              | zero => exact ha
              | succ i => exact absurd (congrArg some hk) (hfirst 0 (Nat.succ_pos i))
          · simp only [if_neg hk]
            refine (ih keys).trans ⟨?_, ?_⟩
            · rintro ⟨i, ha, hc, hfirst⟩
              refine ⟨i + 1, ha, hc, fun j hj => ?_⟩
              cases j with
              | zero => exact fun h => hk (Option.some.inj h)
              | succ j => exact hfirst j (Nat.lt_of_succ_lt_succ hj)
            · rintro ⟨i, ha, hc, hfirst⟩
              cases i with
              | zero => exact absurd (Option.some.inj hc) hk
              | succ i => exact ⟨i, ha, hc, fun j hj => hfirst (j + 1) (Nat.succ_lt_succ hj)⟩

theorem Navigation.isMoving_iff {n : Navigation} : n.isMoving = true ↔ ∃ d, d ∈ n.held := by
  rw [isMoving, Bool.not_eq_true', List.isEmpty_eq_false_iff_exists_mem]

theorem Navigation.mem_press {n : Navigation} {d d' : Direction} :
    d' ∈ (n.press d).held ↔ d' = d ∨ d' ∈ n.held := by
  rw [press]
  by_cases hd : d ∈ n.held
  · rw [if_pos (List.contains_iff_mem.mpr hd), or_iff_right_of_imp]
    rintro rfl
    exact hd
  · rw [if_neg (mt List.contains_iff_mem.mp hd), List.mem_cons]

theorem Navigation.mem_release {n : Navigation} {d d' : Direction} :
    d' ∈ (n.release d).held ↔ d' ∈ n.held ∧ d' ≠ d := by
  rw [release, List.mem_filter, decide_eq_true_iff]

namespace Viewer

variable {v : Viewer} {entry : Entry} {d : Direction} {key : String}

/-- The key is one character: the move key of the direction, and of no direction before it. -/
def Steers (v : Viewer) (key : String) (d : Direction) : Prop :=
  ∃ c, key.toList = [c] ∧ v.config.moveKey? d.slot = some c ∧
    ∀ i < d.slot, v.config.moveKey? i ≠ some c

theorem direction?_eq_some_iff : v.direction? key = some d ↔ v.Steers key d := by
  rw [direction?, Steers]
  split
  · next c hkey =>
      simp only [findSome?_zip_eq_some_iff, Direction.getElem?_all, exists_eq_left, hkey,
        List.cons.injEq, and_true, exists_eq_left', ViewerConfig.moveKey?]
  · next hmany => exact iff_of_false nofun fun ⟨c, hkey, _⟩ => hmany c hkey

theorem direction?_eq_none (hkey : ∀ c ∈ v.config.moveKeys.toList, key.toList ≠ [c]) :
    v.direction? key = none := by
  rw [Option.eq_none_iff_forall_ne_some]
  intro d hd
  obtain ⟨c, hc, hslot, -⟩ := direction?_eq_some_iff.mp hd
  exact hkey c (List.mem_of_getElem? hslot) hc

/-- A pass leaves the keys, and the frame that is pending or not. -/
theorem pass_input (v : Viewer) (p : Pass) :
    (v.pass p).navigation = v.navigation ∧ (v.pass p).pending = v.pending := by
  obtain ⟨camera, context, hupload⟩ := v.uploadCamera_eq
  simp only [pass, execute, hupload]
  split <;> exact ⟨rfl, rfl⟩

theorem react_input (v : Viewer) (entry : Entry) :
    (v.react entry).navigation = (v.plan entry).1.navigation ∧
      (v.react entry).pending = (v.plan entry).1.pending := by
  rw [react_eq_plan]
  generalize (v.plan entry).2 = passes
  generalize (v.plan entry).1 = planned
  induction passes generalizing planned with
  | nil => exact ⟨rfl, rfl⟩
  | cons p rest ih =>
      obtain ⟨hnavigation, hpending⟩ := planned.pass_input p
      obtain ⟨hnavigation', hpending'⟩ := ih (planned.pass p)
      exact ⟨hnavigation'.trans hnavigation, hpending'.trans hpending⟩

/-- Entries that have to do with keys, with the pointer or with frames. -/
def Entry.isInput : Entry → Bool
  | setMouseSpeed _ | setMoveSpeed _ | setMoveKeys _ | mouseDown | mouseUp | mouseOut
  | mouseMove _ _ | keyDown _ _ | keyUp _ | requestRedraw | frame => true
  | _ => false

theorem react_of_other (v : Viewer) (hentry : entry.isInput = false) :
    (v.react entry).navigation = v.navigation ∧ (v.react entry).pending = v.pending := by
  obtain ⟨hnavigation, hpending⟩ := v.react_input entry
  rw [hnavigation, hpending]
  cases entry with
  | register uid =>
      simp only [plan, react, register]
      split
      · exact ⟨rfl, rfl⟩
      · split <;> exact ⟨rfl, rfl⟩
  | receive batch payloads =>
      simp only [plan, clearFor]
      split
      · exact ⟨rfl, rfl⟩
      · split
        · exact ⟨rfl, rfl⟩
        · split <;> split <;> exact ⟨rfl, rfl⟩
  | setSize width height =>
      simp only [plan]
      split <;> exact ⟨rfl, rfl⟩
  | withChecks _ | run | setPosition _ | setYaw _ | setPitch _ | setMatrixMajor _
  | changeContext _ => exact ⟨rfl, rfl⟩
  | _ => cases hentry

/-- A frame leaves the keys, and asks for the next one as long as one of them is held. -/
theorem react_frame (v : Viewer) : (v.react .frame).navigation = v.navigation ∧
    (v.react .frame).pending = v.navigation.isMoving := by
  obtain ⟨hnavigation, hpending⟩ := v.react_input .frame
  rw [hnavigation, hpending, plan]
  split
  · next hmoving => exact ⟨rfl, hmoving.symm⟩
  · next hstill => exact ⟨rfl, (Bool.not_eq_true _ ▸ hstill).symm⟩

section Keys

/-- A press of the direction's key that is no repetition. -/
def Presses (v : Viewer) (d : Direction) : Entry → Prop
  | .keyDown key false => v.Steers key d
  | _ => False

def Releases (v : Viewer) (d : Direction) : Entry → Prop
  | .keyUp key => v.Steers key d
  | _ => False

/-- The pointer leaves, or other move keys are chosen with success. -/
def Resets (v : Viewer) : Entry → Prop
  | .mouseOut => True
  | .setMoveKeys keys => (v.setMoveKeys keys).1 = .ok ()
  | _ => False

/-- What one entry makes of the directions that are held. -/
theorem mem_held_react : d ∈ (v.react entry).navigation.held ↔
    v.Presses d entry ∨ d ∈ v.navigation.held ∧ ¬(v.Releases d entry ∨ v.Resets entry) := by
  have hsame (hheld : (v.react entry).navigation.held = v.navigation.held)
      (hpress : ¬v.Presses d entry) (hrelease : ¬v.Releases d entry) (hreset : ¬v.Resets entry) :
      d ∈ (v.react entry).navigation.held ↔
        v.Presses d entry ∨ d ∈ v.navigation.held ∧ ¬(v.Releases d entry ∨ v.Resets entry) := by
    rw [hheld, or_iff_right hpress, or_iff_right hrelease, and_iff_left hreset]
  cases entry with
  | keyDown key isRepeat =>
      cases isRepeat with
      | true => exact hsame rfl id id id
      | false =>
          simp only [react, keyDown, Presses, Releases, Resets, ← direction?_eq_some_iff,
            Bool.false_eq_true, if_false, or_false, not_false_eq_true, and_true]
          cases v.direction? key with
          | none => simp
          | some d' => simp [Navigation.mem_press, eq_comm]
  | keyUp key =>
      simp only [react, keyUp, Presses, Releases, Resets, ← direction?_eq_some_iff, or_false,
        false_or]
      cases v.direction? key with
      | none => simp
      | some d' => simp [Navigation.mem_release, eq_comm]
  | setMoveKeys keys =>
      simp only [react, setMoveKeys, Presses, Releases, Resets, false_or]
      cases ViewerConfig.validate { v.config with moveKeys := keys } with
      | error e => simp
      | ok _ => simp
  | mouseOut => simp [react, mouseOut, Presses, Resets]
  | mouseMove dx dy =>
      refine hsame ?_ id id id
      simp only [react, mouseMove]
      split <;> rfl
  | frame => exact hsame (congrArg _ v.react_frame.1) id id id
  | setMouseSpeed _ | setMoveSpeed _ | mouseDown | mouseUp | requestRedraw =>
      exact hsame rfl id id id
  | withChecks _ | register _ | receive _ _ | run | setSize _ _ | setPosition _ | setYaw _
  | setPitch _ | setMatrixMajor _ | changeContext _ =>
      exact hsame (congrArg _ (v.react_of_other rfl).1) id id id

theorem after_concat (v : Viewer) (entries : List Entry) (entry : Entry) :
    v.after (entries ++ [entry]) = (v.after entries).react entry :=
  List.foldl_concat ..

/-- In the course of the entries something started, and since then nothing has ended it. Both are
judged by the entry and by the viewer that it meets. -/
def Since (started ended : Viewer → Entry → Prop) (v : Viewer) (entries : List Entry) : Prop :=
  ∃ before entry later, entries = before ++ entry :: later ∧ started (v.after before) entry ∧
    ∀ mid e rest, later = mid ++ e :: rest → ¬ended (v.after (before ++ entry :: mid)) e

variable {started ended : Viewer → Entry → Prop} {entries : List Entry}

theorem not_since_nil : ¬Since started ended v [] := by
  rintro ⟨before, entry, later, hsplit, -⟩
  exact List.append_ne_nil_of_right_ne_nil before (List.cons_ne_nil entry later) hsplit.symm

theorem since_concat : Since started ended v (entries ++ [entry]) ↔
    started (v.after entries) entry ∨
      Since started ended v entries ∧ ¬ended (v.after entries) entry := by
  constructor
  · rintro ⟨before, first, later, hsplit, hstarted, hlater⟩
    rcases List.eq_nil_or_concat' later with rfl | ⟨later, last, rfl⟩
    · obtain ⟨rfl, hlast⟩ := List.append_inj' hsplit rfl
      cases hlast
      exact .inl hstarted
    · rw [← List.cons_append, ← List.append_assoc] at hsplit
      obtain ⟨rfl, hlast⟩ := List.append_inj' hsplit rfl
      cases hlast
      refine .inr ⟨⟨before, first, later, rfl, hstarted, fun mid e rest hmid => ?_⟩,
        hlater later entry [] rfl⟩
      exact hlater mid e (rest ++ [entry]) (by rw [hmid, List.append_assoc, List.cons_append])
  · rintro (hstarted | ⟨⟨before, first, later, rfl, hstarted, hlater⟩, hlast⟩)
    · refine ⟨entries, entry, [], rfl, hstarted, fun mid e rest hmid => ?_⟩
      exact absurd hmid.symm (List.append_ne_nil_of_right_ne_nil mid (List.cons_ne_nil e rest))
    · refine ⟨before, first, later ++ [entry], by simp, hstarted, fun mid e rest hmid => ?_⟩
      rcases List.eq_nil_or_concat' rest with rfl | ⟨rest, last, rfl⟩
      · obtain ⟨rfl, he⟩ := List.append_inj' hmid rfl
        cases he
        exact hlast
      · rw [← List.cons_append, ← List.append_assoc] at hmid
        exact hlater mid e rest (List.append_inj' hmid rfl).1

theorem held_iff_since (hheld : v.navigation.held = []) (entries : List Entry) (d : Direction) :
    d ∈ (v.after entries).navigation.held ↔ Since (·.Presses d)
      (fun u entry => u.Presses d entry ∨ u.Releases d entry ∨ u.Resets entry) v entries := by
  induction entries using List.reverseRecOn with
  | nil =>
      refine iff_of_false ?_ not_since_nil
      rw [after, List.foldl_nil, hheld]
      exact List.not_mem_nil
  | append_singleton entries entry ih =>
      rw [after_concat, mem_held_react, ih, since_concat]
      tauto

/-- A direction is held exactly if its key was pressed since the last reset and not released after
the latest of these presses. A reset is the start, the pointer's leaving, and a choice of other move
keys that succeeds. Repeated presses, keys that are not one of the move keys alone and choices of
keys that fail leave the viewer as it is. -/
theorem held_iff_pressed {context : Option Context} {config : ViewerConfig} {checks : Bool}
    (hnew : Viewer.new context config checks = .ok v) (entries : List Entry) :
    let w := v.after entries
    (∀ d, d ∈ w.navigation.held ↔ Since (·.Presses d)
      (fun u entry => u.Presses d entry ∨ u.Releases d entry ∨ u.Resets entry) v entries) ∧
    (∀ key, w.keyDown key true = w) ∧
    (∀ key, (∀ c ∈ w.config.moveKeys.toList, key.toList ≠ [c]) →
      ∀ isRepeat, w.keyDown key isRepeat = w ∧ w.keyUp key = w) ∧
    ∀ keys e, (w.setMoveKeys keys).1 = .error e → (w.setMoveKeys keys).2 = w := by
  intro w
  have hheld : v.navigation.held = [] := by
    obtain ⟨-, rfl⟩ := new_eq_ok hnew
    rfl
  refine ⟨held_iff_since hheld entries, fun _ => rfl, fun key hkey isRepeat => ?_,
    fun _ _ => setMoveKeys_of_error⟩
  have hnone := direction?_eq_none hkey
  exact ⟨by simp [keyDown, hnone], by simp [keyUp, hnone]⟩

/-- Of two keys that go down one comes up again, and the other one is still held. -/
theorem held_iff_pressed_other :
    ∃ v, Viewer.new none {} false = .ok v ∧
      .right ∈ (v.after [.keyDown "w" false, .keyDown "d" false, .keyUp "w"]).navigation.held := by
  have hnew : Viewer.new none {} false = .ok _ := rfl
  refine ⟨_, hnew, ((held_iff_pressed hnew _).1 .right).mpr ?_⟩
  refine ⟨[.keyDown "w" false], .keyDown "d" false, [.keyUp "w"], rfl,
    ⟨'d', rfl, rfl, by decide⟩, fun mid e rest hmid => ?_⟩
  cases mid with
  | nil =>
      cases hmid
      rintro (hpress | ⟨c, hc, hslot, -⟩ | hreset)
      · exact hpress
      · cases hc
        cases hslot
      · exact hreset
  | cons _ mid => exact absurd (List.cons.inj hmid).2.symm (by simp)

end Keys

section Frames

/-- What asks for a frame of its own accord. A frame that runs while a key is held asks for the
next one, but only because of the key. -/
def AsksForFrame (v : Viewer) : Entry → Prop
  | .requestRedraw | .setMouseSpeed _ | .setMoveSpeed _ => True
  | .setMoveKeys keys => (v.setMoveKeys keys).1 = .ok ()
  | .mouseMove _ _ => v.navigation.dragging = true
  | .keyDown key false => ∃ d, v.Steers key d
  | _ => False

/-- None of the entries asks for a frame when its turn comes. -/
def AsksForNone (v : Viewer) : List Entry → Prop
  | [] => True
  | entry :: rest => ¬v.AsksForFrame entry ∧ (v.react entry).AsksForNone rest

/-- How many of the entries are frames that had been asked for. -/
def framesIn (v : Viewer) : List Entry → Nat
  | [] => 0
  | .frame :: rest => (if v.pending then 1 else 0) + (v.react .frame).framesIn rest
  | entry :: rest => (v.react entry).framesIn rest

/-- What one entry makes of the frame that is pending or not. -/
theorem pending_react : (v.react entry).pending = true ↔ v.AsksForFrame entry ∨
    match entry with
    | .frame => ∃ d, d ∈ v.navigation.held
    | _ => v.pending = true := by
  have hasked (hpending : (v.react entry).pending = true) (hasks : v.AsksForFrame entry)
      (P : Prop) : (v.react entry).pending = true ↔ v.AsksForFrame entry ∨ P :=
    iff_of_true hpending (.inl hasks)
  have hsame (hpending : (v.react entry).pending = v.pending) (hasks : ¬v.AsksForFrame entry) :
      (v.react entry).pending = true ↔ v.AsksForFrame entry ∨ v.pending = true := by
    rw [hpending, or_iff_right hasks]
  cases entry with
  | frame => simp only [v.react_frame.2, Navigation.isMoving_iff, AsksForFrame, false_or]
  | keyDown key isRepeat =>
      cases isRepeat with
      | true => exact hsame rfl id
      | false =>
          simp only [react, keyDown, AsksForFrame, ← direction?_eq_some_iff, Bool.false_eq_true,
            if_false]
          cases v.direction? key with
          | none => simp
          | some d => simp
  | keyUp key =>
      refine hsame ?_ id
      simp only [react, keyUp]
      split <;> rfl
  | setMoveKeys keys =>
      simp only [react, setMoveKeys, AsksForFrame]
      cases ViewerConfig.validate { v.config with moveKeys := keys } with
      | error e => simp
      | ok _ => simp
  | mouseMove dx dy =>
      simp only [react, mouseMove, AsksForFrame]
      split <;> simp [*]
  | setMouseSpeed _ | setMoveSpeed _ | requestRedraw => exact hasked rfl trivial _
  | mouseDown | mouseUp | mouseOut => exact hsame rfl id
  | withChecks _ | register _ | receive _ _ | run | setSize _ _ | setPosition _ | setYaw _
  | setPitch _ | setMatrixMajor _ | changeContext _ => exact hsame (v.react_of_other rfl).2 id

/-- As long as a key is held a frame is pending. -/
def KeepsGoing (v : Viewer) : Prop :=
  (∃ d, d ∈ v.navigation.held) → v.pending = true

theorem Presses.asksForFrame (h : v.Presses d entry) : v.AsksForFrame entry := by
  cases entry with
  | keyDown key isRepeat =>
      cases isRepeat with
      | true => exact h.elim
      | false => exact ⟨d, h⟩
  | _ => exact h.elim

theorem KeepsGoing.react (h : v.KeepsGoing) (entry : Entry) : (v.react entry).KeepsGoing := by
  rintro ⟨d, hd⟩
  rw [pending_react]
  rcases mem_held_react.mp hd with hpress | ⟨hheld, -⟩
  · exact .inl hpress.asksForFrame
  · right
    split
    · exact ⟨d, hheld⟩
    · exact h ⟨d, hheld⟩

theorem KeepsGoing.after (h : v.KeepsGoing) (entries : List Entry) :
    (v.after entries).KeepsGoing := by
  induction entries generalizing v with
  | nil => exact h
  | cons entry rest ih => exact ih (h.react entry)

/-- Without keys that are held and without requests, no other frame runs than the one that is
pending. -/
theorem framesIn_le (hstill : ∀ d, d ∉ v.navigation.held) {entries : List Entry}
    (hnone : v.AsksForNone entries) : v.framesIn entries ≤ if v.pending then 1 else 0 := by
  induction entries generalizing v with
  | nil => exact Nat.zero_le _
  | cons entry rest ih =>
      obtain ⟨hasks, hrest⟩ := hnone
      have hstill' : ∀ d, d ∉ (v.react entry).navigation.held := by
        intro d hd
        rcases mem_held_react.mp hd with hpress | ⟨hheld, -⟩
        · exact hasks hpress.asksForFrame
        · exact hstill d hheld
      have hlater := ih hstill' hrest
      have hpending := pending_react.trans (or_iff_right hasks)
      cases entry with
      | frame =>
          rw [if_neg (hpending.not.mpr (not_exists.mpr hstill))] at hlater
          rw [framesIn]
          omega
      | _ =>
          rw [Bool.eq_iff_iff.mpr hpending] at hlater
          exact hlater

/-- As long as a key is held a frame is pending, whatever the host does. A request is granted if and
only if no frame is pending, and then one is; behind a frame that ran the next one is pending if and
only if a key is held. So once no key is held and nothing asks for a frame any more, at most one
more of those that were asked for runs. -/
theorem frames_follow_keys {context : Option Context} {config : ViewerConfig} {checks : Bool}
    (hnew : Viewer.new context config checks = .ok v) (entries : List Entry) :
    let w := v.after entries
    ((∃ d, d ∈ w.navigation.held) → w.pending = true) ∧
    (w.requestRedraw.1 = true ↔ w.pending = false) ∧ w.requestRedraw.2.pending = true ∧
    (w.frame.2.pending = true ↔ ∃ d, d ∈ w.frame.2.navigation.held) ∧
    ((∀ d, d ∉ w.navigation.held) → ∀ later, w.AsksForNone later → w.framesIn later ≤ 1) := by
  intro w
  have hv : v.KeepsGoing := by
    obtain ⟨-, rfl⟩ := new_eq_ok hnew
    rintro ⟨d, hd⟩
    exact absurd hd List.not_mem_nil
  have hframe : w.frame.2.pending = true ↔ ∃ d, d ∈ w.frame.2.navigation.held := by
    obtain ⟨hnavigation, hpending⟩ : w.frame.2.navigation = w.navigation ∧
      w.frame.2.pending = w.navigation.isMoving := w.react_frame
    rw [hnavigation, hpending, Navigation.isMoving_iff]
  refine ⟨hv.after entries, by simp [requestRedraw], rfl, hframe, fun hstill later hnone => ?_⟩
  have hcount := framesIn_le hstill hnone
  split at hcount <;> omega

/-- A key that went down and up again leaves one frame, which shows where the camera is, and no
second one. -/
theorem frames_follow_keys_released :
    ∃ v, Viewer.new none {} false = .ok v ∧
      let w := v.after [.keyDown "w" false, .keyUp "w"]
      w.pending = true ∧ w.framesIn [.frame, .run, .frame] ≤ 1 := by
  have hnew : Viewer.new none {} false = .ok _ := rfl
  refine ⟨_, hnew, rfl, ?_⟩
  obtain ⟨-, -, -, -, hlast⟩ := frames_follow_keys hnew [.keyDown "w" false, .keyUp "w"]
  exact hlast (fun d => List.not_mem_nil) _ ⟨id, id, id, trivial⟩

end Frames

end Viewer

end GlPlayback
