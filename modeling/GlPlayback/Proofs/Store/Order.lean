import GlPlayback.Store.Table
import Mathlib.Order.Defs.Unbundled

/-!
Tables whose keys ascend. Insertion keeps the order, and adds no key but the one it is given.
-/
namespace GlPlayback.Table

variable {κ α : Type} [LT κ]

/-- The keys ascend, so that each occurs once. -/
def Ascending (t : Table κ α) : Prop :=
  t.keys.Pairwise (· < ·)

theorem ascending_empty : (∅ : Table κ α).Ascending :=
  List.Pairwise.nil

variable [DecidableEq κ] [DecidableRel ((· < ·) : κ → κ → Prop)]

theorem mem_map_insertEntry (key other : κ) (a : α) (entries : List (κ × α)) :
    other ∈ (insertEntry key a entries).map (·.1) ↔
      other = key ∨ other ∈ entries.map (·.1) := by
  induction entries with
  | nil => simp [insertEntry]
  | cons entry rest ih =>
      obtain ⟨k, b⟩ := entry
      simp only [insertEntry]
      split
      · next hk =>
          subst hk
          simp
      · split
        · simp
        · simp only [List.map_cons, List.mem_cons, ih]
          exact or_left_comm

theorem mem_keys_insert {t : Table κ α} {key other : κ} {a : α} :
    other ∈ (t.insert key a).keys ↔ other = key ∨ other ∈ t.keys :=
  mem_map_insertEntry key other a t.entries

theorem Ascending.insert [IsStrictTotalOrder κ (· < ·)] {t : Table κ α} (h : t.Ascending)
    (key : κ) (a : α) : (t.insert key a).Ascending := by
  obtain ⟨entries⟩ := t
  simp only [Ascending, keys, Table.insert] at h ⊢
  induction entries with
  | nil => simp [insertEntry]
  | cons entry rest ih =>
      obtain ⟨k, b⟩ := entry
      simp only [List.map_cons, List.pairwise_cons] at h
      simp only [insertEntry]
      split
      · next hk =>
          subst hk
          simpa using h
      · next hk =>
          split
          · next hlt =>
              simp only [List.map_cons, List.pairwise_cons, List.mem_cons]
              refine ⟨?_, h⟩
              rintro other (rfl | ho)
              · exact hlt
              · exact trans_of (· < ·) hlt (h.1 other ho)
          · next hlt =>
              simp only [List.map_cons, List.pairwise_cons]
              refine ⟨?_, ih h.2⟩
              intro other ho
              rcases (mem_map_insertEntry key other a rest).mp ho with rfl | ho
              · rcases trichotomous_of (· < ·) k other with hlt' | heq | hgt
                · exact hlt'
                · exact absurd heq hk
                · exact absurd hgt hlt
              · exact h.1 other ho

end GlPlayback.Table
