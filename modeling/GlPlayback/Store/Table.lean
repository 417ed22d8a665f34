/-!
Finite tables as lists of entries in the order of their keys. Looking a key up after an insertion
or a removal gives what one expects, whatever the list.
-/
namespace GlPlayback

structure Table (κ α : Type) where
  entries : List (κ × α)
  deriving DecidableEq, Repr

namespace Table

variable {κ α : Type}

def empty : Table κ α :=
  ⟨[]⟩

instance : EmptyCollection (Table κ α) :=
  ⟨empty⟩

instance : Inhabited (Table κ α) :=
  ⟨empty⟩

def keys (t : Table κ α) : List κ :=
  t.entries.map (·.1)

def values (t : Table κ α) : List α :=
  t.entries.map (·.2)

variable [DecidableEq κ]

def lookup (key : κ) : List (κ × α) → Option α
  | [] => none
  | (k, a) :: rest => if k = key then some a else lookup key rest

def get? (t : Table κ α) (key : κ) : Option α :=
  lookup key t.entries

def contains (t : Table κ α) (key : κ) : Bool :=
  (t.get? key).isSome

def erase (t : Table κ α) (key : κ) : Table κ α :=
  ⟨t.entries.filter fun entry => entry.1 ≠ key⟩

variable [LT κ] [DecidableRel ((· < ·) : κ → κ → Prop)]

/-- Puts an entry in place of the one with its key, or else before the first greater key. -/
def insertEntry (key : κ) (a : α) : List (κ × α) → List (κ × α)
  | [] => [(key, a)]
  | (k, b) :: rest =>
      if k = key then (key, a) :: rest
      else if key < k then (key, a) :: (k, b) :: rest
      else (k, b) :: insertEntry key a rest

def insert (t : Table κ α) (key : κ) (a : α) : Table κ α :=
  ⟨insertEntry key a t.entries⟩

def set (t : Table κ α) (key : κ) : Option α → Table κ α
  | some a => t.insert key a
  | none => t.erase key

omit [LT κ] [DecidableRel ((· < ·) : κ → κ → Prop)] in
@[simp] theorem get?_empty (key : κ) : (∅ : Table κ α).get? key = none :=
  rfl

theorem lookup_insertEntry (key other : κ) (a : α) (entries : List (κ × α)) :
    lookup other (insertEntry key a entries) =
      if key = other then some a else lookup other entries := by
  induction entries with
  | nil => simp [insertEntry, lookup]
  | cons entry rest ih =>
      obtain ⟨k, b⟩ := entry
      by_cases hk : k = key
      · subst hk
        by_cases ho : k = other <;> simp [insertEntry, lookup, ho]
      · by_cases hlt : key < k
        · simp [insertEntry, lookup, hk, hlt]
        · by_cases ho : k = other
          · subst ho
            simp [insertEntry, lookup, hk, hlt, Ne.symm hk]
          · simp [insertEntry, lookup, hk, hlt, ho, ih]

theorem get?_insert (t : Table κ α) (key other : κ) (a : α) :
    (t.insert key a).get? other = if key = other then some a else t.get? other :=
  lookup_insertEntry key other a t.entries

omit [LT κ] [DecidableRel ((· < ·) : κ → κ → Prop)] in
theorem get?_erase (t : Table κ α) (key other : κ) :
    (t.erase key).get? other = if key = other then none else t.get? other := by
  obtain ⟨entries⟩ := t
  simp only [get?, erase]
  induction entries with
  | nil => simp [lookup]
  | cons entry rest ih =>
      obtain ⟨k, b⟩ := entry
      by_cases hk : k = key
      · subst hk
        by_cases ho : k = other
        · simpa [lookup, ho] using ih
        · simpa [lookup, ho] using ih
      · by_cases ho : k = other
        · subst ho
          simp [lookup, hk, Ne.symm hk]
        · simpa [List.filter_cons, lookup, hk, ho] using ih

theorem get?_set (t : Table κ α) (key other : κ) (a : Option α) :
    (t.set key a).get? other = if key = other then a else t.get? other := by
  cases a with
  | none => exact get?_erase t key other
  | some a => exact get?_insert t key other a

end Table

end GlPlayback
