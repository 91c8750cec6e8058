namespace ReadThrough

structure Table (κ α : Type) where
  entries : List (κ × α)
  nodup : (entries.map Prod.fst).Nodup

namespace Table

variable {κ α : Type}

instance [DecidableEq κ] [DecidableEq α] : DecidableEq (Table κ α) := fun s t =>
  decidable_of_iff (s.entries = t.entries) (by cases s; cases t; simp)

def empty : Table κ α := ⟨[], by simp⟩

instance : Inhabited (Table κ α) := ⟨empty⟩

theorem ext {s t : Table κ α} (h : s.entries = t.entries) : s = t := by
  cases s
  cases t
  simpa using h

def size (table : Table κ α) : Nat :=
  table.entries.length

def filter (keep : κ → α → Bool) (table : Table κ α) : Table κ α where
  entries := table.entries.filter fun e => keep e.1 e.2
  nodup := (List.filter_sublist.map _).nodup table.nodup

def mapValues {β : Type} (f : α → β) (table : Table κ α) : Table κ β where
  entries := table.entries.map fun e => (e.1, f e.2)
  nodup := by simpa [Function.comp_def] using table.nodup

variable [DecidableEq κ]

def get? (table : Table κ α) (key : κ) : Option α :=
  (table.entries.find? fun e => e.1 = key).map Prod.snd

def erase (table : Table κ α) (key : κ) : Table κ α :=
  table.filter fun k _ => k ≠ key

def contains (table : Table κ α) (key : κ) : Bool :=
  (table.get? key).isSome

def setEntry (key : κ) (value : α) : List (κ × α) → List (κ × α)
  | [] => [(key, value)]
  | e :: rest => if e.1 = key then (key, value) :: rest else e :: setEntry key value rest

theorem mem_keys_setEntry {key k : κ} {value : α} {entries : List (κ × α)}
    (h : k ∈ (setEntry key value entries).map Prod.fst) :
    k = key ∨ k ∈ entries.map Prod.fst := by
  induction entries with
  | nil => simpa [setEntry] using h
  | cons e rest ih =>
      by_cases he : e.1 = key
      · simp only [setEntry, he, if_true, List.map_cons, List.mem_cons] at h ⊢
        rcases h with h | h
        · exact Or.inl h
        · exact Or.inr (Or.inr h)
      · simp only [setEntry, he, if_false, List.map_cons, List.mem_cons] at h ⊢
        rcases h with h | h
        · exact Or.inr (Or.inl h)
        · rcases ih h with h | h
          · exact Or.inl h
          · exact Or.inr (Or.inr h)

theorem nodup_setEntry (key : κ) (value : α) {entries : List (κ × α)}
    (h : (entries.map Prod.fst).Nodup) : ((setEntry key value entries).map Prod.fst).Nodup := by
  induction entries with
  | nil => simp [setEntry]
  | cons e rest ih =>
      simp only [List.map_cons, List.nodup_cons] at h
      by_cases he : e.1 = key
      · simp only [setEntry, he, if_true, List.map_cons, List.nodup_cons]
        exact ⟨he ▸ h.1, h.2⟩
      · simp only [setEntry, he, if_false, List.map_cons, List.nodup_cons]
        refine ⟨fun hm => ?_, ih h.2⟩
        rcases mem_keys_setEntry hm with hm | hm
        · exact he hm
        · exact h.1 hm

def insert (table : Table κ α) (key : κ) (value : α) : Table κ α where
  entries := setEntry key value table.entries
  nodup := nodup_setEntry key value table.nodup

@[simp] theorem get?_empty (key : κ) : (empty : Table κ α).get? key = none := rfl

theorem get?_insert (table : Table κ α) (key k : κ) (value : α) :
    (table.insert key value).get? k = if k = key then some value else table.get? k := by
  obtain ⟨entries, nodup⟩ := table
  simp only [get?, insert]
  clear nodup
  induction entries with
  | nil =>
      by_cases h : k = key
      · simp [setEntry, h]
      · simp [setEntry, h, Ne.symm h]
  | cons e rest ih =>
      by_cases he : e.1 = key
      · by_cases h : k = key
        · simp [setEntry, he, h]
        · have : ¬ key = k := fun e => h e.symm
          simp [setEntry, he, h, this]
      · by_cases hk : e.1 = k
        · have : ¬ k = key := fun e' => he (hk.trans e')
          simp [setEntry, hk, this]
        · simp only [setEntry, he, if_false, List.find?_cons, hk, decide_false]
          simpa using ih

@[simp] theorem get?_insert_self (table : Table κ α) (key : κ) (value : α) :
    (table.insert key value).get? key = some value := by
  simp [get?_insert]

theorem get?_insert_of_ne (table : Table κ α) {key k : κ} (value : α) (h : k ≠ key) :
    (table.insert key value).get? k = table.get? k := by
  simp [get?_insert, h]

theorem get?_erase (table : Table κ α) (key k : κ) :
    (table.erase key).get? k = if k = key then none else table.get? k := by
  obtain ⟨entries, nodup⟩ := table
  simp only [get?, erase, filter]
  clear nodup
  induction entries with
  | nil => simp
  | cons e rest ih =>
      by_cases he : e.1 = key
      · by_cases hk : k = key
        · simp [hk]
        · have : ¬ key = k := fun e => hk e.symm
          simp only [List.filter_cons, he, ne_eq, not_true_eq_false, decide_false,
            List.find?_cons, this]
          simpa [hk] using ih
      · by_cases hk : e.1 = k
        · have : ¬ k = key := fun e' => he (hk.trans e')
          simp [hk, this]
        · simp only [List.filter_cons, he, ne_eq, not_false_eq_true, decide_true, if_true,
            List.find?_cons, hk, decide_false]
          exact ih

@[simp] theorem get?_erase_self (table : Table κ α) (key : κ) :
    (table.erase key).get? key = none := by
  simp [get?_erase]

theorem get?_erase_of_ne (table : Table κ α) {key k : κ} (h : k ≠ key) :
    (table.erase key).get? k = table.get? k := by
  simp [get?_erase, h]

theorem get?_insert_eq_some_iff {table : Table κ α} {key k : κ} {value found : α} :
    (table.insert key value).get? k = some found ↔
      (k = key ∧ value = found) ∨ (k ≠ key ∧ table.get? k = some found) := by
  rw [get?_insert]
  split
  · next same => simp [same]
  · next ne => simp [ne]

theorem get?_erase_eq_some_iff {table : Table κ α} {key k : κ} {found : α} :
    (table.erase key).get? k = some found ↔ k ≠ key ∧ table.get? k = some found := by
  rw [get?_erase]
  split
  · next same => simp [same]
  · next ne => simp [ne]

end Table

end ReadThrough
