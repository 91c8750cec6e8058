import Mathlib.Data.List.Perm.Basic
import ReadThrough.Table

namespace ReadThrough

theorem concat_eq_append_cons_iff {α : Type} {xs before behind : List α} {x y : α} :
    xs ++ [x] = before ++ y :: behind ↔
      (behind = [] ∧ xs = before ∧ x = y) ∨
        ∃ rest, behind = rest ++ [x] ∧ xs = before ++ y :: rest := by
  constructor
  · intro same
    rcases List.eq_nil_or_concat' behind with rfl | ⟨rest, last, rfl⟩
    · obtain ⟨rfl, one⟩ := List.append_inj' same rfl
      exact Or.inl ⟨rfl, rfl, (List.cons.inj one).1⟩
    · rw [← List.cons_append, ← List.append_assoc] at same
      obtain ⟨rfl, one⟩ := List.append_inj' same rfl
      cases one
      exact Or.inr ⟨rest, rfl, rfl⟩
  · rintro (⟨rfl, rfl, rfl⟩ | ⟨rest, rfl, rfl⟩)
    · rfl
    · rw [List.append_assoc, List.cons_append]

namespace Table

variable {κ α β : Type} [DecidableEq κ] {t : Table κ α} {key k : κ} {value v : α}

theorem find?_of_mem : ∀ {entries : List (κ × α)}, (entries.map Prod.fst).Nodup →
    (key, value) ∈ entries → entries.find? (fun e => e.1 = key) = some (key, value) := by
  intro entries
  induction entries with
  | nil => simp
  | cons e rest ih =>
      intro nodup h
      rw [List.map_cons, List.nodup_cons] at nodup
      rcases List.mem_cons.mp h with rfl | h
      · simp
      · have hne : e.1 ≠ key := by
          rintro rfl
          exact nodup.1 (List.mem_map.mpr ⟨_, h, rfl⟩)
        simpa [hne] using ih nodup.2 h

theorem get?_eq_some_iff : t.get? key = some value ↔ (key, value) ∈ t.entries := by
  constructor
  · intro h
    obtain ⟨e, he, rfl⟩ := Option.map_eq_some_iff.mp h
    have hk : e.1 = key := by simpa using List.find?_some he
    rw [← hk]
    exact List.mem_of_find?_eq_some he
  · intro h
    rw [get?, find?_of_mem t.nodup h]
    rfl

theorem get?_filter (keep : κ → α → Bool) :
    (t.filter keep).get? key = (t.get? key).filter (keep key) := by
  apply Option.ext
  intro value
  rw [get?_eq_some_iff, Option.filter_eq_some_iff, get?_eq_some_iff]
  simp [filter]

theorem erase_of_get?_eq_none (h : t.get? key = none) : t.erase key = t := by
  apply ext
  refine List.filter_eq_self.mpr ?_
  intro e he
  have hne : e.1 ≠ key := by
    rintro rfl
    rw [get?_eq_some_iff.mpr he] at h
    cases h
  simpa using hne

theorem perm_cons_erase (h : t.get? key = some value) :
    t.entries.Perm ((key, value) :: (t.erase key).entries) := by
  obtain ⟨entries, nodup⟩ := t
  have hm : (key, value) ∈ entries := get?_eq_some_iff.mp h
  clear h
  change entries.Perm ((key, value) :: entries.filter fun e => decide (e.1 ≠ key))
  induction entries with
  | nil => cases hm
  | cons e rest ih =>
      rw [List.map_cons, List.nodup_cons] at nodup
      by_cases he : e.1 = key
      · have hkeys : ∀ x ∈ rest, x.1 ≠ key := by
          rintro x hx rfl
          exact nodup.1 (he ▸ List.mem_map.mpr ⟨x, hx, rfl⟩)
        have hv : e = (key, value) := by
          rcases List.mem_cons.mp hm with h | h
          · exact h.symm
          · exact absurd rfl (hkeys _ h)
        rw [List.filter_cons_of_neg (by simp [he]),
          List.filter_eq_self.mpr (by simpa using hkeys), hv]
      · have hr : (key, value) ∈ rest := by
          rcases List.mem_cons.mp hm with h | h
          · exact absurd (h ▸ rfl) he
          · exact h
        rw [List.filter_cons_of_pos (by simpa using he)]
        exact ((ih nodup.2 hr).cons e).trans (List.Perm.swap _ _ _)

theorem erase_insert_self : (t.insert key value).erase key = t.erase key := by
  apply ext
  obtain ⟨entries, nodup⟩ := t
  change (setEntry key value entries).filter _ = entries.filter _
  clear nodup
  induction entries with
  | nil => simp [setEntry]
  | cons e rest ih =>
      by_cases he : e.1 = key
      · simp [setEntry, he]
      · simp only [setEntry, he, if_false, ne_eq, not_false_eq_true, decide_true,
          List.filter_cons_of_pos]
        exact congrArg (e :: ·) ih

theorem insert_insert_self (other : α) :
    (t.insert key other).insert key value = t.insert key value := by
  apply ext
  obtain ⟨entries, nodup⟩ := t
  change setEntry key value (setEntry key other entries) = setEntry key value entries
  clear nodup
  induction entries with
  | nil => simp [setEntry]
  | cons e rest ih =>
      by_cases he : e.1 = key
      · simp [setEntry, he]
      · simp only [setEntry, he, if_false]
        exact congrArg (e :: ·) ih

theorem perm_insert :
    (t.insert key value).entries.Perm ((key, value) :: (t.erase key).entries) := by
  have h := perm_cons_erase (get?_insert_self t key value)
  rwa [erase_insert_self] at h

theorem perm_insert_new (h : t.get? key = none) :
    (t.insert key value).entries.Perm ((key, value) :: t.entries) := by
  have hp : (t.insert key value).entries.Perm _ := perm_insert
  rwa [erase_of_get?_eq_none h] at hp

theorem mem_keys_iff : key ∈ t.entries.map Prod.fst ↔ t.get? key ≠ none := by
  rw [Option.ne_none_iff_exists', List.mem_map]
  constructor
  · rintro ⟨e, mem, rfl⟩
    exact ⟨e.2, get?_eq_some_iff.mpr mem⟩
  · rintro ⟨value, there⟩
    exact ⟨_, get?_eq_some_iff.mp there, rfl⟩

theorem size_insert (t : Table κ α) (key : κ) (value : α) :
    (t.insert key value).size = if t.get? key = none then t.size + 1 else t.size := by
  split
  · next new => exact (perm_insert_new new).length_eq
  · next old =>
      obtain ⟨value', there⟩ := Option.ne_none_iff_exists'.mp old
      exact perm_insert.length_eq.trans (perm_cons_erase there).length_eq.symm

def collect (f : α → List β) (t : Table κ α) : List β :=
  t.entries.flatMap fun e => f e.2

theorem collect_perm_erase (f : α → List β) (h : t.get? key = some value) :
    (t.collect f).Perm (f value ++ (t.erase key).collect f) :=
  (perm_cons_erase h).flatMap_right _

theorem collect_perm_insert (f : α → List β) :
    ((t.insert key value).collect f).Perm (f value ++ (t.erase key).collect f) :=
  perm_insert.flatMap_right _

theorem collect_perm_insert_new (f : α → List β) (h : t.get? key = none) :
    ((t.insert key value).collect f).Perm (f value ++ t.collect f) :=
  (perm_insert_new h).flatMap_right _

end Table

end ReadThrough
