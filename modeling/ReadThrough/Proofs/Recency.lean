import ReadThrough.Proofs.Entries
import ReadThrough.Recency

namespace ReadThrough.Recency

variable {κ α : Type} [DecidableEq κ] {memory : Recency κ α} {key k : κ} {value v : α}

theorem peek?_others (ne : k ≠ key) :
    (memory.others key).find? (fun e => decide (e.1 = k)) =
      memory.entries.find? fun e => decide (e.1 = k) := by
  rw [others, List.find?_filter]
  congr 1
  funext e
  by_cases hk : e.1 = k
  · simp [hk, ne]
  · simp [hk]

theorem peek?_touch : (memory.touch key).peek? k = memory.peek? k := by
  unfold touch
  cases hv : memory.peek? key with
  | none => rfl
  | some value =>
      by_cases hk : key = k
      · subst hk
        simp [peek?, ← hv]
      · simp only [peek?, List.find?_cons, hk, decide_false]
        rw [peek?_others (Ne.symm hk)]

theorem peek?_of_remember (h : (memory.remember key value).peek? k = some v) :
    (k = key ∧ v = value) ∨ memory.peek? k = some v := by
  obtain ⟨e, he, rfl⟩ := Option.map_eq_some_iff.mp h
  by_cases hk : key = k
  · subst hk
    refine Or.inl ⟨rfl, ?_⟩
    cases hc : memory.capacity with
    | zero => simp [remember, hc] at he
    | succ n =>
        simp only [remember, hc, List.take_succ_cons, List.find?_cons, decide_true,
          Option.some.injEq] at he
        rw [← he]
  · refine Or.inr (Option.map_eq_some_iff.mpr ⟨e, ?_, rfl⟩)
    have front : (memory.remember key value).entries <+: (key, value) :: memory.others key :=
      List.take_prefix _ _
    obtain ⟨more, all⟩ := front
    have found : ((key, value) :: memory.others key).find? (fun e => decide (e.1 = k)) = some e := by
      rw [← all, List.find?_append, he]
      rfl
    rw [List.find?_cons, decide_eq_false hk, peek?_others (Ne.symm hk)] at found
    exact found

def Distinct (memory : Recency κ α) : Prop :=
  (memory.entries.map Prod.fst).Nodup

theorem Distinct.cons_others (h : memory.Distinct) :
    (((key, value) :: memory.others key).map Prod.fst).Nodup := by
  refine List.nodup_cons.mpr ⟨fun hm => ?_, (List.filter_sublist.map _).nodup h⟩
  obtain ⟨e, he, rfl⟩ := List.mem_map.mp hm
  exact of_decide_eq_true (List.mem_filter.mp he).2 rfl

theorem Distinct.touch (h : memory.Distinct) : (memory.touch key).Distinct := by
  unfold Recency.touch
  split
  · exact h
  · exact h.cons_others

theorem Distinct.remember (h : memory.Distinct) : (memory.remember key value).Distinct :=
  ((List.take_sublist _ _).map _).nodup h.cons_others

@[simp] theorem capacity_touch : (memory.touch key).capacity = memory.capacity := by
  unfold touch
  split <;> rfl

theorem perm_touch (h : memory.Distinct) : (memory.touch key).entries.Perm memory.entries := by
  unfold touch
  split
  · exact .refl _
  · next value known =>
      let table : Table κ α := ⟨memory.entries, h⟩
      exact (Table.perm_cons_erase (show table.get? key = some value from known)).symm

end ReadThrough.Recency
