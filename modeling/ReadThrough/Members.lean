import ReadThrough.Bytes

namespace ReadThrough

inductive SetOperator where
  | diff
  | inter
  | union
  deriving DecidableEq, Repr

def SetOperator.name : SetOperator → String
  | .diff => "SDIFF"
  | .inter => "SINTER"
  | .union => "SUNION"

namespace Members

variable {α : Type} [BEq α] [LawfulBEq α]

def distinct : List α → List α
  | [] => []
  | m :: rest => m :: (distinct rest).filter (· != m)

def without (members others : List α) : List α :=
  members.filter fun m => !others.contains m

theorem mem_distinct {m : α} {members : List α} : m ∈ distinct members ↔ m ∈ members := by
  induction members with
  | nil => simp [distinct]
  | cons x xs ih =>
      by_cases h : m = x
      · simp [distinct, h]
      · simp [distinct, h, ih]

theorem nodup_distinct (members : List α) : (distinct members).Nodup := by
  induction members with
  | nil => simp [distinct]
  | cons x xs ih =>
      simp only [distinct, List.nodup_cons]
      exact ⟨by simp, List.filter_sublist.nodup ih⟩

theorem distinct_of_nodup {members : List α} (h : members.Nodup) : distinct members = members := by
  induction members with
  | nil => rfl
  | cons m members ih =>
      obtain ⟨apart, h⟩ := List.nodup_cons.mp h
      rw [distinct, ih h, List.filter_eq_self.mpr]
      exact fun other hm => bne_iff_ne.mpr fun same => apart (same ▸ hm)

theorem mem_without {m : α} {members others : List α} :
    m ∈ without members others ↔ m ∈ members ∧ m ∉ others := by
  simp [without]

theorem without_eq_nil_iff {members others : List α} :
    without members others = [] ↔ ∀ m ∈ members, m ∈ others := by
  simp [List.eq_nil_iff_forall_not_mem, mem_without]

def combine (op : SetOperator) : List (List α) → List α
  | [] => []
  | first :: others =>
      match op with
      | .union => distinct (first :: others).flatten
      | .inter => distinct (first.filter fun m => others.all fun set => set.contains m)
      | .diff => distinct (first.filter fun m => others.all fun set => !set.contains m)

end Members

end ReadThrough
