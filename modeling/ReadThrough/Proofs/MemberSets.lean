import Mathlib.Data.List.Flatten
import Mathlib.Data.List.Perm.Basic
import ReadThrough.Proofs.Outcomes
import ReadThrough.Store.Compose

namespace ReadThrough

namespace Members

variable {α : Type}

section Order

variable [BEq α] [LawfulBEq α]

theorem distinct_filter (keep : α → Bool) (members : List α) :
    distinct (members.filter keep) = (distinct members).filter keep := by
  induction members with
  | nil => rfl
  | cons m rest ih =>
      by_cases kept : keep m = true
      · simp only [List.filter_cons_of_pos kept, distinct, ih]
        rw [List.filter_comm]
      · rw [List.filter_cons_of_neg kept, ih, distinct, List.filter_cons_of_neg kept,
          List.filter_filter]
        refine List.filter_congr fun other _ => ?_
        by_cases same : other = m
        · simp [same, kept]
        · simp [same]

def Ordered (source members : List α) : Prop :=
  members.Pairwise fun a b => source.idxOf a < source.idxOf b

theorem ordered_distinct (members : List α) : Ordered members (distinct members) := by
  induction members with
  | nil => exact .nil
  | cons m rest ih =>
      have behind : ∀ other ∈ (distinct rest).filter (· != m),
          (m :: rest).idxOf other = rest.idxOf other + 1 := by
        intro other found
        obtain ⟨-, apart⟩ := List.mem_filter.mp found
        exact List.idxOf_cons_ne _ (Ne.symm (bne_iff_ne.mp apart))
      refine .cons ?_ ?_
      · intro other found
        rw [List.idxOf_cons_self, behind other found]
        exact Nat.succ_pos _
      · refine (ih.filter _).imp_of_mem fun {a b} ha hb before => ?_
        rw [behind a ha, behind b hb]
        exact Nat.succ_lt_succ before

end Order

def Belongs (m : α) : SetOperator → List (List α) → Prop
  | .union, sets => ∃ set ∈ sets, m ∈ set
  | .inter, sets => sets ≠ [] ∧ ∀ set ∈ sets, m ∈ set
  | .diff, [] => False
  | .diff, first :: others => m ∈ first ∧ ∀ set ∈ others, m ∉ set

def source : SetOperator → List (List α) → List α
  | .union, sets => sets.flatten
  | .inter, sets | .diff, sets => sets.headD []

/-- Orders of the sets among which an operator does not distinguish. -/
inductive Rearranged : SetOperator → List (List α) → List (List α) → Prop
  | union {sets sets' : List (List α)} (perm : sets.Perm sets') : Rearranged .union sets sets'
  | inter {sets sets' : List (List α)} (perm : sets.Perm sets') : Rearranged .inter sets sets'
  | diff {first : List α} {others others' : List (List α)} (perm : others.Perm others') :
      Rearranged .diff (first :: others) (first :: others')

theorem Rearranged.belongs_iff {op : SetOperator} {sets sets' : List (List α)}
    (h : Rearranged op sets sets') (m : α) : Belongs m op sets ↔ Belongs m op sets' := by
  cases h with
  | union perm => simp only [Belongs, perm.mem_iff]
  | inter perm => simp only [Belongs, perm.mem_iff, ne_eq, ← List.length_eq_zero_iff, perm.length_eq]
  | diff perm => simp only [Belongs, perm.mem_iff]

variable [BEq α] [LawfulBEq α]

theorem mem_combine {op : SetOperator} {sets : List (List α)} {m : α} :
    m ∈ combine op sets ↔ Belongs m op sets := by
  cases sets with
  | nil => cases op <;> simp [combine, Belongs]
  | cons first others => cases op <;> simp [combine, Belongs, mem_distinct]

theorem combine_sublist (op : SetOperator) (sets : List (List α)) :
    (combine op sets).Sublist (distinct (source op sets)) := by
  cases sets with
  | nil => exact List.nil_sublist _
  | cons first others =>
      cases op with
      | union => exact .refl _
      | inter | diff =>
          simp only [combine, distinct_filter]
          exact List.filter_sublist

theorem nodup_combine (op : SetOperator) (sets : List (List α)) : (combine op sets).Nodup :=
  (combine_sublist op sets).nodup (nodup_distinct _)

structure Combined (op : SetOperator) (sets : List (List α)) : Prop where
  members : ∀ m, m ∈ combine op sets ↔ Belongs m op sets
  nodup : (combine op sets).Nodup
  ordered : Ordered (source op sets) (combine op sets)
  rearranged : ∀ sets', Rearranged op sets sets' →
    ∀ m, m ∈ combine op sets ↔ m ∈ combine op sets'

theorem combined (op : SetOperator) (sets : List (List Bytes)) : Combined op sets where
  members _ := mem_combine
  nodup := nodup_combine op sets
  ordered := (ordered_distinct _).sublist (combine_sublist op sets)
  rearranged _ h m := by rw [mem_combine, mem_combine, h.belongs_iff]

example : combine .diff [[3, 1, 3, 2, 1], [2, 5], [4]] = [3, 1] := by decide

end Members

namespace Store.Request

structure Difference (current wanted adds removes : List Bytes) : Prop where
  mem_adds : ∀ m, m ∈ adds ↔ m ∈ wanted ∧ m ∉ current
  mem_removes : ∀ m, m ∈ removes ↔ m ∈ current ∧ m ∉ wanted
  nodup : current.Nodup → wanted.Nodup → adds.Nodup ∧ removes.Nodup

theorem difference_without (current wanted : List Bytes) :
    Difference current wanted (Members.without wanted current)
      (Members.without current wanted) where
  mem_adds _ := Members.mem_without
  mem_removes _ := Members.mem_without
  nodup once once' := ⟨List.filter_sublist.nodup once', List.filter_sublist.nodup once⟩

inductive Changed (current adds removes : List Bytes) : List Bytes → Prop
  | addedFirst : Changed current adds removes (Members.without (current ++ adds) removes)
  | removedFirst : Changed current adds removes (Members.without current removes ++ adds)

variable {current wanted adds removes result : List Bytes}

theorem Difference.mem_changed (h : Difference current wanted adds removes)
    (changed : Changed current adds removes result) (m : Bytes) : m ∈ result ↔ m ∈ wanted := by
  cases changed <;> simp only [Members.mem_without, List.mem_append, h.mem_adds, h.mem_removes] <;> tauto

variable (settings : Settings) (key : Key) (context : Option Bytes)

theorem without_eq_nil_and_iff :
    Members.without wanted current = [] ∧ Members.without current wanted = [] ↔
      ∀ m, m ∈ current ↔ m ∈ wanted := by
  simp only [Members.without_eq_nil_iff]
  exact ⟨fun h m => ⟨h.2 m, h.1 m⟩, fun h => ⟨fun m => (h m).mpr, fun m => (h m).mp⟩⟩

theorem setReplace_of_same (same : ∀ m, m ∈ current ↔ m ∈ wanted) :
    setReplace settings key current context wanted = .ok none :=
  if_pos (without_eq_nil_and_iff.mpr same)

theorem setReplace_of_differs (differs : ¬ ∀ m, m ∈ current ↔ m ∈ wanted) :
    setReplace settings key current context wanted =
      (compose settings key (.setReplace (setBucketType settings key)
        (Members.without wanted current) (Members.without current wanted) context)).map some :=
  if_neg (mt without_eq_nil_and_iff.mp differs)

structure Exchanged (settings : Settings) (key : Key) (current : List Bytes)
    (context : Option Bytes) (wanted : List Bytes) : Prop where
  same : key.hasBucket = true → (setReplace settings key current context wanted = .ok none ↔
    ∀ m, m ∈ current ↔ m ∈ wanted)
  differs : key.hasBucket = true → (¬ ∀ m, m ∈ current ↔ m ∈ wanted) → ∃ adds removes,
    setReplace settings key current context wanted = .ok (some
      { key, quorum := settings.quorum
        body := .setReplace (setBucketType settings key) adds removes context }) ∧
    Difference current wanted adds removes ∧
    ∀ result, Changed current adds removes result → (∀ m, m ∈ result ↔ m ∈ wanted) ∧
      ∀ context', setReplace settings key result context' wanted = .ok none
  noBucket : key.hasBucket = false →
    ((∃ why, setReplace settings key current context wanted = .error why) ↔
      ¬ ∀ m, m ∈ current ↔ m ∈ wanted)

theorem exchanged (settings : Settings) (key : Key) (current : List Bytes)
    (context : Option Bytes) (wanted : List Bytes) :
    Exchanged settings key current context wanted where
  same bucket := by
    refine ⟨fun none => ?_, setReplace_of_same settings key context⟩
    by_contra differs
    rw [setReplace_of_differs settings key context differs] at none
    obtain ⟨_, -, none⟩ := map_eq_ok none
    cases none
  differs bucket differs := by
    have difference := difference_without current wanted
    refine ⟨_, _, ?_, difference, fun result changed => ?_⟩
    · rw [setReplace_of_differs settings key context differs, compose, Key.requireBucket,
        if_pos bucket]
      rfl
    · have members := difference.mem_changed changed
      exact ⟨members, fun context' => setReplace_of_same settings key context' members⟩
  noBucket none := by
    constructor
    · rintro ⟨why, failed⟩ same
      rw [setReplace_of_same settings key context same] at failed
      cases failed
    · intro differs
      rw [setReplace_of_differs settings key context differs, compose, Key.requireBucket,
        if_neg (by simp [none])]
      exact ⟨_, rfl⟩

end Store.Request

end ReadThrough
