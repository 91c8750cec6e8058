import ReadThrough.Proofs.Deed
import ReadThrough.Proofs.Entries

namespace ReadThrough.Fragment

open Proxy (Yield)

variable {κ : Type}

namespace Group

def Awaits (group : Group κ) (index : Nat) (yield : Yield) : Prop :=
  match group.gathered with
  | .count _ => yield = .deletion
  | .sets slots => yield = .members ∧ slots[index]? = some none

variable {group grown : Group κ} {part : Part} {index j : Nat} {yield other : Yield}

theorem accept?_isSome (awaits : group.Awaits index yield) (brings : yield.Brings index part) :
    (group.accept? part).isSome := by
  obtain ⟨client, total, done, failures, gathered, context⟩ := group
  cases gathered with
  | count n =>
      cases part with
      | count m => rfl
      | failed => rfl
      | set slot members =>
          obtain ⟨rfl, -⟩ := brings
          cases awaits
  | sets slots =>
      obtain ⟨rfl, free⟩ := awaits
      cases part with
      | count m => cases brings
      | failed => rfl
      | set slot members =>
          obtain ⟨-, rfl⟩ := brings
          simp [accept?, free]

theorem frame_of_accept? (h : group.accept? part = some grown) :
    grown.client = group.client ∧ grown.total = group.total ∧ grown.context = group.context ∧
      grown.done = group.done + 1 := by
  unfold accept? at h
  split at h
  · cases h
    exact ⟨rfl, rfl, rfl, rfl⟩
  · split at h
    · cases h
      exact ⟨rfl, rfl, rfl, rfl⟩
    · cases h
  · cases h
    exact ⟨rfl, rfl, rfl, rfl⟩
  · cases h

theorem awaits_of_accept? (h : group.accept? part = some grown) (brings : yield.Brings index part)
    (ne : j ≠ index) (awaits : group.Awaits j other) : grown.Awaits j other := by
  unfold accept? at h
  split at h
  · next hg =>
      cases h
      simpa only [Awaits, hg] using awaits
  · next slots slot members hg =>
      obtain ⟨-, rfl⟩ := brings
      split at h
      · cases h
        simp only [Awaits, hg] at awaits ⊢
        exact ⟨awaits.1, by rw [List.getElem?_set_ne (Ne.symm ne)]; exact awaits.2⟩
      · cases h
  · cases h
    exact awaits
  · cases h

theorem awaits_of_begins {client total : Nat} {gathered : Gathered} {context : κ}
    (begins : yield.Begins total gathered) (h : index < total) :
    ({ client, total, gathered, context : Group κ }).Awaits index yield := by
  cases gathered with
  | count n => exact begins
  | sets slots =>
      obtain ⟨hy, rfl⟩ := begins
      exact ⟨hy, by simp [h]⟩

end Group

namespace Groups

variable {groups : Groups κ} {id k : Nat} {part : Part} {found : Group κ}

theorem contribute_of_accepts (h : groups.accepts id part = true) :
    ∃ group grown, groups.table.get? id = some group ∧ group.accept? part = some grown ∧
      ((grown.isComplete = false ∧ groups.contribute id part =
          (none, { groups with table := groups.table.insert id grown })) ∨
        (grown.isComplete = true ∧ groups.contribute id part =
          (some grown, { groups with table := groups.table.erase id }))) := by
  obtain ⟨grown, hgrown⟩ := Option.isSome_iff_exists.mp h
  obtain ⟨group, hget, haccept⟩ := Option.bind_eq_some_iff.mp hgrown
  refine ⟨group, grown, hget, haccept, ?_⟩
  simp only [contribute, hgrown, poll, Table.get?_insert_self, Table.erase_insert_self]
  cases hc : grown.isComplete with
  | false => exact Or.inl ⟨rfl, by simp⟩
  | true => exact Or.inr ⟨rfl, by simp⟩

theorem get?_contribute (accepts : groups.accepts id part = true)
    (hf : (groups.contribute id part).2.table.get? k = some found) :
    (∃ old, groups.table.get? k = some old ∧ old.accept? part = some found ∧ k = id ∧
        found.isComplete = false) ∨
      (k ≠ id ∧ groups.table.get? k = some found) := by
  obtain ⟨old, grown, ho, ha, ⟨incomplete, h⟩ | ⟨-, h⟩⟩ := contribute_of_accepts accepts
  · rw [h] at hf
    rcases Table.get?_insert_eq_some_iff.mp hf with ⟨rfl, rfl⟩ | other
    · exact Or.inl ⟨old, ho, ha, rfl, incomplete⟩
    · exact Or.inr other
  · rw [h] at hf
    exact Or.inr (Table.get?_erase_eq_some_iff.mp hf)

theorem origin_of_contribute (accepts : groups.accepts id part = true)
    (hf : (groups.contribute id part).2.table.get? k = some found) :
    ∃ old, groups.table.get? k = some old ∧ old.client = found.client ∧
      old.context = found.context := by
  rcases get?_contribute accepts hf with ⟨old, ho, ha, -⟩ | ⟨-, same⟩
  · obtain ⟨client, -, context, -⟩ := Group.frame_of_accept? ha
    exact ⟨old, ho, client.symm, context.symm⟩
  · exact ⟨found, same, rfl, rfl⟩

theorem origin_of_completed (accepts : groups.accepts id part = true)
    (hd : (groups.contribute id part).1 = some found) :
    ∃ old, groups.table.get? id = some old ∧ old.accept? part = some found ∧
      old.client = found.client ∧ old.context = found.context := by
  obtain ⟨old, grown, ho, ha, ⟨-, h⟩ | ⟨-, h⟩⟩ := contribute_of_accepts accepts
  · rw [h] at hd
    cases hd
  · rw [h] at hd
    cases hd
    obtain ⟨client, -, context, -⟩ := Group.frame_of_accept? ha
    exact ⟨old, ho, ha, client.symm, context.symm⟩

theorem poll_of_incomplete (h : ∀ group, groups.table.get? id = some group →
    group.isComplete = false) : groups.poll id = (none, groups) := by
  unfold poll
  split
  · rfl
  · next group hg => simp [h group hg]

theorem poll_cases (groups : Groups κ) (id : Nat) : groups.poll id = (none, groups) ∨
    ∃ group, groups.table.get? id = some group ∧
      groups.poll id = (some group, { groups with table := groups.table.erase id }) := by
  unfold poll
  cases hg : groups.table.get? id with
  | none => exact Or.inl rfl
  | some group =>
      cases hc : group.isComplete with
      | false => exact Or.inl (by simp [hc])
      | true => exact Or.inr ⟨group, rfl, by simp [hc]⟩

theorem next_poll (groups : Groups κ) (id : Nat) : (groups.poll id).2.next = groups.next := by
  rcases groups.poll_cases id with same | ⟨group, -, polled⟩
  · rw [same]
  · rw [polled]

theorem next_contribute (groups : Groups κ) (id : Nat) (part : Part) :
    (groups.contribute id part).2.next = groups.next := by
  unfold contribute
  split
  · rfl
  · exact next_poll _ id

theorem get?_openGroup {client total : Nat} {gathered : Gathered} {context : κ}
    (hf : (groups.openGroup client total gathered context).2.table.get? k = some found) :
    (k = groups.next ∧ { client, total, gathered, context } = found) ∨
      groups.table.get? k = some found :=
  (Table.get?_insert_eq_some_iff.mp hf).imp_right And.right

theorem poll_openGroup_zero (groups : Groups κ) (client : Nat) (gathered : Gathered)
    (context : κ) : (groups.openGroup client 0 gathered context).2.poll groups.next =
      (some { client, total := 0, gathered, context },
        ⟨groups.table.erase groups.next, groups.next + 1⟩) := by
  simp [openGroup, poll, Group.isComplete, Table.erase_insert_self]

end Groups

end ReadThrough.Fragment
