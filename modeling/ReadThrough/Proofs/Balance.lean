import Mathlib.Data.List.Nodup
import ReadThrough.Proofs.Groups

namespace ReadThrough.Proxy

abbrev OpenGroups := Table Nat (Fragment.Group GroupContext)

def promises (groups : OpenGroups) : List (Nat × Nat) :=
  groups.collect fun group => [(group.client, group.context.slot)]

structure Balance (duties : List Duty) (groups : OpenGroups) (unfilled : Nat → List Nat) :
    Prop where
  slots : ∀ client slot,
    (duties.filterMap Duty.slot? ++ promises groups).count (client, slot) =
      (unfilled client).count slot
  awaited : ∀ client id index yield, Duty.part client id index yield ∈ duties →
    ∃ group, groups.get? id = some group ∧ group.client = client ∧ group.Awaits index yield
  nodup : (duties.filterMap Duty.place?).Nodup
  done : ∀ id group, groups.get? id = some group →
    (duties.filterMap Duty.place?).countP (·.1 = id) + group.done = group.total

theorem promises_insert {groups : OpenGroups} {id : Nat} {group grown : Fragment.Group GroupContext}
    (h : groups.get? id = some group) (client : grown.client = group.client)
    (context : grown.context = group.context) :
    (promises (groups.insert id grown)).Perm (promises groups) := by
  refine (Table.collect_perm_insert _).trans ?_
  rw [client, context]
  exact (Table.collect_perm_erase (fun group => [(group.client, group.context.slot)]) h).symm

namespace Balance

variable {duties : List Duty} {groups : OpenGroups} {unfilled : Nat → List Nat}

theorem perm {duties' : List Duty} (b : Balance duties groups unfilled)
    (h : duties.Perm duties') : Balance duties' groups unfilled where
  slots client slot := by
    rw [← b.slots client slot]
    exact ((h.filterMap _).append_right _).symm.count_eq _
  awaited client id index yield hm := b.awaited client id index yield (h.mem_iff.mpr hm)
  nodup := (h.filterMap _).nodup_iff.mp b.nodup
  done id group hg := by
    rw [← b.done id group hg, (h.filterMap _).countP_eq]

theorem congr {unfilled' : Nat → List Nat} (b : Balance duties groups unfilled)
    (h : ∀ client, (unfilled client).Perm (unfilled' client)) :
    Balance duties groups unfilled' where
  slots client slot := by rw [b.slots, (h client).count_eq]
  awaited := b.awaited
  nodup := b.nodup
  done := b.done

theorem reserve (b : Balance duties groups unfilled) (client slot : Nat) :
    Balance (.reply client slot :: duties) groups
      (fun c => if c = client then unfilled c ++ [slot] else unfilled c) where
  slots c s := by
    have h := b.slots c s
    simp only [List.filterMap_cons, Duty.slot?, List.cons_append, List.count_cons, h]
    by_cases hc : c = client
    · subst hc
      simp [List.count_cons, List.count_append]
    · simp [hc, Ne.symm hc]
  awaited c id index yield hm := by
    refine b.awaited c id index yield ?_
    simpa using hm
  nodup := b.nodup
  done := b.done

theorem mem_of_reply {client slot : Nat}
    (b : Balance (.reply client slot :: duties) groups unfilled) : slot ∈ unfilled client := by
  have h := b.slots client slot
  simp only [List.filterMap_cons, Duty.slot?, List.cons_append, List.count_cons_self] at h
  exact List.count_pos_iff.mp (by omega)

theorem reply {client slot : Nat} {rest : List Nat}
    (b : Balance (.reply client slot :: duties) groups unfilled)
    (h : (unfilled client).Perm (slot :: rest)) :
    Balance duties groups (fun c => if c = client then rest else unfilled c) where
  slots c s := by
    have hs := b.slots c s
    simp only [List.filterMap_cons, Duty.slot?, List.cons_append, List.count_cons] at hs
    by_cases hc : c = client
    · subst hc
      rw [h.count_eq, List.count_cons] at hs
      simpa using hs
    · simpa [hc, Ne.symm hc] using hs
  awaited c id index yield hm := b.awaited c id index yield (List.mem_cons_of_mem _ hm)
  nodup := b.nodup
  done := b.done

section Bring

variable {client id index : Nat} {yield : Yield} {part : Fragment.Part}
  {group grown : Fragment.Group GroupContext}

theorem place_ne (b : Balance (.part client id index yield :: duties) groups unfilled)
    {c j : Nat} {y : Yield} (hm : Duty.part c id j y ∈ duties) : j ≠ index := by
  rintro rfl
  have h := b.nodup
  simp only [List.filterMap_cons, Duty.place?, List.nodup_cons] at h
  exact h.1 (List.mem_filterMap.mpr ⟨_, hm, rfl⟩)

theorem bring (b : Balance (.part client id index yield :: duties) groups unfilled)
    (hg : groups.get? id = some group) (ha : group.accept? part = some grown)
    (brings : yield.Brings index part) : Balance duties (groups.insert id grown) unfilled where
  slots c s := by
    obtain ⟨hc, -, hx, -⟩ := Fragment.Group.frame_of_accept? ha
    have h := b.slots c s
    rw [← h]
    exact ((promises_insert hg hc hx).append_left _).count_eq _
  awaited c k j y hm := by
    obtain ⟨g, hk, hc, hy⟩ := b.awaited c k j y (List.mem_cons_of_mem _ hm)
    rw [Table.get?_insert]
    split
    · next e =>
        subst e
        obtain rfl : g = group := Option.some.inj (hk.symm.trans hg)
        refine ⟨grown, rfl, ?_, ?_⟩
        · rw [(Fragment.Group.frame_of_accept? ha).1, hc]
        · exact Fragment.Group.awaits_of_accept? ha brings (b.place_ne hm) hy
    · exact ⟨g, hk, hc, hy⟩
  nodup := (List.nodup_cons.mp b.nodup).2
  done k g hk := by
    rcases Table.get?_insert_eq_some_iff.mp hk with ⟨rfl, rfl⟩ | ⟨e, hk⟩
    · obtain ⟨-, ht, -, hd⟩ := Fragment.Group.frame_of_accept? ha
      have h := b.done k group hg
      simp only [List.filterMap_cons, Duty.place?, List.countP_cons_of_pos, decide_true] at h
      omega
    · have h := b.done k g hk
      simpa [Duty.place?, Ne.symm e] using h

theorem close (b : Balance duties groups unfilled) (hg : groups.get? id = some group)
    (complete : group.isComplete = true) :
    Balance (.reply group.client group.context.slot :: duties) (groups.erase id) unfilled where
  slots c s := by
    rw [← b.slots c s]
    have h : (promises groups).Perm
        ((group.client, group.context.slot) :: promises (groups.erase id)) :=
      Table.collect_perm_erase _ hg
    refine List.Perm.count_eq ?_ _
    rw [List.filterMap_cons]
    exact List.perm_middle.symm.trans (h.append_left _).symm
  awaited c k j y hm := by
    have hm : Duty.part c k j y ∈ duties := by simpa using hm
    obtain ⟨g, hk, hc, hy⟩ := b.awaited c k j y hm
    refine ⟨g, ?_, hc, hy⟩
    rw [Table.get?_erase_of_ne _ ?_, hk]
    rintro rfl
    have none : (duties.filterMap Duty.place?).countP (·.1 = k) = 0 := by
      have h := b.done k group hg
      simp only [Fragment.Group.isComplete, decide_eq_true_eq] at complete
      omega
    have mem : (k, j) ∈ duties.filterMap Duty.place? := List.mem_filterMap.mpr ⟨_, hm, rfl⟩
    exact absurd (List.countP_eq_zero.mp none _ mem) (by simp)
  nodup := b.nodup
  done k g hk := b.done k g (Table.get?_erase_eq_some_iff.mp hk).2

end Bring

theorem slot?_parts (client id total : Nat) (yield : Yield) :
    ((parts client id total yield).map Prod.snd).filterMap Duty.slot? = [] := by
  simp [parts, Duty.slot?, List.filterMap_map]

theorem place?_parts (client id total : Nat) (yield : Yield) :
    ((parts client id total yield).map Prod.snd).filterMap Duty.place? =
      (List.range total).map fun index => (id, index) := by
  simp [parts, Duty.place?, List.filterMap_map, Function.comp_def, List.filterMap_eq_map']

theorem id_ne_of_place (b : Balance duties groups unfilled) {id : Nat}
    (fresh : groups.get? id = none) {place : Nat × Nat}
    (h : place ∈ duties.filterMap Duty.place?) : place.1 ≠ id := by
  obtain ⟨duty, hm, hp⟩ := List.mem_filterMap.mp h
  cases duty with
  | reply client slot => cases hp
  | part client k index yield =>
      cases hp
      rintro rfl
      obtain ⟨group, hg, -, -⟩ := b.awaited client _ index yield hm
      rw [fresh] at hg
      cases hg

theorem gather {client id total : Nat} {gathered : Fragment.Gathered} {context : GroupContext}
    {yield : Yield} (b : Balance (.reply client context.slot :: duties) groups unfilled)
    (fresh : groups.get? id = none) (begins : yield.Begins total gathered) :
    Balance ((parts client id total yield).map Prod.snd ++ duties)
      (groups.insert id { client, total, gathered, context }) unfilled where
  slots c s := by
    rw [← b.slots c s, List.filterMap_append, slot?_parts, List.nil_append, List.filterMap_cons]
    have h : (promises (groups.insert id { client, total, gathered, context })).Perm
        ((client, context.slot) :: promises groups) :=
      Table.collect_perm_insert_new _ fresh
    refine List.Perm.count_eq ?_ _
    exact (h.append_left _).trans List.perm_middle
  awaited c k index y hm := by
    rcases List.mem_append.mp hm with hm | hm
    · simp only [parts, List.map_map, List.mem_map, List.mem_range, Function.comp_apply] at hm
      obtain ⟨i, hi, he⟩ := hm
      cases he
      exact ⟨_, Table.get?_insert_self _ _ _, rfl, Fragment.Group.awaits_of_begins begins hi⟩
    · obtain ⟨g, hk, hc, hy⟩ := b.awaited c k index y (List.mem_cons_of_mem _ hm)
      have ne : k ≠ id := by
        rintro rfl
        rw [fresh] at hk
        cases hk
      exact ⟨g, by rw [Table.get?_insert_of_ne _ _ ne, hk], hc, hy⟩
  nodup := by
    rw [List.filterMap_append, place?_parts]
    refine List.nodup_append.mpr ⟨?_, b.nodup, ?_⟩
    · exact List.Nodup.map (fun i j h => (Prod.mk.inj h).2) List.nodup_range
    · rintro place hp other ho rfl
      obtain ⟨i, -, rfl⟩ := List.mem_map.mp hp
      exact b.id_ne_of_place fresh ho rfl
  done k g hk := by
    rw [List.filterMap_append, place?_parts, List.countP_append, List.countP_map]
    rcases Table.get?_insert_eq_some_iff.mp hk with ⟨rfl, rfl⟩ | ⟨e, hk⟩
    · have none : (duties.filterMap Duty.place?).countP (·.1 = k) = 0 := by
        refine List.countP_eq_zero.mpr ?_
        intro place hp
        simpa using b.id_ne_of_place fresh hp
      simp [none, Function.comp_def]
    · have h : (duties.filterMap Duty.place?).countP (·.1 = k) + g.done = g.total :=
        b.done k g hk
      simpa [Function.comp_def, Ne.symm e] using h

theorem filterMap_slot?_filter (client : Nat) (duties : List Duty) :
    (duties.filter fun duty => duty.client ≠ client).filterMap Duty.slot? =
      (duties.filterMap Duty.slot?).filter fun place => place.1 ≠ client := by
  rw [List.filterMap_filter, List.filter_filterMap]
  refine List.filterMap_congr ?_
  intro duty _
  cases duty with
  | reply c slot => by_cases h : c = client <;> simp [Duty.slot?, Duty.client, Option.filter, h]
  | part c group index yield => simp [Duty.slot?]

theorem promises_filter (client : Nat) (groups : OpenGroups) :
    promises (groups.filter fun _ group => group.client ≠ client) =
      (promises groups).filter fun place => place.1 ≠ client := by
  simp only [promises, Table.collect, Table.filter]
  induction groups.entries with
  | nil => rfl
  | cons e rest ih =>
      rw [List.flatMap_cons, List.filter_append, ← ih]
      by_cases h : e.2.client = client <;> simp [h]

theorem clientClosed (b : Balance duties groups unfilled) (client : Nat) :
    Balance (duties.filter fun duty => duty.client ≠ client)
      (groups.filter fun _ group => group.client ≠ client)
      (fun c => if c = client then [] else unfilled c) where
  slots c s := by
    rw [filterMap_slot?_filter, promises_filter, ← List.filter_append]
    by_cases h : c = client
    · have none : (c, s) ∉ (duties.filterMap Duty.slot? ++ promises groups).filter
          fun place => place.1 ≠ client := by
        simp [h]
      rw [List.count_eq_zero_of_not_mem none]
      simp [h]
    · rw [List.count_filter (by simpa using h), b.slots, if_neg h]
  awaited c k index y hm := by
    obtain ⟨hm, hc⟩ := List.mem_filter.mp hm
    obtain ⟨group, hg, rfl, hy⟩ := b.awaited c k index y hm
    refine ⟨group, ?_, rfl, hy⟩
    rw [Table.get?_filter, hg]
    exact Option.filter_eq_some_iff.mpr ⟨rfl, hc⟩
  nodup := (List.filter_sublist.filterMap _).nodup b.nodup
  done k g hk := by
    rw [Table.get?_filter, Option.filter_eq_some_iff, decide_eq_true_eq] at hk
    obtain ⟨hk, hc⟩ := hk
    rw [← b.done k g hk, List.filterMap_filter, List.countP_filterMap, List.countP_filterMap]
    congr 1
    refine List.countP_congr ?_
    intro duty hm
    cases duty with
    | reply c slot => simp [Duty.place?]
    | part c id index yield =>
        by_cases hid : id = k
        · subst hid
          obtain ⟨group, hg, rfl, -⟩ := b.awaited c id index yield hm
          obtain rfl : group = g := Option.some.inj (hg.symm.trans hk)
          simp [Duty.place?, Duty.client, hc]
        · by_cases h : c = client <;> simp [Duty.place?, Duty.client, hid, h]

end Balance

end ReadThrough.Proxy
