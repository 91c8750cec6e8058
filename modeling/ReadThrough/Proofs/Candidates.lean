import Mathlib.Data.List.Perm.Basic
import ReadThrough.Store.Response

namespace ReadThrough.Store

namespace Sibling

variable {siblings siblings' others : List Sibling} {sibling first : Sibling} {time : Nat}

theorem mem_live : sibling ∈ live siblings ↔ sibling ∈ siblings ∧ sibling.deleted = false := by
  simp [live]

theorem candidates_eq_filter : candidates siblings = (live siblings).filter (mayWin siblings) := by
  rw [candidates, live, List.filter_filter]
  refine List.filter_congr fun s _ => ?_
  simp only [mayWin]
  cases s.deleted <;> simp

theorem candidates_of_live (keep : Sibling → Bool)
    (same : ∀ s ∈ live siblings, mayWin siblings s = keep s) :
    candidates siblings = (live siblings).filter keep :=
  candidates_eq_filter.trans (List.filter_congr same)

theorem candidates_of_single (single : live siblings = [sibling]) :
    candidates siblings = [sibling] := by
  rw [candidates_of_live fun _ => true, List.filter_true, single]
  intro s mem
  simp [mayWin, single, (mem_live.mp mem).2]

theorem candidates_of_untimed (front : live siblings = first :: others)
    (untimed : first.lastModified = none) : candidates siblings = live siblings := by
  rw [candidates_of_live fun _ => true, List.filter_true]
  intro s mem
  cases others <;> simp [mayWin, front, untimed, (mem_live.mp mem).2]

theorem candidates_of_timed (front : live siblings = first :: others)
    (timed : first.lastModified ≠ none) :
    candidates siblings = (live siblings).filter (·.micros? == newest? (live siblings)) := by
  refine candidates_of_live _ fun s mem => ?_
  have kept := (mem_live.mp mem).2
  cases others with
  | nil =>
      obtain rfl := List.mem_singleton.mp (front ▸ mem)
      obtain ⟨made, same⟩ := Option.ne_none_iff_exists'.mp timed
      simp [mayWin, front, kept, newest?, micros?, same]
  | cons second others => simp [mayWin, front, kept, timed]

theorem newest?_eq_some_iff : newest? siblings = some time ↔
    (∃ s ∈ siblings, s.micros? = some time) ∧
      ∀ s ∈ siblings, ∀ time', s.micros? = some time' → time' ≤ time := by
  rw [newest?, List.max?_eq_some_iff]
  simp only [List.mem_filterMap, forall_exists_index, and_imp]
  exact and_congr_right fun _ =>
    ⟨fun h s mem time' made => h time' s mem made, fun h time' s mem made => h s mem time' made⟩

theorem exists_newest (mem : sibling ∈ siblings) (timed : sibling.lastModified ≠ none) :
    ∃ time, newest? siblings = some time := by
  obtain ⟨made, same⟩ := Option.ne_none_iff_exists'.mp timed
  refine Option.ne_none_iff_exists'.mp fun none => ?_
  have none := List.filterMap_eq_nil_iff.mp (List.max?_eq_none_iff.mp none) sibling mem
  simp [micros?, same] at none

/-- The siblings among which chance decides: all that are live if there is nothing to compare or the
first of them bears no time, and else the latest. -/
inductive Eligible (siblings : List Sibling) (sibling : Sibling) : Prop
  | single (single : live siblings = [sibling])
  | untimed {first : Sibling} {others : List Sibling} (front : live siblings = first :: others)
      (untimed : first.lastModified = none) (mem : sibling ∈ live siblings)
  | latest {first : Sibling} {others : List Sibling} {time : Nat}
      (front : live siblings = first :: others) (timed : first.lastModified ≠ none)
      (mem : sibling ∈ live siblings) (made : sibling.micros? = some time)
      (latest : ∀ s ∈ live siblings, ∀ time', s.micros? = some time' → time' ≤ time)

theorem mem_candidates : sibling ∈ candidates siblings ↔ Eligible siblings sibling := by
  constructor
  · intro mem
    have kept : sibling ∈ live siblings := by
      rw [candidates_eq_filter] at mem
      exact (List.mem_filter.mp mem).1
    obtain ⟨first, others, front⟩ := List.exists_cons_of_ne_nil (List.ne_nil_of_mem kept)
    by_cases timed : first.lastModified = none
    · exact .untimed front timed kept
    · obtain ⟨time, newest⟩ := exists_newest (front ▸ List.mem_cons_self) timed
      rw [candidates_of_timed front timed, newest, List.mem_filter, beq_iff_eq] at mem
      exact .latest front timed kept mem.2 (newest?_eq_some_iff.mp newest).2
  · intro eligible
    cases eligible with
    | single single => simp [candidates_of_single single]
    | untimed front untimed mem => rwa [candidates_of_untimed front untimed]
    | latest front timed mem made latest =>
        have newest := newest?_eq_some_iff.mpr ⟨⟨sibling, mem, made⟩, latest⟩
        rw [candidates_of_timed front timed, newest, List.mem_filter, beq_iff_eq]
        exact ⟨mem, made⟩

theorem candidates_eq_nil_iff : candidates siblings = [] ↔ live siblings = [] := by
  constructor
  · intro none
    by_contra some
    obtain ⟨first, others, front⟩ := List.exists_cons_of_ne_nil some
    by_cases timed : first.lastModified = .none
    · rw [candidates_of_untimed front timed] at none
      exact some none
    · obtain ⟨time, newest⟩ := exists_newest (front ▸ List.mem_cons_self) timed
      obtain ⟨s, mem, made⟩ := (newest?_eq_some_iff.mp newest).1
      have picked : s ∈ candidates siblings := mem_candidates.mpr
        (.latest front timed mem made (newest?_eq_some_iff.mp newest).2)
      exact List.ne_nil_of_mem picked none
  · intro none
    rw [candidates_eq_filter, none, List.filter_nil]

theorem pick_eq_none_iff (draw : Nat) : pick draw siblings = none ↔ live siblings = [] := by
  rw [← candidates_eq_nil_iff, pick, List.getElem?_eq_none_iff]
  constructor
  · intro beyond
    by_contra some
    have within := Nat.mod_lt draw (List.length_pos_of_ne_nil some)
    exact absurd within (Nat.not_lt.mpr beyond)
  · intro none
    simp [none]

theorem pick_eq_some_iff :
    (∃ draw, pick draw siblings = some sibling) ↔ Eligible siblings sibling := by
  rw [← mem_candidates, List.mem_iff_getElem?]
  constructor
  · rintro ⟨draw, picked⟩
    exact ⟨_, picked⟩
  · rintro ⟨i, found⟩
    refine ⟨i, ?_⟩
    rwa [pick, Nat.mod_eq_of_lt (List.getElem?_eq_some_iff.mp found).1]

theorem candidates_of_all_timed (timed : ∀ s ∈ live siblings, s.lastModified ≠ none) :
    candidates siblings = (live siblings).filter (·.micros? == newest? (live siblings)) := by
  cases front : live siblings with
  | nil => rw [candidates_eq_nil_iff.mpr front, List.filter_nil]
  | cons first others =>
      rw [← front]
      exact candidates_of_timed front (timed first (front ▸ List.mem_cons_self))

theorem candidates_perm (timed : ∀ s ∈ live siblings, s.lastModified ≠ none)
    (perm : siblings.Perm siblings') : (candidates siblings).Perm (candidates siblings') := by
  have perm : (live siblings).Perm (live siblings') := perm.filter _
  have timed' : ∀ s ∈ live siblings', s.lastModified ≠ none := fun s mem =>
    timed s (perm.mem_iff.mpr mem)
  have newest : newest? (live siblings) = newest? (live siblings') := by
    refine Option.ext fun time => ?_
    simp only [newest?_eq_some_iff, perm.mem_iff]
  rw [candidates_of_all_timed timed, candidates_of_all_timed timed', newest]
  exact perm.filter _

theorem pick_of_latest (timed : ∀ s ∈ live siblings, s.lastModified ≠ none)
    (mem : sibling ∈ live siblings) (made : sibling.micros? = some time)
    (later : ∀ s ∈ live siblings, s ≠ sibling → ∀ time', s.micros? = some time' → time' < time)
    (draw : Nat) : pick draw siblings = some sibling := by
  cases picked : pick draw siblings with
  | none => exact absurd ((pick_eq_none_iff draw).mp picked) (List.ne_nil_of_mem mem)
  | some s =>
      by_contra other
      have other : s ≠ sibling := fun same => other (congrArg some same)
      cases pick_eq_some_iff.mp ⟨draw, picked⟩ with
      | single single => exact other (List.mem_singleton.mp (single ▸ mem)).symm
      | untimed front untimed _ =>
          exact timed _ (front ▸ List.mem_cons_self) untimed
      | latest _ _ mem' made' latest =>
          exact absurd (later s mem' other _ made') (Nat.not_lt.mpr (latest _ mem _ made))

end Sibling

theorem pick_of_live {draw : Nat} {siblings : List Sibling} {sibling : Sibling}
    (only : Sibling.live siblings = [sibling]) : Sibling.pick draw siblings = some sibling := by
  rw [Sibling.pick, Sibling.candidates_of_single only]
  simp [Nat.mod_one]

variable {siblings : List Sibling} {vclock : Option Bytes}

theorem ofSiblings_eq_missing_iff (draw : Nat) {vclock' : Option Bytes} :
    Outcome.ofSiblings draw siblings vclock = .missing vclock' ↔
      vclock' = vclock ∧ Sibling.live siblings = [] := by
  rw [← Sibling.pick_eq_none_iff draw, Outcome.ofSiblings]
  cases Sibling.pick draw siblings <;> simp [eq_comm]

theorem ofSiblings_eq_found_iff {draw : Nat} {value : Bytes} {vclock' : Option Bytes} :
    Outcome.ofSiblings draw siblings vclock = .found value vclock' ↔
      vclock' = vclock ∧ ∃ s, Sibling.pick draw siblings = some s ∧ stripQuotes s.value = value := by
  rw [Outcome.ofSiblings]
  cases Sibling.pick draw siblings <;> simp [and_comm, eq_comm]

theorem isNotFound_found_iff :
    (Response.found siblings vclock).isNotFound = true ↔ Sibling.live siblings = [] := by
  simp [Response.isNotFound, Sibling.live]

structure Resolution : Prop where
  none_iff : ∀ draw siblings, Sibling.pick draw siblings = none ↔ Sibling.live siblings = []
  some_iff : ∀ siblings s,
    (∃ draw, Sibling.pick draw siblings = some s) ↔ Sibling.Eligible siblings s
  exact_time : ∀ (s : Sibling) secs usecs, s.lastModified = some (secs, usecs) →
    s.micros? = some (secs.toNat * 1000000 + usecs.toNat) ∧
    (secs.toUInt64 * 1000000 + usecs.toUInt64).toNat = secs.toNat * 1000000 + usecs.toNat
  permuted : ∀ siblings siblings', (∀ s ∈ Sibling.live siblings, s.lastModified ≠ none) →
    siblings.Perm siblings' → (Sibling.candidates siblings).Perm (Sibling.candidates siblings') ∧
      ∀ s, Sibling.Eligible siblings s ↔ Sibling.Eligible siblings' s
  latest : ∀ siblings s time, (∀ s ∈ Sibling.live siblings, s.lastModified ≠ none) →
    s ∈ Sibling.live siblings → s.micros? = some time →
    (∀ s' ∈ Sibling.live siblings, s' ≠ s → ∀ time', s'.micros? = some time' → time' < time) →
    ∀ draw, Sibling.pick draw siblings = some s
  missing_iff : ∀ draw siblings vclock vclock',
    (Response.found siblings vclock).outcome? draw = some (.missing vclock') ↔
      vclock' = vclock ∧ (Response.found siblings vclock).isNotFound = true
  found_iff : ∀ siblings vclock value vclock',
    (∃ draw, (Response.found siblings vclock).outcome? draw = some (.found value vclock')) ↔
      vclock' = vclock ∧ ∃ s, Sibling.Eligible siblings s ∧ value = stripQuotes s.value
  none_else : ∀ draw (response : Response), response.outcome? draw = none ↔
    ∀ siblings vclock, response ≠ .found siblings vclock

theorem exact_sum (secs usecs : UInt32) :
    (secs.toUInt64 * 1000000 + usecs.toUInt64).toNat = secs.toNat * 1000000 + usecs.toNat := by
  have hs := secs.toNat_lt
  have hu := usecs.toNat_lt
  simp only [UInt64.toNat_add, UInt64.toNat_mul, UInt32.toNat_toUInt64, UInt64.toNat_ofNat]
  omega

theorem resolution : Resolution where
  none_iff draw _ := Sibling.pick_eq_none_iff draw
  some_iff _ _ := Sibling.pick_eq_some_iff
  exact_time s secs usecs made := ⟨by rw [Sibling.micros?, made]; rfl, exact_sum secs usecs⟩
  permuted siblings siblings' timed perm := by
    have same := Sibling.candidates_perm timed perm
    exact ⟨same, fun s => by rw [← Sibling.mem_candidates, same.mem_iff, Sibling.mem_candidates]⟩
  latest _ _ _ timed mem made later := Sibling.pick_of_latest timed mem made later
  missing_iff draw siblings vclock vclock' := by
    rw [isNotFound_found_iff, ← ofSiblings_eq_missing_iff draw]
    exact Option.some_inj
  found_iff siblings vclock value vclock' := by
    simp only [Response.outcome?, Option.some_inj, ofSiblings_eq_found_iff,
      ← Sibling.pick_eq_some_iff]
    constructor
    · rintro ⟨draw, same, s, picked, rfl⟩
      exact ⟨same, s, ⟨draw, picked⟩, rfl⟩
    · rintro ⟨same, s, ⟨draw, picked⟩, rfl⟩
      exact ⟨draw, same, s, picked, rfl⟩
  none_else draw response := by
    cases response <;> simp [Response.outcome?]

theorem notFound_without_outcome :
    ¬ ((∃ vclock, (Response.set [] none).outcome? 0 = some (.missing vclock)) ↔
      (Response.set [] none).isNotFound = true) := by
  simp [Response.outcome?, Response.isNotFound]

end ReadThrough.Store
