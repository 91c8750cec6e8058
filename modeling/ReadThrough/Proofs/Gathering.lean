import Mathlib.Algebra.BigOperators.Group.List.Basic
import Mathlib.Algebra.Ring.Int.Defs
import Mathlib.Data.List.Induction
import ReadThrough.Proofs.Groups

namespace ReadThrough.Fragment

namespace Part

def count? : Part → Option Int64
  | .count n => some n
  | _ => none

def slot? : Part → Option Nat
  | .set slot _ => some slot
  | _ => none

end Part

structure Opening (κ : Type) where
  client : Nat
  total : Nat
  gathered : Gathered
  context : κ

def Opening.group {κ : Type} (opening : Opening κ) : Group κ :=
  { client := opening.client, total := opening.total, gathered := opening.gathered
    context := opening.context }

inductive Fits (gathered : Gathered) (taken : List Part) : Part → Prop
  | count {n m : Int64} : gathered = .count n → Fits gathered taken (.count m)
  | set {slots : List (Option (List Bytes))} {slot : Nat} {members : List Bytes} :
      gathered = .sets slots → slots[slot]? = some none → slot ∉ taken.filterMap Part.slot? →
      Fits gathered taken (.set slot members)
  | failed : Fits gathered taken .failed

def reckon (n : Int64) (taken : List Part) : Int :=
  n.toInt + ((taken.filterMap Part.count?).map Int64.toInt).sum

inductive Gathers (taken : List Part) : Gathered → Gathered → Prop
  | count {n : Int64} : Gathers taken (.count n) (.count (Int64.ofInt (reckon n taken)))
  | sets {slots filled : List (Option (List Bytes))} (length : filled.length = slots.length)
      (brought : ∀ slot members, .set slot members ∈ taken → filled[slot]? = some (some members))
      (kept : ∀ slot, slot ∉ taken.filterMap Part.slot? → filled[slot]? = slots[slot]?) :
      Gathers taken (.sets slots) (.sets filled)

structure Settles {κ : Type} (opening : Opening κ) (taken : List Part) (group : Group κ) :
    Prop where
  client : group.client = opening.client
  total : group.total = opening.total
  context : group.context = opening.context
  done : group.done = taken.length
  failures : group.failures = taken.count .failed
  gathered : Gathers taken opening.gathered group.gathered

section Parts

variable {κ : Type} {opening : Opening κ} {gathered held : Gathered} {taken : List Part}
  {part : Part} {group grown : Group κ}

theorem Part.mem_slots {slot : Nat} :
    slot ∈ taken.filterMap Part.slot? ↔ ∃ members, .set slot members ∈ taken := by
  simp only [List.mem_filterMap]
  constructor
  · rintro ⟨part, mem, same⟩
    cases part with
    | set slot' members =>
        cases same
        exact ⟨members, mem⟩
    | count | failed => cases same
  · rintro ⟨members, mem⟩
    exact ⟨_, mem, rfl⟩

section Gathers

variable {n m : Int64} {slots : List (Option (List Bytes))} {slot : Nat} {members : List Bytes}

theorem reckon_concat : Int64.ofInt (reckon n (taken ++ [.count m])) =
    Int64.ofInt (reckon n taken) + m := by
  have sum : reckon n (taken ++ [.count m]) = reckon n taken + m.toInt := by
    simp [reckon, Part.count?, Int.add_assoc]
  rw [sum, Int64.ofInt_add, Int64.ofInt_toInt]

theorem reckon_failed : reckon n (taken ++ [.failed]) = reckon n taken := by
  have uncounted : Part.failed.count? = none := rfl
  simp [reckon, uncounted]

theorem Gathers.nil (gathered : Gathered) : Gathers [] gathered gathered := by
  cases gathered with
  | count n =>
      have same : Int64.ofInt (reckon n []) = n := by simp [reckon]
      have gathers : Gathers [] (.count n) (.count (Int64.ofInt (reckon n []))) := .count
      rwa [same] at gathers
  | sets slots => exact .sets rfl (fun _ _ mem => by cases mem) fun _ _ => rfl

theorem Gathers.addCount (h : Gathers taken (.count n) held) : ∃ k, held = .count k ∧
    Gathers (taken ++ [.count m]) (.count n) (.count (k + m)) := by
  cases h
  exact ⟨_, rfl, reckon_concat ▸ .count⟩

theorem Gathers.addSet (h : Gathers taken (.sets slots) held) (free : slots[slot]? = some none)
    (new : slot ∉ taken.filterMap Part.slot?) (members : List Bytes) :
    ∃ filled, held = .sets filled ∧
      filled[slot]? = some none ∧ Gathers (taken ++ [.set slot members]) (.sets slots)
        (.sets (filled.set slot (some members))) := by
  cases h with
  | @sets _ filled length brought kept =>
      have empty : filled[slot]? = some none := (kept slot new).trans free
      have there : slot < filled.length := (List.getElem?_eq_some_iff.mp empty).1
      refine ⟨filled, rfl, empty, .sets (by rw [List.length_set, length]) ?_ ?_⟩
      · intro slot' members' mem
        rcases List.mem_append.mp mem with old | added
        · have other : slot ≠ slot' := fun same => new (same ▸ Part.mem_slots.mpr ⟨_, old⟩)
          rw [List.getElem?_set_ne other]
          exact brought slot' members' old
        · cases List.mem_singleton.mp added
          exact List.getElem?_set_self there
      · intro slot' absent
        simp only [List.filterMap_append, List.mem_append, not_or] at absent
        have other : slot ≠ slot' := by
          rintro rfl
          exact absent.2 List.mem_cons_self
        rw [List.getElem?_set_ne other]
        exact kept slot' absent.1

theorem Gathers.addFailed (h : Gathers taken gathered held) :
    Gathers (taken ++ [.failed]) gathered held := by
  cases h with
  | @count n =>
      rw [← reckon_failed]
      exact .count
  | sets length brought kept =>
      refine .sets length (fun slot members mem => brought slot members ?_) fun slot absent => ?_
      · simpa using mem
      · refine kept slot ?_
        simpa [Part.slot?] using absent

theorem Gathers.unique {taken' : List Part} {held' : Gathered} (perm : taken.Perm taken')
    (h : Gathers taken gathered held) (h' : Gathers taken' gathered held') : held = held' := by
  cases h with
  | @count n =>
      cases h'
      have same : reckon n taken = reckon n taken' :=
        congrArg (n.toInt + ·) ((perm.filterMap _).map _).sum_eq
      rw [same]
  | @sets slots filled _ brought kept =>
      cases h' with
      | @sets _ filled' _ brought' kept' =>
          refine congrArg Gathered.sets (List.ext_getElem? fun slot => ?_)
          by_cases some : slot ∈ taken.filterMap Part.slot?
          · obtain ⟨members, mem⟩ := Part.mem_slots.mp some
            rw [brought slot members mem, brought' slot members (perm.mem_iff.mp mem)]
          · rw [kept slot some, kept' slot (mt (perm.filterMap _).mem_iff.mpr some)]

end Gathers

theorem settles_nil (opening : Opening κ) : Settles opening [] opening.group where
  client := rfl
  total := rfl
  context := rfl
  done := rfl
  failures := rfl
  gathered := .nil _

theorem Settles.unique {taken' : List Part} {group' : Group κ} (perm : taken.Perm taken')
    (h : Settles opening taken group) (h' : Settles opening taken' group') : group = group' := by
  obtain ⟨client, total, done, failures, gathered, context⟩ := group
  obtain ⟨client', total', done', failures', gathered', context'⟩ := group'
  obtain rfl : client = client' := h.client.trans h'.client.symm
  obtain rfl : total = total' := h.total.trans h'.total.symm
  obtain rfl : done = done' := h.done.trans (perm.length_eq.trans h'.done.symm)
  obtain rfl : failures = failures' := h.failures.trans ((perm.count_eq _).trans h'.failures.symm)
  obtain rfl : gathered = gathered' := h.gathered.unique perm h'.gathered
  obtain rfl : context = context' := h.context.trans h'.context.symm
  rfl

theorem Settles.isComplete_iff (h : Settles opening taken group) :
    group.isComplete = true ↔ opening.total ≤ taken.length := by
  rw [Group.isComplete, h.total, h.done, decide_eq_true_eq]

theorem Settles.accept (h : Settles opening taken group) (fits : Fits opening.gathered taken part) :
    ∃ grown, group.accept? part = some grown ∧ Settles opening (taken ++ [part]) grown := by
  have done : group.done + 1 = (taken ++ [part]).length := by
    rw [h.done, List.length_append, List.length_singleton]
  have gathered := h.gathered
  cases fits with
  | @count n m kind =>
      rw [kind] at gathered
      obtain ⟨k, held, gathers⟩ := gathered.addCount (m := m)
      refine ⟨{ group with gathered := .count (k + m), done := group.done + 1 }, ?_, ?_⟩
      · simp only [Group.accept?, held]
      · exact ⟨h.client, h.total, h.context, done, by simp [h.failures], kind ▸ gathers⟩
  | @set slots slot members kind free new =>
      rw [kind] at gathered
      obtain ⟨filled, held, empty, gathers⟩ := gathered.addSet free new members
      refine ⟨{ group with
        gathered := .sets (filled.set slot (some members)), done := group.done + 1 }, ?_, ?_⟩
      · simp only [Group.accept?, held, if_pos empty]
      · exact ⟨h.client, h.total, h.context, done, by simp [h.failures], kind ▸ gathers⟩
  | failed =>
      refine ⟨{ group with failures := group.failures + 1, done := group.done + 1 }, ?_, ?_⟩
      · cases held : group.gathered <;> simp only [Group.accept?, held]
      · exact ⟨h.client, h.total, h.context, done, by simp [h.failures], gathered.addFailed⟩

theorem Settles.fits_of_accept? (h : Settles opening taken group)
    (accepted : group.accept? part = some grown) : Fits opening.gathered taken part := by
  have gathered := h.gathered
  cases part with
  | failed => exact .failed
  | count m =>
      generalize opening.gathered = given at gathered ⊢
      generalize same : group.gathered = held at gathered
      cases gathered with
      | count => exact .count rfl
      | sets =>
          simp only [Group.accept?, same] at accepted
          cases accepted
  | set slot members =>
      generalize opening.gathered = given at gathered ⊢
      generalize same : group.gathered = held at gathered
      cases gathered with
      | count =>
          simp only [Group.accept?, same] at accepted
          cases accepted
      | sets length brought kept =>
          simp only [Group.accept?, same] at accepted
          split at accepted
          · next empty =>
              have new : slot ∉ taken.filterMap Part.slot? := by
                intro old
                obtain ⟨members', mem⟩ := Part.mem_slots.mp old
                rw [brought slot members' mem] at empty
                cases empty
              exact .set rfl ((kept slot new).symm.trans empty) new
          · cases accepted

theorem Settles.accept?_eq_none (h : Settles opening taken group)
    (unfit : ¬ Fits opening.gathered taken part) : group.accept? part = none := by
  cases accepted : group.accept? part with
  | none => rfl
  | some grown => exact absurd (h.fits_of_accept? accepted) unfit

end Parts

section Order

variable {κ : Type} {opening : Opening κ} {gathered : Gathered} {parts before behind : List Part}
  {part : Part}

structure Acceptable (gathered : Gathered) (parts : List Part) : Prop where
  fits : ∀ part ∈ parts, Fits gathered [] part
  apart : (parts.filterMap Part.slot?).Nodup

theorem Acceptable.perm {parts' : List Part} (h : Acceptable gathered parts)
    (perm : parts'.Perm parts) : Acceptable gathered parts' where
  fits part mem := h.fits part (perm.mem_iff.mp mem)
  apart := (perm.filterMap _).nodup_iff.mpr h.apart

theorem Acceptable.front (h : Acceptable gathered (before ++ behind)) :
    Acceptable gathered before where
  fits part mem := h.fits part (List.mem_append_left _ mem)
  apart := by
    have apart := h.apart
    rw [List.filterMap_append] at apart
    exact (List.nodup_append.mp apart).1

theorem Acceptable.next (h : Acceptable gathered (before ++ [part])) :
    Fits gathered before part := by
  have alone := h.fits part (List.mem_append_right _ List.mem_cons_self)
  cases alone with
  | count kind => exact .count kind
  | failed => exact .failed
  | set kind free =>
      refine .set kind free fun filled => ?_
      have apart := h.apart
      rw [List.filterMap_append] at apart
      exact (List.nodup_append.mp apart).2.2 _ filled _ List.mem_cons_self rfl

theorem Acceptable.settles (opening : Opening κ) (h : Acceptable opening.gathered parts) :
    ∃ group, Settles opening parts group := by
  induction parts using List.reverseRecOn with
  | nil => exact ⟨_, settles_nil opening⟩
  | append_singleton parts part ih =>
      obtain ⟨group, settles⟩ := ih h.front
      obtain ⟨grown, -, settles⟩ := settles.accept h.next
      exact ⟨grown, settles⟩

end Order

end ReadThrough.Fragment
