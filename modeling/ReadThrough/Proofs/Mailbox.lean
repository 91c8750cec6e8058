import Mathlib.Data.List.Induction
import Mathlib.Data.List.Nodup
import Mathlib.Order.Bounds.Defs
import ReadThrough.Proofs.Replies

namespace ReadThrough.ReplyQueue

inductive Call (α : Type) where
  | reserve
  | fill (slot : Nat) (reply : α)
  | drain

inductive Exchange (α : Type) where
  | reserved (slot : Nat)
  | filled (slot : Nat) (reply : α)
  | refused (slot : Nat) (reply : α)
  | drained (replies : List (Nat × α))
  deriving DecidableEq

namespace Exchange

variable {α : Type}

def slot? : Exchange α → Option Nat
  | .reserved slot => some slot
  | _ => none

def given? : Exchange α → Option (Nat × α)
  | .filled slot reply => some (slot, reply)
  | _ => none

def replies : Exchange α → List (Nat × α)
  | .drained replies => replies
  | _ => []

end Exchange

variable {α : Type}

def call (queue : ReplyQueue α) : Call α → Exchange α × ReplyQueue α
  | .reserve =>
      let (slot, queue) := queue.reserve
      (.reserved slot, queue)
  | .fill slot reply =>
      match queue.fill? slot reply with
      | some filled => (.filled slot reply, filled)
      | none => (.refused slot reply, queue)
  | .drain =>
      let (replies, queue) := queue.drain
      (.drained replies, queue)

def after (calls : List (Call α)) : List (Exchange α) × ReplyQueue α :=
  calls.foldl
    (fun s call =>
      let (exchange, queue) := s.2.call call
      (s.1 ++ [exchange], queue))
    ([], {})

def reserved (log : List (Exchange α)) : List Nat :=
  log.filterMap Exchange.slot?

def given (log : List (Exchange α)) : List (Nat × α) :=
  log.filterMap Exchange.given?

def released (log : List (Exchange α)) : List (Nat × α) :=
  log.flatMap Exchange.replies

structure Vacant (log : List (Exchange α)) (slot : Nat) : Prop where
  reserved : slot ∈ reserved log
  undrained : slot ∉ (released log).map Prod.fst
  unfilled : slot ∉ (given log).map Prod.fst

/-- At one of the drains, the first so many slots were all filled. -/
def Cleared (log : List (Exchange α)) (n : Nat) : Prop :=
  ∃ before replies behind, log = before ++ .drained replies :: behind ∧
    n ≤ (reserved before).length ∧ ∀ slot ∈ (reserved before).take n,
      slot ∈ (given before).map Prod.fst

structure Mailbox (log : List (Exchange α)) (queue : ReplyQueue α) : Prop where
  fresh : (queue.call .reserve).1 = .reserved (reserved log).length ∧
    ∀ slot ∈ reserved log, slot < (reserved log).length
  accepts : ∀ slot reply, (queue.call (.fill slot reply)).1 = .filled slot reply ↔ Vacant log slot
  refuses : ∀ slot reply, ¬ Vacant log slot →
    queue.call (.fill slot reply) = (.refused slot reply, queue)
  once : ((given log).map Prod.fst).Nodup
  /-- The replies to the slots that were in front and filled at a drain have left, and no others. -/
  leaves : ∃ n, IsGreatest {n | n = 0 ∨ Cleared log n} n ∧
    (released log).map Prod.fst = (reserved log).take n ∧ released log ⊆ given log ∧
    n ≤ (reserved log).length ∧ queue.outstanding = (reserved log).length - n

section Slots

variable {queue filled : ReplyQueue α} {slot : Nat} {reply : α}

theorem fill?_isSome_iff (contiguous : queue.Contiguous) (reply : α) :
    (queue.fill? slot reply).isSome ↔ (slot, none) ∈ queue.slots := by
  refine ⟨fun some => ?_, fun free => fill?_isSome contiguous (mem_unfilled.mpr free)⟩
  obtain ⟨filled, some⟩ := Option.isSome_iff_exists.mp some
  obtain ⟨before, after, slots, -⟩ := fill?_eq_some_iff.mp some
  rw [slots]
  exact List.mem_append_right _ List.mem_cons_self

end Slots

section Log

variable {log : List (Exchange α)} {exchange : Exchange α} {queue : ReplyQueue α}

theorem after_concat (calls : List (Call α)) (call : Call α) :
    after (calls ++ [call]) =
      ((after calls).1 ++ [((after calls).2.call call).1], ((after calls).2.call call).2) := by
  rw [after, List.foldl_append]
  rfl

@[simp] theorem reserved_concat :
    reserved (log ++ [exchange]) = reserved log ++ exchange.slot?.toList := by
  rw [reserved, List.filterMap_append]
  cases h : exchange.slot? <;> simp [reserved, h]

@[simp] theorem given_concat :
    given (log ++ [exchange]) = given log ++ exchange.given?.toList := by
  rw [given, List.filterMap_append]
  cases h : exchange.given? <;> simp [given, h]

@[simp] theorem released_concat :
    released (log ++ [exchange]) = released log ++ exchange.replies := by
  simp [released]

theorem cleared_concat {n : Nat} : Cleared (log ++ [exchange]) n ↔ Cleared log n ∨
    (∃ replies, exchange = .drained replies) ∧ n ≤ (reserved log).length ∧
      ∀ slot ∈ (reserved log).take n, slot ∈ (given log).map Prod.fst := by
  constructor
  · rintro ⟨before, replies, behind, all, few, filled⟩
    rcases concat_eq_append_cons_iff.mp all with ⟨rfl, rfl, rfl⟩ | ⟨rest, rfl, rfl⟩
    · exact Or.inr ⟨⟨replies, rfl⟩, few, filled⟩
    · exact Or.inl ⟨before, replies, rest, rfl, few, filled⟩
  · rintro (⟨before, replies, behind, rfl, few, filled⟩ | ⟨⟨replies, rfl⟩, few, filled⟩)
    · exact ⟨before, replies, behind ++ [exchange], by simp, few, filled⟩
    · exact ⟨log, replies, [], rfl, few, filled⟩

def ledger (log : List (Exchange α)) (queue : ReplyQueue α) : List (Nat × Option α) :=
  (released log).map (fun s => (s.1, some s.2)) ++ queue.slots

structure Kept (log : List (Exchange α)) (queue : ReplyQueue α) : Prop where
  numbered : (ledger log queue).map Prod.fst = List.range queue.next
  counted : reserved log = List.range queue.next
  filled : ∀ slot reply, (slot, some reply) ∈ ledger log queue ↔ (slot, reply) ∈ given log
  once : ((given log).map Prod.fst).Nodup
  greatest : IsGreatest {n | n = 0 ∨ Cleared log n} (released log).length

namespace Kept

theorem nodup (h : Kept log queue) : ((ledger log queue).map Prod.fst).Nodup := by
  rw [h.numbered]
  exact List.nodup_range

theorem unique (h : Kept log queue) {slot : Nat} {held held' : Option α}
    (one : (slot, held) ∈ ledger log queue) (other : (slot, held') ∈ ledger log queue) :
    held = held' :=
  (Prod.mk.inj (List.inj_on_of_nodup_map h.nodup one other rfl)).2

theorem length (h : Kept log queue) :
    (released log).length + queue.slots.length = queue.next := by
  simpa [ledger] using congrArg List.length h.numbered

theorem reserved_eq (h : Kept log queue) :
    reserved log = (released log).map Prod.fst ++ queue.slots.map Prod.fst := by
  rw [h.counted, ← h.numbered]
  simp [ledger]

theorem contiguous (h : Kept log queue) : queue.Contiguous := by
  refine ⟨(released log).length, ?_, h.length⟩
  have numbered := h.numbered
  rw [← h.length, List.range_eq_range', ← List.range'_append_1, ledger, List.map_append,
    Nat.zero_add] at numbered
  exact (List.append_inj numbered (by simp)).2

theorem mem_slots (h : Kept log queue) {slot : Nat} :
    (slot, none) ∈ queue.slots ↔ Vacant log slot := by
  have same : (slot, none) ∈ ledger log queue ↔ (slot, none) ∈ queue.slots := by simp [ledger]
  rw [← same]
  constructor
  · intro free
    refine ⟨?_, fun drained => ?_, fun filled => ?_⟩
    · rw [h.counted, ← h.numbered]
      exact List.mem_map_of_mem free
    · obtain ⟨⟨slot, reply⟩, released, rfl⟩ := List.mem_map.mp drained
      have there : (slot, some reply) ∈ ledger log queue :=
        List.mem_append_left _ (List.mem_map_of_mem released)
      cases h.unique free there
    · obtain ⟨⟨_, reply⟩, given, rfl⟩ := List.mem_map.mp filled
      cases h.unique free ((h.filled _ _).mpr given)
  · intro vacant
    have reserved := vacant.reserved
    rw [h.counted, ← h.numbered] at reserved
    obtain ⟨⟨_, held⟩, there, rfl⟩ := List.mem_map.mp reserved
    cases held with
    | none => exact there
    | some reply => exact absurd (List.mem_map_of_mem ((h.filled _ _).mp there)) vacant.unfilled

theorem nil : Kept ([] : List (Exchange α)) {} where
  numbered := rfl
  counted := rfl
  filled slot reply := by simp [ledger, given, released]
  once := List.nodup_nil
  greatest := by
    refine ⟨Or.inl rfl, ?_⟩
    rintro n (rfl | ⟨before, replies, behind, all, -⟩)
    · exact Nat.le_refl _
    · cases before <;> cases all

theorem greatest_concat (h : Kept log queue) (exchange : Exchange α)
    (quiet : ∀ replies, exchange ≠ .drained replies) :
    IsGreatest {n | n = 0 ∨ Cleared (log ++ [exchange]) n} (released log).length := by
  have none : ¬ ∃ replies, exchange = .drained replies := not_exists.mpr quiet
  simpa only [cleared_concat, none, false_and, or_false] using h.greatest

theorem reserve (h : Kept log queue) : Kept (log ++ [.reserved queue.next]) queue.reserve.2 := by
  have grown : ledger (log ++ [.reserved queue.next]) queue.reserve.2 =
      ledger log queue ++ [(queue.next, none)] := by
    simp [ledger, Exchange.replies, ReplyQueue.reserve]
  refine ⟨?_, ?_, fun slot reply => ?_, ?_, ?_⟩
  · rw [grown, List.map_append, h.numbered]
    exact List.range_succ.symm
  · rw [reserved_concat, h.counted]
    exact List.range_succ.symm
  · simp [grown, h.filled, Exchange.given?]
  · simpa [Exchange.given?] using h.once
  · simpa [Exchange.replies] using h.greatest_concat (.reserved queue.next) (by simp)

theorem fill (h : Kept log queue) {filled : ReplyQueue α} {slot : Nat} {reply : α}
    (fills : queue.fill? slot reply = some filled) :
    Kept (log ++ [.filled slot reply]) filled := by
  obtain ⟨before, after, slots, -, rfl⟩ := fill?_eq_some_iff.mp fills
  have vacant : Vacant log slot := h.mem_slots.mp (by simp [slots])
  let front := (released log).map (fun s => (s.1, some s.2)) ++ before
  have was : ledger log queue = front ++ (slot, none) :: after := by simp [ledger, slots, front]
  have now : ledger (log ++ [.filled slot reply])
      { queue with slots := before ++ (slot, some reply) :: after } =
        front ++ (slot, some reply) :: after := by
    simp [ledger, Exchange.replies, front]
  refine ⟨?_, ?_, fun slot' reply' => ?_, ?_, ?_⟩
  · have numbered := h.numbered
    rw [was] at numbered
    rw [now]
    simpa using numbered
  · simpa [Exchange.slot?] using h.counted
  · have others := h.filled slot' reply'
    rw [was] at others
    rw [now, given_concat, List.mem_append (s := given log), ← others]
    simp [Exchange.given?, or_assoc, or_comm]
  · have apart : ∀ s ∈ (given log).map Prod.fst, s ≠ slot := by
      rintro s given rfl
      exact vacant.unfilled given
    simpa [Exchange.given?, List.nodup_append, h.once] using apart
  · simpa [Exchange.replies] using h.greatest_concat (.filled slot reply) (by simp)

theorem refuse (h : Kept log queue) (slot : Nat) (reply : α) :
    Kept (log ++ [.refused slot reply]) queue := by
  have same : ledger (log ++ [.refused slot reply]) queue = ledger log queue := by
    simp [ledger, Exchange.replies]
  refine ⟨same ▸ h.numbered, ?_, fun slot' reply' => ?_, ?_, ?_⟩
  · simpa [Exchange.slot?] using h.counted
  · simp [same, h.filled, Exchange.given?]
  · simpa [Exchange.given?] using h.once
  · simpa [Exchange.replies] using h.greatest_concat (.refused slot reply) (by simp)

theorem greatest_drain (h : Kept log queue) :
    IsGreatest {n | n = 0 ∨ Cleared (log ++ [.drained queue.drain.1]) n}
      (released (log ++ [.drained queue.drain.1])).length := by
  let out := released log ++ queue.drain.1
  have all : released (log ++ [.drained queue.drain.1]) = out := released_concat
  have divided : reserved log = out.map Prod.fst ++ queue.drain.2.slots.map Prod.fst := by
    rw [h.reserved_eq, ← drain_append queue]
    simp [out]
  rw [all]
  constructor
  · refine Or.inr (cleared_concat.mpr (Or.inr ⟨⟨_, rfl⟩, by simp [divided], ?_⟩))
    rw [divided, List.take_left' (List.length_map _)]
    intro _ mem
    obtain ⟨⟨slot, reply⟩, gone, rfl⟩ := List.mem_map.mp mem
    have there : (slot, some reply) ∈ ledger log queue := by
      rw [ledger, ← drain_append queue, ← List.append_assoc, ← List.map_append]
      exact List.mem_append_left _ (List.mem_map_of_mem gone)
    exact List.mem_map_of_mem ((h.filled _ _).mp there)
  · rintro n (rfl | cleared)
    · exact Nat.zero_le _
    · rcases cleared_concat.mp cleared with before | ⟨-, few, filled⟩
      · exact (h.greatest.2 (Or.inr before)).trans (by simp [out])
      · cases slots : queue.drain.2.slots with
        | nil => simpa [divided, slots] using few
        | cons front waiting =>
            obtain ⟨slot, held⟩ := front
            have waits : queue.drain.2.Drained := drained_drain
            obtain rfl : held = none := waits (slot, held) (by simp [slots])
            have free : (slot, none) ∈ queue.slots := by
              rw [← drain_append queue, slots]
              simp
            by_contra more
            refine (h.mem_slots.mp free).unfilled (filled slot ?_)
            rw [divided, slots]
            refine List.mem_take_iff_getElem.mpr ⟨out.length, ?_, by simp⟩
            simp only [List.map_cons, List.length_append, List.length_map, List.length_cons]
            omega

theorem drain (h : Kept log queue) : Kept (log ++ [.drained queue.drain.1]) queue.drain.2 := by
  have same : ledger (log ++ [.drained queue.drain.1]) queue.drain.2 = ledger log queue := by
    simp [ledger, Exchange.replies, drain_append]
  refine ⟨same ▸ h.numbered, ?_, fun slot' reply' => ?_, ?_, h.greatest_drain⟩
  · rw [reserved_concat, h.counted]
    exact List.append_nil _
  · simp [same, h.filled, Exchange.given?]
  · simpa [Exchange.given?] using h.once

theorem call (h : Kept log queue) (call : Call α) :
    Kept (log ++ [(queue.call call).1]) (queue.call call).2 := by
  cases call with
  | reserve => exact h.reserve
  | fill slot reply =>
      cases fills : queue.fill? slot reply with
      | some filled => simpa only [ReplyQueue.call, fills] using h.fill fills
      | none => simpa only [ReplyQueue.call, fills] using h.refuse slot reply
  | drain => exact h.drain

theorem mailbox (h : Kept log queue) : Mailbox log queue where
  fresh := by
    have counted : (reserved log).length = queue.next := by simp [h.counted]
    refine ⟨by rw [counted]; rfl, fun slot old => ?_⟩
    rw [h.counted] at old
    exact counted ▸ List.mem_range.mp old
  accepts slot reply := by
    rw [← h.mem_slots, ← fill?_isSome_iff h.contiguous reply]
    cases fills : queue.fill? slot reply <;> simp [ReplyQueue.call, fills]
  refuses slot reply taken := by
    rw [← h.mem_slots, ← fill?_isSome_iff h.contiguous reply,
      Option.not_isSome_iff_eq_none] at taken
    simp only [ReplyQueue.call, taken]
  once := h.once
  leaves := by
    have divided := h.reserved_eq
    refine ⟨_, h.greatest, ?_, ?_, by simp [divided], by simp [divided, outstanding]⟩
    · rw [divided, List.take_left' (List.length_map _)]
    · rintro ⟨slot, reply⟩ gone
      exact (h.filled slot reply).mp (List.mem_append_left _ (List.mem_map_of_mem gone))

end Kept

theorem kept_after (calls : List (Call α)) : Kept (after calls).1 (after calls).2 := by
  induction calls using List.reverseRecOn with
  | nil => exact .nil
  | append_singleton calls call ih =>
      rw [after_concat]
      exact ih.call call

end Log

theorem mailbox_after (calls : List (Call α)) : Mailbox (after calls).1 (after calls).2 :=
  (kept_after calls).mailbox

example : released (after [.reserve, .reserve, .fill 1 'b', .drain, .fill 7 'x', .fill 0 'a',
    .fill 0 'c', .reserve, .drain]).1 = [(0, 'a'), (1, 'b')] := by decide

end ReadThrough.ReplyQueue
