import Mathlib.Data.List.Range
import ReadThrough.Proofs.Deed
import ReadThrough.Proofs.Entries

namespace ReadThrough.ReplyQueue

variable {α : Type} {queue filled : ReplyQueue α} {slot : Nat} {reply : α}

def unfilled (queue : ReplyQueue α) : List Nat :=
  queue.slots.filterMap fun s => if s.2.isNone then some s.1 else none

def Contiguous (queue : ReplyQueue α) : Prop :=
  ∃ first, queue.slots.map Prod.fst = List.range' first queue.slots.length ∧
    first + queue.slots.length = queue.next

def Drained (queue : ReplyQueue α) : Prop :=
  ∀ s ∈ queue.slots.head?, s.2 = none

theorem mem_unfilled : slot ∈ queue.unfilled ↔ (slot, none) ∈ queue.slots := by
  simp only [unfilled, List.mem_filterMap]
  constructor
  · rintro ⟨⟨n, held⟩, hm, hs⟩
    cases held with
    | none =>
        simp only [Option.isNone_none, if_true, Option.some.injEq] at hs
        exact hs ▸ hm
    | some reply => cases hs
  · intro h
    exact ⟨_, h, rfl⟩

theorem unfilled_sublist : queue.unfilled.Sublist (queue.slots.map Prod.fst) := by
  unfold unfilled
  induction queue.slots with
  | nil => exact .slnil
  | cons s rest ih =>
      obtain ⟨n, held⟩ := s
      cases held with
      | none => simpa using ih
      | some reply => exact ih.cons n

theorem Contiguous.nodup (h : queue.Contiguous) : (queue.slots.map Prod.fst).Nodup := by
  obtain ⟨first, hs, -⟩ := h
  rw [hs]
  exact List.nodup_range'

theorem Contiguous.nodup_unfilled (h : queue.Contiguous) : queue.unfilled.Nodup :=
  unfilled_sublist.nodup h.nodup

theorem contiguous_empty : ({} : ReplyQueue α).Contiguous := ⟨0, rfl, rfl⟩

theorem Contiguous.reserve (h : queue.Contiguous) : queue.reserve.2.Contiguous := by
  obtain ⟨first, hs, hn⟩ := h
  refine ⟨first, ?_, ?_⟩
  · simp [ReplyQueue.reserve, hs, List.range'_concat, ← hn]
  · simp [ReplyQueue.reserve, ← hn, Nat.add_assoc]

theorem unfilled_reserve : queue.reserve.2.unfilled = queue.unfilled ++ [queue.next] := by
  simp [unfilled, ReplyQueue.reserve, List.filterMap_append]

theorem Drained.reserve (h : queue.Drained) : queue.reserve.2.Drained := by
  unfold Drained ReplyQueue.reserve at *
  cases hs : queue.slots with
  | nil => simp
  | cons s rest => simpa [hs] using h

theorem fillSlot_eq_some_iff {slots slots' : List (Nat × Option α)} :
    fillSlot slot reply slots = some slots' ↔
      ∃ before after, slots = before ++ (slot, none) :: after ∧ slot ∉ before.map Prod.fst ∧
        slots' = before ++ (slot, some reply) :: after := by
  induction slots generalizing slots' with
  | nil => simp [fillSlot]
  | cons s rest ih =>
      obtain ⟨n, held⟩ := s
      by_cases hn : n = slot
      · subst hn
        constructor
        · intro h
          cases held with
          | none =>
              simp only [fillSlot, if_true, Option.some.injEq] at h
              exact ⟨[], rest, rfl, by simp, h.symm⟩
          | some reply => simp [fillSlot] at h
        · rintro ⟨before, after, hs, hb, rfl⟩
          cases before with
          | nil =>
              obtain ⟨rfl, rfl⟩ : held = none ∧ rest = after := by simpa using hs
              simp [fillSlot]
          | cons b before =>
              obtain ⟨rfl, -⟩ := List.cons.inj hs
              simp at hb
      · simp only [fillSlot, hn, if_false, Option.map_eq_some_iff]
        constructor
        · rintro ⟨tail, ht, rfl⟩
          obtain ⟨before, after, rfl, hb, rfl⟩ := ih.mp ht
          exact ⟨(n, held) :: before, after, rfl, by simpa [Ne.symm hn] using hb, rfl⟩
        · rintro ⟨before, after, hs, hb, rfl⟩
          cases before with
          | nil => exact absurd (congrArg Prod.fst (List.cons.inj hs).1) hn
          | cons b before =>
              obtain ⟨rfl, rfl⟩ := List.cons.inj hs
              refine ⟨_, ih.mpr ⟨before, after, rfl, ?_, rfl⟩, rfl⟩
              intro hm
              exact hb (List.mem_cons_of_mem _ hm)

theorem fill?_eq_some_iff : queue.fill? slot reply = some filled ↔
    ∃ before after, queue.slots = before ++ (slot, none) :: after ∧ slot ∉ before.map Prod.fst ∧
      filled = { queue with slots := before ++ (slot, some reply) :: after } := by
  simp only [fill?, Option.map_eq_some_iff, fillSlot_eq_some_iff]
  constructor
  · rintro ⟨slots, ⟨before, after, hs, hb, rfl⟩, rfl⟩
    exact ⟨before, after, hs, hb, rfl⟩
  · rintro ⟨before, after, hs, hb, rfl⟩
    exact ⟨_, ⟨before, after, hs, hb, rfl⟩, rfl⟩

theorem fill?_isSome (h : queue.Contiguous) (hm : slot ∈ queue.unfilled) :
    (queue.fill? slot reply).isSome := by
  obtain ⟨before, after, hs⟩ := List.append_of_mem (mem_unfilled.mp hm)
  have nodup := h.nodup
  rw [hs, List.map_append, List.nodup_append] at nodup
  have hb : slot ∉ before.map Prod.fst := fun hb => nodup.2.2 slot hb slot (by simp) rfl
  exact Option.isSome_iff_exists.mpr ⟨_, fill?_eq_some_iff.mpr ⟨before, after, hs, hb, rfl⟩⟩

theorem perm_unfilled_of_fill? (h : queue.fill? slot reply = some filled) :
    queue.unfilled.Perm (slot :: filled.unfilled) := by
  obtain ⟨before, after, hs, -, rfl⟩ := fill?_eq_some_iff.mp h
  simp only [unfilled, hs, List.filterMap_append, List.filterMap_cons]
  exact List.perm_middle

theorem Contiguous.fill? (h : queue.Contiguous) (hf : queue.fill? slot reply = some filled) :
    filled.Contiguous := by
  obtain ⟨before, after, hs, -, rfl⟩ := fill?_eq_some_iff.mp hf
  obtain ⟨first, hr, hn⟩ := h
  exact ⟨first, by simpa [hs] using hr, by simpa [hs] using hn⟩

theorem fill?_reserve (h : queue.Contiguous) (reply : α) :
    queue.reserve.2.fill? queue.next reply =
      some { next := queue.next + 1, slots := queue.slots ++ [(queue.next, some reply)] } := by
  have nodup := h.reserve.nodup
  simp only [ReplyQueue.reserve, List.map_append, List.nodup_append] at nodup
  have new : queue.next ∉ queue.slots.map Prod.fst := fun hm =>
    nodup.2.2 queue.next hm queue.next (by simp) rfl
  exact fill?_eq_some_iff.mpr ⟨queue.slots, [], rfl, new, rfl⟩

theorem Drained.drain_concat (h : queue.Drained) (next slot : Nat) (reply : α) :
    ReplyQueue.drain { next, slots := queue.slots ++ [(slot, some reply)] } =
      if queue.slots = [] then ([(slot, reply)], { next })
      else ([], { next, slots := queue.slots ++ [(slot, some reply)] }) := by
  obtain ⟨_, slots⟩ := queue
  cases slots with
  | nil => rfl
  | cons s rest =>
      obtain ⟨n, held⟩ := s
      obtain rfl : held = none := h (n, held) rfl
      rfl

theorem ready_append (slots : List (Nat × Option α)) :
    (ready slots).1.map (fun s => (s.1, some s.2)) ++ (ready slots).2 = slots := by
  induction slots with
  | nil => rfl
  | cons s rest ih =>
      obtain ⟨n, held⟩ := s
      cases held with
      | none => rfl
      | some reply => simpa [ready] using ih

theorem drain_append (queue : ReplyQueue α) :
    queue.drain.1.map (fun s => (s.1, some s.2)) ++ queue.drain.2.slots = queue.slots :=
  ready_append queue.slots

theorem drained_drain : queue.drain.2.Drained := by
  have key : ∀ slots : List (Nat × Option α), ∀ s ∈ (ready slots).2.head?, s.2 = none := by
    intro slots
    induction slots with
    | nil => simp [ready]
    | cons s rest ih =>
        obtain ⟨n, held⟩ := s
        cases held with
        | none => simp [ready]
        | some reply => exact ih
  exact key queue.slots

theorem unfilled_drain : queue.drain.2.unfilled = queue.unfilled := by
  have h := drain_append queue
  unfold unfilled
  rw [← h, List.filterMap_append, List.filterMap_map]
  simp

theorem Contiguous.drain (h : queue.Contiguous) : queue.drain.2.Contiguous := by
  obtain ⟨first, hr, hn⟩ := h
  have hd := drain_append queue
  have hl : queue.drain.1.length + queue.drain.2.slots.length = queue.slots.length := by
    simpa using congrArg List.length hd
  refine ⟨first + queue.drain.1.length, ?_, ?_⟩
  · rw [← hl, ← hd, List.map_append, ← List.range'_append_1] at hr
    exact (List.append_inj hr (by simp)).2
  · change first + queue.drain.1.length + queue.drain.2.slots.length = queue.next
    omega

end ReadThrough.ReplyQueue

namespace ReadThrough.Proxy

variable (p : Proxy) (client slot : Nat) (value : Reply)

theorem foldl_emit_reply (ready : List (Nat × Reply)) :
    ready.foldl (fun p filled => p.emit (.reply client filled.1 filled.2)) p =
      { p with outbox := p.outbox ++ ready.map fun filled => .reply client filled.1 filled.2 } := by
  induction ready generalizing p with
  | nil => simp
  | cons filled rest ih =>
      rw [List.foldl_cons, ih]
      simp [emit]

theorem reply_cases :
    ((p.client client).replies.fill? slot value = none ∧
        ∃ what, p.reply client slot value = p.breach what) ∨
      ∃ filled, (p.client client).replies.fill? slot value = some filled ∧
        p.reply client slot value =
          { p with
            clients := p.clients.insert client
              { p.client client with replies := filled.drain.2 }
            outbox := p.outbox ++ filled.drain.1.map fun s => .reply client s.1 s.2 } := by
  cases hc : p.clients.get? client with
  | none =>
      refine Or.inl ⟨by simp [Proxy.client, hc, ReplyQueue.fill?, ReplyQueue.fillSlot], ?_⟩
      exact ⟨.absentClient client, by simp [reply, hc]⟩
  | some link =>
      have hl : p.client client = link := by simp [Proxy.client, hc]
      cases hf : link.replies.fill? slot value with
      | none => exact Or.inl ⟨by rw [hl, hf], .slotNotFree client slot, by simp [reply, hc, hf]⟩
      | some filled =>
          refine Or.inr ⟨filled, by rw [hl, hf], ?_⟩
          simp only [reply, hc, hf, hl, foldl_emit_reply, setClient]

theorem reply_reserve (contiguous : (p.client client).replies.Contiguous) :
    let queue := (p.client client).replies
    let filled : ReplyQueue Reply :=
      { next := queue.next + 1, slots := queue.slots ++ [(queue.next, some value)] }
    (p.reserve client).2.reply client queue.next value =
      { p with
        clients := p.clients.insert client { p.client client with replies := filled.drain.2 }
        outbox := p.outbox ++ filled.drain.1.map fun s => .reply client s.1 s.2 } := by
  intro queue filled
  have link : (p.reserve client).2.client client =
      { p.client client with replies := queue.reserve.2 } := by
    simp [reserve, setClient, Proxy.client, queue]
  have fills := ReplyQueue.fill?_reserve contiguous value
  rcases reply_cases (p.reserve client).2 client queue.next value with
    ⟨none, -⟩ | ⟨filled', some, now⟩
  · rw [link, fills] at none
    cases none
  · rw [link, fills] at some
    cases some
    rw [now, link]
    simp only [reserve, setClient, Table.insert_insert_self]
    rfl

@[simp] theorem operations_reply : (p.reply client slot value).operations = p.operations := by
  rcases reply_cases p client slot value with ⟨-, what, h⟩ | ⟨filled, -, h⟩
  · rw [h]
    rfl
  · rw [h]

@[simp] theorem groups_reply : (p.reply client slot value).groups = p.groups := by
  rcases reply_cases p client slot value with ⟨-, what, h⟩ | ⟨filled, -, h⟩
  · rw [h]
    rfl
  · rw [h]

end ReadThrough.Proxy
