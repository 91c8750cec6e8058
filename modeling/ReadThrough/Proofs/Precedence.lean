import ReadThrough.Proofs.Trailed

namespace ReadThrough.Proxy

def queued (p : Proxy) (server : Nat) : List Nat :=
  (p.pendingStore server).map Prod.fst

def arriving (w : World) (p : Proxy) (move : Move) (server : Nat) : List Nat :=
  ((storeLine server).messages w p move).map Prod.fst

section Sent

variable {w : World} {p : Proxy} {moves : List Move} {move : Move} {id server time : Nat}

theorem left_map {α β : Type} (passage : Passage) (f : α → β) (queue : List α) :
    (passage.left queue).map f = passage.left (queue.map f) := by
  cases passage <;> simp

theorem queued_apply (sound : SoundOperations p) (move : Move) (server : Nat) :
    (move.apply w p).queued server =
      ((storeLine server).passage move).left (p.queued server) ++ arriving w p move server := by
  rw [queued, pendingStore_apply move server w sound, List.map_append, left_map, List.map_map]
  rfl

theorem mem_arriving : id ∈ arriving w p move server ↔
    ∃ request, Action.store server id request ∈ move.emits w p := by
  simp only [arriving, Line.messages, storeLine, List.mem_map, List.mem_filterMap]
  constructor
  · rintro ⟨⟨k, request⟩, ⟨action, hm, ha⟩, rfl⟩
    cases action with
    | store s k' request' =>
        simp only [Action.toStore?, Option.ite_none_right_eq_some, Option.some.injEq,
          Prod.mk.injEq] at ha
        obtain ⟨rfl, rfl, rfl⟩ := ha
        exact ⟨request', hm⟩
    | _ => cases ha
  · rintro ⟨request, hm⟩
    exact ⟨(id, request), ⟨_, hm, by simp [Action.toStore?]⟩, rfl⟩

theorem mem_sendings {past : History} {sending : Sending} : sending ∈ sendings w past id ↔
    ∃ q move, past[sending.time]? = some (q, move) ∧
      Action.store sending.server id sending.request ∈ move.emits w q := by
  simp only [sendings, List.mem_flatMap, List.mem_filterMap, Prod.exists,
    List.mem_zipIdx_iff_getElem?]
  constructor
  · rintro ⟨q, move, time, at', action, hm, ha⟩
    cases action with
    | store s k request =>
        simp only [Action.sending?, Option.ite_none_right_eq_some, Option.some.injEq] at ha
        obtain ⟨rfl, rfl⟩ := ha
        exact ⟨q, move, at', hm⟩
    | _ => cases ha
  · rintro ⟨q, move, at', hm⟩
    exact ⟨q, move, sending.time, at', _, hm, by simp [Action.sending?]⟩

theorem sendings_of_front {past more : History} {sending : Sending}
    (h : sending ∈ sendings w past id) : sending ∈ sendings w (past ++ more) id := by
  obtain ⟨q, move, at', hm⟩ := mem_sendings.mp h
  exact mem_sendings.mpr ⟨q, move, getElem?_of_front (List.prefix_append _ _) at', hm⟩

theorem sending_of_take {n : Nat} {sending : Sending}
    (h : sending ∈ sendings w (history w p (moves.take n)) id) :
    sending ∈ sendings w (history w p moves) id ∧ sending.time < n := by
  obtain ⟨later, split⟩ := history_take w p moves n
  refine ⟨split ▸ sendings_of_front h, ?_⟩
  obtain ⟨q, move, at', -⟩ := mem_sendings.mp h
  have lt := (List.getElem?_eq_some_iff.mp at').1
  rw [length_history, List.length_take] at lt
  exact (Nat.lt_min.mp lt).1

theorem queued_since (tidy : Tidy p []) (empty : p.queued server = []) (moves : List Move)
    (h : id ∈ (play w p moves).queued server) : ∃ sending ∈ sendings w (history w p moves) id,
      sending.server = server ∧ ∀ n, sending.time < n → n ≤ moves.length →
        id ∈ (play w p (moves.take n)).queued server := by
  induction moves using List.reverseRecOn with
  | nil =>
      rw [play_nil, empty] at h
      cases h
  | append_singleton moves move ih =>
      have now : id ∈ (play w p ((moves ++ [move]).take (moves.length + 1))).queued server := by
        rwa [List.take_of_length_le (by simp)]
      rw [play_concat, queued_apply (tidy.play w moves).sound] at h
      rw [history_concat]
      rcases List.mem_append.mp h with h | h
      · have before : id ∈ (play w p moves).queued server := by
          cases passage : (storeLine server).passage move with
          | answer =>
              rw [passage] at h
              exact List.mem_of_mem_tail h
          | loss =>
              rw [passage] at h
              cases h
          | other =>
              rw [passage] at h
              exact h
        obtain ⟨sending, hm, own, since⟩ := ih before
        refine ⟨sending, sendings_of_front hm, own, ?_⟩
        intro n gt le
        rw [List.length_append, List.length_singleton] at le
        rcases Nat.le_succ_iff.mp le with le | rfl
        · rw [List.take_append_of_le_length le]
          exact since n gt le
        · exact now
      · obtain ⟨request, hm⟩ := mem_arriving.mp h
        refine ⟨⟨moves.length, server, request⟩, ?_, rfl, ?_⟩
        · rw [mem_sendings]
          refine ⟨play w p moves, move, ?_, hm⟩
          simp [length_history]
        · intro n gt le
          rw [List.length_append, List.length_singleton] at le
          obtain rfl : n = moves.length + 1 := Nat.le_antisymm le gt
          exact now

end Sent

def Ahead (a b : Nat) (queue : List Nat) : Prop :=
  ∃ front back, queue = front ++ back ∧ a ∈ front ∧ a ∉ back ∧ b ∉ front

section Ahead

variable {a b : Nat} {queue arriving : List Nat} {passage : Passage}

theorem Ahead.head_ne (h : Ahead a b queue) (rest : List Nat) : queue ≠ b :: rest := by
  obtain ⟨front, back, rfl, inFront, -, free⟩ := h
  cases front with
  | nil => cases inFront
  | cons first front =>
      intro same
      cases same
      exact free List.mem_cons_self

theorem Ahead.advance (h : Ahead a b queue) (stays : a ∈ passage.left queue ++ arriving)
    (unsent : a ∉ arriving) : Ahead a b (passage.left queue ++ arriving) := by
  obtain ⟨front, back, rfl, inFront, notBack, free⟩ := h
  have kept : ∀ front', passage.left (front ++ back) = front' ++ back → front' ⊆ front →
      Ahead a b (passage.left (front ++ back) ++ arriving) := by
    intro front' split sub
    refine ⟨front', back ++ arriving, by rw [split, List.append_assoc], ?_, ?_, ?_⟩
    · rw [split, List.append_assoc] at stays
      rcases List.mem_append.mp stays with inFront | inBack
      · exact inFront
      · exact absurd inBack (by simp [notBack, unsent])
    · simp [notBack, unsent]
    · exact fun hb => free (sub hb)
  cases passage with
  | answer =>
      cases front with
      | nil => cases inFront
      | cons first front => exact kept front rfl (List.subset_cons_self _ _)
  | loss => exact absurd stays unsent
  | other => exact kept front rfl (List.Subset.refl _)

end Ahead

section Answered

variable {w : World} {p : Proxy} {moves : List Move} {a b answering : Nat}
  {response : Store.Response} {first second : Sending}

theorem storeAnswer_of_told {q : Proxy} {move : Move} {id server : Nat}
    (told : move.news? q = some (id, .response server response)) :
    ∃ frame kind rest, move = .storeAnswer server frame ∧
      q.pendingStore server = (id, kind) :: rest ∧
      Store.Response.decode frame.code frame.payload kind = .ok response := by
  cases Move.news?_eq_some_iff.mp told with
  | response pending decoded => exact ⟨_, _, _, rfl, pending, decoded⟩

theorem queued_between (tidy : Tidy p []) (empty : ∀ server, p.queued server = []) {time id : Nat}
    (told : Told (history w p moves) time id (.response answering response))
    (only : ∀ sending ∈ sendings w (history w p moves) id, sending.time < time →
      sending = first) : first ∈ sendings w (history w p moves) id ∧ first.server = answering ∧
        first.time < time ∧ (∃ rest, (play w p (moves.take time)).queued answering = id :: rest) ∧
        ∀ n, first.time < n → n ≤ time → id ∈ (play w p (moves.take n)).queued answering := by
  obtain ⟨q, move, operation, at', heard, -⟩ := told
  have lt : time < moves.length := by
    rw [← length_history (w := w) (p := p)]
    exact (List.getElem?_eq_some_iff.mp at').1
  obtain ⟨-, rfl⟩ := getElem?_history.mp at'
  obtain ⟨frame, kind, behind, -, pending, -⟩ := storeAnswer_of_told heard
  have front : (play w p (moves.take time)).queued answering = id :: behind.map Prod.fst := by
    rw [queued, pending]
    rfl
  have waits : id ∈ (play w p (moves.take time)).queued answering := by
    rw [front]
    exact List.mem_cons_self
  obtain ⟨sending, hm, own, since⟩ := queued_since tidy (empty answering) _ waits
  have length : (moves.take time).length = time := List.length_take_of_le lt.le
  obtain ⟨sent, before⟩ := sending_of_take hm
  obtain rfl : sending = first := only sending sent before
  refine ⟨sent, own, before, ⟨_, front⟩, ?_⟩
  intro n gt le
  have waits := since n gt (length.symm ▸ le)
  rwa [List.take_take, Nat.min_eq_left le] at waits

theorem answered_in_order (tidy : Tidy p []) (empty : ∀ server, p.queued server = [])
    {t t' : Nat} {answering' : Nat} {response' : Store.Response}
    (told : Told (history w p moves) t a (.response answering response))
    (told' : Told (history w p moves) t' b (.response answering' response'))
    (only : ∀ sending ∈ sendings w (history w p moves) a, sending.time < t → sending = first)
    (only' : ∀ sending ∈ sendings w (history w p moves) b, sending.time < t' → sending = second)
    (server : first.server = second.server) (earlier : first.time < second.time) : t < t' := by
  obtain ⟨sent, own, before, ⟨rest, front⟩, queuedA⟩ := queued_between tidy empty told only
  obtain ⟨sent', own', before', ⟨rest', front'⟩, -⟩ := queued_between tidy empty told' only'
  obtain rfl : answering = answering' := own.symm.trans (server.trans own')
  -- Otherwise the second would stand at the head of the queue while the first is still ahead of it.
  by_contra ge
  have le : t' ≤ t := Nat.not_lt.mp ge
  have reach : ∀ n, n < t' → n < moves.length := by
    intro n lt
    have := told'.lt
    rw [length_history] at this
    omega
  have ahead : ∀ n, second.time ≤ n → n ≤ t' →
      Ahead a b ((play w p (moves.take n)).queued answering) := by
    intro n from'
    induction n, from' using Nat.le_induction with
    | base =>
        intro _
        refine ⟨_, [], (List.append_nil _).symm, queuedA _ earlier (by omega),
          List.not_mem_nil, ?_⟩
        intro early
        obtain ⟨sending, hm, -⟩ := queued_since tidy (empty answering) _ early
        obtain ⟨sent, lt⟩ := sending_of_take hm
        rw [only' sending sent (Nat.lt_trans lt before')] at lt
        exact Nat.lt_irrefl _ lt
    | succ n from' ih =>
        intro lt
        have within := reach n lt
        have stays := queuedA (n + 1) (by omega) (by omega)
        rw [play_take_succ w p (List.getElem?_eq_getElem within),
          queued_apply (tidy.play w _).sound] at stays ⊢
        refine (ih (by omega)).advance stays ?_
        intro again
        obtain ⟨request, hm⟩ := mem_arriving.mp again
        have same := only ⟨n, answering, request⟩ (mem_sendings.mpr ⟨_, _, getElem?_history.mpr
          ⟨List.getElem?_eq_getElem within, rfl⟩, hm⟩) (by show n < t; omega)
        rw [← same] at earlier
        exact absurd earlier (Nat.not_lt.mpr from')
  exact (ahead t' before'.le le_rfl).head_ne rest' front'

end Answered

end ReadThrough.Proxy
