import ReadThrough.Proofs.Roots

namespace ReadThrough.Proxy

section Refills

variable {mine : Nat → Prop} {old new : List (Nat × Option Reply)} {slot : Nat} {value : Reply}

theorem Refills.kept (h : Refills mine old new) (nodup : (old.map Prod.fst).Nodup)
    (hm : (slot, some value) ∈ old) : (slot, some value) ∈ new := by
  have key : slot ∈ new.map Prod.fst := by
    rw [h.keys]
    exact List.mem_map.mpr ⟨_, hm, rfl⟩
  obtain ⟨⟨s, held⟩, hn, rfl⟩ := List.mem_map.mp key
  cases held with
  | none =>
      have same := List.inj_on_of_nodup_map nodup hm (h.unfilled hn) rfl
      cases same
  | some other =>
      rcases h.filled hn with ho | ⟨ho, -⟩
      · cases List.inj_on_of_nodup_map nodup hm ho rfl
        exact hn
      · cases List.inj_on_of_nodup_map nodup hm ho rfl

end Refills

section Asked

variable {w : World} {past : History} {p : Proxy} {move : Move} {client slot start : Nat}

theorem asked_of_concat
    (h : (session w client (past ++ [(p, move)])).asked[slot]? = some start) :
    move ≠ .hangUp client ∧ ((session w client past).asked[slot]? = some start ∨
      (start = past.length ∧ ∃ content, move = .request client content)) := by
  rw [session_concat] at h
  cases move with
  | request c content =>
      refine ⟨by simp, ?_⟩
      simp only [Session.advance] at h
      split at h
      · next same =>
          rw [List.getElem?_append] at h
          split at h
          · exact Or.inl h
          · obtain ⟨_, now⟩ := List.getElem?_eq_some_iff.mp h
            rw [List.getElem_singleton] at now
            exact Or.inr ⟨now.symm, content, by rw [same]⟩
      · exact Or.inl h
  | hangUp c =>
      simp only [Session.advance] at h
      split at h
      · cases h
      · next other => exact ⟨by simpa using other, Or.inl h⟩
  | _ => exact ⟨by simp, Or.inl h⟩

theorem asked_lt (h : (session w client past).asked[slot]? = some start) :
    start < past.length := by
  induction past using List.reverseRecOn with
  | nil => cases h
  | append_singleton past made ih =>
      rw [List.length_append, List.length_singleton]
      rcases (asked_of_concat h).2 with before | ⟨now, -⟩
      · exact Nat.lt_succ_of_lt (ih before)
      · exact now ▸ Nat.lt_succ_self _

theorem asked_request (h : (session w client past).asked[slot]? = some start) :
    ∃ q content, past[start]? = some (q, .request client content) := by
  induction past using List.reverseRecOn with
  | nil => cases h
  | append_singleton past made ih =>
      rcases (asked_of_concat h).2 with before | ⟨rfl, content, request⟩
      · obtain ⟨q, content, at'⟩ := ih before
        exact ⟨q, content, getElem?_of_front (List.prefix_append _ _) at'⟩
      · exact ⟨made.1, content, by simp [← request]⟩

theorem asked_after_hangUp (h : (session w client past).asked[slot]? = some start) {time : Nat}
    {q : Proxy} (left : past[time]? = some (q, .hangUp client)) : time < start := by
  induction past using List.reverseRecOn with
  | nil => cases h
  | append_singleton past made ih =>
      have lt := (List.getElem?_eq_some_iff.mp left).1
      rw [List.length_append, List.length_singleton] at lt
      obtain ⟨stays, since⟩ := asked_of_concat h
      rcases Nat.lt_succ_iff_lt_or_eq.mp lt with earlier | rfl
      · rw [List.getElem?_append_left earlier] at left
        rcases since with before | ⟨rfl, -⟩
        · exact ih before left
        · exact earlier
      · rw [List.getElem?_concat_length] at left
        exact absurd (congrArg Prod.snd (Option.some.inj left)) stays

theorem nodup_asked : (session w client past).asked.Nodup := by
  induction past using List.reverseRecOn with
  | nil => exact List.nodup_nil
  | append_singleton past made ih =>
      obtain ⟨q, move⟩ := made
      rw [session_concat]
      cases move with
      | request c content =>
          simp only [Session.advance]
          split
          · refine List.nodup_append.mpr ⟨ih, List.nodup_singleton _, ?_⟩
            rintro start before other now rfl
            obtain ⟨slot, at'⟩ := List.getElem?_of_mem before
            exact absurd (asked_lt at') (by simp [List.mem_singleton.mp now])
          · exact ih
      | hangUp c =>
          simp only [Session.advance]
          split
          · exact List.nodup_nil
          · exact ih
      | _ => exact ih

theorem asked_inj {slot' : Nat} (h : (session w client past).asked[slot]? = some start)
    (h' : (session w client past).asked[slot']? = some start) : slot = slot' := by
  obtain ⟨lt, same⟩ := List.getElem?_eq_some_iff.mp h
  obtain ⟨lt', same'⟩ := List.getElem?_eq_some_iff.mp h'
  exact nodup_asked.getElem_inj_iff.mp (same.trans same'.symm)

end Asked

section Standing

variable {w : World} {past : History} {p : Proxy} {move : Move} {moves : List Move}
  {client slot start : Nat} {value : Reply}

theorem Sessions.kept (h : Sessions w past p) (stays : move ≠ .hangUp client)
    (hm : (slot, some value) ∈ tape w past p client) :
    (slot, some value) ∈ tape w (past ++ [(p, move)]) (move.apply w p) client := by
  by_cases hangsUp : ∃ c, move = .hangUp c
  · obtain ⟨c, rfl⟩ := hangsUp
    have other : client ≠ c := fun same => stays (by rw [same])
    have same : session w client (past ++ [(p, .hangUp c)]) = session w client past := by
      have silent : (Move.hangUp c).emits w p = [] := by
        simp [Move.emits, Move.apply, clientClosed]
      rw [session_concat]
      simp [Session.advance, silent, Ne.symm other]
    rw [tape, same, slots]
    simp only [Move.apply, client_clientClosed, if_neg other]
    exact hm
  · have all : ∀ c, move ≠ .hangUp c := fun c he => hangsUp ⟨c, he⟩
    obtain ⟨mine, continues⟩ := h.continues all
    obtain ⟨actions, outbox, refills⟩ := (continues.serves h).replies
    rw [tape_made _ all outbox]
    rcases List.mem_append.mp hm with sent | held
    · exact List.mem_append_left _ sent
    · refine List.mem_append_right _ ((refills client).kept ?_ ((mem_slots_opening all).mpr held))
      exact ((h.tidy.opening move).contiguous client).nodup

theorem asked_before {n : Nat} (gt : start < n) (le : n ≤ moves.length)
    (h : (session w client (history w p moves)).asked[slot]? = some start) :
    (session w client (history w p (moves.take n))).asked[slot]? = some start := by
  induction moves using List.reverseRecOn with
  | nil =>
      rw [List.take_nil]
      exact h
  | append_singleton moves move ih =>
      rw [List.length_append, List.length_singleton] at le
      rcases Nat.le_succ_iff.mp le with le | rfl
      · rw [List.take_append_of_le_length le]
        rw [history_concat] at h
        rcases (asked_of_concat h).2 with before | ⟨rfl, -⟩
        · exact ih le before
        · rw [length_history] at gt
          exact absurd le (Nat.not_le.mpr gt)
      · rwa [List.take_of_length_le (by simp)]

theorem lasts {P : List Move → Prop} {n : Nat} (gt : start < n) (le : n ≤ moves.length)
    (h : (session w client (history w p moves)).asked[slot]? = some start)
    (now : P (moves.take n))
    (stays : ∀ ms move, (session w client (history w p ms)).asked[slot]? = some start →
      move ≠ .hangUp client → P ms → P (ms ++ [move])) : P moves := by
  induction moves using List.reverseRecOn with
  | nil =>
      rw [List.take_nil] at now
      exact now
  | append_singleton moves move ih =>
      rw [List.length_append, List.length_singleton] at le
      rcases Nat.le_succ_iff.mp le with le | rfl
      · rw [List.take_append_of_le_length le] at now
        rw [history_concat] at h
        obtain ⟨listens, before | ⟨rfl, -⟩⟩ := asked_of_concat h
        · exact stays moves move before listens (ih le before now)
        · rw [length_history] at gt
          exact absurd le (Nat.not_le.mpr gt)
      · rwa [List.take_of_length_le (by simp)] at now

theorem tape_after (sessions : Sessions w [] p) {n : Nat} (gt : start < n) (le : n ≤ moves.length)
    (h : (session w client (history w p moves)).asked[slot]? = some start)
    (hm : (slot, some value) ∈
      tape w (history w p (moves.take n)) (play w p (moves.take n)) client) :
    (slot, some value) ∈ tape w (history w p moves) (play w p moves) client := by
  refine lasts (P := fun ms => (slot, some value) ∈ tape w (history w p ms) (play w p ms) client)
    gt le h hm ?_
  intro ms move _ listens held
  rw [history_concat, play_concat]
  exact (sessions.play ms).kept listens held

end Standing

end ReadThrough.Proxy
