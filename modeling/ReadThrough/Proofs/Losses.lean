import ReadThrough.Proofs.Awaited
import ReadThrough.Proofs.Precedence

namespace ReadThrough.Proxy

section Lost

variable {w : World} {p q : Proxy} {ms inner : List Move} {move : Move} {id server : Nat}
  {why : Failure} {reason : String} {event : Event} {events : List Event} {news : News}

def Move.Loses (id : Nat) (move : Move) : Prop :=
  (∃ why, move = .storeReset id why) ∨ ∃ server reason, move = .storeSilence server id reason

theorem queued_of_close (lost : move.Loses id) (hm : move ∈ storeCloseMoves q server why) :
    id ∈ q.queued server := by
  rcases List.mem_cons.mp hm with rfl | hm
  · rcases lost with ⟨_, same⟩ | ⟨_, _, same⟩ <;> cases same
  · rcases List.mem_cons.mp hm with rfl | hm
    · rcases lost with ⟨_, same⟩ | ⟨_, _, same⟩ <;> cases same
    · obtain ⟨entry, he, rfl⟩ := List.mem_map.mp hm
      rcases lost with ⟨_, same⟩ | ⟨_, _, same⟩
      · cases same
        exact List.mem_map.mpr ⟨entry, he, rfl⟩
      · cases same

theorem queued_of_loss (lost : move.Loses id) (hm : move ∈ storeLossMoves q server reason) :
    id ∈ q.queued server := by
  rcases List.mem_cons.mp hm with rfl | hm
  · rcases lost with ⟨_, same⟩ | ⟨_, _, same⟩ <;> cases same
  · obtain ⟨entry, he, rfl⟩ := List.mem_map.mp hm
    rcases lost with ⟨_, same⟩ | ⟨_, _, same⟩
    · cases same
    · cases same
      exact List.mem_map.mpr ⟨entry, he, rfl⟩

theorem queued_of_storeMoves (lost : move.Loses id) {ending : Ending} {frames : List Store.Frame}
    (h : inner ++ [move] <+: storeMoves w server ending frames q) :
    ∃ front, front <+: inner ∧ id ∈ (play w q front).queued server := by
  have now : ∀ {why}, move ∈ storeCloseMoves q server why →
      ∃ front, front <+: inner ∧ id ∈ (play w q front).queued server :=
    fun hm => ⟨[], List.nil_prefix, queued_of_close lost hm⟩
  have last : move ∈ inner ++ [move] := by simp
  induction frames generalizing q inner with
  | nil =>
      cases ending with
      | waiting rest =>
          obtain rfl := List.mem_singleton.mp (h.subset last)
          rcases lost with ⟨_, same⟩ | ⟨_, _, same⟩ <;> cases same
      | refused why => exact now (h.subset last)
  | cons frame frames ih =>
      unfold storeMoves at h
      cases pending : (q.storeLink server).pending with
      | nil =>
          simp only [pending] at h
          exact now (h.subset last)
      | cons entry rest =>
          simp only [pending] at h
          cases inner with
          | nil =>
              obtain ⟨same, -⟩ := List.cons_prefix_cons.mp h
              subst same
              rcases lost with ⟨_, same⟩ | ⟨_, _, same⟩ <;> cases same
          | cons first inner =>
              rw [List.cons_append] at h
              obtain ⟨rfl, beyond⟩ := List.cons_prefix_cons.mp h
              have last : move ∈ inner ++ [move] := by simp
              have later : (∃ front, front <+: inner ∧ id ∈
                    (play w ((Move.storeAnswer server frame).apply w q) front).queued server) →
                  ∃ front, front <+: .storeAnswer server frame :: inner ∧
                    id ∈ (play w q front).queued server := by
                rintro ⟨front, within, queued⟩
                exact ⟨_ :: front, List.cons_prefix_cons.mpr ⟨rfl, within⟩, queued⟩
              have closes : ∀ {why}, move ∈ storeCloseMoves
                  ((Move.storeAnswer server frame).apply w q) server why →
                  ∃ front, front <+: inner ∧ id ∈
                    (play w ((Move.storeAnswer server frame).apply w q) front).queued server :=
                fun hm => ⟨[], List.nil_prefix, queued_of_close lost hm⟩
              split at beyond
              · exact later (ih beyond closes last)
              · split at beyond
                · exact later (closes (beyond.subset last))
                · exact later (ih beyond closes last)

theorem queued_of_moves (lost : move.Loses id) (h : inner ++ [move] <+: moves w q event) :
    ∃ front server, front <+: inner ∧ id ∈ (play w q front).queued server := by
  have hm : move ∈ moves w q event := h.subset (by simp)
  have arises := arises_of_mem hm
  cases event with
  | storeData server data =>
      obtain ⟨front, within, queued⟩ := queued_of_storeMoves lost h
      exact ⟨front, server, within, queued⟩
  | storeClosed server => exact ⟨[], server, List.nil_prefix, queued_of_loss lost hm⟩
  | storeTimeout server =>
      rcases List.mem_cons.mp hm with rfl | hm
      · rcases lost with ⟨_, same⟩ | ⟨_, _, same⟩ <;> cases same
      · exact ⟨[], server, List.nil_prefix, queued_of_loss lost hm⟩
  | _ => rcases lost with ⟨_, rfl⟩ | ⟨_, _, rfl⟩ <;> cases arises

theorem sent_of_told (tidy : Tidy p []) (empty : ∀ server, p.queued server = [])
    (run : ms ++ [move] <+: course w p events)
    (told : move.news? (play w p ms) = some (id, news)) :
    news = .missed ∨ (∃ value, news = .value value) ∨ sendings w (history w p ms) id ≠ [] := by
  have sent : ∀ {front server}, front <+: ms → id ∈ (play w p front).queued server →
      sendings w (history w p ms) id ≠ [] := by
    rintro front server ⟨more, rfl⟩ queued
    obtain ⟨sending, hm, -⟩ := queued_since tidy (empty server) front queued
    rw [history_append]
    exact List.ne_nil_of_mem (sendings_of_front hm)
  by_cases lost : move.Loses id
  · obtain ⟨before, event, inner, rfl, last⟩ := course_split run
    obtain ⟨front, server, within, queued⟩ := queued_of_moves lost last
    rw [← play_course, ← play_append] at queued
    exact Or.inr (Or.inr (sent ((List.prefix_append_right_inj _).mpr within) queued))
  · cases Move.news?_eq_some_iff.mp told with
    | @value server value rest pending => exact Or.inr (Or.inl ⟨value, rfl⟩)
    | missed => exact Or.inl rfl
    | @response server _ _ _ _ pending | @undecodable server _ _ _ _ pending =>
        have queued : id ∈ (play w p ms).queued server := by
          rw [queued, pendingStore, pending]
          exact List.mem_cons_self
        exact Or.inr (Or.inr (sent List.prefix_rfl queued))
    | @reset why => exact absurd (Or.inl ⟨why, rfl⟩) lost
    | @lost server reason => exact absurd (Or.inr ⟨server, reason, rfl⟩) lost

end Lost

end ReadThrough.Proxy
