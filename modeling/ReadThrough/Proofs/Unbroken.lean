import ReadThrough.Proofs.Promises
import ReadThrough.Proofs.Torn

namespace ReadThrough.Proxy

variable {w : World} {p : Proxy} {torn rest : List Ticket} {move : Move} {id : Nat}

theorem cacheRead_of_ticket {operation : Operation} (h : Torn torn p)
    (held : p.operations.get? id = some operation) (ticket : (id, none) ∈ p.tickets ++ torn) :
    ∃ read, operation.stage = .cacheRead read :=
  Stage.awaits_eq_none.mp (h.awaits_eq held ticket)

theorem awaits_of_answers {kind : Option Store.RequestKind} {operation : Operation}
    (h : Torn torn p) (tears : Tears p torn move rest) (answers : move.answers? p = some (id, kind))
    (held : p.operations.get? id = some operation) : operation.stage.awaits = kind := by
  refine h.awaits_eq held ?_
  unfold Move.answers? at answers
  split at answers
  · split at answers
    · next pending =>
        cases answers
        exact List.mem_append_left _ (ticket_of_cachePending pending)
    · cases answers
  · cases answers
    cases tears with
    | steady steady => exact steady.elim
    | cacheSilence => exact List.mem_append_right _ List.mem_cons_self
  · obtain ⟨entry, front, same⟩ := Option.map_eq_some_iff.mp answers
    obtain ⟨behind, pending⟩ := List.head?_eq_some_iff.mp front
    cases same
    exact List.mem_append_left _ (ticket_of_storePending pending)
  · cases answers

theorem clean_apply (h : Torn torn p) (tears : Tears p torn move rest) :
    Clean (move.opening p).1 (move.opening p).2 (move.apply w p) [] :=
  (handles_apply w (fun _ _ => trivial) h.tidy.sound move.fits_true fun _ =>
    awaits_of_answers h tears).clean trivial

theorem breaches_opening (p : Proxy) (move : Move) :
    (move.opening p).1.breaches = p.breaches := by
  obtain ⟨operations, h⟩ := Move.opening_fst p move
  rw [h]
  change (move.prepare p).breaches = p.breaches
  cases move with
  | cacheAnswer server value | storeAnswer server frame =>
      simp only [Move.prepare]
      split <;> rfl
  | _ => rfl

theorem breaches_apply (h : Torn torn p) (b : Balanced p []) (tears : Tears p torn move rest) :
    (move.apply w p).breaches = p.breaches := by
  have clean := clean_apply (w := w) h tears
  exact (clean.kept (h.tidy.opening move) (b.opening move)).trans (breaches_opening p move)

theorem breaches_play {ms : List Move} (mends : Mends w p torn ms) (h : Torn torn p)
    (b : Balanced p []) : (play w p ms).breaches = p.breaches := by
  induction mends with
  | nil => rfl
  | @cons p torn rest move ms tears _ ih =>
      have moved := ih (h.tears tears) (b.apply h.tidy w move)
      exact moved.trans (breaches_apply h b tears)

theorem no_breach (w : World) (settings : Settings) (policy : BucketPolicy)
    (events : List Event) : ((start settings policy).run w events).breaches = [] ∧
      ∀ code payload kind response, Store.Response.decode code payload kind = .ok response →
        response.isError = true ∨ response.Suits kind := by
  refine ⟨?_, fun code payload kind response => Store.Response.suits_of_decode⟩
  have settled : Torn [] (start settings policy) :=
    Settled.start settings policy
  have kept := breaches_play (Mends.course (w := w) events) settled
    (Balanced.start settings policy)
  rw [← play_course]
  exact kept

end ReadThrough.Proxy
