import ReadThrough.Proofs.Pairing
import ReadThrough.Proofs.Standing
import ReadThrough.Proofs.Tickets
import ReadThrough.Proofs.Trailed

namespace ReadThrough.Proxy

section Course

variable {w : World} {p : Proxy} {ms : List Move} {move : Move} {events : List Event}

theorem prefix_concat_cases {α : Type} {xs front back : List α} {x : α}
    (h : xs ++ [x] <+: front ++ back) :
    xs ++ [x] <+: front ∨ ∃ inner, xs = front ++ inner ∧ inner ++ [x] <+: back := by
  rcases List.prefix_or_prefix_of_prefix h (List.prefix_append _ _) with within | ⟨more, all⟩
  · exact Or.inl within
  · rcases List.eq_nil_or_concat' more with rfl | ⟨inner, last, rfl⟩
    · rw [List.append_nil] at all
      exact Or.inl (all ▸ List.prefix_rfl)
    · rw [← List.append_assoc] at all
      obtain ⟨rfl, same⟩ := List.append_inj' all rfl
      cases same
      rw [List.append_assoc, List.prefix_append_right_inj] at h
      exact Or.inr ⟨inner, rfl, h⟩

theorem course_split (h : ms ++ [move] <+: course w p events) :
    ∃ before event inner, ms = course w p before ++ inner ∧
      inner ++ [move] <+: moves w (p.run w before) event := by
  induction events generalizing p ms with
  | nil => exact absurd h.length_le (by simp [course])
  | cons event events ih =>
      rcases prefix_concat_cases h with here | ⟨inner, rfl, beyond⟩
      · exact ⟨[], event, ms, rfl, here⟩
      · obtain ⟨before, later, rest, rfl, last⟩ := ih beyond
        exact ⟨event :: before, later, rest, by rw [course, List.append_assoc], last⟩

theorem steady_before_answer {server : Nat} {frame : Store.Frame} {event : Event}
    (h : ms ++ [.storeAnswer server frame] <+: moves w p event) : ∀ move ∈ ms, move.Steady := by
  obtain ⟨taken, left, rest, -, split, none, -⟩ := (orderly_storeLine w server).takes p event
  rw [split] at h
  rcases prefix_concat_cases h with within | ⟨inner, rfl, beyond⟩
  · intro move hm
    obtain ⟨frame, -, rfl⟩ := List.mem_map.mp (within.subset (List.mem_append_left _ hm))
    trivial
  · have stray : Move.storeAnswer server frame ∈ rest := beyond.subset (by simp)
    exact absurd ((passage_storeLine_eq_answer _ server).mpr ⟨frame, rfl⟩) (none _ stray)

theorem hungUp_of_abandoned {id : Nat} (h : Abandoned w p events id) :
    ∃ time client operation, (course w p events)[time]? = some (.hangUp client) ∧
      (play w p ((course w p events).take time)).operations.get? id = some operation ∧
      operation.client = client := by
  obtain ⟨before, client, after, operation, rfl, ho, hc⟩ := h
  refine ⟨(course w p before).length, client, operation, ?_, ?_, hc⟩
  · rw [course_append, List.getElem?_append_right (Nat.le_refl _), Nat.sub_self]
    rfl
  · rw [course_append, List.take_left, play_course]
    exact ho

end Course

section Awaited

variable {w : World} {p : Proxy} {events : List Event} {ms : List Move}
  {server id start slot client : Nat} {frame : Store.Frame} {kind : Store.RequestKind}
  {rest : List (Nat × Store.RequestKind)}
  (settles : ∀ events, Settled (Abandoned w p events) [] (p.run w events))

include settles

theorem settled_before_answer (h : ms ++ [.storeAnswer server frame] <+: course w p events) :
    ∃ before more, ms = course w p before ++ more ∧
      Settled (Abandoned w p before) [] (play w p ms) := by
  obtain ⟨before, event, inner, rfl, last⟩ := course_split h
  refine ⟨before, inner, rfl, ?_⟩
  rw [play_append, play_course]
  have steady := steady_before_answer last
  clear last h
  induction inner using List.reverseRecOn with
  | nil => exact settles before
  | append_singleton inner move ih =>
      rw [play_concat]
      exact (ih fun m hm => steady m (List.mem_append_left _ hm)).apply w (steady move (by simp))

theorem operation_of_answer (trailed : Trailed w [] p)
    (h : ms ++ [.storeAnswer server frame] <+: course w p events)
    (front : (play w p ms).pendingStore server = (id, kind) :: rest)
    (stems : Stems w (history w p ms) start id)
    (asked : (session w client (history w p ms)).asked[slot]? = some start) :
    ∃ operation, (play w p ms).operations.get? id = some operation ∧
      operation.stage.awaits = some kind := by
  obtain ⟨before, more, rfl, settled⟩ := settled_before_answer settles h
  have ticketed := settled.ticketed
  rw [List.append_nil] at ticketed
  have queue : ((play w p (course w p before ++ more)).storeLink server).pending =
      (id, kind) :: rest := front
  have ticket := ticket_of_storePending queue
  cases ho : (play w p (course w p before ++ more)).operations.get? id with
  | some operation =>
      refine ⟨operation, rfl, ?_⟩
      have nodup := (List.nodup_append.mp ticketed.nodup).1
      have same := List.inj_on_of_nodup_map nodup (ticketed.held ho) ticket rfl
      exact congrArg Prod.snd same
  | none =>
      -- Its client has hung up, and that is the client of the request, whose slot is gone.
      obtain ⟨time, gone, operation, left, held, own⟩ :=
        hungUp_of_abandoned (ticketed.known _ ticket ho)
      have lt := (List.getElem?_eq_some_iff.mp left).1
      have taken : (course w p before ++ more).take time = (course w p before).take time :=
        List.take_append_of_le_length lt.le
      rw [← taken] at held
      obtain ⟨start', command, root, planned, stems', stands⟩ :=
        (trailed.play ((course w p before ++ more).take time)).table held
      have earlier := stems'.lt_of_take
      obtain ⟨q, content, request⟩ := asked_request asked
      obtain rfl := stems_unique stems stems'.of_take ⟨q, client, content, request⟩
        planned.of_take.asks
      obtain ⟨q', at', -⟩ := planned.of_take
      cases Option.some.inj (request.symm.trans at')
      have hangs : (history w p (course w p before ++ more))[time]? =
          some (play w p ((course w p before ++ more).take time), .hangUp root.client) := by
        refine getElem?_history.mpr ⟨?_, rfl⟩
        rw [List.getElem?_append_left lt, left, ← own, stands.client]
      exact absurd (asked_after_hangUp asked hangs) (Nat.lt_asymm earlier)

end Awaited

end ReadThrough.Proxy
