import ReadThrough.Proofs.Abandonment
import ReadThrough.Proofs.Parts
import ReadThrough.Proofs.Tallies

namespace ReadThrough.Proxy

section Held

variable {w : World} {p : Proxy} {ms : List Move} {id m n : Nat}
  {operation other : Operation} {sending : Sending}

theorem held_before (tidy : Tidy p []) (le : m ≤ n)
    (ho : (play w p (ms.take n)).operations.get? id = some operation)
    (lt : id < (play w p (ms.take m)).nextOperation) :
    ∃ old, (play w p (ms.take m)).operations.get? id = some old ∧ old.duty = operation.duty := by
  obtain ⟨more, split⟩ : ms.take m <+: ms.take n := List.take_prefix_take_left le
  rw [← split, play_append] at ho
  exact owed_before (tidy.play w _) ho lt

theorem duty_eq (tidy : Tidy p []) (le : m ≤ n)
    (ho : (play w p (ms.take m)).operations.get? id = some operation)
    (hk : (play w p (ms.take n)).operations.get? id = some other) :
    operation.duty = other.duty := by
  obtain ⟨old, held, same⟩ := held_before tidy le hk ((tidy.play w _).operation_lt ho)
  cases ho.symm.trans held
  exact same

theorem target_of_duty (same : operation.duty = other.duty) {slot : Nat}
    (target : other.target = .client slot) : operation.target = .client slot := by
  have owes : other.duty.slot? = some (other.client, slot) :=
    Operation.slot?_duty_eq_some.mpr ⟨rfl, target⟩
  rw [← same] at owes
  exact (Operation.slot?_duty_eq_some.mp owes).2

theorem sending_take (h : sending ∈ sendings w (history w p ms) id) (lt : sending.time < n) :
    sending ∈ sendings w (history w p (ms.take n)) id := by
  obtain ⟨q, move, at', hm⟩ := mem_sendings.mp h
  refine mem_sendings.mpr ⟨q, move, ?_, hm⟩
  rw [← take_history, List.getElem?_take_of_lt lt, at']

theorem held_of_sending (trailed : Trailed w [] p)
    (h : sending ∈ sendings w (history w p ms) id) :
    ∃ operation, (play w p (ms.take (sending.time + 1))).operations.get? id = some operation := by
  have now := sending_take h (Nat.lt_succ_self _)
  obtain ⟨n, operation, le, ho, last⟩ := waits_after_last trailed (List.ne_nil_of_mem now)
  have lt := (sending_of_take (last.symm ▸ now)).2
  rw [List.length_take] at le
  obtain rfl : n = sending.time + 1 := by omega
  rw [List.take_take, Nat.min_self] at ho
  exact ⟨operation, ho⟩

end Held

section Sent

variable {w : World} {p : Proxy} {ms : List Move} {id n : Nat}

theorem sendings_prefix (w : World) (past more : History) (id : Nat) :
    sendings w past id <+: sendings w (past ++ more) id := by
  induction more using List.reverseRecOn with
  | nil => rw [List.append_nil]
  | append_singleton more made ih =>
      rw [← List.append_assoc, sendings_concat]
      exact ih.trans (List.prefix_append _ _)

theorem sendings_take (w : World) (p : Proxy) (ms : List Move) (n id : Nat) :
    sendings w (history w p (ms.take n)) id <+: sendings w (history w p ms) id := by
  obtain ⟨later, split⟩ := history_take w p ms n
  exact split ▸ sendings_prefix w _ later id

theorem sendings_of_gone (trailed : Trailed w [] p)
    (lt : id < (play w p (ms.take n)).nextOperation)
    (gone : (play w p (ms.take n)).operations.get? id = none) :
    sendings w (history w p (ms.take n)) id = sendings w (history w p ms) id := by
  by_cases none : sendings w (history w p ms) id = []
  · rw [none]
    exact List.prefix_nil.mp (none ▸ sendings_take w p ms n id)
  · obtain ⟨m, operation, le, ho, last⟩ := waits_after_last trailed none
    rcases Nat.le_total n m with early | late
    · obtain ⟨more, split⟩ : ms.take n <+: ms.take m := List.take_prefix_take_left early
      rw [← split, play_append, operations_gone (trailed.tidy.play w _) lt gone more] at ho
      cases ho
    · have taken : (ms.take n).take m = ms.take m := by rw [List.take_take, Nat.min_eq_left late]
      have front := sendings_take w p (ms.take n) m id
      rw [taken, last] at front
      exact (sendings_take w p ms n id).eq_of_length_le front.length_le

theorem sendings_of_emits {move : Move} {time server : Nat} {request : Store.Request}
    (made : ms[time]? = some move)
    (emits : move.emits w (play w p (ms.take time)) = [.store server id request]) :
    sendings w (history w p (ms.take (time + 1))) id =
      sendings w (history w p (ms.take time)) id ++ [⟨time, server, request⟩] := by
  have length : (history w p (ms.take time)).length = time := by
    rw [length_history, List.length_take_of_le (List.getElem?_eq_some_iff.mp made).1.le]
  rw [take_succ made, history_concat, sendings_concat, emits, length]
  simp only [Action.sending?, List.filterMap_cons, List.filterMap_nil, if_true]

end Sent

end ReadThrough.Proxy
