import ReadThrough.Proofs.Deeds.Completion

namespace ReadThrough.Proxy

variable {fan : Nat → Prop} {fair : Prop} {hand : Hand} (w : World) (p : Proxy)

theorem handles_contribute_members {number : Option Nat} {operation : Operation}
    {group index : Nat} (target : operation.target = .fragment group index)
    (yield : operation.stage.yield = .members) (members : List Bytes) :
    Handles fan fair p ((number, operation.duty) :: hand)
      (p.contribute w group (.set index members)) hand := by
  have duty : operation.duty = .part operation.client group index .members := by
    simp only [Operation.duty, target, yield]
  rw [duty]
  exact handles_contribute w p ⟨rfl, rfl⟩

theorem handles_answerEmpty {number : Option Nat} {operation : Operation} {read : Read}
    (stage : operation.stage = .cacheRead read) :
    Handles fan fair p ((number, operation.duty) :: hand) (p.answerEmpty w operation read)
      hand := by
  unfold answerEmpty
  split
  · exact handles_finish w p operation _ fun _ => Or.inr (by rw [stage]; rfl)
  · exact handles_finish w p operation _ fun _ => Or.inr (by rw [stage]; rfl)
  · next target => exact handles_contribute_members w p target (by rw [stage]; rfl) _
  · next slot target => exact handles_finish w p operation _ fun _ => Or.inl ⟨slot, target⟩

theorem handles_cacheMiss {id : Nat} {operation : Operation}
    (waits : fair → ∃ read, operation.stage = .cacheRead read) :
    Handles fan fair p ((some id, operation.duty) :: hand) (p.cacheMiss w id operation) hand := by
  unfold cacheMiss
  split
  · next read stage =>
      split
      · exact handles_answerEmpty w p stage
      · have duty : { operation with stage := .storeRead read : Operation }.duty =
            operation.duty := by
          refine Operation.duty_eq_of_stage rfl rfl ?_
          rw [stage]
          cases read with
          | value address => rfl
          | set address read => cases read <;> rfl
        rw [← duty]
        dsimp only
        split
        · next request hr => exact handles_send w p (Read.kind_of_request hr) (by simp) _
        · exact handles_failWith w p _ _
  · next other =>
      refine (Handles.breach _ fun given => ?_).trans (handles_failWith w _ operation _)
      obtain ⟨read, stage⟩ := waits given
      exact other read stage

theorem handles_startRead (client : Nat) (target : Target) (read : Read) (duty : Duty)
    (owes : { client, target, stage := .cacheRead read : Operation }.duty = duty) :
    Handles fan fair p ((none, duty) :: hand) (p.startRead w client target read) hand := by
  subst owes
  unfold startRead
  refine Handles.number.trans ?_
  dsimp only [newOperation]
  split
  · next q hp => exact (handles_pick w _ hp).trans (handles_cacheMiss w q fun _ => ⟨read, rfl⟩)
  · next server q hp =>
      exact (handles_pick w _ hp).trans (Handles.of_deed (.lookUp server rfl ⟨rfl, by simp⟩) rfl)

theorem handles_cacheReply {id : Nat} {operation : Operation} (value : Resp.Value)
    (waits : fair → ∃ read, operation.stage = .cacheRead read) :
    Handles fan fair p ((some id, operation.duty) :: hand) (p.cacheReply w id operation value)
      hand := by
  have missed : Handles fan fair p ((some id, operation.duty) :: hand)
      (p.cacheMiss w id operation) hand := handles_cacheMiss w p waits
  unfold cacheReply
  split
  · next read stage =>
      split
      · exact missed
      · split
        · split
          · exact missed
          · exact handles_finish w p operation _ fun _ => Or.inr (by rw [stage]; rfl)
        · split
          · exact missed
          · exact handles_finish w p operation _ fun _ => Or.inr (by rw [stage]; rfl)
        · split
          · next members group index _ target =>
              exact handles_contribute_members w p target (by rw [stage]; rfl) _
          · exact missed
  · next other =>
      refine (Handles.breach _ fun given => ?_).trans (handles_failWith w _ operation _)
      obtain ⟨read, stage⟩ := waits given
      exact other read stage

end ReadThrough.Proxy
