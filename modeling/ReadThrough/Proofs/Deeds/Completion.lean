import ReadThrough.Proofs.Conduct

namespace ReadThrough.Proxy

variable {fan : Nat → Prop} {fair : Prop} {hand : Hand} (w : World) (p : Proxy)

@[simp] theorem breaches_rememberVclock (address : Address) (vclock : Option Bytes) :
    (p.rememberVclock address vclock).breaches = p.breaches := by
  unfold rememberVclock
  split <;> rfl

@[simp] theorem breaches_touchVclock (command : Command) :
    (p.touchVclock command).breaches = p.breaches := by
  unfold touchVclock
  split
  · split <;> rfl
  · rfl

theorem handles_rememberVclock (address : Address) (vclock : Option Bytes) :
    Handles fan fair p hand (p.rememberVclock address vclock) hand :=
  .of_alike (Alike.rememberVclock p address vclock) (breaches_rememberVclock p address vclock)

theorem handles_pick {tier : Pool.Tier} {key : Bytes} {server : Option Nat} {q : Proxy}
    (h : p.pick w tier key = (server, q)) : Handles fan fair p hand q hand := by
  have quiet : Handles fan fair p hand (p.pick w tier key).2 hand :=
    .of_alike (Alike.pick w p tier key) rfl
  rwa [h] at quiet

theorem handles_sideEffect (route : Bytes) (command : Cache.Command) :
    Handles fan fair p hand (p.sideEffect w route command) hand := by
  unfold sideEffect
  split
  · next q h => exact handles_pick w p h
  · next server q h =>
      exact (handles_pick w p h).trans (Handles.of_deed (.sideEffect server command) rfl)

theorem handles_sideEffects (route : Bytes) (commands : List Cache.Command) :
    Handles fan fair p hand (p.sideEffects w route commands) hand := by
  induction commands generalizing p with
  | nil => exact .refl
  | cons command rest ih => exact (handles_sideEffect w p route command).trans (ih _)

theorem handles_reply {number : Option Nat} {client slot : Nat} (value : Reply) :
    Handles fan fair p ((number, .reply client slot) :: hand) (p.reply client slot value) hand :=
  .single ⟨.reply value, fun _ => .reply value⟩

section Submit

variable {p} {id : Nat} {operation : Operation} {request : Store.Request} {route : Bytes}
  {q : Proxy}

theorem handles_submit (kind : operation.stage.awaits = some request.kind)
    (deferred : ∀ {address value later},
      operation.stage = .awaitingVclock address value later → later.kind = .put)
    (h : p.submit w id operation request route = (.ok (), q)) :
    Handles fan fair p ((some id, operation.duty) :: hand) q hand := by
  unfold submit at h
  split at h
  · cases h
  · split at h
    · cases h
    · next server r hp =>
        simp only [Prod.mk.injEq, true_and] at h
        subst h
        have same : operation.duty =
            { operation with request := some request, primary := some server : Operation }.duty :=
          rfl
        rw [same]
        exact (handles_pick w p hp).trans
          (Handles.of_deed (.request server rfl ⟨kind.symm, deferred⟩) rfl)

theorem handles_submit_error {why : Failure}
    (h : p.submit w id operation request route = (.error why, q)) :
    Handles fan fair p hand q hand := by
  unfold submit at h
  split at h
  · cases h
    exact .refl
  · split at h
    · next r hp =>
        cases h
        exact handles_pick w p hp
    · cases h

end Submit

theorem handles_startStore (client slot : Nat) (dest : Address) (members : List Bytes) :
    Handles fan fair p ((none, .reply client slot) :: hand)
      (p.startStore w client slot dest members) hand := by
  unfold startStore
  split
  · exact handles_reply p _
  · next request hr =>
      let operation : Operation :=
        { client, target := .client slot, stage := .storeFetch dest members }
      have kind : operation.stage.awaits = some request.kind :=
        congrArg some (Store.Request.kind_of_setFetch hr).symm
      refine Handles.number.trans ?_
      dsimp only [newOperation]
      split
      · next q hs => exact handles_submit w kind (by simp [operation]) hs
      · next why q hs => exact (handles_submit_error w hs).trans (handles_reply q _)

theorem handles_completeGroup (group : Fragment.Group GroupContext) :
    Handles fan fair p ((none, .reply group.client group.context.slot) :: hand)
      (completeGroup w p group) hand := by
  unfold completeGroup
  cases hc : group.context with
  | del slot => exact handles_reply p _
  | algebra slot op dest =>
      dsimp only [GroupContext.slot]
      split
      · exact handles_reply p _
      · cases dest with
        | none => exact handles_reply p _
        | some dest => exact handles_startStore w p group.client slot dest _

theorem handles_contribute {number : Option Nat} {client group index : Nat} {yield : Yield}
    {part : Fragment.Part} (brings : yield.Brings index part) :
    Handles fan fair p ((number, .part client group index yield) :: hand)
      (p.contribute w group part) hand := by
  unfold contribute
  split
  · next accepts =>
      have brought : Handles fan fair p ((number, .part client group index yield) :: hand)
          { p with groups := (p.groups.contribute group part).2 }
          (owed (p.groups.contribute group part).1 ++ hand) :=
        .of_deed (.bring brings accepts) rfl
      refine brought.trans ?_
      split
      · next groups hg =>
          rw [hg]
          exact .refl
      · next done groups hg =>
          rw [hg]
          exact handles_completeGroup w { p with groups } done
  · next refuses =>
      have refuses : p.groups.accepts group part = false := by simpa using refuses
      exact .single ⟨.refuse brings refuses, fun _ => .refuse brings refuses⟩

theorem handles_finish {number : Option Nat} (operation : Operation) (value : Reply)
    (answers : fair →
      (∃ slot, operation.target = .client slot) ∨ operation.stage.yield = .answer) :
    Handles fan fair p ((number, operation.duty) :: hand) (p.finish w operation value) hand := by
  unfold finish Operation.duty
  cases target : operation.target with
  | client slot => exact handles_reply p value
  | fragment group index =>
      refine .head ⟨.quiet (Alike.breach p _), fun given => ?_⟩ (handles_contribute w _ trivial)
      rcases answers given with ⟨slot, client⟩ | yields
      · cases target.symm.trans client
      · rw [yields]
        exact .answer

theorem handles_fail {number : Option Nat} (operation : Operation) (value : Reply) :
    Handles fan fair p ((number, operation.duty) :: hand) (p.fail w operation value) hand := by
  unfold fail Operation.duty
  cases operation.target with
  | client slot => exact handles_reply p value
  | fragment group index => exact handles_contribute w p trivial

theorem handles_failWith {number : Option Nat} (operation : Operation) (why : Failure) :
    Handles fan fair p ((number, operation.duty) :: hand) (p.failWith w operation why) hand :=
  handles_fail w p operation _

theorem handles_send {id : Nat} {operation : Operation} {request : Store.Request}
    (kind : operation.stage.awaits = some request.kind)
    (deferred : ∀ {address value later},
      operation.stage = .awaitingVclock address value later → later.kind = .put)
    (route : Bytes) :
    Handles fan fair p ((some id, operation.duty) :: hand) (p.send w id operation request route)
      hand := by
  unfold send
  split
  · next q hs => exact handles_submit w kind deferred hs
  · next why q hs => exact (handles_submit_error w hs).trans (handles_failWith w q operation why)

theorem handles_finishStore {number : Option Nat} (operation : Operation) (dest : Address)
    (members : List Bytes) (answers : fair → operation.stage.yield = .answer) :
    Handles fan fair p ((number, operation.duty) :: hand)
      (p.finishStore w operation dest members) hand :=
  (handles_sideEffects w p _ _).trans
    (handles_finish w _ operation _ fun given => Or.inr (answers given))

end ReadThrough.Proxy
