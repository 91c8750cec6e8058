import ReadThrough.Proofs.Deeds.CacheSide
import ReadThrough.Proofs.Suits

namespace ReadThrough.Proxy

variable {fan : Nat → Prop} {fair : Prop} {hand : Hand} (w : World) (p : Proxy)

theorem handles_unexpected {number : Option Nat} (operation : Operation) (message : String)
    (unfair : ¬ fair) :
    Handles fan fair p ((number, operation.duty) :: hand) (p.unexpected w operation message)
      hand :=
  (Handles.breach _ unfair).trans (handles_fail w _ operation _)

theorem handles_invalidate (address : Address) :
    Handles fan fair p hand (p.invalidate w address) hand :=
  handles_sideEffect w p _ _

section Again

variable {id : Nat} {operation : Operation}

theorem handles_dispatchAgain (sound : operation.Sound) (server : Nat)
    (sent : fair → ∃ request, operation.request = some request) :
    Handles fan fair p ((some id, operation.duty) :: hand) (p.dispatchAgain w id operation server)
      hand := by
  unfold dispatchAgain
  split
  · next request hr => exact Handles.of_deed (.request server hr sound) rfl
  · next none =>
      refine (Handles.breach _ fun given => ?_).trans (handles_failWith w _ operation _)
      obtain ⟨request, sent⟩ := sent given
      cases none.symm.trans sent

theorem nextServer_fst_snd {primary : Nat} {server : Option Nat} {operation' : Operation}
    {q : Proxy} (h : p.nextServer w operation primary = (server, operation', q)) :
    ∃ resend, operation' = { operation with resend } ∧ q = (p.look w).2 := by
  simp only [nextServer, Prod.mk.injEq] at h
  exact ⟨_, h.2.1.symm, h.2.2.symm⟩

theorem handles_nextServer {primary : Nat} {server : Option Nat} {operation' : Operation}
    {q : Proxy} (h : p.nextServer w operation primary = (server, operation', q)) :
    Handles fan fair p hand q hand ∧ ∃ resend, operation' = { operation with resend } := by
  obtain ⟨resend, rfl, rfl⟩ := nextServer_fst_snd w p h
  exact ⟨.of_alike (Alike.look w p) rfl, resend, rfl⟩

theorem request_of_isResendable (h : operation.isResendable = true) :
    ∃ request, operation.request = some request := by
  unfold Operation.isResendable Operation.kind? at h
  cases hr : operation.request with
  | some request => exact ⟨request, rfl⟩
  | none => simp [hr] at h

theorem handles_retryOrFail (sound : operation.Sound) (failed : Nat) (reason : String) :
    Handles fan fair p ((some id, operation.duty) :: hand)
      (p.retryOrFail w id operation failed reason) hand := by
  unfold retryOrFail
  split
  · next resendable =>
      split
      · next server operation' q hn =>
          obtain ⟨quiet, resend, rfl⟩ := handles_nextServer w p hn
          have sound' : ({ operation with resend } : Operation).Sound :=
            ⟨sound.awaits, sound.deferred⟩
          exact quiet.trans (handles_dispatchAgain w q sound' server fun _ =>
            request_of_isResendable resendable)
      · next operation' q hn =>
          obtain ⟨quiet, resend, rfl⟩ := handles_nextServer w p hn
          exact quiet.trans (handles_failWith w q { operation with resend } _)
  · exact handles_failWith w p operation _

def handOf (id : Nat) : Option Operation → Hand
  | none => []
  | some operation => [(some id, operation.duty)]

theorem handles_resendNotFound (sound : operation.Sound) {kept : Option Operation} {q : Proxy}
    (h : p.resendNotFound w id operation = (kept, q)) :
    Handles fan fair p ((some id, operation.duty) :: hand) q (handOf id kept ++ hand) := by
  unfold resendNotFound at h
  split at h
  · next resendable =>
      split at h
      · cases h
        exact .refl
      · split at h
        · next server operation' r hn =>
            cases h
            obtain ⟨quiet, resend, rfl⟩ := handles_nextServer w p hn
            have sound' : ({ operation with resend } : Operation).Sound :=
              ⟨sound.awaits, sound.deferred⟩
            exact quiet.trans (handles_dispatchAgain w r sound' server fun _ =>
              request_of_isResendable resendable)
        · next operation' r hn =>
            cases h
            obtain ⟨quiet, resend, rfl⟩ := handles_nextServer w p hn
            exact quiet
  · cases h
    exact .refl

theorem resendNotFound_eq_some {operation' : Operation} {q : Proxy}
    (h : p.resendNotFound w id operation = (some operation', q)) :
    ∃ resend, operation' = { operation with resend } := by
  unfold resendNotFound at h
  split at h
  · split at h
    · cases h
      exact ⟨operation.resend, rfl⟩
    · split at h
      · cases h
      · next hn =>
          cases h
          obtain ⟨resend, he, -⟩ := nextServer_fst_snd w p hn
          exact ⟨resend, he⟩
  · cases h
    exact ⟨operation.resend, rfl⟩

end Again

section Response

variable {id : Nat} {operation : Operation} {response : Store.Response}

theorem handles_valueRead (sound : operation.Sound) {address : Address}
    (stage : operation.stage = .storeRead (.value address)) (suits : fair → response.Suits .get) :
    Handles fan fair p ((some id, operation.duty) :: hand)
      (p.valueRead w id operation address response) hand := by
  have answers : operation.stage.yield = .answer := by
    rw [stage]
    rfl
  unfold valueRead
  split
  · next siblings vclock =>
      refine (Handles.of_alike (Alike.toss w p) rfl).trans ?_
      dsimp only [toss]
      refine (handles_rememberVclock _ address vclock).trans ?_
      split
      · exact (handles_sideEffect w _ _ _).trans
          (handles_finish w _ operation _ fun _ => Or.inr answers)
      · split
        · next q hq => exact handles_resendNotFound w _ sound hq
        · next operation' q hq =>
            obtain ⟨resend, rfl⟩ := resendNotFound_eq_some w _ hq
            exact (handles_resendNotFound w _ sound hq).trans
              (handles_finish w q _ _ fun _ => Or.inr answers)
  · next other =>
      refine handles_unexpected w p operation _ fun given => ?_
      cases suits given with
      | found siblings vclock => exact other siblings vclock rfl

theorem handles_deliverSet {number : Option Nat} {address : Address} {read : SetRead}
    (stage : operation.stage = .storeRead (.set address read)) (members : List Bytes) :
    Handles fan fair p ((number, operation.duty) :: hand) (p.deliverSet w operation read members)
      hand := by
  unfold deliverSet
  split
  · exact handles_finish w p operation _ fun _ => Or.inr (by rw [stage]; rfl)
  · next target => exact handles_contribute_members w p target (by rw [stage]; rfl) members
  · next slot target => exact handles_finish w p operation _ fun _ => Or.inl ⟨slot, target⟩

theorem handles_setRead (sound : operation.Sound) {address : Address} {read : SetRead}
    (stage : operation.stage = .storeRead (.set address read))
    (suits : fair → response.Suits .setFetch) :
    Handles fan fair p ((some id, operation.duty) :: hand)
      (p.setRead w id operation address read response) hand := by
  unfold setRead
  split
  · next members context =>
      have deliver : ∀ (operation' : Operation) (q : Proxy),
          operation'.stage = .storeRead (.set address read) →
          Handles fan fair q ((some id, operation'.duty) :: hand)
            ((q.sideEffects w address.raw
              (Cache.populateSet address.raw members (q.ttl address))).deliverSet w operation' read
                members) hand := fun operation' q stage' =>
        (handles_sideEffects w q _ _).trans (handles_deliverSet w _ stage' members)
      by_cases again : (members.isEmpty && read.isQuery) = true
      · rw [if_pos again]
        split
        next kept q hq =>
        have first : Handles fan fair p ((some id, operation.duty) :: hand) q
            (handOf id kept ++ hand) := handles_resendNotFound w p sound hq
        cases kept with
        | none => exact first
        | some operation' =>
            obtain ⟨resend, rfl⟩ := resendNotFound_eq_some w p hq
            exact first.trans (deliver _ q stage)
      · rw [if_neg again]
        exact deliver operation p stage
  · next other =>
      refine handles_unexpected w p operation _ fun given => ?_
      cases suits given with
      | set members context => exact other members context rfl

theorem handles_vclockRead (sound : operation.Sound) {address : Address} {value : Bytes}
    {deferred : Store.Request} (stage : operation.stage = .awaitingVclock address value deferred)
    (suits : fair → response.Suits .get) :
    Handles fan fair p ((some id, operation.duty) :: hand)
      (p.vclockRead w id operation address value deferred response) hand := by
  unfold vclockRead
  split
  · next siblings vclock =>
      let write : Operation :=
        { client := operation.client, target := operation.target
          stage := .storeWrite (.put address value) }
      have duty : write.duty = operation.duty :=
        Operation.duty_eq_of_stage rfl rfl (by rw [stage]; rfl)
      have kind : write.stage.awaits = some (withVclock deferred vclock).kind :=
        congrArg some (kind_withVclock (sound.deferred stage)).symm
      rw [← duty]
      exact (handles_rememberVclock p address vclock).trans
        (handles_send w _ kind (by simp [write]) _)
  · next other =>
      refine handles_unexpected w p operation _ fun given => ?_
      cases suits given with
      | found siblings vclock => exact other siblings vclock rfl

theorem handles_storeFetched {dest : Address} {members : List Bytes}
    (stage : operation.stage = .storeFetch dest members)
    (suits : fair → response.Suits .setFetch) :
    Handles fan fair p ((some id, operation.duty) :: hand)
      (p.storeFetched w id operation dest members response) hand := by
  unfold storeFetched
  split
  · split
    · next request hr =>
        let write : Operation :=
          { client := operation.client, target := operation.target
            stage := .storeWrite (.store dest members) }
        have duty : write.duty = operation.duty :=
          Operation.duty_eq_of_stage rfl rfl (by rw [stage]; rfl)
        have kind : write.stage.awaits = some request.kind :=
          congrArg some (Store.Request.kind_of_setReplace hr).symm
        rw [← duty]
        exact handles_send w p kind (by simp [write]) _
    · exact handles_finishStore w p operation dest members fun _ => by rw [stage]; rfl
    · exact handles_failWith w p operation _
  · next other =>
      refine handles_unexpected w p operation _ fun given => ?_
      cases suits given with
      | set current context => exact other current context rfl

theorem handles_written {number : Option Nat} {write : Write}
    (stage : operation.stage = .storeWrite write) (suits : fair → response.Suits write.kind) :
    Handles fan fair p ((number, operation.duty) :: hand) (p.written w operation write response)
      hand := by
  have yields : operation.stage.yield = (Stage.storeWrite write).yield := by rw [stage]
  unfold written
  split
  · next address value vclock =>
      exact (handles_rememberVclock p address vclock).trans ((handles_sideEffect w _ _ _).trans
        (handles_finish w _ operation _ fun _ => Or.inr yields))
  · next address count =>
      exact (handles_invalidate w p address).trans
        (handles_finish w _ operation _ fun _ => Or.inr yields)
  · next address value =>
      exact (handles_invalidate w p address).trans
        (handles_finish w _ operation _ fun _ => Or.inr yields)
  · next address =>
      refine (handles_invalidate w p address).trans ?_
      dsimp only
      split
      · next group index target =>
          have duty : operation.duty = .part operation.client group index .deletion := by
            simp only [Operation.duty, target, stage, Stage.yield]
          rw [duty]
          exact handles_contribute w _ rfl
      · next slot target => exact handles_finish w _ operation _ fun _ => Or.inl ⟨slot, target⟩
  · next dest members => exact handles_finishStore w p operation dest members fun _ => yields
  · next put update counter delete store =>
      refine handles_unexpected w p operation _ fun given => ?_
      have suits := suits given
      cases write with
      | put address value =>
          cases suits with
          | putAck vclock => exact put _ _ _ rfl rfl
      | setUpdate address count =>
          cases suits with
          | updateAck => exact update _ _ rfl rfl
      | counter address =>
          cases suits with
          | updated value => exact counter _ _ rfl rfl
      | delete address =>
          cases suits with
          | deleteAck => exact delete _ rfl rfl
      | store dest members =>
          cases suits with
          | updateAck => exact store _ _ rfl rfl

theorem handles_storeResponse (sound : operation.Sound) (server : Nat) (suits : fair →
      ∃ kind, operation.stage.awaits = some kind ∧
        (response.isError = true ∨ response.Suits kind)) :
    Handles fan fair p ((some id, operation.duty) :: hand)
      (p.storeResponse w id operation server response) hand := by
  unfold storeResponse
  split
  · split
    · exact handles_retryOrFail w p sound server _
    · exact handles_fail w p operation _
  · next good =>
      have fits : ∀ {kind}, operation.stage.awaits = some kind → fair → response.Suits kind := by
        intro kind awaits given
        obtain ⟨kind', awaits', suits⟩ := suits given
        cases awaits.symm.trans awaits'
        refine suits.resolve_left fun error => ?_
        cases response with
        | error message code => exact good message code rfl
        | found | putAck | deleteAck | set | counter | updateAck => cases error
      split
      · next stage => exact handles_valueRead w p sound stage (fits (by rw [stage]; rfl))
      · next stage => exact handles_setRead w p sound stage (fits (by rw [stage]; rfl))
      · next stage => exact handles_vclockRead w p sound stage (fits (by rw [stage]; rfl))
      · next stage => exact handles_storeFetched w p stage (fits (by rw [stage]; rfl))
      · next stage => exact handles_written w p stage (fits (by rw [stage]; rfl))
      · next stage =>
          refine (Handles.breach _ fun given => ?_).trans (handles_failWith w _ operation _)
          obtain ⟨kind, awaits, -⟩ := suits given
          rw [stage] at awaits
          cases awaits

end Response

end ReadThrough.Proxy
