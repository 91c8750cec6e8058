import ReadThrough.Proofs.Tasks.Completion

namespace ReadThrough.Proxy

variable (w : World) (p : Proxy) {id : Nat} {operation : Operation}

theorem leads_deliver {read : SetRead} (members : List Bytes) :
    Leads w p [operation.deliver read members] (p.deliverSet w operation read members) := by
  unfold Operation.deliver deliverSet
  cases read with
  | query query => exact leads_conclude w p operation _
  | slot =>
      cases operation.target with
      | client slot => exact leads_conclude w p operation _
      | fragment group slot => exact leads_contribute w p _ _

theorem leads_onMiss :
    Leads w p (operation.onMiss p.settings id) (p.cacheMiss w id operation) := by
  unfold cacheMiss Operation.onMiss
  cases operation.stage with
  | cacheRead read =>
      dsimp only
      split
      · cases read with
        | value address => exact leads_conclude w p operation _
        | set address read =>
            have same : p.answerEmpty w operation (.set address read) =
                p.deliverSet w operation read [] := by
              cases read <;> cases ht : operation.target <;> simp [answerEmpty, deliverSet, ht]
            rw [same]
            exact leads_deliver w p []
      · cases hr : read.request p.settings with
        | ok request => exact leads_send w p id { operation with stage := .storeRead read } request
        | error why => exact leads_failing w p { operation with stage := .storeRead read } why
  | storeRead | awaitingVclock | storeFetch | storeWrite =>
      exact .still (Still.breach p _) (leads_failing w _ operation _)

theorem leads_cacheMiss :
    Leads w p [.news id operation .missed] (p.cacheMiss w id operation) :=
  .does .news (leads_onMiss w p)

theorem leads_startRead (client : Nat) (target : Target) (read : Read) :
    Leads w p [.lookUp client target read] (p.startRead w client target read) := by
  unfold startRead
  dsimp only [newOperation]
  split
  · next q hp =>
      obtain ⟨none, rfl⟩ := pick_eq w _ hp
      have passed : Does w p (.lookUp client target read) _ _ := .pass none
      exact .does passed (leads_cacheMiss w _)
  · next server q hp =>
      obtain ⟨picked, rfl⟩ := pick_eq w _ hp
      have asked : Does w p (.lookUp client target read) _ [] := .lookUp picked
      exact .done asked

theorem leads_onValue (value : Resp.Value) :
    Leads w p (operation.onValue id value) (p.cacheReply w id operation value) := by
  unfold cacheReply Operation.onValue
  cases hs : operation.stage with
  | cacheRead read =>
      dsimp only
      split
      · exact leads_cacheMiss w p
      · cases read with
        | value address =>
            dsimp only
            split
            · exact leads_cacheMiss w p
            · exact leads_conclude w p operation value
        | set address read =>
            cases read with
            | query query =>
                dsimp only
                split
                · exact leads_cacheMiss w p
                · exact leads_conclude w p operation value
            | slot =>
                cases hm : Cache.members? value with
                | none => exact leads_cacheMiss w p
                | some members =>
                    cases ht : operation.target with
                    | client slot => exact leads_cacheMiss w p
                    | fragment group index => exact leads_contribute w p _ _
  | storeRead | awaitingVclock | storeFetch | storeWrite =>
      exact .still (Still.breach p _) (leads_failing w _ operation _)

section Again

variable {p}

theorem nextServer_eq {primary : Nat} {server : Option Nat} {operation' : Operation} {q : Proxy}
    (h : p.nextServer w operation primary = (server, operation', q)) :
    ∃ resend, operation.resend.next ((w.pool p.looks).live .store) primary
        p.settings.effectiveMaxResend = (server, resend) ∧
      operation' = { operation with resend } ∧ q = (p.look w).2 := by
  cases h
  exact ⟨_, rfl, rfl, rfl⟩

theorem Operation.request_of_isResendable (h : operation.isResendable = true) :
    ∃ request, operation.request = some request := by
  cases hr : operation.request with
  | none => simp [isResendable, kind?, hr] at h
  | some request => exact ⟨request, rfl⟩

theorem leads_again (resendable : operation.isResendable = true) {primary : Nat} (value : Reply)
    {server : Nat} {operation' : Operation} {q : Proxy}
    (h : p.nextServer w operation primary = (some server, operation', q)) :
    Leads w p [.elsewhere id operation primary value] (q.dispatchAgain w id operation' server) := by
  obtain ⟨resend, next, rfl, rfl⟩ := nextServer_eq w h
  unfold dispatchAgain
  split
  · next request hr => exact .done (.again resendable hr next)
  · next none =>
      obtain ⟨request, hr⟩ := Operation.request_of_isResendable resendable
      cases none.symm.trans hr

theorem leads_exhausted {primary : Nat} (value : Reply) {operation' : Operation} {q r : Proxy}
    (h : p.nextServer w operation primary = (none, operation', q))
    (ends : Leads w q [operation'.conclude value] r) :
    Leads w p [.elsewhere id operation primary value] r := by
  obtain ⟨resend, next, rfl, rfl⟩ := nextServer_eq w h
  exact .does (.exhausted next) ends

end Again

section Retry

variable (id) (operation)

theorem leads_retryOrFail (failed : Nat) (reason : String) :
    Leads w p [operation.retry id (some (operation.primary.getD failed))
        (Reply.failure (.serverLost failed reason))]
      (p.retryOrFail w id operation failed reason) := by
  unfold Operation.retry retryOrFail
  split
  · next resendable =>
      dsimp only
      split
      · next server operation' q hn => exact leads_again w resendable _ hn
      · next operation' q hn => exact leads_exhausted w _ hn (leads_failing w q operation' _)
  · exact leads_failing w p operation _

theorem leads_resendNotFound (value : Reply) : Leads w p [operation.retry id operation.primary value]
    (match p.resendNotFound w id operation with
      | (none, p) => p
      | (some operation, p) => p.finish w operation value) := by
  unfold Operation.retry resendNotFound
  split
  · cases operation.primary with
    | none => exact leads_conclude w p operation value
    | some primary =>
        dsimp only
        cases hn : p.nextServer w operation primary with
        | mk server rest =>
            obtain ⟨operation', q⟩ := rest
            cases server with
            | none => exact leads_exhausted w _ hn (leads_conclude w q operation' value)
            | some server => exact leads_again w (by assumption) _ hn
  · exact leads_conclude w p operation value

end Retry

section Response

theorem leads_unexpected (message : String) :
    Leads w p [operation.conclude (Reply.error message)] (p.unexpected w operation message) :=
  .still (Still.breach p _) (leads_conclude_fail w _ operation _)

theorem leads_invalidate (address : Address) :
    Leads w p [.copy address.raw (Cache.invalidate address.raw)] (p.invalidate w address) :=
  leads_sideEffect w p _ _

theorem leads_learn (address : Address) (vclock : Option Bytes) :
    Leads w p [.learn address vclock] (p.rememberVclock address vclock) :=
  .done .learn

theorem ttl_rememberVclock (address other : Address) (vclock : Option Bytes) :
    (p.rememberVclock address vclock).ttl other = p.ttl other := by
  unfold rememberVclock
  split <;> rfl

theorem leads_valueRead (address : Address) (response : Store.Response) :
    Leads w p (operation.onValueRead w p id address response)
      (p.valueRead w id operation address response) := by
  cases response with
  | found siblings vclock =>
      refine .still (Still.toss p w) (.cons (leads_learn w _ address vclock) ?_)
      simp only [valueRead, toss]
      cases Store.Outcome.ofSiblings (w.draw p.looks) siblings vclock with
      | found value _ =>
          have kept := ttl_rememberVclock { p with looks := p.looks + 1 } address address vclock
          dsimp only
          rw [kept]
          exact (leads_sideEffect w _ _ _).cons (leads_conclude w _ operation _)
      | missing _ => exact leads_resendNotFound w _ id operation _
  | _ => exact leads_unexpected w p _

theorem leads_setRead (address : Address) (read : SetRead) (response : Store.Response) :
    Leads w p (operation.onSetRead p id address read response)
      (p.setRead w id operation address read response) := by
  cases response with
  | set members context =>
      unfold Operation.onSetRead setRead
      cases read with
      | slot =>
          simp only [SetRead.isQuery, Bool.and_false]
          exact (leads_sideEffects w p _ _).append (leads_deliver w _ members)
      | query query =>
          cases members with
          | nil =>
              have again := leads_resendNotFound w p id operation (query.answer [])
              simp only [SetRead.isQuery, List.isEmpty_nil, Bool.and_self, if_true]
              cases kept : p.resendNotFound w id operation with
              | mk left q =>
                  rw [kept] at again
                  cases left <;> exact again
          | cons member rest =>
              simp only [SetRead.isQuery, List.isEmpty_cons, Bool.false_and]
              exact (leads_sideEffects w p _ _).append (leads_deliver w _ _)
  | _ => exact leads_unexpected w p _

theorem leads_vclockRead (address : Address) (value : Bytes) (deferred : Store.Request)
    (response : Store.Response) :
    Leads w p (operation.onVclock id address value deferred response)
      (p.vclockRead w id operation address value deferred response) := by
  cases response with
  | found siblings vclock => exact .cons (leads_learn w p _ _) (leads_send w _ id _ _)
  | _ => exact leads_unexpected w p _

theorem leads_storeFetched (dest : Address) (members : List Bytes) (response : Store.Response) :
    Leads w p (operation.onFetched p id dest members response)
      (p.storeFetched w id operation dest members response) := by
  cases response with
  | set current context =>
      unfold Operation.onFetched storeFetched
      dsimp only
      cases Store.Request.setReplace p.settings dest.key current context members with
      | error why => exact leads_failing w p operation _
      | ok change =>
          cases change with
          | none => exact leads_replaced w p operation dest members
          | some request => exact leads_send w p id _ _
  | _ => exact leads_unexpected w p _

theorem leads_written (write : Write) (response : Store.Response) :
    Leads w p (operation.onWritten p write response) (p.written w operation write response) := by
  cases write with
  | put address value =>
      cases response with
      | putAck vclock =>
          refine .cons (leads_learn w p _ _) (.cons ?_ (leads_conclude w _ operation _))
          rw [← ttl_rememberVclock p address address vclock]
          exact leads_sideEffect w _ _ _
      | _ => exact leads_unexpected w p _
  | setUpdate address count =>
      cases response with
      | updateAck => exact (leads_invalidate w p _).cons (leads_conclude w _ operation _)
      | _ => exact leads_unexpected w p _
  | counter address =>
      cases response with
      | counter value => exact (leads_invalidate w p _).cons (leads_conclude w _ operation _)
      | _ => exact leads_unexpected w p _
  | delete address =>
      cases response with
      | deleteAck =>
          refine (leads_invalidate w p _).cons ?_
          unfold written
          dsimp only
          cases operation.target with
          | client slot => exact leads_conclude w _ operation _
          | fragment group index => exact leads_contribute w _ _ _
      | _ => exact leads_unexpected w p _
  | store dest members =>
      cases response with
      | updateAck => exact leads_replaced w p operation _ _
      | _ => exact leads_unexpected w p _

theorem leads_onResponse (server : Nat) (response : Store.Response) :
    Leads w p (operation.onResponse w p id server response)
      (p.storeResponse w id operation server response) := by
  unfold Operation.onResponse storeResponse
  cases response with
  | error message code =>
      dsimp only
      split
      · next retryable =>
          have resendable : operation.isResendable = true := (Bool.and_eq_true_iff.mp retryable).2
          have again := leads_retryOrFail w p id operation server message
          simpa only [Operation.retry, resendable, if_true] using again
      · exact leads_conclude_fail w p operation _
  | found | putAck | deleteAck | set | counter | updateAck =>
      dsimp only
      cases operation.stage with
      | storeRead read =>
          cases read with
          | value address => exact leads_valueRead w p _ _
          | set address read => exact leads_setRead w p _ _ _
      | awaitingVclock address value deferred => exact leads_vclockRead w p _ _ _ _
      | storeFetch dest members => exact leads_storeFetched w p _ _ _
      | storeWrite write => exact leads_written w p _ _
      | cacheRead read => exact .still (Still.breach p _) (leads_failing w _ operation _)

end Response

end ReadThrough.Proxy
