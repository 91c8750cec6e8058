import ReadThrough.Proofs.Outcomes
import ReadThrough.Proxy.ClientSide

namespace ReadThrough.Proxy

inductive Yield where
  | members
  | deletion
  | answer
  deriving DecidableEq

def Stage.yield : Stage → Yield
  | .cacheRead (.set _ .slot) | .storeRead (.set _ .slot) => .members
  | .storeWrite (.delete _) => .deletion
  | _ => .answer

inductive Duty where
  | reply (client slot : Nat)
  | part (client group index : Nat) (yield : Yield)
  deriving DecidableEq

namespace Duty

def client : Duty → Nat
  | .reply client _ | .part client _ _ _ => client

def place? : Duty → Option (Nat × Nat)
  | .reply .. => none
  | .part _ group index _ => some (group, index)

def slot? : Duty → Option (Nat × Nat)
  | .reply client slot => some (client, slot)
  | .part .. => none

end Duty

namespace Operation

def duty (operation : Operation) : Duty :=
  match operation.target with
  | .client slot => .reply operation.client slot
  | .fragment group index => .part operation.client group index operation.stage.yield

theorem duty_eq_of_stage {o o' : Operation} (hc : o'.client = o.client) (ht : o'.target = o.target)
    (hy : o'.stage.yield = o.stage.yield) : o'.duty = o.duty := by
  simp only [duty, hc, ht, hy]

@[simp] theorem client_duty (o : Operation) : o.duty.client = o.client := by
  unfold duty
  split <;> rfl

theorem slot?_duty_eq_some {o : Operation} {client slot : Nat} :
    o.duty.slot? = some (client, slot) ↔ o.client = client ∧ o.target = .client slot := by
  cases h : o.target <;> simp [duty, Duty.slot?, h]

theorem place?_duty_eq_some {o : Operation} {group index : Nat} :
    o.duty.place? = some (group, index) ↔ o.target = .fragment group index := by
  cases h : o.target <;> simp [duty, Duty.place?, h]

end Operation

def GroupContext.slot : GroupContext → Nat
  | .del slot | .algebra slot _ _ => slot

def Write.kind : Write → Store.RequestKind
  | .put .. => .put
  | .setUpdate .. | .store .. => .setUpdate
  | .counter _ => .counterUpdate
  | .delete _ => .delete

def Stage.awaits : Stage → Option Store.RequestKind
  | .cacheRead _ => none
  | .storeRead (.value _) | .awaitingVclock .. => some .get
  | .storeRead (.set ..) | .storeFetch .. => some .setFetch
  | .storeWrite write => some write.kind

theorem Stage.awaits_eq_none {stage : Stage} :
    stage.awaits = none ↔ ∃ read, stage = .cacheRead read := by
  cases stage with
  | cacheRead read => simp [awaits]
  | storeRead read => cases read <;> simp [awaits]
  | awaitingVclock | storeFetch | storeWrite => simp [awaits]

structure Operation.Sound (operation : Operation) : Prop where
  awaits : operation.kind? = operation.stage.awaits
  deferred : ∀ {address value request},
    operation.stage = .awaitingVclock address value request → request.kind = .put

def Yield.Brings (yield : Yield) (index : Nat) : Fragment.Part → Prop
  | .count _ => yield = .deletion
  | .set slot _ => yield = .members ∧ slot = index
  | .failed => True

end ReadThrough.Proxy

namespace ReadThrough.Store.Request

variable {settings : Settings} {key : Key} {request : Request}

theorem kind_of_compose {body : RequestBody} (h : compose settings key body = .ok request) :
    request.kind = body.kind := by
  obtain ⟨key', -, rfl⟩ := map_eq_ok h
  rfl

theorem kind_of_get (h : get settings key = .ok request) : request.kind = .get :=
  kind_of_compose h

theorem kind_of_put {value : Bytes} {vclock : Option Bytes}
    (h : put settings key value vclock = .ok request) : request.kind = .put :=
  kind_of_compose h

theorem kind_of_delete (h : delete settings key = .ok request) : request.kind = .delete :=
  kind_of_compose h

theorem kind_of_setUpdate {action : SetAction} {members : List Bytes}
    (h : setUpdate settings key action members = .ok request) : request.kind = .setUpdate := by
  unfold setUpdate at h
  split at h
  · cases h
  · exact kind_of_compose h

theorem kind_of_setFetch (h : setFetch settings key = .ok request) : request.kind = .setFetch :=
  kind_of_compose h

theorem kind_of_counterUpdate {amount : Int64}
    (h : counterUpdate settings key amount = .ok request) : request.kind = .counterUpdate :=
  kind_of_compose h

theorem kind_of_setReplace {current wanted : List Bytes} {context : Option Bytes}
    (h : setReplace settings key current context wanted = .ok (some request)) :
    request.kind = .setUpdate := by
  unfold setReplace at h
  simp only at h
  split at h
  · cases h
  · obtain ⟨request', hr, hs⟩ := map_eq_ok h
    cases hs
    exact kind_of_compose hr

end ReadThrough.Store.Request

namespace ReadThrough.Proxy

theorem Read.kind_of_request {settings : Settings} {read : Read} {request : Store.Request}
    (h : read.request settings = .ok request) :
    (Stage.storeRead read).awaits = some request.kind := by
  cases read with
  | value address => exact congrArg some (Store.Request.kind_of_get h).symm
  | set address read => exact congrArg some (Store.Request.kind_of_setFetch h).symm

theorem Read.isIdempotentRead_of_request {settings : Settings} {read : Read}
    {request : Store.Request} (h : read.request settings = .ok request) :
    request.kind.isIdempotentRead = true := by
  cases read with
  | value address => rw [Store.Request.kind_of_get h]; rfl
  | set address read => rw [Store.Request.kind_of_setFetch h]; rfl

theorem kind_withVclock {request : Store.Request} {vclock : Option Bytes}
    (h : request.kind = .put) : (withVclock request vclock).kind = .put := by
  unfold withVclock
  split
  · rfl
  · exact h

end ReadThrough.Proxy
