import ReadThrough.Proofs.Entries
import ReadThrough.Proofs.Replies
import ReadThrough.Proxy.StoreSide

namespace ReadThrough

namespace Table

variable {κ α β : Type} [DecidableEq κ]

theorem get?_mapValues (f : α → β) (table : Table κ α) (key : κ) :
    (table.mapValues f).get? key = (table.get? key).map f := by
  simp only [get?, mapValues, List.find?_map, Option.map_map]
  rfl

theorem mapValues_insert (f : α → β) (table : Table κ α) (key : κ) (value : α) :
    (table.insert key value).mapValues f = (table.mapValues f).insert key (f value) := by
  obtain ⟨entries, nodup⟩ := table
  refine Table.ext ?_
  simp only [mapValues, insert]
  clear nodup
  induction entries with
  | nil => rfl
  | cons e rest ih =>
      by_cases he : e.1 = key
      · simp [setEntry, he]
      · simp [setEntry, he, ih]

end Table

def CacheLink.unbuffered (link : CacheLink) : CacheLink :=
  { link with inbound := {} }

def StoreLink.unbuffered (link : StoreLink) : StoreLink :=
  { link with inbound := {} }

namespace Proxy

def unbuffered (p : Proxy) : Proxy :=
  { p with
    caches := p.caches.mapValues CacheLink.unbuffered
    stores := p.stores.mapValues StoreLink.unbuffered }

def unbufferedSnd {α : Type} (result : α × Proxy) : α × Proxy :=
  (result.1, result.2.unbuffered)

section State

variable (w : World) (p : Proxy)

theorem settings_unbuffered : p.unbuffered.settings = p.settings := rfl

theorem ttl_unbuffered (address : Address) : p.unbuffered.ttl address = p.ttl address := rfl

theorem toss_unbuffered : p.unbuffered.toss w = unbufferedSnd (p.toss w) := rfl

theorem newOperation_unbuffered : p.unbuffered.newOperation = unbufferedSnd p.newOperation := rfl

theorem cacheLink_unbuffered (server : Nat) :
    p.unbuffered.cacheLink server = (p.cacheLink server).unbuffered := by
  simp only [cacheLink, unbuffered, Table.get?_mapValues]
  cases p.caches.get? server <;> rfl

theorem storeLink_unbuffered (server : Nat) :
    p.unbuffered.storeLink server = (p.storeLink server).unbuffered := by
  simp only [storeLink, unbuffered, Table.get?_mapValues]
  cases p.stores.get? server <;> rfl

theorem setCache_unbuffered (server : Nat) (link : CacheLink) :
    p.unbuffered.setCache server link.unbuffered = (p.setCache server link).unbuffered := by
  simp only [setCache, unbuffered, Table.mapValues_insert]

theorem setStore_unbuffered (server : Nat) (link : StoreLink) :
    p.unbuffered.setStore server link.unbuffered = (p.setStore server link).unbuffered := by
  simp only [setStore, unbuffered, Table.mapValues_insert]

theorem takeOperation_unbuffered (id : Nat) : p.unbuffered.takeOperation id =
    (p.takeOperation id).map unbufferedSnd := by
  simp only [takeOperation, Option.map_map]
  rfl

theorem rememberVclock_unbuffered (address : Address) (vclock : Option Bytes) :
    p.unbuffered.rememberVclock address vclock = (p.rememberVclock address vclock).unbuffered := by
  unfold rememberVclock
  split <;> rfl

theorem ask_unbuffered (server : Nat) (entry : CacheEntry) (command : Cache.Command) :
    p.unbuffered.ask server entry command = (p.ask server entry command).unbuffered := by
  unfold ask
  rw [cacheLink_unbuffered]
  exact congrArg (emit · _) (setCache_unbuffered p server
    { p.cacheLink server with pending := (p.cacheLink server).pending ++ [entry] })

theorem sideEffect_unbuffered (route : Bytes) (command : Cache.Command) :
    p.unbuffered.sideEffect w route command = (p.sideEffect w route command).unbuffered := by
  have picked : p.unbuffered.pick w .cache route = unbufferedSnd (p.pick w .cache route) := rfl
  unfold sideEffect
  rw [picked]
  rcases p.pick w .cache route with ⟨_ | server, q⟩
  · rfl
  · exact ask_unbuffered q server .sideEffect command

theorem sideEffects_unbuffered (route : Bytes) (commands : List Cache.Command) :
    p.unbuffered.sideEffects w route commands = (p.sideEffects w route commands).unbuffered := by
  induction commands generalizing p with
  | nil => rfl
  | cons command commands ih =>
      change (p.unbuffered.sideEffect w route command).sideEffects w route commands =
        ((p.sideEffect w route command).sideEffects w route commands).unbuffered
      rw [sideEffect_unbuffered, ih]

end State

section Completion

variable (w : World) (p : Proxy) (operation : Operation)

theorem reply_unbuffered (client slot : Nat) (value : Reply) :
    p.unbuffered.reply client slot value = (p.reply client slot value).unbuffered := by
  have clients : p.unbuffered.clients = p.clients := rfl
  unfold reply
  rw [clients]
  cases p.clients.get? client with
  | none => rfl
  | some link =>
      dsimp only
      cases link.replies.fill? slot value with
      | none => rfl
      | some filled =>
          dsimp only
          rw [foldl_emit_reply, foldl_emit_reply]
          rfl

theorem dispatch_unbuffered (id : Nat) (request : Store.Request) (server : Nat) :
    p.unbuffered.dispatch id operation request server =
      (p.dispatch id operation request server).unbuffered := by
  have queued := setStore_unbuffered p server
    { p.storeLink server with
      pending := (p.storeLink server).pending ++ [(id, request.kind)] }
  unfold dispatch
  rw [storeLink_unbuffered]
  exact congrArg (fun q : Proxy => (q.emit (.store server id request)).addOperation id operation)
    queued

theorem submit_unbuffered (id : Nat) (request : Store.Request) (route : Bytes) :
    p.unbuffered.submit w id operation request route =
      unbufferedSnd (p.submit w id operation request route) := by
  have picked : p.unbuffered.pick w .store route = unbufferedSnd (p.pick w .store route) := rfl
  unfold submit
  rw [settings_unbuffered]
  cases request.checkSize p.settings.maxFrameSize with
  | error why => rfl
  | ok =>
      dsimp only
      rw [picked]
      rcases p.pick w .store route with ⟨_ | server, q⟩
      · rfl
      · exact congrArg (Prod.mk _) (dispatch_unbuffered q _ id request server)

theorem startStore_unbuffered (client slot : Nat) (dest : Address) (members : List Bytes) :
    p.unbuffered.startStore w client slot dest members =
      (p.startStore w client slot dest members).unbuffered := by
  unfold startStore
  simp only [settings_unbuffered, newOperation_unbuffered]
  cases Store.Request.setFetch p.settings dest.key with
  | error why => exact reply_unbuffered p client slot _
  | ok request =>
      simp only [unbufferedSnd, submit_unbuffered]
      rcases p.newOperation.2.submit w p.newOperation.1
        { client, target := .client slot, stage := .storeFetch dest members } request dest.raw
        with ⟨why | _, q⟩
      · exact reply_unbuffered q client slot _
      · rfl

theorem completeGroup_unbuffered (group : Fragment.Group GroupContext) :
    p.unbuffered.completeGroup w group = (p.completeGroup w group).unbuffered := by
  unfold completeGroup
  cases group.context with
  | del slot => exact reply_unbuffered p group.client slot _
  | algebra slot op dest =>
      dsimp only
      by_cases failed : 0 < group.failures
      · rw [if_pos failed, if_pos failed]
        exact reply_unbuffered p group.client slot _
      · rw [if_neg failed, if_neg failed]
        cases dest with
        | none => exact reply_unbuffered p group.client slot _
        | some dest => exact startStore_unbuffered w p group.client slot dest _

theorem contribute_unbuffered (id : Nat) (part : Fragment.Part) :
    p.unbuffered.contribute w id part = (p.contribute w id part).unbuffered := by
  have groups : p.unbuffered.groups = p.groups := rfl
  unfold contribute
  rw [groups]
  by_cases accepted : p.groups.accepts id part = true
  · rw [if_pos accepted, if_pos accepted]
    rcases p.groups.contribute id part with ⟨_ | group, groups⟩
    · rfl
    · exact completeGroup_unbuffered w { p with groups } group
  · rw [if_neg accepted, if_neg accepted]
    rfl

theorem finish_unbuffered (value : Reply) :
    p.unbuffered.finish w operation value = (p.finish w operation value).unbuffered := by
  unfold finish
  cases operation.target with
  | client slot => exact reply_unbuffered p operation.client slot value
  | fragment group index => exact contribute_unbuffered w (p.breach _) group .failed

theorem fail_unbuffered (value : Reply) :
    p.unbuffered.fail w operation value = (p.fail w operation value).unbuffered := by
  unfold fail
  cases operation.target with
  | client slot => exact reply_unbuffered p operation.client slot value
  | fragment group index => exact contribute_unbuffered w p group .failed

theorem failWith_unbuffered (why : Failure) :
    p.unbuffered.failWith w operation why = (p.failWith w operation why).unbuffered :=
  fail_unbuffered w p operation _

theorem send_unbuffered (id : Nat) (request : Store.Request) (route : Bytes) :
    p.unbuffered.send w id operation request route =
      (p.send w id operation request route).unbuffered := by
  unfold send
  rw [submit_unbuffered]
  rcases p.submit w id operation request route with ⟨why | _, q⟩
  · exact failWith_unbuffered w q operation why
  · rfl

theorem finishStore_unbuffered (dest : Address) (members : List Bytes) :
    p.unbuffered.finishStore w operation dest members =
      (p.finishStore w operation dest members).unbuffered := by
  unfold finishStore
  rw [ttl_unbuffered, sideEffects_unbuffered, finish_unbuffered]

end Completion

section CacheSide

variable (w : World) (p : Proxy) (operation : Operation)

theorem answerEmpty_unbuffered (read : Read) :
    p.unbuffered.answerEmpty w operation read = (p.answerEmpty w operation read).unbuffered := by
  unfold answerEmpty
  split
  · exact finish_unbuffered w p operation _
  · exact finish_unbuffered w p operation _
  · exact contribute_unbuffered w p _ _
  · exact finish_unbuffered w p operation _

theorem cacheMiss_unbuffered (id : Nat) :
    p.unbuffered.cacheMiss w id operation = (p.cacheMiss w id operation).unbuffered := by
  unfold cacheMiss
  split
  · next read _ =>
      by_cases missing : (!read.address.hasBucket) = true
      · rw [if_pos missing, if_pos missing]
        exact answerEmpty_unbuffered w p operation read
      · rw [if_neg missing, if_neg missing]
        simp only [settings_unbuffered]
        cases read.request p.settings with
        | ok request => exact send_unbuffered w p _ id request _
        | error why => exact failWith_unbuffered w p _ why
  · exact failWith_unbuffered w (p.breach _) operation _

theorem cacheReply_unbuffered (id : Nat) (value : Resp.Value) :
    p.unbuffered.cacheReply w id operation value =
      (p.cacheReply w id operation value).unbuffered := by
  have missed := cacheMiss_unbuffered w p operation id
  unfold cacheReply
  split
  · next read _ =>
      by_cases error : value.isError = true
      · rw [if_pos error, if_pos error]
        exact missed
      · rw [if_neg error, if_neg error]
        split
        · by_cases none : value.isNil = true
          · rw [if_pos none, if_pos none]
            exact missed
          · rw [if_neg none, if_neg none]
            exact finish_unbuffered w p operation value
        · next _ query _ =>
            by_cases miss : Cache.isMiss query value = true
            · rw [if_pos miss, if_pos miss]
              exact missed
            · rw [if_neg miss, if_neg miss]
              exact finish_unbuffered w p operation value
        · split
          · exact contribute_unbuffered w p _ _
          · exact missed
  · exact failWith_unbuffered w (p.breach _) operation _

theorem cacheAnswer_unbuffered (entry : CacheEntry) (value : Resp.Value) :
    p.unbuffered.cacheAnswer w entry value = (p.cacheAnswer w entry value).unbuffered := by
  cases entry with
  | sideEffect => rfl
  | operation id =>
      simp only [cacheAnswer, takeOperation_unbuffered]
      cases p.takeOperation id with
      | none => rfl
      | some taken => exact cacheReply_unbuffered w taken.2 taken.1 id value

end CacheSide

section StoreSide

variable (w : World) (p : Proxy) (id : Nat) (operation : Operation)

theorem nextServer_unbuffered (primary : Nat) : p.unbuffered.nextServer w operation primary =
    ((p.nextServer w operation primary).1,
      unbufferedSnd (p.nextServer w operation primary).2) := rfl

theorem dispatchAgain_unbuffered (server : Nat) : p.unbuffered.dispatchAgain w id operation server =
    (p.dispatchAgain w id operation server).unbuffered := by
  unfold dispatchAgain
  split
  · exact dispatch_unbuffered p operation id _ server
  · exact failWith_unbuffered w (p.breach _) operation _

theorem retryOrFail_unbuffered (failed : Nat) (reason : String) :
    p.unbuffered.retryOrFail w id operation failed reason =
      (p.retryOrFail w id operation failed reason).unbuffered := by
  unfold retryOrFail
  by_cases again : operation.isResendable = true
  · rw [if_pos again, if_pos again, nextServer_unbuffered]
    rcases p.nextServer w operation (operation.primary.getD failed) with ⟨_ | server, next, q⟩
    · exact failWith_unbuffered w q next _
    · exact dispatchAgain_unbuffered w q id next server
  · rw [if_neg again, if_neg again]
    exact failWith_unbuffered w p operation _

theorem resendNotFound_unbuffered : p.unbuffered.resendNotFound w id operation =
    unbufferedSnd (p.resendNotFound w id operation) := by
  unfold resendNotFound
  by_cases again : operation.isResendable = true
  · rw [if_pos again, if_pos again]
    cases operation.primary with
    | none => rfl
    | some primary =>
        simp only [nextServer_unbuffered]
        rcases p.nextServer w operation primary with ⟨_ | server, next, q⟩
        · rfl
        · exact congrArg (Prod.mk _) (dispatchAgain_unbuffered w q id next server)
  · rw [if_neg again, if_neg again]
    rfl

theorem unexpected_unbuffered (message : String) : p.unbuffered.unexpected w operation message =
    (p.unexpected w operation message).unbuffered :=
  fail_unbuffered w (p.breach _) operation _

theorem valueRead_unbuffered (address : Address) (response : Store.Response) :
    p.unbuffered.valueRead w id operation address response =
      (p.valueRead w id operation address response).unbuffered := by
  unfold valueRead
  split
  · next siblings vclock =>
      simp only [toss_unbuffered, unbufferedSnd, rememberVclock_unbuffered]
      cases Store.Outcome.ofSiblings (p.toss w).1 siblings vclock with
      | found value _ =>
          dsimp only
          rw [ttl_unbuffered, sideEffect_unbuffered, finish_unbuffered]
      | missing _ =>
          dsimp only
          rw [resendNotFound_unbuffered]
          rcases ((p.toss w).2.rememberVclock address vclock).resendNotFound w id operation with
            ⟨_ | kept, q⟩
          · rfl
          · exact finish_unbuffered w q kept _
  · exact unexpected_unbuffered w p operation _

theorem deliverSet_unbuffered (read : SetRead) (members : List Bytes) :
    p.unbuffered.deliverSet w operation read members =
      (p.deliverSet w operation read members).unbuffered := by
  unfold deliverSet
  split
  · exact finish_unbuffered w p operation _
  · exact contribute_unbuffered w p _ _
  · exact finish_unbuffered w p operation _

theorem setRead_unbuffered (address : Address) (read : SetRead) (response : Store.Response) :
    p.unbuffered.setRead w id operation address read response =
      (p.setRead w id operation address read response).unbuffered := by
  have delivered : ∀ (q : Proxy) (kept : Operation) (members : List Bytes),
      (q.unbuffered.sideEffects w address.raw
        (Cache.populateSet address.raw members (q.unbuffered.ttl address))).deliverSet w kept read
        members = ((q.sideEffects w address.raw
          (Cache.populateSet address.raw members (q.ttl address))).deliverSet w kept read
            members).unbuffered := by
    intro q kept members
    rw [ttl_unbuffered, sideEffects_unbuffered, deliverSet_unbuffered]
  unfold setRead
  split
  · next members _ =>
      by_cases empty : (members.isEmpty && read.isQuery) = true
      · simp only [if_pos empty, resendNotFound_unbuffered]
        rcases p.resendNotFound w id operation with ⟨_ | kept, q⟩
        · rfl
        · exact delivered q kept members
      · simp only [if_neg empty]
        exact delivered p operation members
  · exact unexpected_unbuffered w p operation _

theorem vclockRead_unbuffered (address : Address) (value : Bytes) (deferred : Store.Request)
    (response : Store.Response) :
    p.unbuffered.vclockRead w id operation address value deferred response =
      (p.vclockRead w id operation address value deferred response).unbuffered := by
  unfold vclockRead
  split
  · rw [rememberVclock_unbuffered]
    exact send_unbuffered w _ _ id _ _
  · exact unexpected_unbuffered w p operation _

theorem storeFetched_unbuffered (dest : Address) (members : List Bytes)
    (response : Store.Response) :
    p.unbuffered.storeFetched w id operation dest members response =
      (p.storeFetched w id operation dest members response).unbuffered := by
  unfold storeFetched
  split
  · next current context =>
      simp only [settings_unbuffered]
      rcases Store.Request.setReplace p.settings dest.key current context members with
        why | _ | request
      · exact failWith_unbuffered w p operation why
      · exact finishStore_unbuffered w p operation dest members
      · exact send_unbuffered w p _ id request _
  · exact unexpected_unbuffered w p operation _

theorem invalidate_unbuffered (address : Address) :
    p.unbuffered.invalidate w address = (p.invalidate w address).unbuffered :=
  sideEffect_unbuffered w p _ _

theorem written_unbuffered (write : Write) (response : Store.Response) :
    p.unbuffered.written w operation write response =
      (p.written w operation write response).unbuffered := by
  unfold written
  split
  · dsimp only
    rw [rememberVclock_unbuffered, ttl_unbuffered, sideEffect_unbuffered, finish_unbuffered]
  · rw [invalidate_unbuffered, finish_unbuffered]
  · rw [invalidate_unbuffered, finish_unbuffered]
  · dsimp only
    rw [invalidate_unbuffered]
    split
    · exact contribute_unbuffered w _ _ _
    · exact finish_unbuffered w _ operation _
  · exact finishStore_unbuffered w p operation _ _
  · exact unexpected_unbuffered w p operation _

theorem storeResponse_unbuffered (server : Nat) (response : Store.Response) :
    p.unbuffered.storeResponse w id operation server response =
      (p.storeResponse w id operation server response).unbuffered := by
  unfold storeResponse
  split
  · next message _ =>
      by_cases again : ((Store.Response.classify message).kind.isRetryable &&
          operation.isResendable) = true
      · rw [if_pos again, if_pos again]
        exact retryOrFail_unbuffered w p id operation server message
      · rw [if_neg again, if_neg again]
        exact fail_unbuffered w p operation _
  · split
    · exact valueRead_unbuffered w p id operation _ _
    · exact setRead_unbuffered w p id operation _ _ _
    · exact vclockRead_unbuffered w p id operation _ _ _ _
    · exact storeFetched_unbuffered w p id operation _ _ _
    · exact written_unbuffered w p operation _ _
    · exact failWith_unbuffered w (p.breach _) operation _

end StoreSide

end Proxy

end ReadThrough
