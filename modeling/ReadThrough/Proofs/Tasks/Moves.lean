import ReadThrough.Proofs.Tasks.Handlers

namespace ReadThrough.Proxy

variable (w : World) (p : Proxy)

theorem leads_sendNew (operation : Operation) (request : Store.Request) :
    Leads w p [.launch operation request]
      (p.sendNew w operation request operation.stage.address.raw) :=
  .does .launch (leads_send w _ _ operation request)

theorem leads_foldl {α : Type} {f : Proxy → α → Proxy} {task : α → Task}
    (each : ∀ p x, Leads w p [task x] (f p x)) (xs : List α) :
    Leads w p (xs.map task) (xs.foldl f p) := by
  induction xs generalizing p with
  | nil => exact .nil
  | cons x xs ih => exact (each p x).cons (ih (f p x))

theorem leads_pollGroup (group : Nat) : Leads w p [.poll group] (p.pollGroup w group) := by
  refine .does .poll ?_
  have closes := leads_closing w p (p.groups.poll group).1 (p.groups.poll group).2
  unfold pollGroup
  split
  · next groups hg => simpa only [hg] using closes
  · next done groups hg => simpa only [hg] using closes

theorem leads_delete (client slot : Nat) (cacheOnly : List Address)
    (stored : List (Address × Store.Request)) :
    Leads w p ((Plan.delete cacheOnly stored).tasks client slot)
      (p.performDelete w client slot cacheOnly stored) := by
  refine (leads_foldl w p (fun p address => leads_invalidate w p address) cacheOnly).append ?_
  refine .does .delete (.append ?_ (leads_pollGroup w _ _))
  exact leads_foldl w _ (fun p _ => leads_sendNew w p _ _) _

theorem leads_combine (client slot : Nat) (op : SetOperator) (dest : Option Address)
    (sources : List Address) :
    Leads w p [.combine client slot op dest sources]
      (p.combine w client slot op dest sources) :=
  .does .combine (leads_foldl w _ (fun p _ => leads_startRead w p _ _ _) _)

theorem leads_perform (client slot : Nat) (plan : Plan) :
    Leads w p (plan.tasks client slot) (p.perform w client slot plan) := by
  cases plan with
  | read read => exact leads_startRead w p client (.client slot) read
  | write write request => exact leads_sendNew w p _ request
  | readThenPut address value deferred fetch => exact leads_sendNew w p _ fetch
  | delete cacheOnly stored => exact leads_delete w p client slot cacheOnly stored
  | combine op dest sources => exact leads_combine w p client slot op dest sources

section Plan

variable {p} {q : Proxy}

theorem plan_congr (settings : q.settings = p.settings)
    (vclocks : ∀ key, q.rememberedVclock key = p.rememberedVclock key) (command : Command) :
    q.plan command = p.plan command := by
  cases command with
  | set key value => simp only [plan, planPut, settings, vclocks]
  | _ => simp only [plan, planDelete, planSetUpdate, settings]

theorem touchVclock_cases (p : Proxy) (command : Command) :
    ∃ vclocks, p.touchVclock command = { p with vclocks } ∧
      (vclocks = p.vclocks ∨ ∃ key, vclocks = p.vclocks.touch key) := by
  unfold touchVclock
  split
  · split
    · exact ⟨_, rfl, Or.inr ⟨_, rfl⟩⟩
    · exact ⟨_, rfl, Or.inl rfl⟩
  · exact ⟨_, rfl, Or.inl rfl⟩

theorem plan_prepared (client : Nat) (command : Command) :
    ({ p with policy := p.policy.refresh }.reserve client).2.plan command = p.plan command :=
  plan_congr rfl (fun _ => rfl) command

theorem spend_cases (p : Proxy) (command : Command) : p.spend command = p ∨
    (∃ key value, command = .set key value) ∧ p.spend command = p.newOperation.2 := by
  cases command with
  | set key value =>
      unfold spend
      dsimp only
      split
      · exact Or.inr ⟨⟨key, value, rfl⟩, rfl⟩
      · exact Or.inl rfl
  | _ => exact Or.inl rfl

end Plan

namespace Move

def ready (p : Proxy) : Move → Proxy
  | .request client (.ok command) =>
      let q := ({ p with policy := p.policy.refresh }.reserve client).2.touchVclock command
      match p.plan command with
      | .ok _ => q
      | .error _ => q.spend command
  | move => (move.opening p).1

end Move

theorem ready_request (client : Nat) (command : Command) : ∃ vclocks nextOperation,
    (Move.request client (.ok command)).ready p =
        { ({ p with policy := p.policy.refresh }.reserve client).2 with vclocks, nextOperation } ∧
      (vclocks = p.vclocks ∨ ∃ key, vclocks = p.vclocks.touch key) ∧
      (nextOperation = p.nextOperation ∨ (∃ why, p.plan command = .error why) ∧
        (∃ key value, command = .set key value) ∧ nextOperation = p.nextOperation + 1) := by
  obtain ⟨vclocks, touched, change⟩ :=
    touchVclock_cases ({ p with policy := p.policy.refresh }.reserve client).2 command
  simp only [Move.ready, touched]
  cases p.plan command with
  | ok plan => exact ⟨vclocks, p.nextOperation, rfl, change, Or.inl rfl⟩
  | error why =>
      dsimp only
      rcases spend_cases { ({ p with policy := p.policy.refresh }.reserve client).2 with vclocks }
        command with same | ⟨sets, spent⟩
      · exact ⟨vclocks, p.nextOperation, same, change, Or.inl rfl⟩
      · exact ⟨vclocks, p.nextOperation + 1, spent, change, Or.inr ⟨⟨why, rfl⟩, sets, rfl⟩⟩

namespace Move

def news? (p : Proxy) : Move → Option (Nat × News)
  | .cacheAnswer server value =>
      match (p.cacheLink server).pending with
      | .operation id :: _ => some (id, .value value)
      | _ => none
  | .cacheSilence (.operation id) => some (id, .missed)
  | .storeAnswer server frame =>
      match (p.storeLink server).pending with
      | (id, kind) :: _ =>
          match Store.Response.decode frame.code frame.payload kind with
          | .ok response => some (id, .response server response)
          | .error why => some (id, .failed (.undecodableResponse why))
      | [] => none
  | .storeReset id why => some (id, .failed (.connectionReset why))
  | .storeSilence server id reason => some (id, .lost server reason)
  | _ => none

inductive Brings (p : Proxy) (id : Nat) : Move → News → Prop where
  | value {server : Nat} {value : Resp.Value} {rest : List CacheEntry} :
      (p.cacheLink server).pending = .operation id :: rest →
      Brings p id (.cacheAnswer server value) (.value value)
  | missed : Brings p id (.cacheSilence (.operation id)) .missed
  | response {server : Nat} {frame : Store.Frame} {kind : Store.RequestKind}
      {rest : List (Nat × Store.RequestKind)} {response : Store.Response} :
      (p.storeLink server).pending = (id, kind) :: rest →
      Store.Response.decode frame.code frame.payload kind = .ok response →
      Brings p id (.storeAnswer server frame) (.response server response)
  | undecodable {server : Nat} {frame : Store.Frame} {kind : Store.RequestKind}
      {rest : List (Nat × Store.RequestKind)} {why : Failure} :
      (p.storeLink server).pending = (id, kind) :: rest →
      Store.Response.decode frame.code frame.payload kind = .error why →
      Brings p id (.storeAnswer server frame) (.failed (.undecodableResponse why))
  | reset {why : Failure} : Brings p id (.storeReset id why) (.failed (.connectionReset why))
  | lost {server : Nat} {reason : String} :
      Brings p id (.storeSilence server id reason) (.lost server reason)

theorem news?_eq_some_iff {p : Proxy} {id : Nat} {move : Move} {news : News} :
    move.news? p = some (id, news) ↔ Brings p id move news := by
  constructor
  · intro h
    unfold news? at h
    split at h
    · split at h
      · next pending =>
          cases h
          exact .value pending
      · cases h
    · cases h
      exact .missed
    · split at h
      · next pending =>
          split at h
          · next decoded =>
              cases h
              exact .response pending decoded
          · next decoded =>
              cases h
              exact .undecodable pending decoded
      · cases h
    · cases h
      exact .reset
    · cases h
      exact .lost
    · cases h
  · intro h
    cases h with
    | value pending => simp only [news?, pending]
    | response pending decoded | undecodable pending decoded => simp only [news?, pending, decoded]
    | missed | reset | lost => rfl

theorem subject?_eq_some_iff {p : Proxy} {id : Nat} {move : Move} :
    move.subject? p = some id ↔ ∃ news, Brings p id move news := by
  constructor
  · intro h
    unfold subject? at h
    split at h
    · split at h
      · next pending =>
          cases h
          exact ⟨_, .value pending⟩
      · cases h
    · cases h
      exact ⟨_, .missed⟩
    · next server frame =>
        obtain ⟨⟨_, kind⟩, front, rfl⟩ := Option.map_eq_some_iff.mp h
        obtain ⟨rest, pending⟩ := List.head?_eq_some_iff.mp front
        cases decoded : Store.Response.decode frame.code frame.payload kind with
        | ok response => exact ⟨_, .response pending decoded⟩
        | error why => exact ⟨_, .undecodable pending decoded⟩
    · cases h
      exact ⟨_, .reset⟩
    · cases h
      exact ⟨_, .lost⟩
    · cases h
  · rintro ⟨news, h⟩
    cases h with
    | value pending => simp only [subject?, pending]
    | response pending | undecodable pending =>
        simp only [subject?, pending, List.head?_cons, Option.map_some]
    | missed | reset | lost => rfl

def tasks (p : Proxy) : Move → List Task
  | .request client (.ok command) =>
      match p.plan command with
      | .ok plan => plan.tasks client (p.client client).replies.next
      | .error why => [.reply client (p.client client).replies.next (Reply.failure why)]
  | .request client (.error why) =>
      [.reply client (p.client client).replies.next (Reply.failure why)]
  | move =>
      match move.news? p with
      | some (id, news) => ((p.operations.get? id).map fun operation =>
          Task.news id operation news).toList
      | none => []

end Move

def Heeds (w : World) (id : Nat) (news : News) (handler : Proxy → Operation → Proxy) : Prop :=
  ∀ q operation, Leads w q (operation.decide w q id news) (handler q operation)

section News

variable {move : Move} {id : Nat} {news : News} {operation : Operation}

theorem apply_of_news (told : move.news? p = some (id, news)) :
    (move.prepare p).operations = p.operations ∧
      move.ready p = ((move.prepare p).resumed id).1 ∧
      ∃ handler, Heeds w id news handler ∧ move.apply w p = (move.prepare p).resume id handler := by
  cases move with
  | cacheAnswer server value =>
      simp only [Move.news?] at told
      simp only [Move.ready, Move.opening, Move.subject?, Move.prepare, Move.apply]
      split at told
      · next hp =>
          cases told
          refine ⟨?_, ?_, _, fun q operation => leads_onValue w q value, ?_⟩ <;> simp only [hp] <;> rfl
      · cases told
  | cacheSilence entry =>
      cases entry with
      | operation id =>
          cases told
          exact ⟨rfl, rfl, _, fun q operation => leads_onMiss w q, rfl⟩
      | sideEffect => cases told
  | storeAnswer server frame =>
      simp only [Move.news?] at told
      simp only [Move.ready, Move.opening, Move.subject?, Move.prepare, Move.apply]
      split at told
      · next kind pending hp =>
          simp only [hp, List.head?_cons, Option.map_some]
          cases hd : Store.Response.decode frame.code frame.payload kind with
          | ok response =>
              simp only [hd] at told
              cases told
              refine ⟨rfl, rfl, _, fun q operation => ?_, rfl⟩
              simp only [frameHandler, hd]
              exact leads_onResponse w q server response
          | error why =>
              simp only [hd] at told
              cases told
              refine ⟨rfl, rfl, _, fun q operation => ?_, rfl⟩
              simp only [frameHandler, hd]
              exact leads_failing w q operation _
      · cases told
  | storeReset id why =>
      cases told
      exact ⟨rfl, rfl, _, fun q operation => leads_failing w q operation _, rfl⟩
  | storeSilence server id reason =>
      cases told
      exact ⟨rfl, rfl, _, fun q operation => leads_retryOrFail w q id operation server reason, rfl⟩
  | _ => cases told

theorem leads_told (told : move.news? p = some (id, news))
    (ho : p.operations.get? id = some operation) :
    Leads w (move.ready p) (operation.decide w (move.ready p) id news) (move.apply w p) := by
  obtain ⟨prepared, ready, handler, heeds, applied⟩ := apply_of_news w p told
  rw [← prepared] at ho
  rw [ready, applied]
  simp only [resumed, resume, takeOperation, ho, Option.map_some]
  exact heeds _ operation

theorem leads_news (told : move.news? p = some (id, news)) :
    Leads w (move.ready p)
      ((p.operations.get? id).map fun operation => Task.news id operation news).toList
      (move.apply w p) := by
  cases ho : p.operations.get? id with
  | some operation => exact .does .news (leads_told w p told ho)
  | none =>
      obtain ⟨prepared, ready, handler, -, applied⟩ := apply_of_news w p told
      rw [← prepared] at ho
      rw [ready, applied]
      simp only [resumed, resume, takeOperation, ho, Option.map_none]
      exact .nil

end News

theorem leads_clientCommand (client : Nat) (command : Command) :
    Leads w ((Move.request client (.ok command)).ready p)
      ((Move.request client (.ok command)).tasks p) (p.clientCommand w client command) := by
  rw [clientCommand_eq]
  unfold Move.tasks Move.ready
  dsimp only
  rw [plan_prepared]
  cases p.plan command with
  | ok plan => exact leads_perform w _ client _ plan
  | error why => exact leads_reply w _ client _ _

theorem leads_apply (move : Move) : Leads w (move.ready p) (move.tasks p) (move.apply w p) := by
  cases told : move.news? p with
  | some heard =>
      have tasks : move.tasks p = ((p.operations.get? heard.1).map fun operation =>
          Task.news heard.1 operation heard.2).toList := by
        cases move with
        | request => cases told
        | _ => simp only [Move.tasks, told]
      rw [tasks]
      exact leads_news w p told
  | none =>
      cases move with
      | request client content =>
          cases content with
          | ok command => exact leads_clientCommand w p client command
          | error why => exact leads_reply w _ client _ _
      | cacheAnswer server value =>
          simp only [Move.ready, Move.opening, Move.subject?, Move.prepare, Move.tasks, told,
            Move.apply, Move.incoming]
          cases hp : (p.cacheLink server).pending with
          | nil => exact .nil
          | cons entry pending =>
              cases entry with
              | sideEffect => exact .nil
              | operation id => simp only [Move.news?, hp, reduceCtorEq] at told
      | cacheSilence entry =>
          cases entry with
          | sideEffect => exact .nil
          | operation id => cases told
      | storeAnswer server frame =>
          simp only [Move.ready, Move.opening, Move.subject?, Move.prepare, Move.tasks, told,
            Move.apply, Move.incoming]
          cases hp : (p.storeLink server).pending with
          | nil => exact .nil
          | cons entry pending =>
              simp only [Move.news?, hp] at told
              split at told <;> cases told
      | storeReset | storeSilence => cases told
      | hold | hangUp | cacheHold | cacheProtest | cacheLoss | storeHold | storeProtest | storeLoss
      | policy | drain => exact .nil

theorem steps_apply (move : Move) : Steps w (move.ready p, move.tasks p) (move.apply w p, []) := by
  simpa using leads_apply w p move []

end ReadThrough.Proxy
