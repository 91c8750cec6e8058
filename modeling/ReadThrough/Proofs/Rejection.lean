import ReadThrough.Proofs.Addressing
import ReadThrough.Proofs.Deletions

namespace ReadThrough

def Command.written : Command → List Bytes
  | .set key _ | .sadd key _ | .srem key _ | .incr key _ => [key]
  | .algebra _ dest _ => dest.toList
  | _ => []

inductive Command.Fault (command : Command) : Failure → Prop where
  | unreadable {raw : Bytes} {why : Failure} : raw ∈ command.named → Key.split raw = .error why →
      Fault command why
  | bucketless {raw : Bytes} {key : Key} : raw ∈ command.written → Key.split raw = .ok key →
      key.hasBucket = false → Fault command (.noBucket key.name)
  | memberless {key : Bytes} : command = .sadd key [] ∨ command = .srem key [] →
      Fault command .noMembers

section Fault

variable {settings : Settings} {command : Command} {raw : Bytes} {address : Address}
  {why : Failure}

theorem Command.Fault.of_parse (named : raw ∈ command.named)
    (refused : Address.parse raw = .error why) : command.Fault why :=
  .unreadable named (map_eq_error refused)

theorem Command.Fault.of_requireBucket (written : raw ∈ command.written)
    (parsed : Address.parse raw = .ok address) (refused : address.key.requireBucket = .error why) :
    command.Fault why := by
  obtain ⟨key, split, rfl⟩ := map_eq_ok parsed
  unfold Key.requireBucket at refused
  split at refused
  · cases refused
  · next none =>
      cases refused
      exact .bucketless written split (Bool.not_eq_true _ ▸ none)

theorem Command.Fault.of_compose {body : Store.RequestBody} (written : raw ∈ command.written)
    (parsed : Address.parse raw = .ok address)
    (refused : Store.Request.compose settings address.key body = .error why) : command.Fault why :=
  .of_requireBucket written parsed (map_eq_error refused)

end Fault

namespace Proxy

section Plan

variable {p : Proxy} {command : Command} {plan : Plan} {key raw : Bytes} {members : List Bytes}
  {action : Store.SetAction} {why : Failure}

theorem fault_of_planSetUpdate (named : key ∈ command.named) (written : key ∈ command.written)
    (memberless : members = [] → command.Fault .noMembers)
    (h : p.planSetUpdate key action members = .error why) : command.Fault why := by
  rcases bind_eq_error h with refused | ⟨address, parsed, h⟩
  · exact .of_parse named refused
  · rcases bind_eq_error h with refused | ⟨request, -, h⟩
    · unfold Store.Request.setUpdate at refused
      split at refused
      · next none =>
          cases refused
          exact memberless none
      · exact .of_compose written parsed refused
    · cases h

theorem fault_of_plan (h : p.plan command = .error why) : command.Fault why := by
  cases command with
  | get key | smembers key | sismember key _ | scard key =>
      exact .of_parse (List.mem_singleton_self key) (map_eq_error h)
  | set key value =>
      rcases bind_eq_error h with refused | ⟨address, parsed, h⟩
      · exact .of_parse (List.mem_singleton_self key) refused
      · have written : key ∈ (Command.set key value).written := List.mem_singleton_self key
        unfold planPut at h
        split at h
        · exact .of_compose written parsed (map_eq_error h)
        · rcases bind_eq_error h with refused | ⟨deferred, -, h⟩
          · exact .of_compose written parsed refused
          · rcases bind_eq_error h with refused | ⟨fetch, -, h⟩
            · exact .of_compose written parsed refused
            · cases h
  | del keys =>
      rcases bind_eq_error h with refused | ⟨deletion, read, -⟩
      · obtain ⟨raw, named, unread⟩ := error_of_mapM (map_eq_error refused)
        exact .of_parse named unread
      · obtain ⟨addresses, parsed, -⟩ := map_eq_ok read
        rw [plan_del p parsed 0] at h
        cases h
  | sadd key members =>
      exact fault_of_planSetUpdate (List.mem_singleton_self key) (List.mem_singleton_self key)
        (fun none => .memberless (Or.inl (congrArg (Command.sadd key) none))) h
  | srem key members =>
      exact fault_of_planSetUpdate (List.mem_singleton_self key) (List.mem_singleton_self key)
        (fun none => .memberless (Or.inr (congrArg (Command.srem key) none))) h
  | incr key amount =>
      rcases bind_eq_error h with refused | ⟨address, parsed, h⟩
      · exact .of_parse (List.mem_singleton_self key) refused
      · rcases bind_eq_error h with refused | ⟨request, -, h⟩
        · exact .of_compose (List.mem_singleton_self key) parsed refused
        · cases h
  | algebra op dest keys =>
      rcases bind_eq_error h with refused | ⟨sources, -, h⟩
      · obtain ⟨raw, among, unread⟩ := error_of_mapM refused
        exact .of_parse (List.mem_append_right _ among) unread
      · rcases bind_eq_error h with refused | ⟨dest', -, h⟩
        · cases dest with
          | none => cases refused
          | some raw =>
              rcases bind_eq_error refused with unread | ⟨address, parsed, refused⟩
              · exact .of_parse (List.mem_append_left _ (List.mem_singleton_self raw)) unread
              · rcases bind_eq_error refused with none | ⟨key, -, h⟩
                · exact .of_requireBucket (List.mem_singleton_self raw) parsed none
                · cases h
        · cases h

theorem Plans.readable (h : Plans p command plan) (named : raw ∈ command.named) :
    ∃ address, Address.parse raw = .ok address := by
  cases h with
  | del read composed =>
      obtain ⟨addresses, parsed, -⟩ := map_eq_ok read
      obtain ⟨address, -, parsed⟩ := exists_of_mapM parsed named
      exact ⟨address, parsed⟩
  | @algebra op dest keys sources target parsed planned =>
      rcases List.mem_append.mp named with written | among
      · cases dest with
        | none => cases written
        | some dest =>
            obtain rfl := List.mem_singleton.mp written
            obtain ⟨address, parsed, -⟩ := bind_eq_ok planned
            exact ⟨address, parsed⟩
      · obtain ⟨address, -, parsed⟩ := exists_of_mapM parsed among
        exact ⟨address, parsed⟩
  | get parsed | smembers parsed | sismember parsed | scard parsed | put parsed
  | readThenPut parsed | sadd parsed | srem parsed | incr parsed =>
      obtain rfl := List.mem_singleton.mp named
      exact ⟨_, parsed⟩

theorem hasBucket_of_setUpdate {settings : Settings} {key : Key} {request : Store.Request}
    (h : Store.Request.setUpdate settings key action members = .ok request) :
    key.hasBucket = true ∧ members ≠ [] := by
  unfold Store.Request.setUpdate at h
  split at h
  · cases h
  · next some => exact ⟨(compose_eq_ok h).1, some⟩

theorem Plans.hasBucket (h : Plans p command plan) (written : raw ∈ command.written) :
    ∃ address, Address.parse raw = .ok address ∧ address.key.hasBucket = true := by
  cases h with
  | put parsed _ composed | readThenPut parsed _ composed | incr parsed composed =>
      obtain rfl := List.mem_singleton.mp written
      exact ⟨_, parsed, (compose_eq_ok composed).1⟩
  | sadd parsed composed | srem parsed composed =>
      obtain rfl := List.mem_singleton.mp written
      exact ⟨_, parsed, (hasBucket_of_setUpdate composed).1⟩
  | @algebra op dest keys sources target parsed planned =>
      cases dest with
      | none => cases written
      | some dest =>
          obtain rfl := List.mem_singleton.mp written
          obtain ⟨address, parsed, planned⟩ := bind_eq_ok planned
          obtain ⟨key, bucket, -⟩ := bind_eq_ok planned
          exact ⟨address, parsed, (Key.requireBucket_eq_ok bucket).2⟩
  | get | smembers | sismember | scard | del => cases written

theorem Plans.faultless (h : Plans p command plan) : ¬command.Fault why := by
  intro fault
  cases fault with
  | unreadable named unread =>
      obtain ⟨address, parsed⟩ := h.readable named
      obtain ⟨key, split, -⟩ := map_eq_ok parsed
      rw [unread] at split
      cases split
  | bucketless written split none =>
      obtain ⟨address, parsed, has⟩ := h.hasBucket written
      obtain ⟨key, split', rfl⟩ := map_eq_ok parsed
      rw [split] at split'
      cases split'
      rw [none] at has
      cases has
  | memberless which =>
      rcases which with rfl | rfl
      · cases h with
        | sadd parsed composed => exact (hasBucket_of_setUpdate composed).2 rfl
      · cases h with
        | srem parsed composed => exact (hasBucket_of_setUpdate composed).2 rfl

theorem exists_fault_iff : (∃ why, p.plan command = .error why) ↔ ∃ why, command.Fault why := by
  constructor
  · rintro ⟨why, h⟩
    exact ⟨why, fault_of_plan h⟩
  · rintro ⟨why, fault⟩
    cases h : p.plan command with
    | error why => exact ⟨why, rfl⟩
    | ok plan => exact absurd fault (plans_of_plan h).faultless

end Plan

def Refuses (w : World) (p : Proxy) (client : Nat) (command : Command) (why : Failure) : Prop :=
  let (slot, q) := { p with policy := p.policy.refresh }.reserve client
  ∃ left, (startCommand w client slot command).run q = .error why left

/-- What is left when a client has been refused something: the answer in a slot of its own, from
where it leaves at once if nothing is in front of it. -/
structure Rejected (p q : Proxy) (client : Nat) (command : Command) (why : Failure) : Prop where
  frame : ∃ nextOperation vclocks replies outbox,
    q = { p with
      policy := p.policy.refresh
      nextOperation
      vclocks
      clients := p.clients.insert client { p.client client with replies }
      outbox }
  /-- At most one number is spent, and only by a command that takes it before it is checked. -/
  nextOperation : q.nextOperation = p.nextOperation ∨
    (∃ key value, command = .set key value) ∧ q.nextOperation = p.nextOperation + 1
  capacity : q.vclocks.capacity = p.vclocks.capacity
  vclocks : q.vclocks.entries.Perm p.vclocks.entries
  next : (q.client client).replies.next = (p.client client).replies.next + 1
  sent : p.slots client = [] → q.slots client = [] ∧ q.outbox =
    p.outbox ++ [.reply client (p.client client).replies.next (Reply.failure why)]
  held : p.slots client ≠ [] → q.outbox = p.outbox ∧ q.slots client =
    p.slots client ++ [((p.client client).replies.next, some (Reply.failure why))]

section Rejected

variable {w : World} {p : Proxy} {client : Nat} {command : Command} {why : Failure}

theorem refuses_iff : Refuses w p client command why ↔ p.plan command = .error why := by
  unfold Refuses
  dsimp only
  rw [run_startCommand, plan_prepared]
  cases p.plan command with
  | ok plan => simp only [Plan.outcome, reduceCtorEq, exists_false]
  | error why' =>
      simp only [Plan.outcome, EStateM.Result.error.injEq, exists_and_left, exists_eq', and_true,
        Except.error.injEq]

theorem clientCommand_of_error (w : World) (client : Nat) (refused : p.plan command = .error why) :
    ∃ vclocks nextOperation, p.clientCommand w client command =
        ({ p with policy := p.policy.refresh, vclocks, nextOperation }.reserve client).2.reply client
          (p.client client).replies.next (Reply.failure why) ∧
      (vclocks = p.vclocks ∨ ∃ key, vclocks = p.vclocks.touch key) ∧
      (nextOperation = p.nextOperation ∨
        (∃ key value, command = .set key value) ∧ nextOperation = p.nextOperation + 1) := by
  obtain ⟨vclocks, nextOperation, ready, change, spent⟩ := ready_request p client command
  refine ⟨vclocks, nextOperation, ?_, change, spent.imp_right fun spent => spent.2⟩
  rw [clientCommand_eq]
  dsimp only
  simp only [Move.ready, refused] at ready
  rw [plan_prepared, refused]
  dsimp only
  rw [ready]
  rfl

theorem rejected_of_error (tidy : Tidy p []) (distinct : p.vclocks.Distinct)
    (refused : p.plan command = .error why) :
    Rejected p (p.clientCommand w client command) client command why := by
  let queue := (p.client client).replies
  let filled : ReplyQueue Reply :=
    { next := queue.next + 1, slots := queue.slots ++ [(queue.next, some (Reply.failure why))] }
  have drain : filled.drain =
      if queue.slots = [] then ([(queue.next, Reply.failure why)], { next := queue.next + 1 })
      else ([], filled) := (tidy.drained client).drain_concat _ _ _
  obtain ⟨vclocks, nextOperation, now, change, spent⟩ := clientCommand_of_error w client refused
  replace now : p.clientCommand w client command = { p with
      policy := p.policy.refresh
      vclocks
      nextOperation
      clients := p.clients.insert client { p.client client with replies := filled.drain.2 }
      outbox := p.outbox ++ filled.drain.1.map fun s => .reply client s.1 s.2 } :=
    now.trans (reply_reserve { p with policy := p.policy.refresh, vclocks, nextOperation } client _
      (tidy.contiguous client))
  have link : (p.clientCommand w client command).client client =
      { p.client client with replies := filled.drain.2 } := by
    rw [now]
    simp [Proxy.client]
  have outbox := congrArg Proxy.outbox now
  have remembered := congrArg Proxy.vclocks now
  refine ⟨⟨_, _, _, _, now⟩, ?_, ?_, ?_, ?_, ?_, ?_⟩
  · rw [congrArg Proxy.nextOperation now]
    exact spent
  · rcases change with rfl | ⟨key, rfl⟩
    · rw [remembered]
    · rw [remembered, Recency.capacity_touch]
  · rcases change with rfl | ⟨key, rfl⟩
    · rw [remembered]
    · rw [remembered]
      exact Recency.perm_touch distinct
  · rw [link]
    rfl
  · intro none
    replace drain : filled.drain = _ := drain.trans (if_pos none)
    rw [slots, link, outbox, drain]
    exact ⟨rfl, rfl⟩
  · intro some
    replace drain : filled.drain = _ := drain.trans (if_neg some)
    rw [slots, link, outbox, drain]
    exact ⟨List.append_nil _, rfl⟩

end Rejected

structure Rejection (w : World) (p : Proxy) (events : List Event) : Prop
    extends Unrolled w p events where
  refused : ∀ ms, ms <+: course w p events → ∀ client command,
    (∃ why, Refuses w (play w p ms) client command why) ↔ ∃ why, command.Fault why
  fault : ∀ ms, ms <+: course w p events → ∀ client command why,
    Refuses w (play w p ms) client command why → command.Fault why
  rejected : ∀ ms, ms <+: course w p events → ∀ client command why,
    Refuses w (play w p ms) client command why →
    Rejected (play w p ms) ((play w p ms).clientCommand w client command) client command why

theorem rejection_run (w : World) (settings : Settings) (policy : BucketPolicy)
    (events : List Event) : Rejection w (start settings policy) events where
  toUnrolled := unrolled_of_tidy w (Tidy.start settings policy) events
  refused _ _ _ _ := (exists_congr fun _ => refuses_iff).trans exists_fault_iff
  fault _ _ _ _ _ refused := fault_of_plan (refuses_iff.mp refused)
  rejected ms _ _ _ _ refused := by
    have none : (start settings policy).vclocks.Distinct := List.nodup_nil
    have tidy := (Tidy.start settings policy).play w ms
    exact rejected_of_error tidy (distinct_play none w ms) (refuses_iff.mp refused)

example (w : World) : ((start {} {}).clientCommand w 7
    (.del [ascii "b:x", ascii "y", ascii " "])).outbox.map Action.bytes =
      [ascii "-ERR malformed request: empty key\r\n"] := by
  rfl

end Proxy

end ReadThrough
