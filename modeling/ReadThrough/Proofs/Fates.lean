import ReadThrough.Proofs.Copies
import ReadThrough.Proofs.Reckoning
import ReadThrough.Proofs.Shares

namespace ReadThrough.Proxy

inductive Ends (p q : Proxy) (emitted : List Action) (operation : Operation) (value : Reply)
    (part : Nat → Fragment.Part) : Prop where
  | answered {slot : Nat} : operation.target = .client slot →
      (slot, none) ∈ p.slots operation.client →
      (slot, some value) ∈ repliesTo operation.client emitted ++ q.slots operation.client →
      Ends p q emitted operation value part
  | counted {group index : Nat} : operation.target = .fragment group index →
      p.groups.accepts group (part index) = true →
      q.groups = (p.groups.contribute group (part index)).2 →
      Ends p q emitted operation value part

def Operation.outcome (operation : Operation) (value : Reply) (part : Nat → Fragment.Part) : Task :=
  match operation.target with
  | .client slot => .reply operation.client slot value
  | .fragment group index => .part group (part index)

theorem conclude_eq_outcome (operation : Operation) (value : Reply) :
    operation.conclude value = operation.outcome value fun _ => .failed := by
  unfold Operation.conclude Operation.outcome
  cases operation.target <;> rfl

def Task.IsSequel : Task → Prop
  | .reply .. => True
  | .launch operation _ | .send _ operation _ => ∃ slot, operation.target = .client slot
  | _ => False

section Sequels

variable {w : World} {operation : Operation} {value : Reply}

theorem isSequel_completion (settings : Settings) (group : Fragment.Group GroupContext) :
    (completion settings group).IsSequel := by
  unfold completion
  split
  · trivial
  · split
    · trivial
    · dsimp only
      split
      · trivial
      · split
        · trivial
        · exact ⟨_, rfl⟩

theorem completion_of_failed {g grown : Fragment.Group GroupContext}
    (accepted : g.accept? .failed = some grown) (settings : Settings) :
    ∃ client slot value, completion settings grown = .reply client slot value := by
  simp only [Fragment.Group.accept?, Option.some.injEq] at accepted
  subst accepted
  unfold completion
  split
  · exact ⟨_, _, _, rfl⟩
  · rw [if_pos (Nat.succ_pos _)]
    exact ⟨_, _, _, rfl⟩

theorem isSequel_of_does {p q : Proxy} {task : Task} {more : List Task} (done : Does w p task q more)
    (sequel : task.IsSequel) : ∀ task ∈ more, task.IsSequel := by
  have concludes : ∀ {operation : Operation} {why : Failure},
      (∃ slot, operation.target = .client slot) → (operation.failing why).IsSequel := by
    rintro operation why ⟨slot, target⟩
    simp only [Operation.failing, Operation.conclude, target]
    trivial
  cases done with
  | reply | send => exact List.forall_mem_nil _
  | oversize | unreached => exact List.forall_mem_singleton.mpr (concludes sequel)
  | launch => exact List.forall_mem_singleton.mpr sequel
  | _ => exact sequel.elim

theorem outbox_of_sequels {a b : Proxy × List Task} (done : Steps w a b)
    (sequels : ∀ task ∈ a.2, task.IsSequel) :
    ∃ actions, b.1.outbox = a.1.outbox ++ actions ∧
      (∀ action ∈ actions, (∃ client slot value, action = .reply client slot value) ∨
        ∃ server id request, action = .store server id request) ∧
      b.1.groups = a.1.groups := by
  induction done using Relation.ReflTransGen.head_induction_on with
  | refl => exact ⟨[], by rw [List.append_nil], List.forall_mem_nil _, rfl⟩
  | head first _ ih =>
      cases first with
      | still same =>
          obtain ⟨actions, outbox, only, groups⟩ := ih sequels
          exact ⟨actions, by rw [outbox, same.outbox], only, groups.trans same.groups⟩
      | @task p q task more rest does =>
          obtain ⟨sequel, others⟩ := List.forall_mem_cons.mp sequels
          obtain ⟨actions, outbox, only, groups⟩ :=
            ih (List.forall_mem_append.mpr ⟨isSequel_of_does does sequel, others⟩)
          cases does with
          | @reply client slot value =>
              obtain ⟨sent, left, replies⟩ := outbox_reply p client slot value
              refine ⟨sent ++ actions, by rw [outbox, left, List.append_assoc], ?_, ?_⟩
              · exact List.forall_mem_append.mpr ⟨fun action hm => .inl (replies action hm), only⟩
              · rw [groups, groups_reply]
          | send =>
              refine ⟨_ :: actions, by rw [outbox]; exact List.append_assoc _ [_] _, ?_, groups⟩
              exact List.forall_mem_cons.mpr ⟨.inr ⟨_, _, _, rfl⟩, only⟩
          | oversize | unreached | launch => exact ⟨actions, outbox, only, groups⟩
          | _ => exact sequel.elim

theorem operations_of_sequels {id : Nat} {a b : Proxy × List Task} (done : Steps w a b)
    (sequels : ∀ task ∈ a.2, task.IsSequel) (spare : id ∉ numbers a.2)
    (lt : id < a.1.nextOperation) : b.1.operations.get? id = a.1.operations.get? id := by
  induction done using Relation.ReflTransGen.head_induction_on with
  | refl => rfl
  | head first _ ih =>
      cases first with
      | still same =>
          exact (ih sequels spare (same.nextOperation ▸ lt)).trans (by rw [same.operations])
      | @task p q task more rest does =>
          obtain ⟨sequel, others⟩ := List.forall_mem_cons.mp sequels
          have later := ih (List.forall_mem_append.mpr ⟨isSequel_of_does does sequel, others⟩)
          have fresh : id < p.nextOperation := lt
          have lt := Nat.lt_of_lt_of_le lt (Frame.does does).nextOperation
          simp only [numbers_cons, List.mem_append, not_or] at spare
          cases does with
          | reply => exact (later spare.2 lt).trans (by rw [operations_reply])
          | @send _ k operation request server =>
              refine (later spare.2 lt).trans (Table.get?_insert_of_ne _ _ ?_)
              rintro rfl
              exact spare.1 (List.mem_singleton_self _)
          | oversize | unreached =>
              refine later ?_ lt
              simpa [numbers_cons] using spare.2
          | launch =>
              refine later ?_ lt
              rw [List.singleton_append, numbers_cons, number?_send]
              rintro (_ | ⟨_, held⟩)
              · exact Nat.lt_irrefl _ fresh
              · exact spare.2 held
          | _ => exact sequel.elim

end Sequels

section Outcome

variable {w : World} {a b : Proxy} {operation : Operation} {value : Reply}
  {part : Nat → Fragment.Part}

theorem steps_of_outcome (done : Steps w (a, [operation.outcome value part]) (b, []))
    (accepts : ∀ group index, operation.target = .fragment group index →
      a.groups.accepts group (part index) = true) :
    ∃ r tasks, Steps w (r, tasks) (b, []) ∧ r.outbox = a.outbox ∧ r.operations = a.operations ∧
      r.nextOperation = a.nextOperation ∧
      (∀ task ∈ tasks, (∃ client slot value, task = .reply client slot value) ∨
        ∃ index, ∃ g grown : Fragment.Group GroupContext,
          g.accept? (part index) = some grown ∧ task = completion r.settings grown) ∧
      ∀ group index, operation.target = .fragment group index →
        r.groups = (a.groups.contribute group (part index)).2 := by
  cases target : operation.target with
  | client slot =>
      simp only [Operation.outcome, target] at done
      exact ⟨a, _, done, rfl, rfl, rfl, List.forall_mem_singleton.mpr (Or.inl ⟨_, _, _, rfl⟩),
        fun _ _ same => by cases same⟩
  | fragment group index =>
      simp only [Operation.outcome, target] at done
      obtain ⟨r, r', more, still, does, later⟩ := steps_cons done
      rw [List.append_nil] at later
      have taken := accepts group index target
      cases does with
      | refuse refuses =>
          rw [still.groups, taken] at refuses
          cases refuses
      | bring accepts' =>
          refine ⟨_, _, later, still.outbox, still.operations, still.nextOperation, ?_, ?_⟩
          · obtain ⟨g, grown, -, accepted, result⟩ :=
              Fragment.Groups.contribute_of_accepts accepts'
            rcases result with ⟨-, same⟩ | ⟨-, same⟩
            · rw [same]
              exact List.forall_mem_nil _
            · rw [same]
              exact List.forall_mem_singleton.mpr (Or.inr ⟨index, g, grown, accepted, rfl⟩)
          · rintro _ _ ⟨⟩
            rw [still.groups]

theorem only_replies_of_failed
    (accepts : ∀ group index, operation.target = .fragment group index →
      a.groups.accepts group .failed = true)
    (done : Steps w (a, [operation.outcome value fun _ => .failed]) (b, [])) :
    b.operations = a.operations ∧ ∃ actions, b.outbox = a.outbox ++ actions ∧
      ∀ action ∈ actions, ∃ client slot value, action = .reply client slot value := by
  obtain ⟨r, tasks, later, before, same, -, leaves, -⟩ := steps_of_outcome done accepts
  obtain ⟨actions, outbox, only, operations, -⟩ := outbox_of_replies later (by
    intro task hm
    rcases leaves task hm with reply | ⟨-, g, grown, accepted, rfl⟩
    · exact reply
    · exact completion_of_failed accepted _)
  exact ⟨operations.trans same, actions, by rw [outbox, before], only⟩

variable (contiguous : (a.client operation.client).replies.Contiguous)
  (waits : ∀ slot, operation.target = .client slot → (slot, none) ∈ a.slots operation.client)
  (accepts : ∀ group index, operation.target = .fragment group index →
    a.groups.accepts group (part index) = true)

include contiguous waits accepts

theorem ends_of_outcome (done : Steps w (a, [operation.outcome value part]) (b, [])) :
    ∃ actions, b.outbox = a.outbox ++ actions ∧
      (∀ action ∈ actions, (∃ client slot value, action = .reply client slot value) ∨
        ∃ server id request, action = .store server id request) ∧
      (∀ id < a.nextOperation, b.operations.get? id = a.operations.get? id) ∧
      Ends a b actions operation value part := by
  obtain ⟨r, tasks, later, before, same, next, leaves, takes⟩ := steps_of_outcome done accepts
  have kinds : ∀ task ∈ tasks, task.IsSequel ∧ task.number? = none := by
    intro task hm
    rcases leaves task hm with ⟨client, slot, value, rfl⟩ | ⟨-, g, grown, -, rfl⟩
    · exact ⟨trivial, rfl⟩
    · exact ⟨isSequel_completion _ _, number?_completion _ _⟩
  have sequels : ∀ task ∈ tasks, task.IsSequel := fun task hm => (kinds task hm).1
  have silent : numbers tasks = [] :=
    List.filterMap_eq_nil_iff.mpr fun task hm => (kinds task hm).2
  obtain ⟨actions, outbox, only, groups⟩ := outbox_of_sequels later sequels
  rw [before] at outbox
  refine ⟨actions, outbox, only, ?_, ?_⟩
  · intro id lt
    rw [← same]
    exact operations_of_sequels later sequels (silent ▸ List.not_mem_nil) (next ▸ lt)
  cases target : operation.target with
  | client slot =>
      simp only [Operation.outcome, target] at done
      obtain ⟨actions', outbox', given⟩ := gave_of_steps done rfl (List.forall_mem_nil _) rfl
        contiguous (waits slot target)
      obtain rfl := List.append_cancel_left (outbox.symm.trans outbox')
      exact .answered target (waits slot target) given
  | fragment group index =>
      exact .counted target (accepts group index target) (groups.trans (takes group index target))

end Outcome

structure Quits (w : World) (p : Proxy) (move : Move) (id : Nat) (operation : Operation)
    (value : Reply) : Prop where
  operations : (move.apply w p).operations = p.operations.erase id
  only : ∀ action ∈ move.emits w p, ∃ client slot value, action = .reply client slot value
  ends : Ends p (move.apply w p) (move.emits w p) operation value fun _ => .failed

structure Sends (w : World) (p : Proxy) (move : Move) (id : Nat) (operation : Operation)
    (server : Nat) (request : Store.Request) : Prop where
  operations : (move.apply w p).operations = (p.operations.erase id).insert id operation
  emits : move.emits w p = [.store server id request]

inductive Outlives (w : World) (p : Proxy) (move : Move) (id : Nat) (operation : Operation)
    (server : Nat) (reason : String) : Option Nat → Prop where
  | resent {next look : Nat} {request : Store.Request} {resend : Pool.Resend} :
      operation.isResendable = true → operation.request = some request →
      Between p (move.apply w p) look →
      operation.resend.next ((w.pool look).live .store) (operation.primary.getD server)
        p.settings.effectiveMaxResend = (some next, resend) →
      Sends w p move id { operation with resend } next request →
      Outlives w p move id operation server reason (some next)
  | failed : (operation.isResendable = true → ∃ look, Between p (move.apply w p) look ∧
        (operation.resend.next ((w.pool look).live .store) (operation.primary.getD server)
          p.settings.effectiveMaxResend).1 = none) →
      Quits w p move id operation (Reply.failure (.serverLost server reason)) →
      Outlives w p move id operation server reason none

inductive Onward (w : World) (p : Proxy) (move : Move) (id : Nat) (operation : Operation)
    (primary : Nat) (value : Reply) : Prop where
  | sent {next look : Nat} {request : Store.Request} {resend : Pool.Resend} :
      operation.isResendable = true → operation.request = some request →
      Between p (move.apply w p) look →
      operation.resend.next ((w.pool look).live .store) primary
        p.settings.effectiveMaxResend = (some next, resend) →
      Sends w p move id { operation with resend } next request →
      Onward w p move id operation primary value
  | exhausted {look : Nat} : Between p (move.apply w p) look →
      (operation.resend.next ((w.pool look).live .store) primary
        p.settings.effectiveMaxResend).1 = none →
      Quits w p move id operation value → Onward w p move id operation primary value

def Read.nothing : Read → Reply
  | .value _ => Reply.nil
  | .set _ (.query query) => query.answer []
  | .set _ .slot => Reply.members []

theorem request_of_bucket (settings : Settings) {read : Read}
    (bucket : read.address.hasBucket = true) : ∃ request, read.request settings = .ok request := by
  have required : read.address.key.requireBucket = .ok read.address.key := if_pos bucket
  cases read with
  | value address =>
      have composes : address.key.requireBucket = .ok address.key := required
      exact ⟨_, by simp only [Read.request, Store.Request.get, Store.Request.compose, composes]; rfl⟩
  | set address sought =>
      have composes : address.key.requireBucket = .ok address.key := required
      exact ⟨_, by
        simp only [Read.request, Store.Request.setFetch, Store.Request.compose, composes]; rfl⟩

inductive Undispatched (w : World) (p q : Proxy) (request : Store.Request) (route : Bytes) :
    Failure → Prop where
  | oversize {why : Failure} : request.checkSize p.settings.maxFrameSize = .error why →
      Undispatched w p q request route why
  | unreached {look : Nat} : request.checkSize p.settings.maxFrameSize = .ok () →
      Between p q look → (w.pool look).pick .store route = none →
      Undispatched w p q request route .noStoreServer

inductive Misses (w : World) (p : Proxy) (move : Move) (id : Nat) (operation : Operation)
    (read : Read) : Option Nat → Prop where
  | empty : read.address.hasBucket = false → (move.apply w p).operations.get? id = none →
      (∀ action ∈ move.emits w p, (∃ client slot value, action = .reply client slot value) ∨
        ∃ server id request, action = .store server id request) →
      Ends p (move.apply w p) (move.emits w p) operation read.nothing (.set · []) →
      Misses w p move id operation read none
  | sent {server look : Nat} {request : Store.Request} : read.address.hasBucket = true →
      read.request p.settings = .ok request → Between p (move.apply w p) look →
      (w.pool look).pick .store read.address.raw = some server →
      Sends w p move id
        { operation with stage := .storeRead read, request := some request, primary := some server }
        server request →
      Misses w p move id operation read (some server)
  | failed {request : Store.Request} {why : Failure} : read.address.hasBucket = true →
      read.request p.settings = .ok request →
      Undispatched w p (move.apply w p) request read.address.raw why →
      Quits w p move id operation (Reply.failure why) → Misses w p move id operation read none

theorem slot_of_fragment {p : Proxy} {id group index : Nat} {operation : Operation} {read : Read}
    (balanced : Balanced p []) (ho : p.operations.get? id = some operation)
    (stage : operation.stage = .cacheRead read)
    (target : operation.target = .fragment group index) : ∃ address, read = .set address .slot := by
  obtain ⟨g, -, -, awaits⟩ := balanced.awaited_of_target ho target
  have yields : ¬ g.Awaits index .answer := by
    unfold Fragment.Group.Awaits
    cases g.gathered <;> simp
  rw [stage] at awaits
  cases read with
  | value address => exact absurd awaits yields
  | set address sought =>
      cases sought with
      | slot => exact ⟨address, rfl⟩
      | query query => exact absurd awaits yields

theorem onMiss_of_bucketless {operation : Operation} {read : Read}
    (stage : operation.stage = .cacheRead read) (bucket : read.address.hasBucket = false)
    (members : ∀ group index, operation.target = .fragment group index →
      ∃ address, read = .set address .slot) (settings : Settings) (id : Nat) :
    operation.onMiss settings id = [operation.outcome read.nothing (.set · [])] := by
  simp only [Operation.onMiss, stage, bucket, Bool.not_false, if_true]
  cases target : operation.target with
  | client slot =>
      cases read with
      | value address => simp only [Operation.conclude, Operation.outcome, target, Read.nothing]
      | set address sought =>
          cases sought <;>
            simp only [Operation.deliver, Operation.conclude, Operation.outcome, target,
              Read.nothing]
  | fragment group index =>
      obtain ⟨address, rfl⟩ := members group index target
      simp only [Operation.deliver, Operation.outcome, target]

section Told

variable {w : World} {p r : Proxy} {move : Move} {id server : Nat} {operation : Operation}
  {news : News} {value : Reply} {part : Nat → Fragment.Part}

theorem settings_of_alike (same : Alike (move.ready p) r) : r.settings = p.settings :=
  same.settings.trans (frame_ready p move).settings

theorem between_of_look (since : (move.ready p).looks ≤ r.looks) {q : Proxy} {tasks : List Task}
    (looks : q.looks = r.looks + 1) (later : Steps w (q, tasks) (move.apply w p, [])) :
    Between p (move.apply w p) r.looks := by
  refine ⟨looks_ready p move ▸ since, ?_⟩
  have le := (Frame.steps later).looks
  rw [looks] at le
  exact le

variable (told : move.news? p = some (id, news))

include told

theorem clients_ready : (move.ready p).clients = p.clients := by
  rw [(akin_ready p move).clients]
  obtain ⟨operations, opened⟩ := Move.opening_fst p move
  rw [opened]
  cases move with
  | request | hold | hangUp => cases told
  | cacheAnswer | storeAnswer =>
      simp only [Move.prepare]
      split <;> rfl
  | _ => rfl

theorem emits_of_told {actions : List Action} (same : Alike (move.ready p) r)
    (outbox : (move.apply w p).outbox = r.outbox ++ actions) : move.emits w p = actions := by
  rw [same.outbox, (akin_ready p move).outbox] at outbox
  rw [emits_of_outbox move w outbox, notice_of_told told, List.nil_append]

variable (ho : p.operations.get? id = some operation)

include ho

theorem sends_of_dispatch {sent : Operation} {request : Store.Request}
    (same : Alike (move.ready p) r)
    (later : Steps w ((r.look w).2.dispatch id sent request server, []) (move.apply w p, [])) :
    Sends w p move id sent server request := by
  have last := steps_nil later rfl
  refine ⟨?_, emits_of_told told same last.outbox⟩
  rw [last.operations]
  change r.operations.insert id sent = _
  rw [same.operations, operations_ready told ho]

variable (tidy : Tidy p []) (balanced : Balanced p [])

include tidy balanced

theorem ends_of_told (same : Alike (move.ready p) r)
    (brings : ∀ group index, operation.target = .fragment group index →
      operation.stage.yield.Brings index (part index))
    (done : Steps w (r, [operation.outcome value part]) (move.apply w p, [])) :
    (∀ action ∈ move.emits w p, (∃ client slot value, action = .reply client slot value) ∨
        ∃ server id request, action = .store server id request) ∧
      (move.apply w p).operations.get? id = none ∧
      Ends p (move.apply w p) (move.emits w p) operation value part := by
  have groups : r.groups = p.groups := same.groups.trans (groups_ready told)
  have slots : ∀ client, r.client client = p.client client := by
    intro client
    simp only [Proxy.client, same.clients, clients_ready told]
  have accepts : ∀ group index, operation.target = .fragment group index →
      r.groups.accepts group (part index) = true := by
    intro group index target
    obtain ⟨g, hg, -, awaits⟩ := balanced.awaited_of_target ho target
    simp only [Fragment.Groups.accepts, groups, hg, Option.bind_some]
    exact Fragment.Group.accept?_isSome awaits (brings group index target)
  obtain ⟨actions, outbox, only, operations, ends⟩ := ends_of_outcome
    (by rw [slots]; exact tidy.contiguous _)
    (by
      intro slot target
      rw [Proxy.slots, slots]
      exact waits_of_target balanced ho target)
    accepts done
  obtain rfl := emits_of_told told same outbox
  refine ⟨only, ?_, ?_⟩
  · rw [operations id ?_, same.operations, operations_ready told ho, Table.get?_erase_self]
    rw [same.nextOperation]
    exact (tidy.operation_lt ho).trans_le (nextOperation_le_ready p move)
  cases ends with
  | answered target waits given =>
      rw [Proxy.slots, slots] at waits
      exact .answered target waits given
  | counted target accepts taken => exact .counted target (groups ▸ accepts) (groups ▸ taken)

theorem quits_of_conclude (same : Alike (move.ready p) r)
    (done : Steps w (r, [operation.conclude value]) (move.apply w p, [])) :
    Quits w p move id operation value := by
  rw [conclude_eq_outcome] at done
  have brings : ∀ group index, operation.target = .fragment group index →
      operation.stage.yield.Brings index .failed := fun _ _ _ => trivial
  obtain ⟨-, -, ends⟩ := ends_of_told told ho tidy balanced same brings done
  obtain ⟨operations, actions, outbox, only⟩ := only_replies_of_failed (a := r)
    (by
      intro group index target
      obtain ⟨g, hg, -⟩ := balanced.awaited_of_target ho target
      have groups := same.groups.trans (groups_ready told)
      simp [Fragment.Groups.accepts, groups, hg, Fragment.Group.accept?])
    done
  obtain rfl := emits_of_told told same outbox
  exact ⟨by rw [operations, same.operations, operations_ready told ho], only, ends⟩

theorem quits_of_failed {why : Failure} (fails : news = .failed why) :
    Quits w p move id operation (Reply.failure why) := by
  subst fails
  obtain ⟨r, still, -, done⟩ := decided_of_told told w ho
  exact quits_of_conclude told ho tidy balanced still.toAlike done

theorem onward_of_elsewhere {primary : Nat} (same : Alike (move.ready p) r)
    (since : (move.ready p).looks ≤ r.looks)
    (done : Steps w (r, [.elsewhere id operation primary value]) (move.apply w p, [])) :
    Onward w p move id operation primary value := by
  obtain ⟨s, s', more, still, does, later⟩ := steps_cons done
  rw [List.append_nil] at later
  have same := same.trans still.toAlike
  have since := since.trans still.looks
  have settings := settings_of_alike same
  cases does with
  | again resendable request next =>
      exact .sent resendable request (between_of_look since rfl later) (settings ▸ next)
        (sends_of_dispatch told ho same later)
  | exhausted next =>
      exact .exhausted (between_of_look since rfl later) (settings ▸ congrArg Prod.fst next)
        (quits_of_conclude told ho tidy balanced (same.trans (Alike.look w s)) later)

theorem outlives_of_lost {reason : String} (lost : news = .lost server reason) :
    ∃ next, Outlives w p move id operation server reason next := by
  subst lost
  obtain ⟨r, still, -, done⟩ := decided_of_told told w ho
  simp only [Operation.decide, Operation.retry] at done
  split at done
  · cases onward_of_elsewhere told ho tidy balanced still.toAlike still.looks done with
    | sent resendable request between next sends =>
        exact ⟨_, .resent resendable request between next sends⟩
    | exhausted between next quits =>
        exact ⟨none, .failed (fun _ => ⟨_, between, next⟩) quits⟩
  · next other =>
      refine ⟨none, .failed (fun resendable => absurd resendable other) ?_⟩
      exact quits_of_conclude told ho tidy balanced still.toAlike done

theorem misses_of_missed {read : Read} (missed : news = .missed)
    (stage : operation.stage = .cacheRead read) :
    ∃ next, Misses w p move id operation read next := by
  subst missed
  obtain ⟨r, still, -, done⟩ := decided_of_told told w ho
  have settings := settings_of_alike still.toAlike
  rw [Operation.decide] at done
  cases bucket : read.address.hasBucket with
  | false =>
      have members : ∀ group index, operation.target = .fragment group index →
          ∃ address, read = .set address .slot :=
        fun group index target => slot_of_fragment balanced ho stage target
      rw [onMiss_of_bucketless stage bucket members] at done
      have brings : ∀ group index, operation.target = .fragment group index →
          operation.stage.yield.Brings index (.set index []) := by
        intro group index target
        obtain ⟨address, rfl⟩ := members group index target
        rw [stage]
        exact ⟨rfl, rfl⟩
      obtain ⟨only, gone, ends⟩ := ends_of_told told ho tidy balanced still.toAlike brings done
      exact ⟨none, .empty bucket gone only ends⟩
  | true =>
      obtain ⟨request, composes⟩ := request_of_bucket p.settings bucket
      simp only [Operation.onMiss, stage, bucket, Bool.not_true, Bool.false_eq_true, if_false,
        settings, composes] at done
      obtain ⟨s, s', more, same, does, later⟩ := steps_cons done
      rw [List.append_nil] at later
      have still := still.trans same
      rw [← same.settings] at settings
      cases does with
      | send fits picked =>
          have between := between_of_look still.looks rfl later
          exact ⟨_, .sent bucket composes between picked
            (sends_of_dispatch told ho still.toAlike later)⟩
      | oversize large =>
          exact ⟨none, .failed bucket composes (.oversize (settings ▸ large))
            (quits_of_conclude told ho tidy balanced still.toAlike later)⟩
      | unreached fits none =>
          have between := between_of_look still.looks rfl later
          have quits := quits_of_conclude told ho tidy balanced
            (still.trans (Still.look s w)).toAlike later
          exact ⟨_, .failed bucket composes (.unreached (settings ▸ fits) between none) quits⟩

end Told

section Asked

variable {w : World} {p : Proxy} {move : Move} {id s server : Nat} {operation : Operation}
  {value : Reply} {reason : String} {next : Option Nat} {read : Read}

theorem held_of_asked (tidy : Tidy p []) {request : Store.Request}
    (asked : Action.store server id request ∈ move.emits w p) :
    ∃ operation, (move.apply w p).operations.get? id = some operation := by
  obtain ⟨actions, outbox, asks⟩ := asks_of_deeds (deeds_of_apply w tidy.sound move)
  rw [emits_of_outbox move w outbox] at asked
  rcases List.mem_append.mp asked with notice | asked
  · cases move <;> simp [Move.notice] at notice
  · exact asks asked

theorem Quits.unasked (h : Quits w p move id operation value) {k : Nat}
    {request : Store.Request} : Action.store s k request ∉ move.emits w p := by
  intro hm
  obtain ⟨client, slot, value, same⟩ := h.only _ hm
  cases same

theorem Sends.asked_iff {request : Store.Request}
    (h : Sends w p move id operation server request) :
    (∃ request, Action.store s id request ∈ move.emits w p) ↔ some server = some s := by
  simp [h.emits, eq_comm]

theorem Outlives.asks (h : Outlives w p move id operation server reason next) {k : Nat}
    {request : Store.Request} (hm : Action.store s k request ∈ move.emits w p) :
    next = some s := by
  cases h with
  | resent resendable request between plan sends =>
      rw [sends.emits] at hm
      cases List.mem_singleton.mp hm
      rfl
  | failed spent quits => exact absurd hm quits.unasked

theorem Outlives.asked_iff (h : Outlives w p move id operation server reason next) :
    (∃ request, Action.store s id request ∈ move.emits w p) ↔ next = some s := by
  refine ⟨fun asked => asked.elim fun _ hm => h.asks hm, ?_⟩
  rintro rfl
  cases h with
  | resent resendable request between plan sends => exact sends.asked_iff.mpr rfl

theorem Misses.asked_iff (tidy : Tidy p []) (h : Misses w p move id operation read next) :
    (∃ request, Action.store s id request ∈ move.emits w p) ↔ next = some s := by
  cases h with
  | sent bucket composes between picked sends => exact sends.asked_iff
  | failed bucket composes unsendable quits =>
      exact iff_of_false (fun asked => asked.elim fun _ hm => quits.unasked hm) (by simp)
  | empty bucket gone only ends =>
      refine iff_of_false ?_ (by simp)
      rintro ⟨request, hm⟩
      obtain ⟨held, ho⟩ := held_of_asked tidy hm
      rw [gone] at ho
      cases ho

theorem Misses.uncached (h : Misses w p move id operation read next) {entry : CacheEntry}
    {command : Cache.Command} : Action.cache s entry command ∉ move.emits w p := by
  intro hm
  cases h with
  | sent bucket composes between picked sends =>
      rw [sends.emits] at hm
      cases List.mem_singleton.mp hm
  | failed bucket composes unsendable quits =>
      obtain ⟨client, slot, value, same⟩ := quits.only _ hm
      cases same
  | empty bucket gone only ends =>
      rcases only _ hm with ⟨client, slot, value, same⟩ | ⟨server, id, request, same⟩ <;> cases same

end Asked

end ReadThrough.Proxy
