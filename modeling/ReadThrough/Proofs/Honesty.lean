import ReadThrough.Proofs.Acknowledgement
import ReadThrough.Proofs.Awaited
import ReadThrough.Proofs.Ownership
import ReadThrough.Proofs.Plans
import ReadThrough.Proofs.Precedence

namespace ReadThrough

def Command.Writes : Command → Prop
  | .set .. | .sadd .. | .srem .. | .incr .. => True
  | .algebra _ dest _ => dest ≠ none
  | _ => False

namespace Proxy

/-- The answers to a request of that kind which acknowledge the command, with the reply that they
are worth. Where the result of a set operation is to be stored, the stage of its operation tells
what the result is; it may be there already. -/
inductive Acknowledges : Command → Option Stage → Store.RequestKind → Store.Response → Reply → Prop
    where
  | set {key value : Bytes} {stage : Option Stage} {vclock : Option Bytes} :
      Acknowledges (.set key value) stage .put (.putAck vclock) Reply.ok
  | sadd {key : Bytes} {members : List Bytes} {stage : Option Stage} :
      Acknowledges (.sadd key members) stage .setUpdate .updateAck (Reply.count members.length)
  | srem {key : Bytes} {members : List Bytes} {stage : Option Stage} :
      Acknowledges (.srem key members) stage .setUpdate .updateAck (Reply.count members.length)
  | incr {key : Bytes} {amount n : Int64} {stage : Option Stage} :
      Acknowledges (.incr key amount) stage .counterUpdate (.counter n) (Reply.integer n)
  | store {op : SetOperator} {raw : Bytes} {keys members : List Bytes} {dest : Address} :
      planDest (some raw) = .ok (some dest) →
      Acknowledges (.algebra op (some raw) keys) (some (.storeWrite (.store dest members)))
        .setUpdate .updateAck (Reply.count members.length)
  | same {op : SetOperator} {raw : Bytes} {keys members current : List Bytes} {dest : Address}
      {context : Option Bytes} : planDest (some raw) = .ok (some dest) →
      (∀ m, m ∈ current ↔ m ∈ members) →
      Acknowledges (.algebra op (some raw) keys) (some (.storeFetch dest members)) .setFetch
        (.set current context) (Reply.count members.length)

section Stages

variable {w : World} {past : History} {settings : Settings} {start id : Nat} {q : Proxy}
  {command : Command} {plan : Plan} {place : Option Nat} {stage : Stage}
  {request : Option Store.Request} {sent : List Sending} {kind : Store.RequestKind}
  {response : Store.Response} {value : Reply}

theorem writes_of_plans (plans : Plans q command plan) (writes : command.Writes) :
    plan.Writes := by
  cases plans with
  | get | smembers | sismember | scard | del => exact writes.elim
  | put | sadd | srem | incr => exact fun _ => nofun
  | readThenPut => trivial
  | algebra _ planned =>
      rintro rfl
      cases raw : ‹Option Bytes› with
      | none => exact writes raw
      | some dest =>
          rw [raw] at planned
          obtain ⟨address, -, planned⟩ := bind_eq_ok planned
          obtain ⟨bucket, -, planned⟩ := bind_eq_ok planned
          cases planned

theorem acknowledgement?_storeFetch_iff {op : SetOperator} {raw : Bytes} {keys members : List Bytes}
    {dest : Address} (planned : planDest (some raw) = .ok (some dest)) :
    (Stage.storeFetch dest members).acknowledgement? response = some value ↔
      Acknowledges (.algebra op (some raw) keys) (some (.storeFetch dest members)) .setFetch
        response value := by
  constructor
  · intro h
    cases response with
    | set current context =>
        obtain ⟨⟨all, others⟩, rfl⟩ : (_ ∧ _) ∧ Reply.count _ = value := by
          simpa [Stage.acknowledgement?] using h
        rw [Members.without_eq_nil_iff] at all others
        exact .same planned fun m => ⟨others m, all m⟩
    | _ => cases h
  · intro h
    cases h with
    | same _ same =>
        refine if_pos ?_
        simp only [Members.without_eq_nil_iff]
        exact ⟨fun m => (same m).mpr, fun m => (same m).mp⟩

theorem acknowledgement?_eq_some_iff (plans : Plans q command plan) (writes : command.Writes)
    (trail : Trail w past settings start id plan place stage request sent)
    (awaits : stage.awaits = some kind) :
    stage.acknowledgement? response = some value ↔
      Acknowledges command (some stage) kind response value := by
  cases plans with
  | get | smembers | sismember | scard | del => exact writes.elim
  | put | sadd | srem | incr =>
      cases trail
      cases awaits
      constructor
      · intro h
        cases response <;> cases h
        constructor
      · rintro ⟨⟩
        rfl
  | readThenPut =>
      cases trail with
      | fetch =>
          cases awaits
          constructor
          · intro h
            cases response <;> cases h
          · rintro ⟨⟩
      | put =>
          cases awaits
          constructor
          · intro h
            cases response <;> cases h
            exact .set
          · rintro ⟨⟩
            rfl
  | @algebra op raw keys sources dest _ planned =>
      cases trail with
      | source => cases awaits
      | sourceRead =>
          cases awaits
          constructor
          · intro h
            cases response <;> cases h
          · rintro ⟨⟩
      | dest =>
          cases raw with
          | none => cases planned
          | some raw =>
              cases awaits
              exact acknowledgement?_storeFetch_iff planned
      | replace =>
          cases raw with
          | none => cases planned
          | some raw =>
              cases awaits
              constructor
              · intro h
                cases response <;> cases h
                exact .store planned
              · rintro ⟨⟩
                rfl

theorem place_eq_none (writes : plan.Writes)
    (trail : Trail w past settings start id plan place stage request sent)
    (h : stage.acknowledgement? response = some value) : place = none := by
  cases trail with
  | delete => exact writes.elim
  | source | sourceRead => cases response <;> cases h
  | lookUp | read | write | fetch | put | dest | replace => rfl

end Stages

section Move

variable {w : World} {past : History} {p : Proxy} {move : Move} {id start : Nat}
  {operation : Operation} {news : News} {root : Root}

theorem gives_of_request (trailed : Trailed w past p) (client : Nat) {command : Command}
    (writes : command.Writes) :
    Gives (·.isError = true) ((Move.request client (.ok command)).ready p)
      ((Move.request client (.ok command)).apply w p) := by
  cases planned : p.plan command with
  | error why =>
      refine gives_of_replies (steps_apply w p _) ?_
      simp only [Move.tasks, planned]
      exact List.forall_mem_singleton.mpr ⟨client, _, _, rfl, isError_failure why⟩
  | ok plan =>
      have tasks : (Move.request client (.ok command)).tasks p =
          plan.tasks client (p.client client).replies.next := by
        simp only [Move.tasks, planned]
      let numbers := Finset.Ico p.nextOperation (p.clientCommand w client command).nextOperation
      have of : Root.Of w ⟨client, (p.client client).replies.next, plan, numbers⟩ p command :=
        ⟨planned, rfl, rfl⟩
      have writes := writes_of_plans (plans_of_plan planned) writes
      have pledged : ∀ task ∈ (Move.request client (.ok command)).tasks p,
          task.Pledged fun _ => False := by
        rw [tasks]
        cases plan with
        | read | delete => exact writes.elim
        | write | readThenPut | combine => exact List.forall_mem_singleton.mpr trivial
      have newer : ∀ id, ((Move.request client (.ok command)).ready p).nextOperation ≤ id →
          p.nextOperation ≤ id := fun id since => (nextOperation_le_ready p _).trans since
      obtain ⟨actions, outbox, given⟩ := Underway.gives (steps_apply w p _) writes
        (trailed.underway_request rfl of tasks) newer (frame_ready p _) le_rfl (Frame.refl _)
        pledged
      refine ⟨actions, outbox, ?_⟩
      intro client slot value hm
      exact (given client slot value hm).imp_right fun allowed => allowed.resolve_right fun no => no

theorem gives_of_news (trailed : Trailed w past p) (told : move.news? p = some (id, news))
    (ho : p.operations.get? id = some operation) (tasks : move.tasks p = [.news id operation news])
    (le : start ≤ past.length)
    (stands : Stands w past start root p id operation (sendings w past id))
    (writes : root.plan.Writes) :
    Gives (fun value => value.isError = true ∨ ∃ server response,
        news = .response server response ∧
          operation.stage.acknowledgement? response = some value)
      (move.ready p) (move.apply w p) := by
  refine Underway.gives (steps_apply w p move) writes (trailed.underway_news told ho tasks stands)
    ?_ (frame_ready p move) le (Frame.refl _) ?_
  · intro id since
    exact Or.inr ((nextOperation_le_ready p move).trans since)
  · rw [tasks]
    refine List.forall_mem_singleton.mpr ?_
    cases news with
    | response server response => exact fun value h => ⟨server, response, rfl, h⟩
    | value | missed | failed | lost => trivial

theorem allowed_of_fills {allowed : Reply → Prop} {client slot : Nat} {value : Reply}
    (stays : ∀ client, move ≠ .hangUp client)
    (gives : Gives allowed (move.ready p) (move.apply w p))
    (empty : ∀ held, (slot, some held) ∉ p.slots client)
    (given : (slot, some value) ∈ (move.apply w p).slots client ∨
      Action.reply client slot value ∈ move.emits w p) : allowed value := by
  obtain ⟨actions, outbox, among⟩ := gives
  have same := akin_ready p move
  rw [same.outbox] at outbox
  have filled : (slot, some value) ∈ repliesTo client actions ++ (move.apply w p).slots client := by
    rcases given with held | sent
    · exact List.mem_append_right _ held
    · refine List.mem_append_left _ ?_
      rw [← Sessions.repliesTo_emits outbox]
      exact mem_repliesTo.mpr sent
  rcases among client slot value filled with old | allowed
  · have slots : (move.ready p).slots client = (move.opening p).1.slots client := by
      simp only [Proxy.slots, Proxy.client, same.clients]
    rw [slots, Sessions.mem_slots_opening stays] at old
    exact absurd old (empty value)
  · exact allowed

end Move

section Given

variable {w : World} {p : Proxy} {ms : List Move} {client slot start : Nat} {command : Command}
  {value : Reply}

def Heeded (w : World) (p : Proxy) (ms : List Move) (start time : Nat) (value : Reply) : Prop :=
  ∃ move id operation server response, ms[time]? = some move ∧
    move.news? (play w p (ms.take time)) = some (id, .response server response) ∧
    (play w p (ms.take time)).operations.get? id = some operation ∧
    Stems w (history w p ms) start id ∧ operation.stage.acknowledgement? response = some value

theorem heeded_of_given (sessions : Sessions w [] p) (trailed : Trailed w [] p)
    (asked : (session w client (history w p ms)).asked[slot]? = some start)
    (request : ms[start]? = some (.request client (.ok command))) (writes : command.Writes)
    (given : (slot, some value) ∈ tape w (history w p ms) (play w p ms) client) :
    value.isError = true ∨ ∃ time, Heeded w p ms start time value := by
  obtain ⟨start', time, asked', -, works, q, move, at', empty, given⟩ :=
    (sessions.play ms).produced given
  obtain rfl : start = start' := Option.some.inj (asked.symm.trans asked')
  obtain ⟨made, rfl⟩ := getElem?_history.mp at'
  have trailed' := trailed.play (ms.take time)
  rcases works with rfl | ⟨q, move', id, at'', subject, stems⟩
  · left
    cases Option.some.inj (made.symm.trans request)
    exact allowed_of_fills (by simp) (gives_of_request trailed' client writes) empty given
  · cases Option.some.inj (at'.symm.trans at'')
    have asks : ∀ client content, move ≠ .request client content := by
      rintro c content rfl
      cases subject
    have stays : ∀ client, move ≠ .hangUp client := by
      rintro c rfl
      cases subject
    rcases tasks_of_news (p := play w p (ms.take time)) asks with
      none | ⟨k, operation, news, told, ho, tasks⟩
    · have nothing : Gives (fun _ => False) (move.ready (play w p (ms.take time)))
          (move.apply w (play w p (ms.take time))) := by
        refine gives_of_replies (steps_apply w _ _) ?_
        rw [none]
        exact List.forall_mem_nil _
      exact (allowed_of_fills stays nothing empty given).elim
    · obtain rfl : k = id := Option.some.inj ((subject?_of_news? told).symm.trans subject)
      obtain ⟨start', command', root, planned, stems', stands⟩ := trailed'.table ho
      obtain ⟨rfl, rfl, of⟩ := root_of_request request stems planned stems'
      have writes' := writes_of_plans (plans_of_plan of.plan) writes
      have gives := gives_of_news trailed' told ho tasks stems'.start_lt.le stands writes'
      refine (allowed_of_fills stays gives empty given).imp_right ?_
      rintro ⟨server, response, rfl, acknowledged⟩
      exact ⟨time, move, k, operation, server, response, made, told, ho, stems, acknowledged⟩

theorem waits_of_target (balanced : Balanced p []) {id : Nat} {operation : Operation}
    (ho : p.operations.get? id = some operation) (target : operation.target = .client slot) :
    (slot, none) ∈ p.slots operation.client := by
  have owns : (Owner.operation id).Owns p operation.client slot := ⟨operation, ho, rfl, target⟩
  exact balanced.waits_of_owns owns

theorem slots_ready {move : Move} (asks : ∀ client content, move ≠ .request client content)
    (stays : ∀ client, move ≠ .hangUp client) (client : Nat) :
    ((move.ready p).client client).replies = (p.client client).replies := by
  have same : (move.ready p).client client = (move.opening p).1.client client := by
    simp only [Proxy.client, (akin_ready p move).clients]
  rw [same, replies_opening stays, if_neg]
  cases move with
  | request c content => exact absurd rfl (asks c content)
  | _ => simp [Move.asks]

theorem waits_ready (sessions : Sessions w [] p) (balanced : Balanced p []) {move : Move} {id : Nat}
    {news : News} {operation : Operation} (told : move.news? (play w p ms) = some (id, news))
    (ho : (play w p ms).operations.get? id = some operation)
    (target : operation.target = .client slot) :
    ((move.ready (play w p ms)).client operation.client).replies.Contiguous ∧
      (slot, none) ∈ (move.ready (play w p ms)).slots operation.client := by
  have asks : ∀ client content, move ≠ .request client content := by
    rintro c content rfl
    cases told
  rw [Proxy.slots, slots_ready asks (stays_of_told told)]
  exact ⟨(sessions.play ms).tidy.contiguous _,
    waits_of_target (balanced.play sessions.tidy w _) ho target⟩

theorem owes_of_alone (sessions : Sessions w [] p) (trailed : Trailed w [] p) {time id : Nat}
    {operation : Operation} (asked : (session w client (history w p ms)).asked[slot]? = some start)
    (request : ms[start]? = some (.request client (.ok command))) (le : time ≤ ms.length)
    (ho : (play w p (ms.take time)).operations.get? id = some operation)
    (stems : Stems w (history w p ms) start id)
    (alone : ∀ {root : Root} {settings : Settings} {place : Option Nat} {sent : List Sending},
      root.Of w (play w p (ms.take start)) command →
      Trail w (history w p (ms.take time)) settings start id root.plan place operation.stage
        operation.request sent → place = none) :
    start < time ∧ operation.client = client ∧ operation.target = .client slot := by
  obtain ⟨start', command', root, planned, stems', stands⟩ :=
    (trailed.play (ms.take time)).table ho
  obtain ⟨rfl, rfl, of⟩ := root_of_request request stems planned stems'
  obtain ⟨place, owed, trail⟩ := stands.trail
  obtain rfl := alone of trail
  have gt := stems'.lt_of_take
  refine ⟨gt, stands.client, ?_⟩
  obtain ⟨slot', start', isFor, asked', stems''⟩ := (sessions.play (ms.take time)).stems ho
  obtain ⟨q, content, came⟩ := asked_request asked'
  obtain ⟨q', content', came'⟩ := asked_request (asked_before gt le asked)
  obtain rfl := stems_unique stems' stems'' ⟨q', _, content', came'⟩ ⟨q, _, content, came⟩
  rw [stands.client] at asked'
  obtain rfl := asked_inj (asked_before gt le asked) asked'
  cases target : operation.target with
  | client s =>
      simp only [Operation.duty, target] at isFor
      rw [isFor.2]
  | fragment group index =>
      rw [target] at owed
      cases owed.2

theorem owes_of_acknowledgement (sessions : Sessions w [] p) (trailed : Trailed w [] p)
    {time id : Nat} {operation : Operation} {response : Store.Response}
    (asked : (session w client (history w p ms)).asked[slot]? = some start)
    (request : ms[start]? = some (.request client (.ok command))) (writes : command.Writes)
    (le : time ≤ ms.length) (ho : (play w p (ms.take time)).operations.get? id = some operation)
    (stems : Stems w (history w p ms) start id)
    (acknowledged : operation.stage.acknowledgement? response = some value) :
    start < time ∧ operation.client = client ∧ operation.target = .client slot :=
  owes_of_alone sessions trailed asked request le ho stems fun of trail =>
    place_eq_none (writes_of_plans (plans_of_plan of.plan) writes) trail acknowledged

theorem mem_tape_of_gave {move : Move} (past : History) (stays : ∀ client, move ≠ .hangUp client)
    (gave : Gave client slot value (move.ready p) (move.apply w p)) :
    (slot, some value) ∈ tape w (past ++ [(p, move)]) (move.apply w p) client := by
  obtain ⟨actions, outbox, hm⟩ := gave
  rw [(akin_ready _ move).outbox] at outbox
  rw [Sessions.tape_made _ stays outbox]
  exact List.mem_append_right _ hm

theorem tape_of_gave {move : Move} {time id : Nat} {news : News} (made : ms[time]? = some move)
    (told : move.news? (play w p (ms.take time)) = some (id, news))
    (gave : Gave client slot value (move.ready (play w p (ms.take time)))
      (move.apply w (play w p (ms.take time)))) :
    (slot, some value) ∈ tape w (history w p (ms.take (time + 1)))
      (play w p (ms.take (time + 1))) client := by
  rw [take_succ made, history_concat, play_concat]
  exact mem_tape_of_gave _ (stays_of_told told) gave

theorem given_of_heeded (sessions : Sessions w [] p) (trailed : Trailed w [] p)
    (balanced : Balanced p []) {time : Nat}
    (asked : (session w client (history w p ms)).asked[slot]? = some start)
    (request : ms[start]? = some (.request client (.ok command))) (writes : command.Writes)
    (heeded : Heeded w p ms start time value) :
    (slot, some value) ∈ tape w (history w p ms) (play w p ms) client := by
  obtain ⟨move, id, operation, server, response, made, told, ho, stems, acknowledged⟩ := heeded
  have le : time < ms.length := (List.getElem?_eq_some_iff.mp made).1
  obtain ⟨gt, own, target⟩ := owes_of_acknowledgement sessions trailed asked request writes le.le ho
    stems acknowledged
  obtain ⟨contiguous, waits⟩ := waits_ready sessions balanced told ho target
  have gave := gave_of_news (steps_apply w _ move) rfl (tasks_of_told told ho)
    (fun p => quiet_of_acknowledgement acknowledged id server p target) contiguous waits
  exact own ▸ tape_after sessions (Nat.lt_succ_of_lt gt) le (own ▸ asked)
    (tape_of_gave made told gave)

end Given

def Answered (w : World) (p : Proxy) (ms : List Move) (time id : Nat) (request : Store.Request)
    (response : Store.Response) : Prop :=
  ∃ server frame, ms[time]? = some (.storeAnswer server frame) ∧
    ((storeLine server).epoch w p {} (ms.take time)).sent[
      ((storeLine server).epoch w p {} (ms.take time)).answered]? = some (id, request) ∧
    Store.Response.decode frame.code frame.payload request.kind = .ok response

def Acknowledged (w : World) (p : Proxy) (ms : List Move) (start : Nat) (command : Command)
    (value : Reply) : Prop :=
  ∃ time id request response, Stems w (history w p ms) start id ∧
    Answered w p ms time id request response ∧
    Acknowledges command (((play w p (ms.take time)).operations.get? id).map (·.stage))
      request.kind response value

section Answered

variable {w : World} {p : Proxy} {ms : List Move} {move : Move} {id time server start slot : Nat}
  {client : Nat} {command : Command} {value : Reply} {kind : Store.RequestKind}
  {response : Store.Response} {events : List Event}

theorem pendingStore_eq_cons_iff {epoch : Epoch (Nat × Store.Request)}
    (follows : (storeLine server).Follows epoch p) :
    (∃ rest, p.pendingStore server = (id, kind) :: rest) ↔
      ∃ request, epoch.sent[epoch.answered]? = some (id, request) ∧ request.kind = kind := by
  have queue : p.pendingStore server =
      (epoch.sent.drop epoch.answered).map fun message => (message.1, message.2.kind) :=
    follows.pending
  rw [queue, ← List.head?_drop]
  cases epoch.sent.drop epoch.answered with
  | nil => simp
  | cons message rest =>
      obtain ⟨k, request⟩ := message
      simp

theorem take_concat (made : ms[time]? = some move) : ms.take time ++ [move] <+: ms :=
  take_succ made ▸ List.take_prefix _ _

theorem Acknowledges.isError {stage : Option Stage}
    (h : Acknowledges command stage kind response value) : value.isError = false := by
  cases h <;> rfl

section Run

variable (trailed : Trailed w [] p) (fresh : ∀ server, p.queued server = [])
  (settles : ∀ events, Settled (Abandoned w p events) [] (p.run w events))
  (paired : ∀ server, (storeLine server).Paired w p events) (run : ms <+: course w p events)
  (asked : (session w client (history w p ms)).asked[slot]? = some start)
  (request : ms[start]? = some (.request client (.ok command))) (writes : command.Writes)

include trailed settles run asked request writes

theorem acknowledgement?_iff {operation : Operation} {frame : Store.Frame}
    {rest : List (Nat × Store.RequestKind)} (made : ms[time]? = some (.storeAnswer server frame))
    (front : (play w p (ms.take time)).pendingStore server = (id, kind) :: rest)
    (ho : (play w p (ms.take time)).operations.get? id = some operation)
    (stems : Stems w (history w p ms) start id) :
    operation.stage.acknowledgement? response = some value ↔
      Acknowledges command (some operation.stage) kind response value := by
  have le : time < ms.length := (List.getElem?_eq_some_iff.mp made).1
  obtain ⟨start', command', root, planned, stems', stands⟩ := (trailed.play (ms.take time)).table ho
  obtain ⟨rfl, rfl, of⟩ := root_of_request request stems planned stems'
  obtain ⟨place, -, trail⟩ := stands.trail
  obtain ⟨operation', ho', awaits⟩ := operation_of_answer settles trailed
    ((take_concat made).trans run) front stems' (asked_before stems'.lt_of_take le.le asked)
  cases Option.some.inj (ho.symm.trans ho')
  exact acknowledgement?_eq_some_iff (plans_of_plan of.plan) writes trail awaits

include paired in
theorem acknowledged_of_heeded (heeded : Heeded w p ms start time value) :
    Acknowledged w p ms start command value := by
  obtain ⟨move, id, operation, server, response, made, told, ho, stems, acknowledged⟩ := heeded
  obtain ⟨frame, kind, rest, rfl, front, decoded⟩ := storeAnswer_of_told told
  have follows := (paired server).follows (ms.take time) ((List.take_prefix _ _).trans run)
  obtain ⟨message, sent, rfl⟩ := (pendingStore_eq_cons_iff follows).mp ⟨rest, front⟩
  refine ⟨time, id, message, response, stems, ⟨server, frame, made, sent, decoded⟩, ?_⟩
  rw [ho]
  exact (acknowledgement?_iff trailed settles run asked request writes made front ho stems).mp
    acknowledged

include fresh paired in
theorem heeded_of_acknowledged (h : Acknowledged w p ms start command value) :
    ∃ time, Heeded w p ms start time value := by
  obtain ⟨time, id, message, response, stems, ⟨server, frame, made, sent, decoded⟩,
    acknowledges⟩ := h
  have follows := (paired server).follows (ms.take time) ((List.take_prefix _ _).trans run)
  obtain ⟨rest, front⟩ := (pendingStore_eq_cons_iff follows).mpr ⟨message, sent, rfl⟩
  have told : (Move.storeAnswer server frame).news? (play w p (ms.take time)) =
      some (id, .response server response) :=
    Move.news?_eq_some_iff.mpr (.response front decoded)
  have queued : id ∈ (play w p (ms.take time)).queued server := by
    rw [Proxy.queued, front]
    exact List.mem_cons_self
  obtain ⟨sending, hm, -⟩ := queued_since trailed.tidy (fresh server) _ queued
  obtain ⟨start', command', root, planned, stems', -⟩ :=
    (trailed.play (ms.take time)).known (List.ne_nil_of_mem hm)
  obtain ⟨rfl, -, -⟩ := root_of_request request stems planned stems'
  have le : time < ms.length := (List.getElem?_eq_some_iff.mp made).1
  obtain ⟨operation, ho, -⟩ := operation_of_answer settles trailed
    ((take_concat made).trans run) front stems' (asked_before stems'.lt_of_take le.le asked)
  rw [ho] at acknowledges
  exact ⟨time, _, id, operation, server, response, made, told, ho, stems,
    (acknowledgement?_iff trailed settles run asked request writes made front ho stems).mpr
      acknowledges⟩

end Run

end Answered

structure Honest (w : World) (p : Proxy) (events : List Event) : Prop
    extends Unrolled w p events where
  answered : ∀ ms, ms <+: course w p events → ∀ client slot start command value,
    (session w client (history w p ms)).asked[slot]? = some start →
    ms[start]? = some (.request client (.ok command)) → command.Writes →
    ((slot, some value) ∈ tape w (history w p ms) (play w p ms) client ∧ value.isError = false ↔
      Acknowledged w p ms start command value)
  waiting : ∀ before, before <+: events → ∀ client slot,
    (slot, none) ∈ (p.run w before).slots client →
    ∃ owner : Owner, owner.Owns (p.run w before) client slot ∧ ∀ id, owner = .operation id →
      ∃ operation, (p.run w before).operations.get? id = some operation ∧
        (id, operation.stage.awaits) ∈ (p.run w before).tickets

theorem honest_run (w : World) (settings : Settings) (policy : BucketPolicy)
    (events : List Event) : Honest w (start settings policy) events where
  toUnrolled := unrolled_of_tidy w (Tidy.start settings policy) events
  answered := by
    intro ms run client slot start command value asked request writes
    have trailed := Trailed.start w settings policy
    have sessions := Sessions.start w settings policy
    have settles := settled_run w settings policy
    have paired := fun server => (paired_run w settings policy events server).2
    constructor
    · rintro ⟨given, good⟩
      rcases heeded_of_given sessions trailed asked request writes given with error | ⟨time, heeded⟩
      · rw [good] at error
        cases error
      · exact acknowledged_of_heeded trailed settles paired run asked request writes heeded
    · intro acknowledged
      obtain ⟨time, heeded⟩ := heeded_of_acknowledged trailed (fun _ => rfl) settles paired run
        asked request writes acknowledged
      obtain ⟨_, _, _, _, _, _, acknowledges⟩ := acknowledged
      exact ⟨given_of_heeded sessions trailed (Balanced.start settings policy) asked request writes
        heeded, acknowledges.isError⟩
  waiting := by
    intro before _ client slot waits
    have tidy := (Tidy.start settings policy).play w (course w (start settings policy) before)
    have balanced := (Balanced.start settings policy).play (Tidy.start settings policy) w
      (course w (start settings policy) before)
    rw [play_course] at tidy balanced
    obtain ⟨owner, owns, -⟩ := balanced.existsUnique_owner (tidy.contiguous client) waits
    refine ⟨owner, owns, ?_⟩
    rintro id rfl
    obtain ⟨operation, ho, -⟩ := owns
    have ticket := (settled_run w settings policy before).ticketed.held ho
    rw [List.append_nil] at ticket
    exact ⟨operation, ho, ticket⟩

end Proxy

end ReadThrough
