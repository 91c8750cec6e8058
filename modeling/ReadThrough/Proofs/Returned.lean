import ReadThrough.Proofs.Addressing
import ReadThrough.Proofs.Caching
import ReadThrough.Proofs.Candidates
import ReadThrough.Proofs.Honesty
import ReadThrough.Proofs.Unbroken

namespace ReadThrough

namespace Store

/-- What a store keeps that is sent these bytes and keeps the content of a put as it is. -/
def stored? (bytes : Bytes) : Option Bytes :=
  match Frame.decode bytes with
  | .complete frame [] =>
      if frame.code = RequestKind.put.requestCode.byte then
        match (Protobuf.Message.decode frame.payload : Except RecordFault Message.PutReq) with
        | .ok message => some message.content.value
        | .error _ => none
      else none
  | _ => none

theorem stored?_encode {request : Request} {limit : Nat} {value : Bytes} {contentType : String}
    {vclock : Option Bytes} (fits : request.checkSize limit = .ok ())
    (body : request.body = .put value contentType vclock) :
    stored? request.encode = some value := by
  have short := (Request.checkSize_eq_ok fits).2
  have alone := @Frame.decode_encode request.frame short []
  rw [List.append_nil] at alone
  rw [stored?, Request.encode, alone]
  obtain ⟨key, q, _⟩ := request
  cases body
  have shallow : 0 + 1 ≤ Protobuf.Message.maxDepth := by decide
  have read := Message.faithful_putReq.decode_encode shallow (Nat.lt_trans short (by decide))
  have code : (Request.frame ⟨key, q, .put value contentType vclock⟩).code =
    RequestKind.put.requestCode.byte := rfl
  have payload : (Request.frame ⟨key, q, .put value contentType vclock⟩).payload =
    Protobuf.Message.encode (Request.putMessage key q value contentType vclock) := rfl
  dsimp only
  rw [if_pos code, payload, read]
  rfl

inductive Unquoted : Bytes → Bytes → Prop
  | bare {value : Bytes} : value.length ≤ 1 ∨ value.head? ≠ some 34 → Unquoted value value
  | quoted (inner : Bytes) : Unquoted (34 :: (inner ++ [34])) inner

theorem stripQuotes_of_unquoted {value shown : Bytes} (h : Unquoted value shown) :
    stripQuotes value = shown := by
  cases h with
  | bare plain =>
      refine if_neg ?_
      rintro ⟨long, quote⟩
      rcases plain with short | other
      · exact absurd long (Nat.not_lt.mpr short)
      · exact other quote
  | quoted =>
      rw [stripQuotes, if_pos ⟨by simp, rfl⟩]
      exact List.dropLast_concat

end Store

def Command.Single : Command → Prop
  | .get _ | .set .. => True
  | _ => False

namespace Proxy

section Torn

variable {w : World} {p : Proxy} {torn : List Ticket} {events : List Event} {ms : List Move}
  {move : Move} {id server time : Nat} {operation : Operation}

theorem tears_take (mends : Mends w p torn ms) (h : Torn torn p) (made : ms[time]? = some move) :
    ∃ left rest, Torn left (play w p (ms.take time)) ∧
      Tears (play w p (ms.take time)) left move rest := by
  induction mends generalizing time with
  | nil => cases made
  | @cons p torn rest first ms tears _ ih =>
      cases time with
      | zero =>
          cases made
          exact ⟨torn, rest, h, tears⟩
      | succ time => exact ih (h.tears tears) made

theorem tears_of_run (h : Torn [] p) (run : ms <+: course w p events)
    (made : ms[time]? = some move) : ∃ left rest, Torn left (play w p (ms.take time)) ∧
      Tears (play w p (ms.take time)) left move rest := by
  have le : time ≤ ms.length := (List.getElem?_eq_some_iff.mp made).1.le
  obtain ⟨more, all⟩ := run
  have torn := tears_take (Mends.course (w := w) events) h (all ▸ getElem?_of_front ⟨more, rfl⟩ made)
  rwa [← all, List.take_append_of_le_length le] at torn

theorem torn_of_run (h : Torn [] p) (run : ms <+: course w p events)
    (made : ms[time]? = some move) : ∃ left, Torn left (play w p (ms.take time)) := by
  obtain ⟨left, _, torn, -⟩ := tears_of_run h run made
  exact ⟨left, torn⟩

theorem cacheRead_of_told {answer : Resp.Value} (h : Torn torn p)
    (told : move.news? p = some (id, .value answer))
    (held : p.operations.get? id = some operation) : ∃ read, operation.stage = .cacheRead read := by
  refine cacheRead_of_ticket h held (List.mem_append_left _ ?_)
  cases move with
  | cacheAnswer server value =>
      simp only [Move.news?] at told
      split at told
      · next k pending queue =>
          cases told
          exact ticket_of_cachePending queue
      · cases told
  | cacheSilence entry => cases entry <;> cases told
  | storeAnswer server frame =>
      simp only [Move.news?] at told
      split at told
      · split at told <;> cases told
      · cases told
  | _ => cases told

theorem suits_of_told {response : Store.Response} (h : Torn torn p)
    (told : move.news? p = some (id, .response server response))
    (held : p.operations.get? id = some operation) (good : response.isError = false) :
    ∃ kind, operation.stage.awaits = some kind ∧ response.Suits kind := by
  obtain ⟨frame, kind, rest, rfl, queue, decoded⟩ := storeAnswer_of_told told
  refine ⟨kind, h.awaits_eq held (List.mem_append_left _ (ticket_of_storePending queue)), ?_⟩
  rcases Store.Response.suits_of_decode decoded with error | suits
  · rw [good] at error
    cases error
  · exact suits

end Torn

structure Hearing (w : World) (p : Proxy) (ms : List Move) (client slot start : Nat)
    (command : Command) (id time : Nat) (news : News) : Prop where
  asked : (session w client (history w p ms)).asked[slot]? = some start
  request : ms[start]? = some (.request client (.ok command))
  stems : Stems w (history w p ms) start id
  told : Told (history w p ms) time id news

structure Ended (w : World) (p : Proxy) (ms : List Move) (client slot time : Nat) (value : Reply)
    (commands : List Routed) : Prop where
  reply : (slot, some value) ∈ tape w (history w p ms) (play w p ms) client
  copies : ∃ move, ms[time]? = some move ∧
    Posted w (Looked w (history w p ms) time) commands
      (mutations (move.emits w (play w p (ms.take time))))

section Ended

variable {w : World} {p : Proxy} {ms : List Move} {client slot start id time : Nat}
  {command : Command} {news : News} {value : Reply} {commands : List Routed}

def Operation.Concluding (operation : Operation) (w : World) (id : Nat) (news : News)
    (lifetime : Address → Option Nat) (commands : List Routed) (value : Reply) : Prop :=
  ∀ q : Proxy, (∀ address, q.ttl address = lifetime address) → ∃ quiet,
    (∀ task ∈ quiet, task.Quiet ∧ task.Plain) ∧ copied quiet = commands ∧
      operation.decide w q id news = quiet ++ [operation.conclude value]

theorem place_eq_none_of_single {past : History} {settings : Settings} {q : Proxy} {plan : Plan}
    {place : Option Nat} {stage : Stage} {asked : Option Store.Request} {sent : List Sending}
    (single : command.Single) (plans : Plans q command plan)
    (trail : Trail w past settings start id plan place stage asked sent) : place = none := by
  cases plans with
  | get | put | readThenPut => cases trail <;> rfl
  | _ => exact single.elim

theorem Hearing.held (h : Hearing w p ms client slot start command id time news)
    (trailed : Trailed w [] p) : ∃ (move : Move) (operation : Operation) (q : Proxy) (plan : Plan)
      (place : Option Nat) (settings : Settings) (sent : List Sending),
      ms[time]? = some move ∧ move.news? (play w p (ms.take time)) = some (id, news) ∧
      (play w p (ms.take time)).operations.get? id = some operation ∧ Plans q command plan ∧
      Trail w (history w p (ms.take time)) settings start id plan place operation.stage
        operation.request sent := by
  obtain ⟨q, move, operation, at', told, ho⟩ := h.told
  obtain ⟨made, rfl⟩ := getElem?_history.mp at'
  obtain ⟨start', command', root, planned, stems, stands⟩ :=
    (trailed.play (ms.take time)).table ho
  obtain ⟨rfl, rfl, of⟩ := root_of_request h.request h.stems planned stems
  obtain ⟨place, -, trail⟩ := stands.trail
  exact ⟨move, operation, _, root.plan, place, _, _, made, told, ho, plans_of_plan of.plan, trail⟩

theorem Hearing.ended {move : Move} {operation : Operation}
    (h : Hearing w p ms client slot start command id time news) (sessions : Sessions w [] p)
    (trailed : Trailed w [] p) (balanced : Balanced p []) (single : command.Single)
    (made : ms[time]? = some move)
    (told : move.news? (play w p (ms.take time)) = some (id, news))
    (held : (play w p (ms.take time)).operations.get? id = some operation)
    (concluding : operation.Concluding w id news (play w p (ms.take time)).ttl commands value) :
    Ended w p ms client slot time value commands := by
  have le : time < ms.length := (List.getElem?_eq_some_iff.mp made).1
  obtain ⟨gt, own, target⟩ := owes_of_alone sessions trailed h.asked h.request le.le held
    h.stems fun of trail => place_eq_none_of_single single (plans_of_plan of.plan) trail
  obtain ⟨r, same, ttl, done⟩ := decided_of_told told w held
  obtain ⟨quiet, calm, rfl, decided⟩ := concluding r ttl
  have concludes : operation.conclude value = .reply operation.client slot value := by
    rw [Operation.conclude, target]
  rw [decided, concludes] at done
  constructor
  · obtain ⟨contiguous, waits⟩ := waits_ready sessions balanced told held target
    have gave := gave_of_steps (.head (.still same) done) rfl (fun task hm => (calm task hm).1) rfl
      contiguous waits
    exact own ▸ tape_after sessions (Nat.lt_succ_of_lt gt) le (own ▸ h.asked)
      (tape_of_gave made told gave)
  · have plain : ∀ task ∈ quiet ++ [Task.reply operation.client slot value], task.Plain :=
      List.forall_mem_append.mpr ⟨fun task hm => (calm task hm).2,
        List.forall_mem_singleton.mpr trivial⟩
    have posted := (changes_of_plain same done plain).1
    rw [copied_append, show copied [Task.reply operation.client slot value] = [] from rfl,
      List.append_nil] at posted
    refine ⟨move, made, posted.mono fun look between => ⟨_, move, ?_, between⟩⟩
    exact getElem?_history.mpr ⟨made, rfl⟩

end Ended

section Single

variable {w : World} {p q : Proxy} {ms : List Move} {client slot start id time server : Nat}
  {operation : Operation} {raw value : Bytes} {address : Address} {vclock : Option Bytes}
  {siblings : List Store.Sibling} {sibling : Store.Sibling} {lifetime : Address → Option Nat}
  {past : History} {settings : Settings} {plan : Plan} {place : Option Nat} {stage : Stage}
  {asked : Option Store.Request} {sent : List Sending}

theorem concluding_putAck (stage : operation.stage = .storeWrite (.put address value)) :
    operation.Concluding w id (.response server (.putAck vclock)) lifetime
      [(address.raw, .set address.raw value (lifetime address))] Reply.ok := by
  intro q ttl
  refine ⟨[.learn address vclock,
    .copy address.raw (Cache.populateValue address.raw value (q.ttl address))], ?_, ?_, ?_⟩
  · exact List.forall_mem_cons.mpr ⟨⟨trivial, trivial⟩,
      List.forall_mem_singleton.mpr ⟨trivial, rfl⟩⟩
  · rw [ttl]
    rfl
  · simp only [Operation.decide, Operation.onResponse, stage, Operation.onWritten, List.cons_append,
      List.nil_append]

theorem concluding_found (stage : operation.stage = .storeRead (.value address))
    (only : Store.Sibling.live siblings = [sibling]) :
    operation.Concluding w id (.response server (.found siblings vclock)) lifetime
      [(address.raw, .set address.raw (Store.stripQuotes sibling.value) (lifetime address))]
      (Reply.bulk (Store.stripQuotes sibling.value)) := by
  intro q ttl
  refine ⟨[.learn address vclock, .copy address.raw
    (Cache.populateValue address.raw (Store.stripQuotes sibling.value) (q.ttl address))], ?_, ?_, ?_⟩
  · exact List.forall_mem_cons.mpr ⟨⟨trivial, trivial⟩,
      List.forall_mem_singleton.mpr ⟨trivial, rfl⟩⟩
  · rw [ttl]
    rfl
  · simp only [Operation.decide, Operation.onResponse, stage, Operation.onValueRead,
      Store.Outcome.ofSiblings, Store.pick_of_live only, List.cons_append, List.nil_append]

theorem concluding_value (stage : operation.stage = .cacheRead (.value address)) :
    operation.Concluding w id (.value (.bulk value)) lifetime [] (Reply.bulk value) := by
  intro q ttl
  refine ⟨[], List.forall_mem_nil _, rfl, ?_⟩
  simp only [Operation.decide, Operation.onValue, stage]
  rfl

theorem stage_of_get (plans : Plans q (.get raw) plan)
    (trail : Trail w past settings start id plan place stage asked sent) :
    ∃ address, Address.parse raw = .ok address ∧
      (stage = .cacheRead (.value address) ∨ stage = .storeRead (.value address)) := by
  cases plans with
  | get parsed =>
      cases trail with
      | lookUp => exact ⟨_, parsed, Or.inl rfl⟩
      | read => exact ⟨_, parsed, Or.inr rfl⟩

theorem stage_of_set (plans : Plans q (.set raw value) plan)
    (trail : Trail w past settings start id plan place stage asked sent) :
    ∃ address, Address.parse raw = .ok address ∧
      (stage.awaits = some .get ∨ stage = .storeWrite (.put address value)) := by
  cases plans with
  | put parsed =>
      cases trail
      exact ⟨_, parsed, Or.inr rfl⟩
  | readThenPut parsed =>
      cases trail with
      | fetch => exact ⟨_, parsed, Or.inl rfl⟩
      | put => exact ⟨_, parsed, Or.inr rfl⟩

theorem carries_of_set (plans : Plans q (.set raw value) plan)
    (trail : Trail w past settings start id plan place stage asked sent) :
    ∀ sending ∈ sent, sending.request.kind = .put →
      ∃ contentType vclock, sending.request.body = .put value contentType vclock := by
  cases plans with
  | put _ _ puts =>
      cases trail
      obtain ⟨-, rfl⟩ := compose_eq_ok puts
      exact List.forall_mem_singleton.mpr fun _ => ⟨_, _, rfl⟩
  | readThenPut _ _ puts gets =>
      have reads : ∀ {fetch : Sending}, fetch.request.kind = .get → fetch.request.kind ≠ .put := by
        intro fetch get
        rw [get]
        decide
      cases trail with
      | fetch =>
          exact List.forall_mem_singleton.mpr fun put =>
            absurd put (reads (Store.Request.kind_of_get gets))
      | put =>
          obtain ⟨-, rfl⟩ := compose_eq_ok puts
          exact List.forall_mem_cons.mpr
            ⟨fun put => absurd put (reads (Store.Request.kind_of_get gets)),
              List.forall_mem_singleton.mpr fun _ => ⟨_, _, rfl⟩⟩

theorem raw_of_parse (h : Address.parse raw = .ok address) : address.raw = raw := by
  obtain ⟨key, -, rfl⟩ := map_eq_ok h
  rfl

end Single

section Run

variable {w : World} {p : Proxy} {events : List Event} {ms : List Move} {client slot start id time
  server : Nat} {command : Command} {news : News} {raw value : Bytes} {vclock : Option Bytes}
  {siblings : List Store.Sibling} {sibling : Store.Sibling}
  (sessions : Sessions w [] p) (trailed : Trailed w [] p) (balanced : Balanced p [])
  (torn : Torn [] p) (run : ms <+: course w p events)

include sessions trailed balanced torn run

theorem Hearing.written (h : Hearing w p ms client slot start (.set raw value) id time
      (.response server (.putAck vclock))) :
    (∃ sending ∈ sendings w (history w p ms) id, sending.request.kind = .put) ∧
      ∃ address, Address.parse raw = .ok address ∧
        Ended w p ms client slot time Reply.ok
          [(raw, .set raw value ((play w p (ms.take time)).ttl address))] := by
  obtain ⟨move, operation, q, plan, place, settings, sent, made, told, held, plans, trail⟩ :=
    h.held trailed
  obtain ⟨left, torn'⟩ := torn_of_run torn run made
  obtain ⟨kind, awaits, suits⟩ := suits_of_told torn' told held rfl
  cases suits
  obtain ⟨address, parsed, stage⟩ := stage_of_set plans trail
  obtain rfl := raw_of_parse parsed
  rcases stage with reads | stage
  · rw [reads] at awaits
    cases awaits
  · refine ⟨?_, address, parsed, h.ended sessions trailed balanced trivial made told held
      (concluding_putAck stage)⟩
    obtain ⟨sending, _, _, hm, -, -, body⟩ := put_of_stage trailed held stage
    refine ⟨sending, (sending_of_take hm).1, ?_⟩
    rw [Store.Request.kind, body]
    rfl

theorem Hearing.copied (h : Hearing w p ms client slot start (.get raw) id time
      (.value (.bulk value))) : Ended w p ms client slot time (Reply.bulk value) [] := by
  obtain ⟨move, operation, q, plan, place, settings, sent, made, told, held, plans, trail⟩ :=
    h.held trailed
  obtain ⟨left, torn'⟩ := torn_of_run torn run made
  obtain ⟨read, looks⟩ := cacheRead_of_told torn' told held
  obtain ⟨address, parsed, stage⟩ := stage_of_get plans trail
  rcases stage with stage | stage
  · exact h.ended sessions trailed balanced trivial made told held
      (concluding_value stage)
  · cases looks.symm.trans stage

theorem Hearing.readThrough (h : Hearing w p ms client slot start (.get raw) id time
      (.response server (.found siblings vclock)))
    (only : Store.Sibling.live siblings = [sibling]) :
    ∃ address, Address.parse raw = .ok address ∧
      Ended w p ms client slot time (Reply.bulk (Store.stripQuotes sibling.value))
        [(raw, .set raw (Store.stripQuotes sibling.value)
          ((play w p (ms.take time)).ttl address))] := by
  obtain ⟨move, operation, q, plan, place, settings, sent, made, told, held, plans, trail⟩ :=
    h.held trailed
  obtain ⟨left, torn'⟩ := torn_of_run torn run made
  obtain ⟨kind, awaits, suits⟩ := suits_of_told torn' told held rfl
  obtain ⟨address, parsed, stage⟩ := stage_of_get plans trail
  obtain rfl := raw_of_parse parsed
  rcases stage with stage | stage
  · rw [stage] at awaits
    cases awaits
  · exact ⟨address, parsed, h.ended sessions trailed balanced trivial made told held
      (concluding_found stage only)⟩

end Run

section Put

variable {w : World} {p : Proxy} {ms : List Move} {client start start' id : Nat}
  {command command' : Command} {root : Root} {sending fetch : Sending} {raw value : Bytes}

theorem command_of_planned (request : ms[start]? = some (.request client (.ok command)))
    (stems : Stems w (history w p ms) start id)
    (planned : Planned w (history w p ms) start' command' root)
    (stems' : Stems w (history w p ms) start' id) :
    start' = start ∧ command' = command := by
  have came := getElem?_history (w := w) (p := p) |>.mpr ⟨request, rfl⟩
  obtain rfl := stems_unique stems stems' ⟨_, client, _, came⟩ planned.asks
  obtain ⟨q, at', of⟩ := planned
  cases came.symm.trans at'
  exact ⟨rfl, rfl⟩

variable (trailed : Trailed w [] p)

include trailed

theorem key_of_single (request : ms[start]? = some (.request client (.ok command)))
    (stems : Stems w (history w p ms) start id) (named : command.named = [raw])
    (sent : sending ∈ sendings w (history w p ms) id) :
    ∃ address, Address.parse raw = .ok address ∧ address.key = sending.request.key := by
  obtain ⟨start', command', root, planned, stems', raw', hm, address, parsed, -, same⟩ :=
    names_of_sending trailed sent
  obtain ⟨rfl, rfl⟩ := command_of_planned request stems planned stems'
  rw [named, List.mem_singleton] at hm
  exact ⟨address, hm ▸ parsed, same⟩

theorem stored?_of_set (none : Measured p.settings.maxFrameSize p)
    (request : ms[start]? = some (.request client (.ok (.set raw value))))
    (stems : Stems w (history w p ms) start id)
    (sent : sending ∈ sendings w (history w p ms) id) (put : sending.request.kind = .put) :
    Store.stored? sending.request.encode = some value := by
  obtain ⟨start', command', root, planned, stems', place, stage, asked, trail⟩ :=
    (trailed.play ms).known (List.ne_nil_of_mem sent)
  obtain ⟨rfl, rfl⟩ := command_of_planned request stems planned stems'
  obtain ⟨q, -, of⟩ := planned
  obtain ⟨contentType, vclock, body⟩ :=
    carries_of_set (plans_of_plan of.plan) trail sending sent put
  exact Store.stored?_encode (checkSize_of_sending none sent) body

end Put

structure Returned (w : World) (p : Proxy) (events : List Event) : Prop
    extends Unrolled w p events where
  written : ∀ ms, ms <+: course w p events → ∀ client slot start raw value id time server vclock,
    Hearing w p ms client slot start (.set raw value) id time (.response server (.putAck vclock)) →
    (∃ sending ∈ sendings w (history w p ms) id, sending.request.kind = .put) ∧
      ∃ address, Address.parse raw = .ok address ∧
        Ended w p ms client slot time Reply.ok
          [(raw, .set raw value ((play w p (ms.take time)).ttl address))]
  copied : ∀ ms, ms <+: course w p events → ∀ client slot start raw value id time,
    Hearing w p ms client slot start (.get raw) id time (.value (.bulk value)) →
    Ended w p ms client slot time (Reply.bulk value) []
  returned : ∀ ms, ms <+: course w p events → ∀ writer start raw value id,
    ms[start]? = some (.request writer (.ok (.set raw value))) →
    Stems w (history w p ms) start id →
    ∀ sending ∈ sendings w (history w p ms) id, sending.request.kind = .put →
    ∀ client slot start' id' time server siblings vclock sibling,
    Hearing w p ms client slot start' (.get raw) id' time
      (.response server (.found siblings vclock)) →
    Store.Sibling.live siblings = [sibling] →
    Store.stored? (Action.store sending.server id sending.request).bytes = some sibling.value →
    ∀ shown, Store.Unquoted value shown →
    (∀ fetch ∈ sendings w (history w p ms) id', fetch.request.key = sending.request.key) ∧
      ∃ address, Address.parse raw = .ok address ∧
        Ended w p ms client slot time (Reply.bulk shown)
          [(raw, .set raw shown ((play w p (ms.take time)).ttl address))]

theorem returned_run (w : World) (settings : Settings) (policy : BucketPolicy)
    (events : List Event) : Returned w (start settings policy) events := by
  have sessions := Sessions.start w settings policy
  have trailed := Trailed.start w settings policy
  have balanced := Balanced.start settings policy
  have torn : Torn [] (start settings policy) := Settled.start settings policy
  refine ⟨unrolled_of_tidy w (Tidy.start settings policy) events, ?_, ?_, ?_⟩
  · intro ms run client slot start raw value id time server vclock hearing
    exact hearing.written sessions trailed balanced torn run
  · intro ms run client slot start raw value id time hearing
    exact hearing.copied sessions trailed balanced torn run
  · intro ms run writer start raw value id request stems sending sent put client slot start' id' time
      server siblings vclock sibling hearing only stored shown unquoted
    have none : Measured settings.maxFrameSize (Proxy.start settings policy) :=
      fun id operation ho => by cases ho
    have kept := stored?_of_set trailed none request stems sent put
    obtain rfl : value = sibling.value := Option.some.inj (kept.symm.trans stored)
    obtain rfl := Store.stripQuotes_of_unquoted unquoted
    refine ⟨fun fetch fetched => ?_, hearing.readThrough sessions trailed balanced torn run only⟩
    obtain ⟨address, parsed, same⟩ := key_of_single trailed request stems rfl sent
    obtain ⟨address', parsed', same'⟩ :=
      key_of_single trailed hearing.request hearing.stems rfl fetched
    cases parsed.symm.trans parsed'
    exact same'.symm.trans same

theorem quotes_lost :
    let w : World :=
      { pool := fun _ => { pick := fun _ _ => some 0, live := fun _ => [0] }, draw := fun _ => 0 }
    let key := ascii "b:k"
    let value : Bytes := [34, 97, 34]
    let events : List Event :=
      [.command 7 (.set key value), .storeData 0 [0, 0, 0, 1, 10], .storeData 0 [0, 0, 0, 1, 12],
        .cacheData 0 (ascii "+OK\r\n"), .command 7 (.get key), .cacheData 0 (ascii "$-1\r\n"),
        .storeData 0 ([0, 0, 0, 8, 10, 10, 5, 10, 3] ++ value)]
    let outbox := ((start {} {}).run w events).outbox
    outbox.filterMap (fun action => Store.stored? action.bytes) = [value] ∧
      (repliesTo 7 outbox).map (fun reply => reply.2.map Resp.Value.encode) =
        [some (ascii "+OK\r\n"), some (ascii "$1\r\na\r\n")] ∧
      mutations outbox = [(0, .set key value none), (0, .set key (ascii "a") none)] := by
  decide +kernel

end Proxy

end ReadThrough
