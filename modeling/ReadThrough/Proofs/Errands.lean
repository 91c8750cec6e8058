import ReadThrough.Proofs.Vclocks

namespace ReadThrough

namespace Store

inductive Errand where
  | get
  | put (value : Bytes) (vclock : Option Bytes)
  | delete
  | setUpdate (action : SetAction) (members : List Bytes)
  | setReplace (adds removes : List Bytes) (context : Option Bytes)
  | setFetch
  | counterUpdate (amount : Int64)
  deriving DecidableEq, Repr

namespace Errand

def kind : Errand → RequestKind
  | .get => .get
  | .put .. => .put
  | .delete => .delete
  | .setUpdate .. | .setReplace .. => .setUpdate
  | .setFetch => .setFetch
  | .counterUpdate _ => .counterUpdate

def body (settings : Settings) (key : Key) : Errand → RequestBody
  | .get => .get
  | .put value vclock => .put value (contentType value) vclock
  | .delete => .delete
  | .setUpdate action members => .setUpdate (Request.setBucketType settings key) action members
  | .setReplace adds removes context =>
      .setReplace (Request.setBucketType settings key) adds removes context
  | .setFetch => .setFetch (Request.setBucketType settings key)
  | .counterUpdate amount => .counterUpdate amount

def request (settings : Settings) (key : Key) (errand : Errand) : Except Failure Request :=
  Request.compose settings key (errand.body settings key)

variable {settings : Settings} {key : Key} {errand : Errand} {request : Request}

theorem request_eq_ok (h : errand.request settings key = .ok request) :
    key.hasBucket = true ∧
      request = { key, quorum := settings.quorum, body := errand.body settings key } :=
  Proxy.compose_eq_ok h

theorem of_setUpdate {action : SetAction} {members : List Bytes}
    (h : Request.setUpdate settings key action members = .ok request) :
    (setUpdate action members).request settings key = .ok request := by
  unfold Request.setUpdate at h
  split at h
  · cases h
  · exact h

theorem of_setReplace {current wanted : List Bytes} {context : Option Bytes}
    (h : Request.setReplace settings key current context wanted = .ok (some request)) :
    ∃ adds removes, (setReplace adds removes context).request settings key = .ok request := by
  unfold Request.setReplace at h
  dsimp only at h
  split at h
  · cases h
  · obtain ⟨made, composed, same⟩ := map_eq_ok h
    exact ⟨_, _, Option.some.inj same ▸ composed⟩

theorem of_withVclock {value : Bytes} {vclock : Option Bytes}
    (h : Request.put settings key value none = .ok request) :
    (put value (vclock.filter (· ≠ []))).request settings key =
      .ok (Proxy.withVclock request vclock) := by
  obtain ⟨key', bucket, rfl⟩ := map_eq_ok h
  exact congrArg (Except.map _) bucket

end Errand

end Store

open Store (Errand)

/-- The errands of a command, each with the key that it is on. A value is read before it is written if
its vclock is not known, and a set before another takes its place. -/
inductive Command.Bids : Command → Bytes → Errand → Prop where
  | get {key : Bytes} : Bids (.get key) key .get
  | fetch {key value : Bytes} : Bids (.set key value) key .get
  | put {key value : Bytes} (vclock : Option Bytes) : Bids (.set key value) key (.put value vclock)
  | delete {keys : List Bytes} {key : Bytes} : key ∈ keys → Bids (.del keys) key .delete
  | add {key : Bytes} {members : List Bytes} :
      Bids (.sadd key members) key (.setUpdate .add members)
  | remove {key : Bytes} {members : List Bytes} :
      Bids (.srem key members) key (.setUpdate .remove members)
  | members {key : Bytes} : Bids (.smembers key) key .setFetch
  | contains {key member : Bytes} : Bids (.sismember key member) key .setFetch
  | card {key : Bytes} : Bids (.scard key) key .setFetch
  | source {op : SetOperator} {dest : Option Bytes} {keys : List Bytes} {key : Bytes} :
      key ∈ keys → Bids (.algebra op dest keys) key .setFetch
  | present {op : SetOperator} {dest : Bytes} {keys : List Bytes} :
      Bids (.algebra op (some dest) keys) dest .setFetch
  | replace {op : SetOperator} {dest : Bytes} {keys : List Bytes} (adds removes : List Bytes)
      (context : Option Bytes) :
      Bids (.algebra op (some dest) keys) dest (.setReplace adds removes context)
  | count {key : Bytes} {amount : Int64} :
      Bids (.incr key amount) key (.counterUpdate amount)

structure Command.Causes (settings : Settings) (command : Command) (raw : Bytes) (errand : Errand)
    (request : Store.Request) : Prop where
  bids : command.Bids raw errand
  parsed : Address.parse raw = .ok { raw, key := request.key }
  composed : errand.request settings request.key = .ok request

namespace Proxy

variable {w : World} {past : History} {settings : Settings} {q : Proxy} {command : Command}
  {plan : Plan} {start id : Nat} {place : Option Nat} {stage : Stage}
  {asked : Option Store.Request} {sent : List Sending}

theorem causes_of_request {raw : Bytes} {address : Address} {errand : Errand}
    {request : Store.Request} (bids : command.Bids raw errand)
    (parsed : Address.parse raw = .ok address)
    (composed : errand.request settings address.key = .ok request) :
    command.Causes settings raw errand request := by
  obtain ⟨-, same⟩ := Errand.request_eq_ok composed
  obtain ⟨key, split, rfl⟩ := map_eq_ok parsed
  obtain rfl : request.key = key := congrArg Store.Request.key same
  exact ⟨bids, parsed, composed⟩

theorem causes_of_read {read : Read} {raw : Bytes} {errand : Errand}
    (trail : Trail w past settings start id (.read read) place stage asked sent)
    (bids : command.Bids raw errand) (parsed : Address.parse raw = .ok read.address)
    (request : read.request settings = errand.request settings read.address.key) :
    ∀ sending ∈ sent, command.Causes settings raw errand sending.request := by
  cases trail with
  | lookUp => exact List.forall_mem_nil _
  | read composed tried =>
      intro sending among
      rw [tried.same sending among]
      exact causes_of_request bids parsed (request ▸ composed)

theorem parse_of_planDest {raw : Option Bytes} {dest : Address}
    (h : planDest raw = .ok (some dest)) : ∃ key, raw = some key ∧ Address.parse key = .ok dest := by
  cases raw with
  | none => cases h
  | some key =>
      obtain ⟨address, parsed, h⟩ := bind_eq_ok h
      obtain ⟨_, -, h⟩ := bind_eq_ok h
      cases h
      exact ⟨key, rfl, parsed⟩

theorem causes_of_trail (planned : Plans q command plan) (same : q.settings = settings)
    (trail : Trail w past settings start id plan place stage asked sent) :
    ∀ sending ∈ sent, ∃ raw errand, command.Causes settings raw errand sending.request := by
  subst same
  intro sending hm
  cases planned with
  | get parsed => exact ⟨_, _, causes_of_read trail .get parsed rfl sending hm⟩
  | smembers parsed => exact ⟨_, _, causes_of_read trail .members parsed rfl sending hm⟩
  | sismember parsed => exact ⟨_, _, causes_of_read trail .contains parsed rfl sending hm⟩
  | scard parsed => exact ⟨_, _, causes_of_read trail .card parsed rfl sending hm⟩
  | @put _ _ vclock _ _ parsed _ composed =>
      cases trail
      cases List.mem_singleton.mp hm
      exact ⟨_, _, causes_of_request (.put (some vclock)) parsed composed⟩
  | readThenPut parsed _ puts gets =>
      cases trail with
      | fetch =>
          cases List.mem_singleton.mp hm
          exact ⟨_, _, causes_of_request .fetch parsed gets⟩
      | put =>
          rcases List.mem_cons.mp hm with rfl | hm
          · exact ⟨_, _, causes_of_request .fetch parsed gets⟩
          · cases List.mem_singleton.mp hm
            exact ⟨_, _, causes_of_request (.put _) parsed (Errand.of_withVclock puts)⟩
  | sadd parsed composed =>
      cases trail
      cases List.mem_singleton.mp hm
      exact ⟨_, _, causes_of_request .add parsed (Errand.of_setUpdate composed)⟩
  | srem parsed composed =>
      cases trail
      cases List.mem_singleton.mp hm
      exact ⟨_, _, causes_of_request .remove parsed (Errand.of_setUpdate composed)⟩
  | incr parsed composed =>
      cases trail
      cases List.mem_singleton.mp hm
      exact ⟨_, _, causes_of_request .count parsed composed⟩
  | del read composed =>
      cases trail with
      | delete part =>
          cases List.mem_singleton.mp hm
          obtain ⟨other, among, made⟩ := exists_of_mem_mapM composed (List.mem_of_getElem? part)
          obtain ⟨_, deletes, same⟩ := map_eq_ok made
          cases same
          obtain ⟨addresses, parsed, rfl⟩ := map_eq_ok read
          obtain ⟨key, named, parsed⟩ := exists_of_mem_mapM parsed (List.mem_filter.mp among).1
          exact ⟨_, _, causes_of_request (.delete named) parsed deletes⟩
  | algebra parsed planned =>
      cases trail with
      | source => cases hm
      | sourceRead part composed =>
          cases List.mem_singleton.mp hm
          obtain ⟨key, named, parsed⟩ := exists_of_mem_mapM parsed (List.mem_of_getElem? part)
          exact ⟨_, _, causes_of_request (.source named) parsed composed⟩
      | dest _ composed =>
          cases List.mem_singleton.mp hm
          obtain ⟨key, rfl, parsed⟩ := parse_of_planDest planned
          exact ⟨_, _, causes_of_request .present parsed composed⟩
      | replace _ fetches _ replaces =>
          obtain ⟨key, rfl, parsed⟩ := parse_of_planDest planned
          rcases List.mem_cons.mp hm with rfl | hm
          · exact ⟨_, _, causes_of_request .present parsed fetches⟩
          · cases List.mem_singleton.mp hm
            obtain ⟨adds, removes, composed⟩ := Errand.of_setReplace replaces
            exact ⟨_, _, causes_of_request (.replace adds removes _) parsed composed⟩

theorem causes_of_sending {p : Proxy} {ms : List Move} {sending : Sending}
    (trailed : Trailed w [] p) (hm : sending ∈ sendings w (history w p ms) id) :
    ∃ start command root raw errand, Planned w (history w p ms) start command root ∧
      Stems w (history w p ms) start id ∧
      command.Causes p.settings raw errand sending.request := by
  obtain ⟨start, command, root, planned, stems, place, stage, request, trail⟩ :=
    (trailed.play ms).known (List.ne_nil_of_mem hm)
  have at' := planned
  obtain ⟨q, at', of⟩ := at'
  obtain ⟨-, rfl⟩ := getElem?_history.mp at'
  rw [settings_play] at trail
  obtain ⟨raw, errand, causes⟩ :=
    causes_of_trail (plans_of_plan of.plan) (settings_play w p _) trail sending hm
  exact ⟨start, command, root, raw, errand, planned, stems, causes⟩

end Proxy

end ReadThrough
