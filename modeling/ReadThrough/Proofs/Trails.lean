import ReadThrough.Proofs.Roots

/-!
The trail of an operation: which requests the store was sent for it, when, where and because of
what. A plan allows few trails, and tells from a trail what the operation waits for.
-/

namespace ReadThrough

/-- A request that was sent: in which move, and to which server. -/
structure Sending where
  time : Nat
  server : Nat
  request : Store.Request
  deriving DecidableEq

def Action.sending? (time id : Nat) : Action → Option Sending
  | .store server operation request =>
      if operation = id then some ⟨time, server, request⟩ else none
  | _ => none

namespace Proxy

def sendings (w : World) (past : History) (id : Nat) : List Sending :=
  past.zipIdx.flatMap fun made =>
    (made.1.2.emits w made.1.1).filterMap (Action.sending? made.2 id)

theorem sendings_concat (w : World) (past : History) (p : Proxy) (move : Move) (id : Nat) :
    sendings w (past ++ [(p, move)]) id =
      sendings w past id ++ (move.emits w p).filterMap (Action.sending? past.length id) := by
  simp [sendings, List.zipIdx_append]

def Looked (w : World) (past : History) (time look : Nat) : Prop :=
  ∃ p move, past[time]? = some (p, move) ∧ p.looks ≤ look ∧ look < (move.apply w p).looks

def Picked (w : World) (past : History) (time : Nat) (key : Bytes) (server : Nat) : Prop :=
  ∃ look, Looked w past time look ∧ (w.pool look).pick .store key = some server

def Told (past : History) (time id : Nat) (news : News) : Prop :=
  ∃ p move operation, past[time]? = some (p, move) ∧ move.news? p = some (id, news) ∧
    p.operations.get? id = some operation

structure Heard (past : History) (sent id time : Nat) : Prop where
  lt : sent < time
  told : ∃ news, Told past time id news
  first : ∀ t, sent < t → t < time → ∀ news, ¬ Told past t id news

def Resent (w : World) (past : History) (settings : Settings) (id : Nat) (first : Sending)
    (servers left : List Nat) : Prop :=
  ∃ heard look, Heard past first.time id heard ∧ Looked w past heard look ∧
    servers ++ left =
      Pool.Resend.plan ((w.pool look).live .store) first.server settings.effectiveMaxResend

structure Tried (w : World) (past : History) (settings : Settings) (id : Nat) (key : Bytes)
    (request : Store.Request) (first : Sending) (rest : List Sending) : Prop where
  same : ∀ sending ∈ first :: rest, sending.request = request
  picked : Picked w past first.time key first.server
  resent : rest = [] ∨ ∃ left, Resent w past settings id first (rest.map (·.server)) left

/-- The trails that a plan allows, with what the operation waits for at the end of it. -/
inductive Trail (w : World) (past : History) (settings : Settings) (start id : Nat) :
    Plan → Option Nat → Stage → Option Store.Request → List Sending → Prop where
  | lookUp {read : Read} :
      Trail w past settings start id (.read read) none (.cacheRead read) none []
  | read {read : Read} {request : Store.Request} {first : Sending} {rest : List Sending} :
      read.request settings = .ok request →
      Tried w past settings id read.address.raw request first rest →
      Trail w past settings start id (.read read) none (.storeRead read) (some request)
        (first :: rest)
  | write {write : Write} {request : Store.Request} {server : Nat} :
      Picked w past start write.address.raw server →
      Trail w past settings start id (.write write request) none (.storeWrite write)
        (some request) [⟨start, server, request⟩]
  | fetch {address : Address} {value : Bytes} {deferred fetch : Store.Request} {server : Nat} :
      Picked w past start address.raw server →
      Trail w past settings start id (.readThenPut address value deferred fetch) none
        (.awaitingVclock address value deferred) (some fetch) [⟨start, server, fetch⟩]
  | put {address : Address} {value : Bytes} {deferred fetch : Store.Request}
      {server time other answering : Nat} {siblings : List Store.Sibling}
      {vclock : Option Bytes} :
      Picked w past start address.raw server →
      Told past time id (.response answering (.found siblings vclock)) →
      Trail w past settings start id (.readThenPut address value deferred fetch) none
        (.storeWrite (.put address value)) (some (withVclock deferred vclock))
        [⟨start, server, fetch⟩, ⟨time, other, withVclock deferred vclock⟩]
  | delete {cacheOnly : List Address} {stored : List (Address × Store.Request)} {index : Nat}
      {address : Address} {request : Store.Request} {server : Nat} :
      stored[index]? = some (address, request) →
      Picked w past start address.raw server →
      Trail w past settings start id (.delete cacheOnly stored) (some index)
        (.storeWrite (.delete address)) (some request) [⟨start, server, request⟩]
  | source {op : SetOperator} {dest : Option Address} {sources : List Address} {index : Nat}
      {address : Address} : sources[index]? = some address →
      Trail w past settings start id (.combine op dest sources) (some index)
        (.cacheRead (.set address .slot)) none []
  | sourceRead {op : SetOperator} {dest : Option Address} {sources : List Address}
      {index time server : Nat} {address : Address} {request : Store.Request} :
      sources[index]? = some address →
      Store.Request.setFetch settings address.key = .ok request →
      Trail w past settings start id (.combine op dest sources) (some index)
        (.storeRead (.set address .slot)) (some request) [⟨time, server, request⟩]
  | dest {op : SetOperator} {dest : Address} {sources : List Address} {members : List Bytes}
      {time server : Nat} {request : Store.Request} :
      start ≤ time → Store.Request.setFetch settings dest.key = .ok request →
      Trail w past settings start id (.combine op (some dest) sources) none
        (.storeFetch dest members) (some request) [⟨time, server, request⟩]
  | replace {op : SetOperator} {dest : Address} {sources : List Address}
      {members current : List Bytes} {sent server time other answering : Nat}
      {fetch request : Store.Request} {context : Option Bytes} :
      start ≤ sent → Store.Request.setFetch settings dest.key = .ok fetch →
      Told past time id (.response answering (.set current context)) →
      Store.Request.setReplace settings dest.key current context members =
        .ok (some request) →
      Trail w past settings start id (.combine op (some dest) sources) none
        (.storeWrite (.store dest members)) (some request)
        [⟨sent, server, fetch⟩, ⟨time, other, request⟩]

section Concat

variable {w : World} {past : History} {settings : Settings} {start id time : Nat}

theorem Looked.concat {look : Nat} (h : Looked w past time look) (more : History) :
    Looked w (past ++ more) time look := by
  obtain ⟨p, move, at', range⟩ := h
  exact ⟨p, move, getElem?_of_front (List.prefix_append _ _) at', range⟩

theorem Picked.concat {key : Bytes} {server : Nat} (h : Picked w past time key server)
    (more : History) : Picked w (past ++ more) time key server := by
  obtain ⟨look, looked, picked⟩ := h
  exact ⟨look, looked.concat more, picked⟩

theorem Told.lt {news : News} (h : Told past time id news) : time < past.length := by
  obtain ⟨p, move, operation, at', -⟩ := h
  exact (List.getElem?_eq_some_iff.mp at').1

theorem Told.concat {news : News} (h : Told past time id news) (more : History) :
    Told (past ++ more) time id news := by
  obtain ⟨p, move, operation, at', told⟩ := h
  exact ⟨p, move, operation, getElem?_of_front (List.prefix_append _ _) at', told⟩

theorem Told.of_concat {news : News} {more : History} (h : Told (past ++ more) time id news)
    (lt : time < past.length) : Told past time id news := by
  obtain ⟨p, move, operation, at', told⟩ := h
  exact ⟨p, move, operation, by rwa [List.getElem?_append_left lt] at at', told⟩

theorem Heard.concat {sent : Nat} (h : Heard past sent id time) (more : History) :
    Heard (past ++ more) sent id time where
  lt := h.lt
  told := by
    obtain ⟨news, told⟩ := h.told
    exact ⟨news, told.concat more⟩
  first t gt lt news told := by
    obtain ⟨_, before⟩ := h.told
    exact h.first t gt lt news (told.of_concat (Nat.lt_trans lt before.lt))

theorem Resent.concat {first : Sending} {servers left : List Nat}
    (h : Resent w past settings id first servers left) (more : History) :
    Resent w (past ++ more) settings id first servers left := by
  obtain ⟨heard, look, heard', looked, plan⟩ := h
  exact ⟨heard, look, heard'.concat more, looked.concat more, plan⟩

theorem Tried.concat {key : Bytes} {request : Store.Request} {first : Sending}
    {rest : List Sending} (h : Tried w past settings id key request first rest) (more : History) :
    Tried w (past ++ more) settings id key request first rest where
  same := h.same
  picked := h.picked.concat more
  resent := h.resent.imp_right (Exists.imp fun _ resent => resent.concat more)

theorem Trail.concat {plan : Plan} {place : Option Nat} {stage : Stage}
    {request : Option Store.Request} {trail : List Sending}
    (h : Trail w past settings start id plan place stage request trail) (more : History) :
    Trail w (past ++ more) settings start id plan place stage request trail := by
  cases h with
  | lookUp => exact .lookUp
  | read request tried => exact .read request (tried.concat more)
  | write picked => exact .write (picked.concat more)
  | fetch picked => exact .fetch (picked.concat more)
  | put picked told => exact .put (picked.concat more) (told.concat more)
  | delete part picked => exact .delete part (picked.concat more)
  | source part => exact .source part
  | sourceRead part request => exact .sourceRead part request
  | dest le request => exact .dest le request
  | replace le fetch told request => exact .replace le fetch (told.concat more) request

end Concat

section Next

variable {w : World} {past : History} {settings : Settings} {start id time server : Nat}
  {plan : Plan} {place : Option Nat} {asked : Option Store.Request} {sent : List Sending}

theorem Trail.of_storeRead {read : Read}
    (h : Trail w past settings start id plan none (.storeRead read) asked sent) :
    ∃ request first rest, plan = .read read ∧ asked = some request ∧ sent = first :: rest ∧
      read.request settings = .ok request ∧
      Tried w past settings id read.address.raw request first rest := by
  cases h with
  | read request tried => exact ⟨_, _, _, rfl, rfl, rfl, request, tried⟩

theorem Trail.of_cacheRead {read : Read}
    (h : Trail w past settings start id plan place (.cacheRead read) asked sent) : sent = [] := by
  cases h <;> rfl

theorem Trail.missed {read : Read} {request : Store.Request}
    (h : Trail w past settings start id plan place (.cacheRead read) asked sent)
    (composed : read.request settings = .ok request)
    (picked : Picked w past time read.address.raw server) :
    Trail w past settings start id plan place (.storeRead read) (some request)
      (sent ++ [⟨time, server, request⟩]) := by
  cases h with
  | lookUp => exact .read composed ⟨by simp, picked, Or.inl rfl⟩
  | source part => exact .sourceRead part composed

theorem Trail.answered {address : Address} {value : Bytes} {deferred : Store.Request}
    {answering : Nat} {siblings : List Store.Sibling} {vclock : Option Bytes}
    (h : Trail w past settings start id plan place (.awaitingVclock address value deferred) asked
      sent) (told : Told past time id (.response answering (.found siblings vclock))) :
    Trail w past settings start id plan place (.storeWrite (.put address value))
      (some (withVclock deferred vclock))
      (sent ++ [⟨time, server, withVclock deferred vclock⟩]) := by
  cases h with
  | fetch picked => exact .put picked told

theorem Trail.fetched {dest : Address} {members current : List Bytes} {answering : Nat}
    {context : Option Bytes} {request : Store.Request}
    (h : Trail w past settings start id plan place (.storeFetch dest members) asked sent)
    (told : Told past time id (.response answering (.set current context)))
    (replaces : Store.Request.setReplace settings dest.key current context members =
      .ok (some request)) :
    Trail w past settings start id plan place (.storeWrite (.store dest members)) (some request)
      (sent ++ [⟨time, server, request⟩]) := by
  cases h with
  | dest le fetch => exact .replace le fetch told replaces

end Next

structure Leftover (w : World) (past : History) (settings : Settings) (id : Nat)
    (operation : Operation) (first : Sending) (rest : List Sending) : Prop where
  primary : operation.primary = some first.server
  servers : (operation.resend.servers = none ∧ rest = [] ∧
      ∀ t, first.time < t → ∀ news, ¬ Told past t id news) ∨
    ∃ left, operation.resend.servers = some left ∧
      Resent w past settings id first (rest.map (·.server)) left

/-- An operation that is under way for the root has come as far as what was sent for it says. -/
structure Stands (w : World) (past : History) (start : Nat) (root : Root) (p : Proxy) (id : Nat)
    (operation : Operation) (sent : List Sending) : Prop where
  client : operation.client = root.client
  trail : ∃ place, root.At p operation.target place ∧
    Trail w past p.settings start id root.plan place operation.stage operation.request sent
  begun : (∃ slot op dest sources, operation.target = .client slot ∧
    root.plan = .combine op dest sources) ∨ id ∈ root.numbers
  fresh : ∀ read, operation.stage = .cacheRead read → operation.resend = {}
  left : ∀ read slot first rest, operation.stage = .storeRead read →
    operation.target = .client slot → sent = first :: rest →
    Leftover w past p.settings id operation first rest

end Proxy

end ReadThrough
