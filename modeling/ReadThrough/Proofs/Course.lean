import ReadThrough.Proxy.Event

/-!
An event is made of moves, each of which deals with one message or with one operation. The course
of a run is the list of its moves; playing them is running the events.
-/

namespace ReadThrough.Proxy

inductive Move where
  | hold (client : Nat) (rest : Bytes)
  | request (client : Nat) (content : Except Failure Command)
  | hangUp (client : Nat)
  | cacheHold (server : Nat) (rest : Bytes)
  | cacheAnswer (server : Nat) (value : Resp.Value)
  | cacheProtest (server : Nat)
  | cacheLoss (server : Nat)
  | cacheSilence (entry : CacheEntry)
  | storeHold (server : Nat) (rest : Bytes)
  | storeAnswer (server : Nat) (frame : Store.Frame)
  | storeProtest (server : Nat)
  | storeLoss (server : Nat)
  | storeReset (id : Nat) (why : Failure)
  | storeSilence (server id : Nat) (reason : String)
  | policy (newest : BucketPolicy)
  | drain

def resume (p : Proxy) (id : Nat) (handler : Proxy → Operation → Proxy) : Proxy :=
  match p.takeOperation id with
  | none => p
  | some (operation, p) => handler p operation

def frameHandler (w : World) (server id : Nat) (kind : Store.RequestKind) (frame : Store.Frame)
    (p : Proxy) (operation : Operation) : Proxy :=
  match Store.Response.decode frame.code frame.payload kind with
  | .ok response => p.storeResponse w id operation server response
  | .error why => p.failWith w operation (.undecodableResponse why)

namespace Move

def apply (w : World) (p : Proxy) : Move → Proxy
  | .hold client rest => p.setClient client { p.client client with inbound := ⟨rest⟩ }
  | .request client (.ok command) => p.clientCommand w client command
  | .request client (.error why) => p.reject client why
  | .hangUp client => p.clientClosed client
  | .cacheHold server rest => p.setCache server { p.cacheLink server with inbound := ⟨rest⟩ }
  | .cacheAnswer server value =>
      match (p.cacheLink server).pending with
      | [] => p
      | entry :: pending =>
          (p.setCache server { p.cacheLink server with pending }).cacheAnswer w entry value
  | .cacheProtest server => p.emit (.closeCache server)
  | .cacheLoss server => { p with caches := p.caches.erase server }
  | .cacheSilence entry => p.cacheSilence w entry
  | .storeHold server rest => p.setStore server { p.storeLink server with inbound := ⟨rest⟩ }
  | .storeAnswer server frame =>
      match (p.storeLink server).pending with
      | [] => p
      | (id, kind) :: pending =>
          (p.setStore server { p.storeLink server with pending }).resume id
            (frameHandler w server id kind frame)
  | .storeProtest server => p.emit (.closeStore server)
  | .storeLoss server => p.eraseStore server
  | .storeReset id why =>
      p.resume id fun p operation => p.failWith w operation (.connectionReset why)
  | .storeSilence server id reason =>
      p.resume id fun p operation => p.retryOrFail w id operation server reason
  | .policy newest => { p with policy := p.policy.deliver newest }
  | .drain => p.drain.2

def Expected (p : Proxy) : Move → Prop
  | .cacheAnswer server _ => (p.cacheLink server).pending ≠ []
  | .storeAnswer server _ => (p.storeLink server).pending ≠ []
  | _ => True

end Move

def play (w : World) (p : Proxy) (moves : List Move) : Proxy :=
  moves.foldl (fun p move => move.apply w p) p

section Course

variable (w : World)

def cacheLossMoves (p : Proxy) (server : Nat) : List Move :=
  .cacheLoss server :: (p.cacheLink server).pending.map .cacheSilence

def cacheMoves (server : Nat) (ending : Ending) : List Resp.Value → Proxy → List Move
  | [], p =>
      match ending with
      | .waiting rest => [.cacheHold server rest]
      | .refused _ => .cacheProtest server :: cacheLossMoves p server
  | value :: values, p =>
      match (p.cacheLink server).pending with
      | [] => .cacheProtest server :: cacheLossMoves p server
      | _ :: _ =>
          .cacheAnswer server value ::
            cacheMoves server ending values ((Move.cacheAnswer server value).apply w p)

def storeLossMoves (p : Proxy) (server : Nat) (reason : String) : List Move :=
  .storeLoss server ::
    (p.storeLink server).pending.map fun entry => .storeSilence server entry.1 reason

def storeCloseMoves (p : Proxy) (server : Nat) (why : Failure) : List Move :=
  .storeProtest server :: .storeLoss server ::
    (p.storeLink server).pending.map fun entry => .storeReset entry.1 why

def storeMoves (server : Nat) (ending : Ending) : List Store.Frame → Proxy → List Move
  | [], p =>
      match ending with
      | .waiting rest => [.storeHold server rest]
      | .refused why => storeCloseMoves p server why
  | frame :: frames, p =>
      match (p.storeLink server).pending with
      | [] => storeCloseMoves p server (.unrequestedResponse frame.code)
      | (_, kind) :: _ =>
          let q := (Move.storeAnswer server frame).apply w p
          .storeAnswer server frame ::
            match Store.Response.decode frame.code frame.payload kind with
            | .ok _ => storeMoves server ending frames q
            | .error why =>
                if why.kind.isFatalToConnection then storeCloseMoves q server why
                else storeMoves server ending frames q

def endingMove (client : Nat) : Ending → Move
  | .waiting rest => .hold client rest
  | .refused why => .request client (.error why)

def moves (p : Proxy) : Event → List Move
  | .clientData client data =>
      let (values, ending) := Resp.reader.stream ((p.client client).inbound.append data).bytes
      .hold client [] ::
        (values.map (fun value => .request client (Command.ofValue value)) ++
          [endingMove client ending])
  | .command client command => [.request client (.ok command)]
  | .clientClosed client => [.hangUp client]
  | .cacheData server data =>
      let (values, ending) :=
        Resp.reader.stream ((p.cacheLink server).inbound.append data).bytes
      cacheMoves w server ending values p
  | .cacheClosed server => cacheLossMoves p server
  | .storeData server data =>
      let (frames, ending) :=
        Store.Frame.reader.stream ((p.storeLink server).inbound.append data).bytes
      storeMoves w server ending frames p
  | .storeClosed server => storeLossMoves p server "connection closed"
  | .storeTimeout server =>
      .storeProtest server :: storeLossMoves p server "request timed out"
  | .policy policy => [.policy policy]
  | .drain => [.drain]

def course (p : Proxy) : List Event → List Move
  | [] => []
  | event :: events => moves w p event ++ course (p.step w event) events

end Course

section Play

variable (w : World) (p : Proxy)

@[simp] theorem play_nil : play w p [] = p := rfl

@[simp] theorem play_cons (move : Move) (rest : List Move) :
    play w p (move :: rest) = play w (move.apply w p) rest := rfl

theorem play_append (before after : List Move) :
    play w p (before ++ after) = play w (play w p before) after :=
  List.foldl_append

theorem play_concat (before : List Move) (move : Move) :
    play w p (before ++ [move]) = move.apply w (play w p before) := by
  rw [play_append, play_cons, play_nil]

theorem take_succ {ms : List Move} {time : Nat} {move : Move} (made : ms[time]? = some move) :
    ms.take (time + 1) = ms.take time ++ [move] := by
  rw [List.take_add_one, made, Option.toList_some]

theorem play_take_succ {ms : List Move} {time : Nat} {move : Move}
    (made : ms[time]? = some move) :
    play w p (ms.take (time + 1)) = move.apply w (play w p (ms.take time)) := by
  rw [take_succ made, play_concat]

theorem play_map {α : Type} (f : α → Move) (xs : List α) :
    play w p (xs.map f) = xs.foldl (fun p x => (f x).apply w p) p :=
  List.foldl_map

theorem play_cacheLossMoves (server : Nat) :
    play w p (cacheLossMoves p server) = p.loseCache w server := by
  rw [cacheLossMoves, play_cons, play_map]
  rfl

theorem play_cacheCloseMoves (server : Nat) :
    play w p (.cacheProtest server :: cacheLossMoves p server) = p.closeCache w server := by
  rw [play_cons]
  exact play_cacheLossMoves w (p.emit (.closeCache server)) server

theorem play_cacheMoves (server : Nat) (ending : Ending) (values : List Resp.Value) :
    play w p (cacheMoves w server ending values p) = cacheValues w server ending values p := by
  induction values generalizing p with
  | nil =>
      cases ending with
      | waiting rest => rfl
      | refused why => exact play_cacheCloseMoves w p server
  | cons value values ih =>
      unfold cacheMoves cacheValues
      dsimp only
      cases hp : (p.cacheLink server).pending with
      | nil => exact play_cacheCloseMoves w p server
      | cons entry pending =>
          dsimp only
          rw [play_cons, ih]
          simp only [Move.apply, hp]

theorem play_storeLossMoves (server : Nat) (reason : String) :
    play w p (storeLossMoves p server reason) = p.loseStore w server reason := by
  rw [storeLossMoves, play_cons, play_map]
  rfl

theorem play_storeCloseMoves (server : Nat) (why : Failure) :
    play w p (storeCloseMoves p server why) = p.closeStore w server why := by
  rw [storeCloseMoves, play_cons, play_cons, play_map]
  rfl

theorem play_storeMoves (server : Nat) (ending : Ending) (frames : List Store.Frame) :
    play w p (storeMoves w server ending frames p) = storeFrames w server ending frames p := by
  induction frames generalizing p with
  | nil =>
      cases ending with
      | waiting rest => rfl
      | refused why => exact play_storeCloseMoves w p server why
  | cons frame frames ih =>
      unfold storeMoves storeFrames
      dsimp only
      cases hp : (p.storeLink server).pending with
      | nil => exact play_storeCloseMoves w p server _
      | cons entry pending =>
          obtain ⟨id, kind⟩ := entry
          dsimp only
          rw [play_cons]
          cases hd : Store.Response.decode frame.code frame.payload kind with
          | ok response =>
              dsimp only
              rw [ih]
              cases taken :
                  (p.setStore server { p.storeLink server with pending }).takeOperation id <;>
                simp only [Move.apply, hp, resume, frameHandler, hd, taken]
          | error why =>
              dsimp only
              have answered : (Move.storeAnswer server frame).apply w p =
                  let q := p.setStore server { p.storeLink server with pending }
                  match q.takeOperation id with
                  | none => q
                  | some (operation, q) => q.failWith w operation (.undecodableResponse why) := by
                dsimp only
                cases taken :
                    (p.setStore server { p.storeLink server with pending }).takeOperation id <;>
                  simp only [Move.apply, hp, resume, frameHandler, hd, taken]
              split
              · rw [play_storeCloseMoves]
                exact congrArg (closeStore w · server why) answered
              · rw [ih]
                exact congrArg (storeFrames w server ending frames) answered

theorem apply_request_ofValue (client : Nat) (value : Resp.Value) :
    (Move.request client (Command.ofValue value)).apply w p = p.clientValue w client value := by
  unfold clientValue
  cases Command.ofValue value <;> rfl

theorem play_moves (event : Event) : play w p (moves w p event) = p.step w event := by
  cases event with
  | clientData client data =>
      simp only [moves, play_cons, play_append, play_map, play_nil, apply_request_ofValue]
      unfold step clientData
      dsimp only
      cases (Resp.reader.stream ((p.client client).inbound.append data).bytes).2 <;> rfl
  | command client command => rfl
  | clientClosed client => rfl
  | cacheData server data => exact play_cacheMoves w p server _ _
  | cacheClosed server => exact play_cacheLossMoves w p server
  | storeData server data => exact play_storeMoves w p server _ _
  | storeClosed server => exact play_storeLossMoves w p server _
  | storeTimeout server => exact play_storeLossMoves w (p.emit (.closeStore server)) server _
  | policy policy => rfl
  | drain => rfl

theorem play_course (events : List Event) : play w p (course w p events) = p.run w events := by
  induction events generalizing p with
  | nil => rfl
  | cons event events ih =>
      rw [course, play_append, play_moves, ih]
      rfl

theorem course_append (before after : List Event) :
    course w p (before ++ after) = course w p before ++ course w (p.run w before) after := by
  induction before generalizing p with
  | nil => rfl
  | cons event before ih =>
      rw [List.cons_append, course, ih, course, List.append_assoc]
      rfl

end Play

inductive Arises : Event → Move → Prop where
  | hold (client : Nat) (data rest : Bytes) :
      Arises (.clientData client data) (.hold client rest)
  | value (client : Nat) (data : Bytes) (value : Resp.Value) :
      Arises (.clientData client data) (.request client (Command.ofValue value))
  | refused (client : Nat) (data : Bytes) (why : Failure) :
      Arises (.clientData client data) (.request client (.error why))
  | command (client : Nat) (command : Command) :
      Arises (.command client command) (.request client (.ok command))
  | hangUp (client : Nat) : Arises (.clientClosed client) (.hangUp client)
  | cacheHold (server : Nat) (data rest : Bytes) :
      Arises (.cacheData server data) (.cacheHold server rest)
  | cacheAnswer (server : Nat) (data : Bytes) (value : Resp.Value) :
      Arises (.cacheData server data) (.cacheAnswer server value)
  | cacheProtest (server : Nat) (data : Bytes) :
      Arises (.cacheData server data) (.cacheProtest server)
  | cacheTorn (server : Nat) (data : Bytes) : Arises (.cacheData server data) (.cacheLoss server)
  | cacheMissed (server : Nat) (data : Bytes) (entry : CacheEntry) :
      Arises (.cacheData server data) (.cacheSilence entry)
  | cacheLoss (server : Nat) : Arises (.cacheClosed server) (.cacheLoss server)
  | cacheSilence (server : Nat) (entry : CacheEntry) :
      Arises (.cacheClosed server) (.cacheSilence entry)
  | storeHold (server : Nat) (data rest : Bytes) :
      Arises (.storeData server data) (.storeHold server rest)
  | storeAnswer (server : Nat) (data : Bytes) (frame : Store.Frame) :
      Arises (.storeData server data) (.storeAnswer server frame)
  | storeProtest (server : Nat) (data : Bytes) :
      Arises (.storeData server data) (.storeProtest server)
  | storeTorn (server : Nat) (data : Bytes) : Arises (.storeData server data) (.storeLoss server)
  | storeReset (server : Nat) (data : Bytes) (id : Nat) (why : Failure) :
      Arises (.storeData server data) (.storeReset id why)
  | storeLoss (server : Nat) : Arises (.storeClosed server) (.storeLoss server)
  | storeSilence (server id : Nat) (reason : String) :
      Arises (.storeClosed server) (.storeSilence server id reason)
  | timeoutProtest (server : Nat) : Arises (.storeTimeout server) (.storeProtest server)
  | timeoutLoss (server : Nat) : Arises (.storeTimeout server) (.storeLoss server)
  | timeoutSilence (server id : Nat) (reason : String) :
      Arises (.storeTimeout server) (.storeSilence server id reason)
  | policy (newest : BucketPolicy) : Arises (.policy newest) (.policy newest)
  | drain : Arises .drain .drain

section Arises

variable {w : World} {p : Proxy} {server : Nat} {data : Bytes} {move : Move}

theorem arises_cacheCloseMoves (h : move ∈ Move.cacheProtest server :: cacheLossMoves p server) :
    Arises (.cacheData server data) move := by
  rcases List.mem_cons.mp h with rfl | h
  · exact .cacheProtest server data
  · rcases List.mem_cons.mp h with rfl | h
    · exact .cacheTorn server data
    · obtain ⟨entry, -, rfl⟩ := List.mem_map.mp h
      exact .cacheMissed server data entry

theorem arises_cacheMoves {ending : Ending} {values : List Resp.Value}
    (h : move ∈ cacheMoves w server ending values p) : Arises (.cacheData server data) move := by
  induction values generalizing p with
  | nil =>
      cases ending with
      | waiting rest =>
          obtain rfl := List.mem_singleton.mp h
          exact .cacheHold server data rest
      | refused why => exact arises_cacheCloseMoves h
  | cons value values ih =>
      unfold cacheMoves at h
      split at h
      · exact arises_cacheCloseMoves h
      · rcases List.mem_cons.mp h with rfl | h
        · exact .cacheAnswer server data value
        · exact ih h

theorem arises_storeCloseMoves {why : Failure} (h : move ∈ storeCloseMoves p server why) :
    Arises (.storeData server data) move := by
  rcases List.mem_cons.mp h with rfl | h
  · exact .storeProtest server data
  · rcases List.mem_cons.mp h with rfl | h
    · exact .storeTorn server data
    · obtain ⟨entry, -, rfl⟩ := List.mem_map.mp h
      exact .storeReset server data entry.1 why

theorem arises_storeMoves {ending : Ending} {frames : List Store.Frame}
    (h : move ∈ storeMoves w server ending frames p) : Arises (.storeData server data) move := by
  induction frames generalizing p with
  | nil =>
      cases ending with
      | waiting rest =>
          obtain rfl := List.mem_singleton.mp h
          exact .storeHold server data rest
      | refused why => exact arises_storeCloseMoves h
  | cons frame frames ih =>
      unfold storeMoves at h
      split at h
      · exact arises_storeCloseMoves h
      · rcases List.mem_cons.mp h with rfl | h
        · exact .storeAnswer server data frame
        · split at h
          · exact ih h
          · split at h
            · exact arises_storeCloseMoves h
            · exact ih h

theorem arises_of_mem {event : Event} (h : move ∈ moves w p event) : Arises event move := by
  cases event with
  | clientData client data =>
      simp only [moves, List.mem_cons, List.mem_append, List.mem_map, List.not_mem_nil,
        or_false] at h
      rcases h with rfl | ⟨value, -, rfl⟩ | rfl
      · exact .hold client data []
      · exact .value client data value
      · unfold endingMove
        split
        · exact .hold client data _
        · exact .refused client data _
  | command client command =>
      obtain rfl := List.mem_singleton.mp h
      exact .command client command
  | clientClosed client =>
      obtain rfl := List.mem_singleton.mp h
      exact .hangUp client
  | cacheData server data => exact arises_cacheMoves h
  | cacheClosed server =>
      rcases List.mem_cons.mp h with rfl | h
      · exact .cacheLoss server
      · obtain ⟨entry, -, rfl⟩ := List.mem_map.mp h
        exact .cacheSilence server entry
  | storeData server data => exact arises_storeMoves h
  | storeClosed server =>
      rcases List.mem_cons.mp h with rfl | h
      · exact .storeLoss server
      · obtain ⟨entry, -, rfl⟩ := List.mem_map.mp h
        exact .storeSilence server entry.1 _
  | storeTimeout server =>
      rcases List.mem_cons.mp h with rfl | h
      · exact .timeoutProtest server
      · rcases List.mem_cons.mp h with rfl | h
        · exact .timeoutLoss server
        · obtain ⟨entry, -, rfl⟩ := List.mem_map.mp h
          exact .timeoutSilence server entry.1 _
  | policy newest =>
      obtain rfl := List.mem_singleton.mp h
      exact .policy newest
  | drain =>
      obtain rfl := List.mem_singleton.mp h
      exact .drain

theorem arises_of_mem_course {events : List Event} (h : move ∈ course w p events) :
    ∃ event ∈ events, Arises event move := by
  induction events generalizing p with
  | nil => cases h
  | cons event events ih =>
      rcases List.mem_append.mp h with h | h
      · exact ⟨event, List.mem_cons_self, arises_of_mem h⟩
      · obtain ⟨e, he, ha⟩ := ih h
        exact ⟨e, List.mem_cons_of_mem _ he, ha⟩

end Arises

end ReadThrough.Proxy
