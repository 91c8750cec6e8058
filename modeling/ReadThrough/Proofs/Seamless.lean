import ReadThrough.Proofs.Buffers
import ReadThrough.Proofs.Containment
import ReadThrough.Proofs.Intake

namespace ReadThrough

def Action.closes (tier : Pool.Tier) (server : Nat) : Action → Bool
  | .closeCache s => tier = .cache ∧ s = server
  | .closeStore s => tier = .store ∧ s = server
  | _ => false

def Pool.Tier.arrival : Pool.Tier → Nat → Bytes → Event
  | .cache, server, data => .cacheData server data
  | .store, server, data => .storeData server data

theorem Pool.Tier.arrival_ne_drain (tier : Pool.Tier) (server : Nat) (data : Bytes) :
    tier.arrival server data ≠ .drain := by
  cases tier <;> rintro ⟨⟩

theorem Action.isClosing_of_closes {tier : Pool.Tier} {server : Nat} (action : Action) :
    (action.isClosing && action.closes tier server) = action.closes tier server := by
  cases action <;> rfl

namespace Proxy

theorem outbox_step (w : World) {p : Proxy} (tidy : Tidy p []) {event : Event}
    (drains : event ≠ .drain) :
    (p.step w event).outbox = p.outbox ++ emitted w p (moves w p event) := by
  rw [← play_moves]
  refine outbox_play tidy ?_
  rintro move hm rfl
  cases arises_of_mem hm
  exact drains rfl

def severs (w : World) (tier : Pool.Tier) (server : Nat) (p : Proxy) (data : Bytes) : Bool :=
  ((p.step w (tier.arrival server data)).outbox.drop p.outbox.length).any
    (Action.closes tier server)

def outcome (w : World) (tier : Pool.Tier) (server : Nat) (p : Proxy) (ms : List Move) :
    Except Proxy Proxy :=
  if (ms.flatMap Move.notice).any (Action.closes tier server) then .error (play w p ms)
  else .ok (play w p ms)

section Outcome

variable {w : World} {tier : Pool.Tier} {server : Nat} {p : Proxy}

theorem severs_eq (tidy : Tidy p []) (data : Bytes) : severs w tier server p data =
    ((moves w p (tier.arrival server data)).flatMap Move.notice).any
      (Action.closes tier server) := by
  rw [severs, outbox_step w tidy (tier.arrival_ne_drain server data), List.drop_left,
    ← closings_emitted tidy, List.any_filter]
  exact congrArg (List.any _) (funext fun action => action.isClosing_of_closes.symm)

theorem outcome_moves (tidy : Tidy p []) (data : Bytes) :
    outcome w tier server p (moves w p (tier.arrival server data)) =
      if severs w tier server p data then .error (p.step w (tier.arrival server data))
      else .ok (p.step w (tier.arrival server data)) := by
  rw [outcome, severs_eq tidy, play_moves]

theorem outcome_cons {move : Move} (calm : move.notice = []) (ms : List Move) :
    outcome w tier server p (move :: ms) = outcome w tier server (move.apply w p) ms := by
  rw [outcome, List.flatMap_cons, calm]
  rfl

theorem outcome_cacheClose :
    outcome w .cache server p (.cacheProtest server :: cacheLossMoves p server) =
      .error (p.closeCache w server) := by
  rw [outcome, play_cacheCloseMoves, if_pos]
  simp [Move.notice, Action.closes]

theorem outcome_storeClose (why : Failure) :
    outcome w .store server p (storeCloseMoves p server why) =
      .error (p.closeStore w server why) := by
  rw [outcome, play_storeCloseMoves, notice_storeCloseMoves, if_pos]
  simp [Action.closes]

end Outcome

section Cache

variable (w : World) (server : Nat)

def cacheIntake : Intake Resp.Value where
  reader := Resp.reader
  inbound p := (p.cacheLink server).inbound.bytes
  begin := id
  answer p value :=
    match (p.cacheLink server).pending with
    | [] => .error (p.closeCache w server)
    | _ :: _ => .ok ((Move.cacheAnswer server value).apply w p)
  hold p rest := (Move.cacheHold server rest).apply w p
  refuse p _ := p.closeCache w server

theorem take_cacheIntake (ending : Ending) (values : List Resp.Value) (p : Proxy) :
    (cacheIntake w server).take ending values p =
      outcome w .cache server p (cacheMoves w server ending values p) := by
  induction values generalizing p with
  | nil =>
      cases ending with
      | waiting rest => rfl
      | refused why => exact outcome_cacheClose.symm
  | cons value values ih =>
      rw [Intake.take_cons, cacheMoves]
      simp only [cacheIntake]
      cases (p.cacheLink server).pending with
      | nil => exact outcome_cacheClose.symm
      | cons entry pending =>
          dsimp only
          rw [outcome_cons rfl, ← ih]
          rfl

variable {p : Proxy}

theorem cacheHold_cacheHold (p : Proxy) (rest left : Bytes) :
    (Move.cacheHold server left).apply w ((Move.cacheHold server rest).apply w p) =
      (Move.cacheHold server left).apply w p := by
  simp only [Move.apply, setCache, cacheLink, Table.get?_insert_self, Table.insert_insert_self]
  rfl

theorem closeCache_cacheHold (p : Proxy) (rest : Bytes) :
    ((Move.cacheHold server rest).apply w p).closeCache w server = p.closeCache w server := by
  simp only [closeCache, loseCache, emit, Move.apply, setCache, cacheLink, Table.get?_insert_self,
    Option.getD_some, Table.erase_insert_self]

theorem known_of_cachePending {entry : CacheEntry} {pending : List CacheEntry}
    (waiting : (p.cacheLink server).pending = entry :: pending) :
    p.caches.get? server ≠ none := by
  intro absent
  rw [cacheLink, absent] at waiting
  cases waiting

theorem answer_cacheHold (tidy : Tidy p []) (rest : Bytes) (value : Resp.Value) :
    (cacheIntake w server).answer ((cacheIntake w server).hold p rest) value =
      ((cacheIntake w server).answer p value).map ((cacheIntake w server).hold · rest) := by
  have same : (((Move.cacheHold server rest).apply w p).cacheLink server).pending =
      (p.cacheLink server).pending := by
    simp only [Move.apply, setCache, cacheLink, Table.get?_insert_self, Option.getD_some]
  simp only [cacheIntake]
  rw [same]
  cases waiting : (p.cacheLink server).pending with
  | nil => exact congrArg Except.error (closeCache_cacheHold w server p rest)
  | cons entry pending =>
      exact congrArg Except.ok
        (cacheAnswer_cacheHold w rest tidy value (known_of_cachePending server waiting))

theorem tidy_of_cacheIntake {q : Proxy} {value : Resp.Value} (tidy : Tidy p [])
    (answered : (cacheIntake w server).answer p value = .ok q) : Tidy q [] := by
  simp only [cacheIntake] at answered
  split at answered <;> cases answered
  exact tidy.apply w _

theorem lawful_cacheIntake : (cacheIntake w server).Lawful w
    (Pool.Tier.cache.arrival server) (severs w .cache server) (Tidy · []) (Tidy · []) where
  steady := Resp.steady_parse
  begin tidy := tidy
  answer := tidy_of_cacheIntake w server
  hold rest tidy := tidy.apply w (.cacheHold server rest)
  inbound p rest := congrArg Buffer.bytes ((inbound_cacheHold w rest server).trans (if_pos rfl))
  resume := Intake.take_hold (tidy_of_cacheIntake w server) (cacheHold_cacheHold w server)
    (fun p rest _ => closeCache_cacheHold w server p rest)
    (fun rest value tidy => answer_cacheHold w server tidy rest value)
  step tidy data := by
    rw [← outcome_moves tidy]
    exact take_cacheIntake w server _ _ _

end Cache

section Store

variable (w : World) (server : Nat)

def storeIntake : Intake Store.Frame where
  reader := Store.Frame.reader
  inbound p := (p.storeLink server).inbound.bytes
  begin := id
  answer p frame :=
    match (p.storeLink server).pending with
    | [] => .error (p.closeStore w server (.unrequestedResponse frame.code))
    | (_, kind) :: _ =>
        let q := (Move.storeAnswer server frame).apply w p
        match Store.Response.decode frame.code frame.payload kind with
        | .ok _ => .ok q
        | .error why =>
            if why.kind.isFatalToConnection then .error (q.closeStore w server why) else .ok q
  hold p rest := (Move.storeHold server rest).apply w p
  refuse p why := p.closeStore w server why

theorem take_storeIntake (ending : Ending) (frames : List Store.Frame) (p : Proxy) :
    (storeIntake w server).take ending frames p =
      outcome w .store server p (storeMoves w server ending frames p) := by
  induction frames generalizing p with
  | nil =>
      cases ending with
      | waiting rest => rfl
      | refused why => exact (outcome_storeClose why).symm
  | cons frame frames ih =>
      rw [Intake.take_cons, storeMoves]
      simp only [storeIntake]
      cases (p.storeLink server).pending with
      | nil => exact (outcome_storeClose _).symm
      | cons entry pending =>
          dsimp only
          rw [outcome_cons rfl]
          cases Store.Response.decode frame.code frame.payload entry.2 with
          | ok response => exact ih _
          | error why =>
              dsimp only
              split
              · exact (outcome_storeClose why).symm
              · exact ih _

variable {p : Proxy}

theorem storeHold_storeHold (p : Proxy) (rest left : Bytes) :
    (Move.storeHold server left).apply w ((Move.storeHold server rest).apply w p) =
      (Move.storeHold server left).apply w p := by
  simp only [Move.apply, setStore, storeLink, Table.get?_insert_self, Table.insert_insert_self]
  rfl

theorem closeStore_storeHold (p : Proxy) (rest : Bytes) (why : Failure) :
    ((Move.storeHold server rest).apply w p).closeStore w server why =
      p.closeStore w server why := by
  simp only [closeStore, eraseStore, emit, Move.apply, setStore, storeLink, Table.get?_insert_self,
    Option.getD_some, Table.erase_insert_self]

theorem known_of_storePending {entry : Nat × Store.RequestKind}
    {pending : List (Nat × Store.RequestKind)}
    (waiting : (p.storeLink server).pending = entry :: pending) :
    p.stores.get? server ≠ none := by
  intro absent
  rw [storeLink, absent] at waiting
  cases waiting

theorem answer_storeHold (tidy : Tidy p []) (rest : Bytes) (frame : Store.Frame) :
    (storeIntake w server).answer ((storeIntake w server).hold p rest) frame =
      ((storeIntake w server).answer p frame).map ((storeIntake w server).hold · rest) := by
  have same : (((Move.storeHold server rest).apply w p).storeLink server).pending =
      (p.storeLink server).pending := by
    simp only [Move.apply, setStore, storeLink, Table.get?_insert_self, Option.getD_some]
  simp only [storeIntake]
  rw [same]
  cases waiting : (p.storeLink server).pending with
  | nil => exact congrArg Except.error (closeStore_storeHold w server p rest _)
  | cons entry pending =>
      have swapped :=
        storeAnswer_storeHold w rest tidy frame (known_of_storePending server waiting)
      dsimp only
      rw [swapped]
      cases Store.Response.decode frame.code frame.payload entry.2 with
      | ok response => rfl
      | error why =>
          dsimp only
          rw [closeStore_storeHold]
          split <;> rfl

theorem tidy_of_storeIntake {q : Proxy} {frame : Store.Frame} (tidy : Tidy p [])
    (answered : (storeIntake w server).answer p frame = .ok q) : Tidy q [] := by
  simp only [storeIntake] at answered
  split at answered
  · cases answered
  · split at answered
    · cases answered
      exact tidy.apply w _
    · split at answered <;> cases answered
      exact tidy.apply w _

theorem lawful_storeIntake : (storeIntake w server).Lawful w
    (Pool.Tier.store.arrival server) (severs w .store server) (Tidy · []) (Tidy · []) where
  steady := Store.Frame.steady_decode
  begin tidy := tidy
  answer := tidy_of_storeIntake w server
  hold rest tidy := tidy.apply w (.storeHold server rest)
  inbound p rest := congrArg Buffer.bytes ((inbound_storeHold w rest server).trans (if_pos rfl))
  resume := Intake.take_hold (tidy_of_storeIntake w server) (storeHold_storeHold w server)
    (closeStore_storeHold w server)
    (fun rest frame tidy => answer_storeHold w server tidy rest frame)
  step tidy data := by
    rw [← outcome_moves tidy]
    exact take_storeIntake w server _ _ _

end Store

/-- What a server sends in pieces comes to what it would come to at once, up to the piece that
closes the connection. What waits after that is no whole message. -/
structure Seamless (w : World) (p : Proxy) : Prop where
  pieces : ∀ (tier : Pool.Tier) (server : Nat) (first : Bytes) (more : List Bytes),
    feed w (tier.arrival server) (severs w tier server) p (first :: more) =
      p.step w (tier.arrival server (first ++ more.flatten))
  values : ∀ server data,
    (p.arrivedValues server data).1.length ≤ (p.cacheLink server).inbound.bytes.length + data.length
  frames : ∀ server data,
    (p.arrivedFrames server data).1.length ≤ (p.storeLink server).inbound.bytes.length + data.length
  cacheRest : ∀ server data, severs w .cache server p data = false →
    let rest := ((p.step w (.cacheData server data)).cacheLink server).inbound.bytes
    (p.arrivedValues server data).2 = .waiting rest ∧ Resp.parse rest = .incomplete
  storeRest : ∀ server data, severs w .store server p data = false →
    let rest := ((p.step w (.storeData server data)).storeLink server).inbound.bytes
    (p.arrivedFrames server data).2 = .waiting rest ∧ Store.Frame.decode rest = .incomplete

theorem seamless_of_tidy (w : World) {p : Proxy} (tidy : Tidy p []) : Seamless w p where
  pieces tier server first more :=
    match tier with
    | .cache => (lawful_cacheIntake w server).feed_cons tidy first more
    | .store => (lawful_storeIntake w server).feed_cons tidy first more
  values _ _ := Nat.le_trans (Reader.length_stream_le _ _) (Nat.le_of_eq List.length_append)
  frames _ _ := Nat.le_trans (Reader.length_stream_le _ _) (Nat.le_of_eq List.length_append)
  cacheRest server _ goes := (lawful_cacheIntake w server).rest tidy goes
  storeRest server _ goes := (lawful_storeIntake w server).rest tidy goes

theorem seamless_run (w : World) (settings : Settings) (policy : BucketPolicy)
    (events : List Event) : Seamless w ((start settings policy).run w events) := by
  have tidy := (Tidy.start settings policy).play w (course w (start settings policy) events)
  rw [play_course] at tidy
  exact seamless_of_tidy w tidy

end Proxy

end ReadThrough
