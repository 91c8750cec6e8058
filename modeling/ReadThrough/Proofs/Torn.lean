import Mathlib.Data.List.Nodup
import ReadThrough.Proofs.Faults
import ReadThrough.Proofs.Tickets

namespace ReadThrough.Proxy

inductive Tears (p : Proxy) : List Ticket → Move → List Ticket → Prop where
  | steady {torn : List Ticket} {move : Move} : move.Steady → Tears p torn move torn
  | hangUp {torn : List Ticket} (client : Nat) : Tears p torn (.hangUp client) torn
  | cacheLoss (server : Nat) : Tears p [] (.cacheLoss server) (p.cacheLink server).tickets
  | cacheSilence {torn : List Ticket} (entry : CacheEntry) :
      Tears p (entry.ticket?.toList ++ torn) (.cacheSilence entry) torn
  | storeLoss (server : Nat) : Tears p [] (.storeLoss server) (p.storeLink server).tickets
  | storeReset {torn : List Ticket} (id : Nat) (kind : Store.RequestKind) (why : Failure) :
      Tears p ((id, some kind) :: torn) (.storeReset id why) torn
  | storeSilence {torn : List Ticket} (server id : Nat) (kind : Store.RequestKind)
      (reason : String) : Tears p ((id, some kind) :: torn) (.storeSilence server id reason) torn

inductive Mends (w : World) : Proxy → List Ticket → List Move → Prop where
  | nil {p : Proxy} : Mends w p [] []
  | cons {p : Proxy} {torn rest : List Ticket} {move : Move} {ms : List Move} :
      Tears p torn move rest → Mends w (move.apply w p) rest ms → Mends w p torn (move :: ms)

namespace Mends

variable {w : World} {p : Proxy} {torn : List Ticket} {ms more : List Move}

theorem steady (h : ∀ move ∈ ms, move.Steady) : Mends w p [] ms := by
  induction ms generalizing p with
  | nil => exact .nil
  | cons move ms ih =>
      refine .cons (.steady (h move List.mem_cons_self)) (ih ?_)
      exact fun m hm => h m (List.mem_cons_of_mem _ hm)

theorem append (h : Mends w p torn ms) (h' : Mends w (play w p ms) [] more) :
    Mends w p torn (ms ++ more) := by
  induction h with
  | nil => exact h'
  | cons tears _ ih => exact .cons tears (ih h')

theorem cacheSilences (pending : List CacheEntry) :
    Mends w p (pending.filterMap CacheEntry.ticket?) (pending.map .cacheSilence) := by
  induction pending generalizing p with
  | nil => exact .nil
  | cons entry pending ih =>
      have first : (entry :: pending).filterMap CacheEntry.ticket? =
          entry.ticket?.toList ++ pending.filterMap CacheEntry.ticket? := by
        cases entry <;> rfl
      rw [first]
      exact .cons (.cacheSilence entry) ih

theorem storeResets (why : Failure) (pending : List (Nat × Store.RequestKind)) :
    Mends w p (pending.map fun entry => (entry.1, some entry.2))
      (pending.map fun entry => .storeReset entry.1 why) := by
  induction pending generalizing p with
  | nil => exact .nil
  | cons entry pending ih => exact .cons (.storeReset entry.1 entry.2 why) ih

theorem storeSilences (server : Nat) (reason : String) (pending : List (Nat × Store.RequestKind)) :
    Mends w p (pending.map fun entry => (entry.1, some entry.2))
      (pending.map fun entry => .storeSilence server entry.1 reason) := by
  induction pending generalizing p with
  | nil => exact .nil
  | cons entry pending ih => exact .cons (.storeSilence server entry.1 entry.2 reason) ih

theorem cacheLossMoves (server : Nat) : Mends w p [] (cacheLossMoves p server) :=
  .cons (.cacheLoss server) (cacheSilences _)

theorem cacheCloseMoves (server : Nat) :
    Mends w p [] (.cacheProtest server :: Proxy.cacheLossMoves p server) :=
  .cons (.steady trivial) (.cons (.cacheLoss server) (cacheSilences _))

theorem storeLossMoves (server : Nat) (reason : String) :
    Mends w p [] (storeLossMoves p server reason) :=
  .cons (.storeLoss server) (storeSilences server reason _)

theorem storeCloseMoves (server : Nat) (why : Failure) :
    Mends w p [] (storeCloseMoves p server why) :=
  .cons (.steady trivial) (.cons (.storeLoss server) (storeResets why _))

theorem cacheMoves (server : Nat) (ending : Ending) (values : List Resp.Value) :
    Mends w p [] (cacheMoves w server ending values p) := by
  obtain ⟨good, left, after, -, course, ends⟩ := cacheMoves_cases w server ending values p
  have answers : Mends w p [] (good.map (.cacheAnswer server)) :=
    steady (List.forall_mem_map.mpr fun _ _ => trivial)
  rw [course]
  refine answers.append ?_
  rcases ends with ⟨rest, rfl⟩ | fault
  · exact .cons (.steady trivial) .nil
  · cases fault with
    | unreadable | unrequested => exact cacheCloseMoves server

theorem storeMoves (server : Nat) (ending : Ending) (frames : List Store.Frame) :
    Mends w p [] (storeMoves w server ending frames p) := by
  obtain ⟨good, left, after, -, course, ends⟩ := storeMoves_cases w server ending frames p
  have answers : Mends w p [] (good.map (.storeAnswer server)) :=
    steady (List.forall_mem_map.mpr fun _ _ => trivial)
  rw [course]
  refine answers.append ?_
  rcases ends with ⟨rest, rfl⟩ | ⟨why, fault⟩
  · exact .cons (.steady trivial) .nil
  · cases fault with
    | unreadable | unrequested => exact storeCloseMoves server _
    | undecodable => exact .cons (.steady trivial) (storeCloseMoves server _)

theorem moves (event : Event) : Mends w p [] (moves w p event) := by
  cases event with
  | cacheData server data => exact cacheMoves server _ _
  | cacheClosed server => exact cacheLossMoves server
  | storeData server data => exact storeMoves server _ _
  | storeClosed server => exact storeLossMoves server _
  | storeTimeout server =>
      exact .cons (.steady trivial) (.cons (.storeLoss server) (storeSilences server _ _))
  | clientClosed client => exact .cons (.hangUp client) .nil
  | clientData | command | policy | drain =>
      refine steady ?_
      intro move hm
      cases arises_of_mem hm <;> trivial

theorem course (events : List Event) : Mends w p [] (course w p events) := by
  induction events generalizing p with
  | nil => exact .nil
  | cons event events ih =>
      refine (moves event).append ?_
      rw [play_moves]
      exact ih

end Mends

/-- In the middle of an event: every ticket stands in a queue or has been torn off. -/
abbrev Torn (torn : List Ticket) (p : Proxy) : Prop :=
  Settled (fun _ => True) torn p

namespace Torn

variable {w : World} {p : Proxy} {torn rest : List Ticket} {move : Move}

theorem tears (h : Torn torn p) (tears : Tears p torn move rest) :
    Torn rest (move.apply w p) := by
  cases tears with
  | steady steady => exact Settled.apply h w steady
  | hangUp client => exact Settled.clientClosed h fun _ _ _ _ => trivial
  | cacheLoss server => simpa using Settled.cacheLoss h w server
  | cacheSilence entry => exact Settled.cacheSilence w h
  | storeLoss server => simpa using Settled.storeLoss h w server
  | storeReset id kind why => exact Settled.storeReset w why h
  | storeSilence server id kind reason => exact Settled.storeSilence w server reason h

theorem nodup (h : Torn torn p) : ((p.tickets ++ torn).map Prod.fst).Nodup :=
  (List.nodup_append.mp h.ticketed.nodup).1

theorem nodup_tickets (h : Torn [] p) : (p.tickets.map Prod.fst).Nodup := by
  rw [← List.append_nil p.tickets]
  exact h.nodup

theorem awaits_eq {id : Nat} {operation : Operation} {kind : Option Store.RequestKind}
    (h : Torn torn p) (held : p.operations.get? id = some operation)
    (ticket : (id, kind) ∈ p.tickets ++ torn) : operation.stage.awaits = kind := by
  have same := List.inj_on_of_nodup_map h.nodup (h.ticketed.held held) ticket rfl
  exact congrArg Prod.snd same

end Torn

end ReadThrough.Proxy
