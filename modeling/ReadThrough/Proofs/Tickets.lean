import Mathlib.Data.List.Induction
import ReadThrough.Proofs.Tidy

namespace ReadThrough

abbrev Ticket := Nat × Option Store.RequestKind

def CacheEntry.ticket? : CacheEntry → Option Ticket
  | .operation id => some (id, none)
  | .sideEffect => none

def CacheLink.tickets (link : CacheLink) : List Ticket :=
  link.pending.filterMap CacheEntry.ticket?

def StoreLink.tickets (link : StoreLink) : List Ticket :=
  link.pending.map fun entry => (entry.1, some entry.2)

theorem CacheLink.tickets_cons {link : CacheLink} {entry : CacheEntry} {pending : List CacheEntry}
    (h : link.pending = entry :: pending) :
    link.tickets = entry.ticket?.toList ++ { link with pending }.tickets := by
  rw [tickets, h]
  cases entry <;> rfl

theorem StoreLink.tickets_cons {link : StoreLink} {id : Nat} {kind : Store.RequestKind}
    {pending : List (Nat × Store.RequestKind)} (h : link.pending = (id, kind) :: pending) :
    link.tickets = (id, some kind) :: { link with pending }.tickets := by
  rw [tickets, h]
  rfl

namespace Proxy

def tickets (p : Proxy) : List Ticket :=
  p.caches.collect CacheLink.tickets ++ p.stores.collect StoreLink.tickets

section Links

variable (p : Proxy) (server : Nat)

theorem tickets_cacheLink : p.tickets.Perm
    ((p.cacheLink server).tickets ++ { p with caches := p.caches.erase server }.tickets) := by
  unfold tickets
  rw [← List.append_assoc]
  refine List.Perm.append_right _ ?_
  cases h : p.caches.get? server with
  | none => simp [cacheLink, h, CacheLink.tickets, Table.erase_of_get?_eq_none h]
  | some link => simpa [cacheLink, h] using Table.collect_perm_erase CacheLink.tickets h

theorem tickets_setCache (link : CacheLink) : (p.setCache server link).tickets.Perm
    (link.tickets ++ { p with caches := p.caches.erase server }.tickets) := by
  unfold tickets
  rw [← List.append_assoc]
  exact (Table.collect_perm_insert CacheLink.tickets).append_right _

theorem tickets_storeLink : p.tickets.Perm
    ((p.storeLink server).tickets ++ (p.eraseStore server).tickets) := by
  have taken : (p.stores.collect StoreLink.tickets).Perm
      ((p.storeLink server).tickets ++ (p.stores.erase server).collect StoreLink.tickets) := by
    cases h : p.stores.get? server with
    | none => simp [storeLink, h, StoreLink.tickets, Table.erase_of_get?_eq_none h]
    | some link => simpa [storeLink, h] using Table.collect_perm_erase StoreLink.tickets h
  exact (taken.append_left _).trans (List.perm_append_comm_assoc _ _ _)

theorem tickets_setStore (link : StoreLink) : (p.setStore server link).tickets.Perm
    (link.tickets ++ (p.eraseStore server).tickets) := by
  have put : ((p.stores.insert server link).collect StoreLink.tickets).Perm
      (link.tickets ++ (p.stores.erase server).collect StoreLink.tickets) :=
    Table.collect_perm_insert StoreLink.tickets
  exact (put.append_left _).trans (List.perm_append_comm_assoc _ _ _)

theorem tickets_ask (entry : CacheEntry) (command : Cache.Command) :
    (p.ask server entry command).tickets.Perm (entry.ticket?.toList ++ p.tickets) := by
  refine (tickets_setCache p server _).trans ?_
  refine List.Perm.trans ?_ ((tickets_cacheLink p server).symm.append_left _)
  rw [← List.append_assoc]
  refine List.Perm.append_right _ ?_
  simp only [CacheLink.tickets, List.filterMap_append]
  refine List.perm_append_comm.trans (List.Perm.append_right _ ?_)
  cases entry <;> rfl

theorem tickets_dispatch (id : Nat) (operation : Operation) (request : Store.Request) :
    (p.dispatch id operation request server).tickets.Perm
      ((id, some request.kind) :: p.tickets) := by
  refine (tickets_setStore p server _).trans ?_
  refine List.Perm.trans ?_ ((tickets_storeLink p server).symm.cons _)
  rw [← List.cons_append]
  refine List.Perm.append_right _ ?_
  simp only [StoreLink.tickets, List.map_append, List.map_cons, List.map_nil]
  exact List.perm_append_comm

theorem tickets_of_eq {p q : Proxy} (caches : q.caches = p.caches) (stores : q.stores = p.stores) :
    q.tickets = p.tickets := by
  rw [tickets, tickets, caches, stores]

variable {p server} {id : Nat}

theorem ticket_of_cachePending {pending : List CacheEntry}
    (queue : (p.cacheLink server).pending = .operation id :: pending) : (id, none) ∈ p.tickets := by
  refine (tickets_cacheLink p server).mem_iff.mpr (List.mem_append_left _ ?_)
  rw [CacheLink.tickets_cons queue]
  exact List.mem_append_left _ List.mem_cons_self

theorem ticket_of_storePending {kind : Store.RequestKind}
    {pending : List (Nat × Store.RequestKind)}
    (queue : (p.storeLink server).pending = (id, kind) :: pending) :
    (id, some kind) ∈ p.tickets := by
  refine (tickets_storeLink p server).mem_iff.mpr (List.mem_append_left _ ?_)
  rw [StoreLink.tickets_cons queue]
  exact List.mem_cons_self

end Links

structure Ticketed (abandoned : Nat → Prop) (tickets : List Ticket) (p : Proxy) (hand : Hand) :
    Prop where
  nodup : (tickets.map Prod.fst ++ hand.numbers).Nodup
  lt : ∀ ticket ∈ tickets, ticket.1 < p.nextOperation
  held : ∀ {id operation}, p.operations.get? id = some operation →
    (id, operation.stage.awaits) ∈ tickets
  known : ∀ ticket ∈ tickets, p.operations.get? ticket.1 = none → abandoned ticket.1

namespace Ticketed

variable {fan : Nat → Prop} {abandoned : Nat → Prop} {tickets lost : List Ticket} {p q : Proxy}
  {hand left : Hand} {id : Nat} {kind : Option Store.RequestKind}

theorem perm {tickets' : List Ticket} (h : Ticketed abandoned tickets p hand)
    (same : tickets.Perm tickets') : Ticketed abandoned tickets' p hand where
  nodup := ((same.map Prod.fst).append_right _).nodup_iff.mp h.nodup
  lt ticket hm := h.lt ticket (same.mem_iff.mpr hm)
  held ho := same.mem_iff.mp (h.held ho)
  known ticket hm := h.known ticket (same.mem_iff.mpr hm)

theorem of_eq (h : Ticketed abandoned tickets p hand) (operations : q.operations = p.operations)
    (next : q.nextOperation = p.nextOperation) : Ticketed abandoned tickets q hand where
  nodup := h.nodup
  lt ticket hm := next ▸ h.lt ticket hm
  held ho := h.held (operations ▸ ho)
  known ticket hm ho := h.known ticket hm (operations ▸ ho)

theorem of_sublist (h : Ticketed abandoned tickets p hand)
    (less : left.numbers.Sublist hand.numbers) : Ticketed abandoned tickets p left where
  nodup := (less.append_left _).nodup h.nodup
  lt := h.lt
  held := h.held
  known := h.known

theorem tail {number : Option Nat} {duty : Duty}
    (h : Ticketed abandoned tickets p ((number, duty) :: hand)) :
    Ticketed abandoned tickets p hand :=
  h.of_sublist (numbers_cons_sublist number duty hand)

theorem newOperation {duty : Duty} (h : Ticketed abandoned tickets p ((none, duty) :: hand))
    (fresh : p.nextOperation ∉ hand.numbers) :
    Ticketed abandoned tickets p.newOperation.2 ((some p.nextOperation, duty) :: hand) where
  nodup := by
    refine List.perm_middle.nodup_iff.mpr (List.nodup_cons.mpr ⟨?_, h.nodup⟩)
    intro hm
    rcases List.mem_append.mp hm with hm | hm
    · obtain ⟨ticket, ht, he⟩ := List.mem_map.mp hm
      exact Nat.lt_irrefl _ (he ▸ h.lt ticket ht)
    · exact fresh hm
  lt ticket hm := Nat.lt_succ_of_lt (h.lt ticket hm)
  held := h.held
  known := h.known

theorem queue {duty : Duty} (operation : Operation)
    (h : Ticketed abandoned tickets p ((some id, duty) :: hand)) (lt : id < p.nextOperation) :
    Ticketed abandoned ((id, operation.stage.awaits) :: tickets) (p.addOperation id operation)
      hand where
  nodup := List.perm_middle.nodup_iff.mp h.nodup
  lt ticket hm := by
    rcases List.mem_cons.mp hm with rfl | hm
    · exact lt
    · exact h.lt ticket hm
  held := by
    intro k o ho
    rcases Table.get?_insert_eq_some_iff.mp ho with ⟨rfl, rfl⟩ | ⟨-, ho⟩
    · exact List.mem_cons_self
    · exact List.mem_cons_of_mem _ (h.held ho)
  known ticket hm ho := by
    simp only [Proxy.addOperation, Table.get?_insert] at ho
    split at ho
    · cases ho
    · next hk =>
        rcases List.mem_cons.mp hm with rfl | hm
        · exact absurd rfl hk
        · exact h.known ticket hm ho

theorem resumed (h : Ticketed abandoned ((id, kind) :: tickets) p []) :
    Ticketed abandoned tickets (p.resumed id).1 (p.resumed id).2 := by
  have apart : ∀ ticket ∈ tickets, ticket.1 ≠ id := by
    rintro ticket hm rfl
    have nodup := h.nodup
    rw [List.map_cons, List.cons_append, List.nodup_cons] at nodup
    exact nodup.1 (List.mem_append_left _ (List.mem_map.mpr ⟨ticket, hm, rfl⟩))
  rcases p.resumed_cases id with ⟨none, hr⟩ | ⟨operation, ho, hr⟩
  · rw [hr]
    refine ⟨(List.nodup_cons.mp h.nodup).2, ?_, ?_, ?_⟩
    · intro ticket hm
      exact h.lt ticket (List.mem_cons_of_mem _ hm)
    · intro k o hk
      rcases List.mem_cons.mp (h.held hk) with he | hm
      · cases he
        cases none.symm.trans hk
      · exact hm
    · intro ticket hm
      exact h.known ticket (List.mem_cons_of_mem _ hm)
  · rw [hr]
    refine ⟨?_, ?_, ?_, ?_⟩
    · exact List.perm_append_comm.nodup_iff.mp (by simpa using h.nodup)
    · intro ticket hm
      exact h.lt ticket (List.mem_cons_of_mem _ hm)
    · intro k o hk
      obtain ⟨ne, hk⟩ := Table.get?_erase_eq_some_iff.mp hk
      rcases List.mem_cons.mp (h.held hk) with he | hm
      · cases he
        exact absurd rfl ne
      · exact hm
    · intro ticket hm hk
      rw [Table.get?_erase_of_ne _ (apart ticket hm)] at hk
      exact h.known ticket (List.mem_cons_of_mem _ hm) hk

theorem deed {a b : Proxy × Hand} (step : Deed fan a b) (t : Tidy a.1 a.2)
    (h : Ticketed abandoned (a.1.tickets ++ lost) a.1 a.2) :
    Ticketed abandoned (b.1.tickets ++ lost) b.1 b.2 := by
  cases step with
  | quiet same =>
      rw [tickets_of_eq same.caches same.stores]
      exact h.of_eq same.operations same.nextOperation
  | number => exact h.newOperation fun hm => Nat.lt_irrefl _ (t.number_lt hm)
  | @sideEffect p hand server command =>
      exact (h.perm ((tickets_ask p server .sideEffect command).symm.append_right _)).of_eq rfl rfl
  | @lookUp p hand id operation read server stage sound =>
      have queued := h.queue operation (t.number_lt List.mem_cons_self)
      rw [stage] at queued
      have same := tickets_ask p server (.operation id) read.lookup
      exact (queued.perm (same.symm.append_right _)).of_eq rfl rfl
  | @request p hand id operation request server sent sound =>
      have queued := h.queue operation (t.number_lt List.mem_cons_self)
      rw [← sound.awaits, Operation.kind?, sent] at queued
      have same := tickets_dispatch p server id operation request
      exact (queued.perm (same.symm.append_right _)).of_eq rfl rfl
  | @reply p hand number client slot value =>
      rcases reply_cases p client slot value with ⟨-, what, hr⟩ | ⟨filled, -, hr⟩
      · rw [hr]
        exact h.tail.of_eq rfl rfl
      · rw [hr]
        exact h.tail.of_eq rfl rfl
  | @bring p hand number client id index yield part brings accepts =>
      have same : Ticketed abandoned (p.tickets ++ lost) p
          (owed (p.groups.contribute id part).1 ++ hand) :=
        h.tail.of_sublist (by rw [numbers_owed])
      exact same.of_eq rfl rfl
  | refuse brings accepts => exact h.tail.of_eq rfl rfl
  | @gather p hand client total gathered context yield fits begins =>
      have same : Ticketed abandoned (p.tickets ++ lost) p
          (parts client p.groups.next total yield ++ hand) :=
        h.tail.of_sublist (by rw [numbers_parts])
      exact same.of_eq rfl rfl
  | gatherNothing => exact h.of_eq rfl rfl

theorem deeds {a b : Proxy × Hand} (steps : Relation.ReflTransGen (Deed fan) a b)
    (t : Tidy a.1 a.2) (h : Ticketed abandoned (a.1.tickets ++ lost) a.1 a.2) :
    Ticketed abandoned (b.1.tickets ++ lost) b.1 b.2 := by
  induction steps with
  | refl => exact h
  | tail before step ih => exact ih.deed step (t.deeds before)

end Ticketed

theorem tickets_resumed (p : Proxy) (id : Nat) : (p.resumed id).1.tickets = p.tickets := by
  rcases p.resumed_cases id with ⟨-, h⟩ | ⟨operation, -, h⟩
  · rw [h]
  · rw [h]
    rfl

structure Settled (abandoned : Nat → Prop) (lost : List Ticket) (p : Proxy) : Prop where
  tidy : Tidy p []
  ticketed : Ticketed abandoned (p.tickets ++ lost) p []

def Move.Steady : Move → Prop
  | .hangUp _ | .cacheLoss _ | .cacheSilence _ | .storeLoss _ | .storeReset .. | .storeSilence .. =>
      False
  | _ => True

namespace Settled

variable {abandoned gone : Nat → Prop} {lost : List Ticket} {p : Proxy} {id server : Nat}
  {kind : Option Store.RequestKind}

theorem of_opening (t : Tidy p []) (w : World) (move : Move)
    (h : Ticketed abandoned ((move.opening p).1.tickets ++ lost) (move.opening p).1
      (move.opening p).2) : Settled abandoned lost (move.apply w p) where
  tidy := t.apply w move
  ticketed := h.deeds (deeds_of_apply w t.sound move) (t.opening move)

theorem resume {tickets : List Ticket} (h : Ticketed abandoned tickets p [])
    (same : tickets.Perm ((id, kind) :: (p.tickets ++ lost))) :
    Ticketed abandoned ((p.resumed id).1.tickets ++ lost) (p.resumed id).1 (p.resumed id).2 := by
  rw [tickets_resumed]
  exact (h.perm same).resumed

theorem opening_steady (h : Settled abandoned lost p) {move : Move} (steady : move.Steady) :
    Ticketed abandoned ((move.opening p).1.tickets ++ lost) (move.opening p).1
      (move.opening p).2 := by
  have ticketed := h.ticketed
  cases move with
  | request client content =>
      have opened : Ticketed abandoned (p.tickets ++ lost) p
          [(none, .reply client (p.reserve client).1)] := ticketed.of_sublist (.refl _)
      exact opened.of_eq rfl rfl
  | cacheHold server rest =>
      have same := (tickets_cacheLink p server).trans
        (tickets_setCache p server { p.cacheLink server with inbound := ⟨rest⟩ }).symm
      exact (ticketed.perm (same.append_right _)).of_eq rfl rfl
  | cacheAnswer server value =>
      simp only [Move.opening, Move.subject?, Move.prepare, Move.incoming]
      cases hp : (p.cacheLink server).pending with
      | nil => exact ticketed
      | cons entry pending =>
          have taken := tickets_cacheLink p server
          rw [CacheLink.tickets_cons hp] at taken
          have put := tickets_setCache p server { p.cacheLink server with pending }
          cases entry with
          | sideEffect =>
              exact (ticketed.perm ((taken.trans put.symm).append_right _)).of_eq rfl rfl
          | operation id =>
              have same := (taken.trans (put.symm.cons (id, none))).append_right lost
              exact resume (p := p.setCache server { p.cacheLink server with pending })
                (ticketed.of_eq rfl rfl) same
  | storeHold server rest =>
      have same := (tickets_storeLink p server).trans
        (tickets_setStore p server { p.storeLink server with inbound := ⟨rest⟩ }).symm
      exact (ticketed.perm (same.append_right _)).of_eq rfl rfl
  | storeAnswer server frame =>
      simp only [Move.opening, Move.subject?, Move.prepare, Move.incoming]
      cases hp : (p.storeLink server).pending with
      | nil => exact ticketed
      | cons entry pending =>
          obtain ⟨id, kind⟩ := entry
          have taken := tickets_storeLink p server
          rw [StoreLink.tickets_cons hp] at taken
          have put := tickets_setStore p server { p.storeLink server with pending }
          have same := (taken.trans (put.symm.cons (id, some kind))).append_right lost
          exact resume (p := p.setStore server { p.storeLink server with pending })
            (ticketed.of_eq rfl rfl) same
  | hold | cacheProtest | storeProtest | policy | drain => exact ticketed.of_eq rfl rfl
  | hangUp | cacheLoss | cacheSilence | storeLoss | storeReset | storeSilence => exact steady.elim

theorem apply (h : Settled abandoned lost p) (w : World) {move : Move} (steady : move.Steady) :
    Settled abandoned lost (move.apply w p) :=
  of_opening h.tidy w move (h.opening_steady steady)

theorem cacheLoss (h : Settled abandoned lost p) (w : World) (server : Nat) :
    Settled abandoned ((p.cacheLink server).tickets ++ lost)
      ((Move.cacheLoss server).apply w p) := by
  refine of_opening h.tidy w _ ?_
  have same := ((tickets_cacheLink p server).trans List.perm_append_comm).append_right lost
  rw [List.append_assoc] at same
  exact (h.ticketed.perm same).of_eq rfl rfl

theorem storeLoss (h : Settled abandoned lost p) (w : World) (server : Nat) :
    Settled abandoned ((p.storeLink server).tickets ++ lost)
      ((Move.storeLoss server).apply w p) := by
  refine of_opening h.tidy w _ ?_
  have same := ((tickets_storeLink p server).trans List.perm_append_comm).append_right lost
  rw [List.append_assoc] at same
  exact (h.ticketed.perm same).of_eq rfl rfl

theorem cacheSilence (w : World) {entry : CacheEntry}
    (h : Settled abandoned (entry.ticket?.toList ++ lost) p) :
    Settled abandoned lost ((Move.cacheSilence entry).apply w p) := by
  refine of_opening h.tidy w _ ?_
  cases entry with
  | sideEffect => exact h.ticketed
  | operation id => exact resume h.ticketed List.perm_middle

theorem storeReset (w : World) (why : Failure) (h : Settled abandoned ((id, kind) :: lost) p) :
    Settled abandoned lost ((Move.storeReset id why).apply w p) :=
  of_opening h.tidy w _ (resume h.ticketed List.perm_middle)

theorem storeSilence (w : World) (server : Nat) (reason : String)
    (h : Settled abandoned ((id, kind) :: lost) p) :
    Settled abandoned lost ((Move.storeSilence server id reason).apply w p) :=
  of_opening h.tidy w _ (resume h.ticketed List.perm_middle)

theorem cacheLossMoves (h : Settled abandoned [] p) (w : World) (server : Nat) :
    Settled abandoned [] (play w p (cacheLossMoves p server)) := by
  have silences : ∀ (pending : List CacheEntry) (q : Proxy),
      Settled abandoned (pending.filterMap CacheEntry.ticket?) q →
        Settled abandoned [] (play w q (pending.map .cacheSilence)) := by
    intro pending
    induction pending with
    | nil => exact fun q hq => hq
    | cons entry pending ih =>
        intro q hq
        refine ih _ (cacheSilence w ?_)
        cases entry <;> exact hq
  refine silences _ _ ?_
  have gone := h.cacheLoss w server
  rwa [List.append_nil] at gone

theorem storeLossMoves (h : Settled abandoned [] p) (w : World) (server : Nat) (reason : String) :
    Settled abandoned [] (play w p (storeLossMoves p server reason)) := by
  have silences : ∀ (pending : List (Nat × Store.RequestKind)) (q : Proxy),
      Settled abandoned (pending.map fun entry => (entry.1, some entry.2)) q →
        Settled abandoned []
          (play w q (pending.map fun entry => .storeSilence server entry.1 reason)) := by
    intro pending
    induction pending with
    | nil => exact fun q hq => hq
    | cons entry pending ih =>
        intro q hq
        exact ih _ (storeSilence w server reason hq)
  refine silences _ _ ?_
  have gone := h.storeLoss w server
  rwa [List.append_nil] at gone

theorem storeCloseMoves (h : Settled abandoned [] p) (w : World) (server : Nat) (why : Failure) :
    Settled abandoned [] (play w p (storeCloseMoves p server why)) := by
  have resets : ∀ (pending : List (Nat × Store.RequestKind)) (q : Proxy),
      Settled abandoned (pending.map fun entry => (entry.1, some entry.2)) q →
        Settled abandoned [] (play w q (pending.map fun entry => .storeReset entry.1 why)) := by
    intro pending
    induction pending with
    | nil => exact fun q hq => hq
    | cons entry pending ih =>
        intro q hq
        exact ih _ (storeReset w why hq)
  have protested : Settled abandoned [] ((Move.storeProtest server).apply w p) :=
    h.apply w trivial
  refine resets _ _ ?_
  have gone := protested.storeLoss w server
  rwa [List.append_nil] at gone

theorem cacheMoves (h : Settled abandoned [] p) (w : World) (server : Nat) (ending : Ending)
    (values : List Resp.Value) :
    Settled abandoned [] (play w p (cacheMoves w server ending values p)) := by
  have closes : ∀ q, Settled abandoned [] q → Settled abandoned []
      (play w q (.cacheProtest server :: Proxy.cacheLossMoves q server)) := by
    intro q hq
    have protested : Settled abandoned [] ((Move.cacheProtest server).apply w q) :=
      hq.apply w trivial
    exact protested.cacheLossMoves w server
  induction values generalizing p with
  | nil =>
      cases ending with
      | waiting rest =>
          have held : Settled abandoned [] ((Move.cacheHold server rest).apply w p) :=
            h.apply w trivial
          exact held
      | refused why => exact closes p h
  | cons value values ih =>
      unfold Proxy.cacheMoves
      split
      · exact closes p h
      · exact ih (h.apply w trivial)

theorem storeMoves (h : Settled abandoned [] p) (w : World) (server : Nat) (ending : Ending)
    (frames : List Store.Frame) :
    Settled abandoned [] (play w p (storeMoves w server ending frames p)) := by
  induction frames generalizing p with
  | nil =>
      cases ending with
      | waiting rest =>
          have held : Settled abandoned [] ((Move.storeHold server rest).apply w p) :=
            h.apply w trivial
          exact held
      | refused why => exact h.storeCloseMoves w server why
  | cons frame frames ih =>
      have answered : Settled abandoned [] ((Move.storeAnswer server frame).apply w p) :=
        h.apply w trivial
      unfold Proxy.storeMoves
      split
      · exact h.storeCloseMoves w server _
      · rw [play_cons]
        split
        · exact ih answered
        · split
          · exact answered.storeCloseMoves w server _
          · exact ih answered

theorem mono (h : Settled abandoned lost p) (more : ∀ id, abandoned id → gone id) :
    Settled gone lost p where
  tidy := h.tidy
  ticketed := ⟨h.ticketed.nodup, h.ticketed.lt, h.ticketed.held,
    fun ticket hm none => more _ (h.ticketed.known ticket hm none)⟩

theorem clientClosed (h : Settled abandoned lost p) {client : Nat}
    (closed : ∀ id operation, p.operations.get? id = some operation →
      operation.client = client → abandoned id) :
    Settled abandoned lost (p.clientClosed client) where
  tidy := h.tidy.clientClosed client
  ticketed := by
    have ticketed := h.ticketed
    refine ⟨ticketed.nodup, ticketed.lt, ?_, ?_⟩
    · intro id operation ho
      exact ticketed.held (get?_operations_clientClosed.mp ho).1
    · intro ticket hm none
      cases ho : p.operations.get? ticket.1 with
      | none => exact ticketed.known ticket hm ho
      | some operation =>
          refine closed ticket.1 operation ho ?_
          by_contra other
          cases none.symm.trans (get?_operations_clientClosed.mpr ⟨ho, other⟩)

theorem step (h : Settled abandoned [] p) (w : World) (event : Event)
    (closed : ∀ client id operation, event = .clientClosed client →
      p.operations.get? id = some operation → operation.client = client → abandoned id) :
    Settled abandoned [] (p.step w event) := by
  have steady : ∀ (moves : List Move) (q : Proxy), Settled abandoned [] q →
      (∀ move ∈ moves, move.Steady) → Settled abandoned [] (play w q moves) := by
    intro moves
    induction moves with
    | nil => exact fun q hq _ => hq
    | cons move moves ih =>
        intro q hq hs
        refine ih _ (hq.apply w (hs move List.mem_cons_self)) ?_
        exact fun m hm => hs m (List.mem_cons_of_mem _ hm)
  rw [← play_moves]
  cases event with
  | clientClosed client => exact h.clientClosed fun id operation => closed client id operation rfl
  | cacheData server data => exact h.cacheMoves w server _ _
  | cacheClosed server => exact h.cacheLossMoves w server
  | storeData server data => exact h.storeMoves w server _ _
  | storeClosed server => exact h.storeLossMoves w server _
  | storeTimeout server =>
      have protested : Settled abandoned [] ((Move.storeProtest server).apply w p) :=
        h.apply w trivial
      exact protested.storeLossMoves w server _
  | clientData | command | policy | drain =>
      refine steady _ p h ?_
      intro move hm
      cases arises_of_mem hm <;> trivial

theorem start (settings : Settings) (policy : BucketPolicy) :
    Settled abandoned [] (start settings policy) where
  tidy := Tidy.start settings policy
  ticketed := by
    refine ⟨List.nodup_nil, ?_, ?_, ?_⟩
    · intro ticket hm
      cases hm
    · intro id operation ho
      cases ho
    · intro ticket hm
      cases hm

end Settled

def Abandoned (w : World) (p : Proxy) (events : List Event) (id : Nat) : Prop :=
  ∃ before client after operation, events = before ++ .clientClosed client :: after ∧
    (p.run w before).operations.get? id = some operation ∧ operation.client = client

theorem settled_run (w : World) (settings : Settings) (policy : BucketPolicy)
    (events : List Event) : Settled (Abandoned w (start settings policy) events) []
      ((start settings policy).run w events) := by
  induction events using List.reverseRecOn with
  | nil => exact Settled.start settings policy
  | append_singleton events event ih =>
      have same : (start settings policy).run w (events ++ [event]) =
          ((start settings policy).run w events).step w event :=
        List.foldl_concat _ _ _ _
      rw [same]
      refine (ih.mono ?_).step w event ?_
      · rintro id ⟨before, client, after, operation, rfl, ho⟩
        exact ⟨before, client, after ++ [event], operation, by simp, ho⟩
      · rintro client id operation rfl ho hc
        exact ⟨events, client, [], operation, rfl, ho, hc⟩

end Proxy

end ReadThrough
