import Mathlib.Data.List.Nodup
import ReadThrough.Proofs.Tickets

namespace ReadThrough.Proxy

inductive Place where
  | cache (server position : Nat)
  | store (server position : Nat)
  deriving DecidableEq

def Place.ticket? (p : Proxy) : Place → Option Ticket
  | .cache server position => (p.cacheLink server).pending[position]?.bind CacheEntry.ticket?
  | .store server position =>
      (p.storeLink server).pending[position]?.map fun entry => (entry.1, some entry.2)

structure Queued (abandoned : Nat → Prop) (p : Proxy) : Prop where
  once : ∀ id operation, p.operations.get? id = some operation →
    ∃! place : Place, ∃ kind, place.ticket? p = some (id, kind)
  cached : ∀ id operation read, p.operations.get? id = some operation →
    operation.stage = .cacheRead read →
    ∃ server, ∃ position : Nat,
      (p.cacheLink server).pending[position]? = some (.operation id)
  stored : ∀ id operation, p.operations.get? id = some operation →
    (∀ read, operation.stage ≠ .cacheRead read) →
    ∃ server kind, ∃ position : Nat, (p.storeLink server).pending[position]? = some (id, kind) ∧
      operation.kind? = some kind ∧ operation.stage.awaits = some kind
  known : ∀ (place : Place) id kind, place.ticket? p = some (id, kind) →
    p.operations.get? id = none → abandoned id
  operation_lt : ∀ id operation, p.operations.get? id = some operation → id < p.nextOperation
  queued_lt : ∀ (place : Place) id kind, place.ticket? p = some (id, kind) → id < p.nextOperation

section Places

variable {p : Proxy}

def places (p : Proxy) : List (Place × Ticket) :=
  (p.caches.entries.flatMap fun link =>
      link.2.pending.zipIdx.filterMap fun entry =>
        entry.1.ticket?.map fun ticket => (.cache link.1 entry.2, ticket)) ++
    p.stores.entries.flatMap fun link =>
      link.2.pending.zipIdx.map fun entry =>
        (.store link.1 entry.2, (entry.1.1, some entry.1.2))

theorem places_map_snd (p : Proxy) : p.places.map Prod.snd = p.tickets := by
  unfold places tickets Table.collect
  rw [List.map_append, List.map_flatMap, List.map_flatMap]
  congr 1
  · refine List.flatMap_congr ?_
    intro link _
    have entries : link.2.pending = link.2.pending.zipIdx.map Prod.fst := by
      rw [List.zipIdx_map_fst]
    rw [CacheLink.tickets, entries, List.filterMap_map, List.map_filterMap, ← entries]
    refine List.filterMap_congr ?_
    intro entry _
    simp [Function.comp_def]
  · refine List.flatMap_congr ?_
    intro link _
    have entries : link.2.pending = link.2.pending.zipIdx.map Prod.fst := by
      rw [List.zipIdx_map_fst]
    rw [StoreLink.tickets, entries, List.map_map, List.map_map, ← entries]
    rfl

theorem pending_cacheLink {server position : Nat} {entry : CacheEntry} :
    (p.cacheLink server).pending[position]? = some entry ↔
      ∃ link, (server, link) ∈ p.caches.entries ∧ link.pending[position]? = some entry := by
  simp only [← Table.get?_eq_some_iff]
  cases h : p.caches.get? server <;> simp [cacheLink, h]

theorem pending_storeLink {server position : Nat} {entry : Nat × Store.RequestKind} :
    (p.storeLink server).pending[position]? = some entry ↔
      ∃ link, (server, link) ∈ p.stores.entries ∧ link.pending[position]? = some entry := by
  simp only [← Table.get?_eq_some_iff]
  cases h : p.stores.get? server <;> simp [storeLink, h]

theorem mem_places {place : Place} {ticket : Ticket} :
    (place, ticket) ∈ p.places ↔ place.ticket? p = some ticket := by
  cases place with
  | cache server position =>
      simp only [places, Place.ticket?, List.mem_append, List.mem_flatMap, List.mem_filterMap,
        List.mem_map, List.mem_zipIdx_iff_getElem?, Option.bind_eq_some_iff, pending_cacheLink,
        Option.map_eq_some_iff, Prod.mk.injEq, Place.cache.injEq, reduceCtorEq, false_and,
        and_false, exists_false, or_false]
      constructor
      · rintro ⟨⟨k, link⟩, hl, ⟨entry, i⟩, he, t, ht, ⟨rfl, rfl⟩, rfl⟩
        exact ⟨entry, ⟨link, hl, he⟩, ht⟩
      · rintro ⟨entry, ⟨link, hl, he⟩, ht⟩
        exact ⟨(server, link), hl, (entry, position), he, ticket, ht, ⟨rfl, rfl⟩, rfl⟩
  | store server position =>
      simp only [places, Place.ticket?, List.mem_append, List.mem_flatMap, List.mem_filterMap,
        List.mem_map, List.mem_zipIdx_iff_getElem?, pending_storeLink,
        Option.map_eq_some_iff, Prod.mk.injEq, Place.store.injEq, reduceCtorEq, false_and,
        and_false, exists_false, false_or]
      constructor
      · rintro ⟨⟨k, link⟩, hl, ⟨entry, i⟩, he, ⟨rfl, rfl⟩, rfl⟩
        exact ⟨entry, ⟨link, hl, he⟩, rfl⟩
      · rintro ⟨entry, ⟨link, hl, he⟩, rfl⟩
        exact ⟨(server, link), hl, (entry, position), he, ⟨rfl, rfl⟩, rfl⟩

theorem ticket_of_place {place : Place} {ticket : Ticket} (h : place.ticket? p = some ticket) :
    ticket ∈ p.tickets := by
  rw [← places_map_snd]
  exact List.mem_map.mpr ⟨_, mem_places.mpr h, rfl⟩

theorem place_unique (nodup : (p.tickets.map Prod.fst).Nodup) {place other : Place} {id : Nat}
    {kind kind' : Option Store.RequestKind} (h : place.ticket? p = some (id, kind))
    (h' : other.ticket? p = some (id, kind')) : (place, kind) = (other, kind') := by
  have apart : (p.places.map fun e => e.2.1).Nodup := by
    rwa [← places_map_snd, List.map_map] at nodup
  have same := List.inj_on_of_nodup_map apart (mem_places.mpr h) (mem_places.mpr h') rfl
  cases same
  rfl

end Places

theorem queued_of_settled {abandoned : Nat → Prop} {p : Proxy} (h : Settled abandoned [] p) :
    Queued abandoned p := by
  obtain ⟨t, ticketed⟩ := h
  rw [List.append_nil] at ticketed
  have nodup := (List.nodup_append.mp ticketed.nodup).1
  have place : ∀ {id operation}, p.operations.get? id = some operation →
      ∃ place : Place, place.ticket? p = some (id, operation.stage.awaits) := by
    intro id operation ho
    have hm := ticketed.held ho
    rw [← places_map_snd] at hm
    obtain ⟨⟨place, ticket⟩, hp, rfl⟩ := List.mem_map.mp hm
    exact ⟨place, mem_places.mp hp⟩
  refine ⟨?_, ?_, ?_, ?_, fun _ _ ho => t.operation_lt ho, ?_⟩
  · intro id operation ho
    obtain ⟨here, h⟩ := place ho
    refine ⟨here, ⟨_, h⟩, ?_⟩
    rintro other ⟨kind', h'⟩
    exact congrArg Prod.fst (place_unique nodup h' h)
  · intro id operation read ho stage
    obtain ⟨here, h⟩ := place ho
    rw [stage] at h
    cases here with
    | cache server position =>
        obtain ⟨entry, he, ht⟩ := Option.bind_eq_some_iff.mp h
        cases entry with
        | operation k =>
            cases ht
            exact ⟨server, position, he⟩
        | sideEffect => cases ht
    | store server position =>
        obtain ⟨entry, -, ht⟩ := Option.map_eq_some_iff.mp h
        cases ht
  · intro id operation ho stage
    obtain ⟨here, h⟩ := place ho
    cases here with
    | cache server position =>
        obtain ⟨entry, -, ht⟩ := Option.bind_eq_some_iff.mp h
        cases entry with
        | operation k =>
            obtain ⟨read, hr⟩ := Stage.awaits_eq_none.mp (Prod.mk.inj (Option.some.inj ht)).2.symm
            exact absurd hr (stage read)
        | sideEffect => cases ht
    | store server position =>
        obtain ⟨⟨k, kind⟩, he, ht⟩ := Option.map_eq_some_iff.mp h
        obtain ⟨rfl, hk⟩ := Prod.mk.inj ht
        refine ⟨server, kind, position, he, ?_, hk.symm⟩
        exact (t.sound k operation ho).awaits.trans hk.symm
  · intro other id kind' hp none
    exact ticketed.known _ (ticket_of_place hp) none
  · intro other id kind' hp
    exact ticketed.lt _ (ticket_of_place hp)

theorem queued_run (w : World) (settings : Settings) (policy : BucketPolicy)
    (events : List Event) : Queued (Abandoned w (start settings policy) events)
      ((start settings policy).run w events) :=
  queued_of_settled (settled_run w settings policy events)

end ReadThrough.Proxy
