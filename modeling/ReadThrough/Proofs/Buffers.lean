import ReadThrough.Proofs.Tidy
import ReadThrough.Proofs.Unbuffered

namespace ReadThrough

namespace Table

variable {κ α β γ : Type} [DecidableEq κ] {t t' : Table κ α} {key : κ} {value : α}

theorem insert_of_get? (h : t.get? key = some value) : t.insert key value = t := by
  refine ext ?_
  have hm := get?_eq_some_iff.mp h
  obtain ⟨entries, nodup⟩ := t
  change setEntry key value entries = entries
  replace hm : (key, value) ∈ entries := hm
  clear h
  induction entries with
  | nil => cases hm
  | cons e rest ih =>
      rw [List.map_cons, List.nodup_cons] at nodup
      by_cases he : e.1 = key
      · rcases List.mem_cons.mp hm with rfl | later
        · simp [setEntry]
        · exact absurd (List.mem_map.mpr ⟨_, later, he.symm⟩) nodup.1
      · rcases List.mem_cons.mp hm with rfl | later
        · exact absurd rfl he
        · simp [setEntry, he, ih nodup.2 later]

theorem ext_of_mapValues {f : α → β} (same : t.mapValues f = t'.mapValues f)
    (rest : ∀ k v v', t.get? k = some v → t'.get? k = some v' → f v = f v' → v = v') : t = t' := by
  have entries := congrArg Table.entries same
  refine ext (List.ext_getElem ?_ fun i lt lt' => ?_)
  · simpa [mapValues] using congrArg List.length entries
  · have both : (t.entries[i].1, f t.entries[i].2) = (t'.entries[i].1, f t'.entries[i].2) := by
      have := List.getElem_of_eq entries (by simpa [mapValues] using lt : i < _)
      simpa [mapValues] using this
    obtain ⟨key, value⟩ := Prod.mk.inj both
    refine Prod.ext key (rest t.entries[i].1 _ _ ?_ ?_ value)
    · exact get?_eq_some_iff.mpr (List.getElem_mem lt)
    · rw [key]
      exact get?_eq_some_iff.mpr (List.getElem_mem lt')

end Table

namespace Proxy

theorem ext_of_unbuffered {p q : Proxy} (same : p.unbuffered = q.unbuffered)
    (caches : ∀ server, (p.cacheLink server).inbound = (q.cacheLink server).inbound)
    (stores : ∀ server, (p.storeLink server).inbound = (q.storeLink server).inbound) : p = q := by
  obtain ⟨settings, policy, vclocks, operations, next, clients, cachesP, storesP, groups, outbox,
    looks, breaches⟩ := p
  obtain ⟨settings', policy', vclocks', operations', next', clients', cachesQ, storesQ, groups',
    outbox', looks', breaches'⟩ := q
  simp only [unbuffered, mk.injEq] at same
  obtain ⟨rfl, rfl, rfl, rfl, rfl, rfl, sameCaches, sameStores, rfl, rfl, rfl, rfl⟩ := same
  have cachesEq : cachesP = cachesQ := by
    refine Table.ext_of_mapValues sameCaches fun server link link' held held' bare => ?_
    have inbound := caches server
    simp only [cacheLink, held, held', Option.getD_some] at inbound
    obtain ⟨_, pending⟩ := link
    obtain ⟨_, pending'⟩ := link'
    cases inbound
    cases congrArg CacheLink.pending bare
    rfl
  have storesEq : storesP = storesQ := by
    refine Table.ext_of_mapValues sameStores fun server link link' held held' bare => ?_
    have inbound := stores server
    simp only [storeLink, held, held', Option.getD_some] at inbound
    obtain ⟨_, pending⟩ := link
    obtain ⟨_, pending'⟩ := link'
    cases inbound
    cases congrArg StoreLink.pending bare
    rfl
  rw [cachesEq, storesEq]

def Move.IsMessage : Move → Prop
  | .request .. | .cacheAnswer .. | .storeAnswer .. => True
  | _ => False

structure Buffers (p q : Proxy) : Prop where
  client : ∀ c, (q.client c).inbound = (p.client c).inbound
  cache : ∀ s, (q.cacheLink s).inbound = (p.cacheLink s).inbound
  store : ∀ s, (q.storeLink s).inbound = (p.storeLink s).inbound
  clients : ∀ c, p.clients.get? c ≠ none → q.clients.get? c ≠ none
  caches : ∀ s, p.caches.get? s ≠ none → q.caches.get? s ≠ none
  stores : ∀ s, p.stores.get? s ≠ none → q.stores.get? s ≠ none

namespace Buffers

variable {fan : Nat → Prop} {p q r : Proxy}

theorem of_eq (clients : q.clients = p.clients) (caches : q.caches = p.caches)
    (stores : q.stores = p.stores) : Buffers p q where
  client c := by rw [Proxy.client, Proxy.client, clients]
  cache s := by rw [cacheLink, cacheLink, caches]
  store s := by rw [storeLink, storeLink, stores]
  clients c known := clients ▸ known
  caches s known := caches ▸ known
  stores s known := stores ▸ known

theorem refl (p : Proxy) : Buffers p p := of_eq rfl rfl rfl

theorem trans (h : Buffers p q) (h' : Buffers q r) : Buffers p r where
  client c := (h'.client c).trans (h.client c)
  cache s := (h'.cache s).trans (h.cache s)
  store s := (h'.store s).trans (h.store s)
  clients c known := h'.clients c (h.clients c known)
  caches s known := h'.caches s (h.caches s known)
  stores s known := h'.stores s (h.stores s known)

theorem get?_insert_ne_none {κ α : Type} [DecidableEq κ] {t : Table κ α} {key k : κ} {value : α}
    (known : t.get? k ≠ none) : (t.insert key value).get? k ≠ none := by
  rw [Table.get?_insert]
  split
  · exact Option.some_ne_none _
  · exact known

theorem setClient {c : Nat} (link : ClientLink) (same : link.inbound = (p.client c).inbound) :
    Buffers p (p.setClient c link) where
  client k := by
    rw [client_setClient]
    split
    · next hk => exact hk ▸ same
    · rfl
  cache _ := rfl
  store _ := rfl
  clients _ known := get?_insert_ne_none known
  caches _ known := known
  stores _ known := known

theorem setCache {s : Nat} (link : CacheLink) (same : link.inbound = (p.cacheLink s).inbound) :
    Buffers p (p.setCache s link) where
  client _ := rfl
  cache k := by
    by_cases hk : k = s
    · subst hk
      simp only [cacheLink, Proxy.setCache, Table.get?_insert_self, Option.getD_some, same]
    · simp only [cacheLink, Proxy.setCache, Table.get?_insert_of_ne _ _ hk]
  store _ := rfl
  clients _ known := known
  caches _ known := get?_insert_ne_none known
  stores _ known := known

theorem setStore {s : Nat} (link : StoreLink) (same : link.inbound = (p.storeLink s).inbound) :
    Buffers p (p.setStore s link) where
  client _ := rfl
  cache _ := rfl
  store k := by
    by_cases hk : k = s
    · subst hk
      simp only [storeLink, Proxy.setStore, Table.get?_insert_self, Option.getD_some, same]
    · simp only [storeLink, Proxy.setStore, Table.get?_insert_of_ne _ _ hk]
  clients _ known := known
  caches _ known := known
  stores _ known := get?_insert_ne_none known

theorem ask (p : Proxy) (server : Nat) (entry : CacheEntry) (command : Cache.Command) :
    Buffers p (p.ask server entry command) :=
  (setCache { p.cacheLink server with pending := (p.cacheLink server).pending ++ [entry] } rfl).trans
    (of_eq rfl rfl rfl)

theorem dispatch (p : Proxy) (id : Nat) (operation : Operation) (request : Store.Request)
    (server : Nat) : Buffers p (p.dispatch id operation request server) :=
  (setStore { p.storeLink server with
    pending := (p.storeLink server).pending ++ [(id, request.kind)] } rfl).trans
    (of_eq rfl rfl rfl)

theorem reply (p : Proxy) (client slot : Nat) (value : Reply) :
    Buffers p (p.reply client slot value) := by
  rcases reply_cases p client slot value with ⟨-, what, h⟩ | ⟨filled, -, h⟩
  · rw [h]
    exact of_eq rfl rfl rfl
  · rw [h]
    exact (setClient (c := client) { p.client client with replies := filled.drain.2 } rfl).trans
      (of_eq rfl rfl rfl)

theorem deed {a b : Proxy × Hand} (h : Deed fan a b) : Buffers a.1 b.1 := by
  cases h with
  | quiet same => exact of_eq same.clients same.caches same.stores
  | number | bring | refuse | gather | gatherNothing => exact of_eq rfl rfl rfl
  | sideEffect server command => exact ask _ server _ command
  | @lookUp p hand id operation read server =>
      exact (ask p server (.operation id) read.lookup).trans (of_eq rfl rfl rfl)
  | request server => exact dispatch _ _ _ _ server
  | reply value => exact reply _ _ _ value

theorem deeds {a b : Proxy × Hand} (h : Relation.ReflTransGen (Deed fan) a b) :
    Buffers a.1 b.1 := by
  induction h with
  | refl => exact refl _
  | tail _ last ih => exact ih.trans (deed last)

theorem apply (w : World) (sound : SoundOperations p) (move : Move) (message : move.IsMessage) :
    Buffers p (move.apply w p) := by
  refine .trans ?_ (deeds (deeds_of_apply w sound move))
  obtain ⟨operations, h⟩ := Move.opening_fst p move
  rw [h]
  refine .trans (q := move.prepare p) ?_ (of_eq rfl rfl rfl)
  cases move with
  | request client content => exact setClient _ rfl
  | cacheAnswer server value =>
      simp only [Move.prepare]
      split
      · exact refl p
      · exact setCache _ rfl
  | storeAnswer server frame =>
      simp only [Move.prepare]
      split
      · exact refl p
      · exact setStore _ rfl
  | _ => cases message

end Buffers

section Aside

variable (w : World) (p : Proxy) (server : Nat) (rest : Bytes)

theorem cacheAnswer_apply_unbuffered (value : Resp.Value) :
    (Move.cacheAnswer server value).apply w p.unbuffered =
      ((Move.cacheAnswer server value).apply w p).unbuffered := by
  simp only [Move.apply, cacheLink_unbuffered]
  cases waiting : (p.cacheLink server).pending with
  | nil => simp only [CacheLink.unbuffered, waiting]
  | cons entry pending =>
      simp only [CacheLink.unbuffered, waiting]
      rw [← cacheAnswer_unbuffered]
      exact congrArg (cacheAnswer w · entry value)
        (setCache_unbuffered p server { p.cacheLink server with pending })

theorem storeAnswer_apply_unbuffered (frame : Store.Frame) :
    (Move.storeAnswer server frame).apply w p.unbuffered =
      ((Move.storeAnswer server frame).apply w p).unbuffered := by
  simp only [Move.apply, storeLink_unbuffered]
  cases waiting : (p.storeLink server).pending with
  | nil => simp only [StoreLink.unbuffered, waiting]
  | cons entry pending =>
      obtain ⟨id, kind⟩ := entry
      simp only [StoreLink.unbuffered, waiting]
      have set := setStore_unbuffered p server { p.storeLink server with pending }
      change (p.unbuffered.setStore server { inbound := {}, pending }).resume id _ = _
      rw [show p.unbuffered.setStore server { inbound := {}, pending } = _ from set, resume, resume,
        takeOperation_unbuffered]
      cases (p.setStore server { p.storeLink server with pending }).takeOperation id with
      | none => rfl
      | some taken =>
          simp only [Option.map_some, unbufferedSnd, frameHandler]
          cases Store.Response.decode frame.code frame.payload kind with
          | ok response => exact storeResponse_unbuffered w taken.2 id taken.1 server response
          | error why => exact failWith_unbuffered w taken.2 taken.1 _

variable {p server}

theorem cacheHold_unbuffered (known : p.caches.get? server ≠ none) :
    ((Move.cacheHold server rest).apply w p).unbuffered = p.unbuffered := by
  obtain ⟨link, held⟩ := Option.ne_none_iff_exists'.mp known
  have found : p.cacheLink server = link := by rw [cacheLink, held, Option.getD_some]
  simp only [Move.apply, unbuffered, setCache, Table.mapValues_insert]
  rw [Table.insert_of_get? (by rw [Table.get?_mapValues, held, found]; rfl)]

theorem storeHold_unbuffered (known : p.stores.get? server ≠ none) :
    ((Move.storeHold server rest).apply w p).unbuffered = p.unbuffered := by
  obtain ⟨link, held⟩ := Option.ne_none_iff_exists'.mp known
  have found : p.storeLink server = link := by rw [storeLink, held, Option.getD_some]
  simp only [Move.apply, unbuffered, setStore, Table.mapValues_insert]
  rw [Table.insert_of_get? (by rw [Table.get?_mapValues, held, found]; rfl)]

theorem inbound_cacheHold (s : Nat) :
    (((Move.cacheHold server rest).apply w p).cacheLink s).inbound =
      if s = server then ⟨rest⟩ else (p.cacheLink s).inbound := by
  simp only [Move.apply, cacheLink, setCache, Table.get?_insert]
  split <;> rfl

theorem inbound_storeHold (s : Nat) :
    (((Move.storeHold server rest).apply w p).storeLink s).inbound =
      if s = server then ⟨rest⟩ else (p.storeLink s).inbound := by
  simp only [Move.apply, storeLink, setStore, Table.get?_insert]
  split <;> rfl

variable (tidy : Tidy p [])

include tidy

theorem cacheAnswer_cacheHold (value : Resp.Value) (known : p.caches.get? server ≠ none) :
    (Move.cacheAnswer server value).apply w ((Move.cacheHold server rest).apply w p) =
      (Move.cacheHold server rest).apply w ((Move.cacheAnswer server value).apply w p) := by
  have answered := Buffers.apply w tidy.sound (.cacheAnswer server value) trivial
  have after := Buffers.apply w (tidy.apply w (.cacheHold server rest)).sound
    (.cacheAnswer server value) trivial
  refine ext_of_unbuffered ?_ (fun s => ?_) (fun s => ?_)
  · rw [cacheHold_unbuffered w rest (answered.caches server known), ← cacheAnswer_apply_unbuffered,
      cacheHold_unbuffered w rest known, cacheAnswer_apply_unbuffered]
  · rw [after.cache, inbound_cacheHold, inbound_cacheHold, answered.cache]
  · rw [after.store]
    exact (answered.store s).symm

theorem storeAnswer_storeHold (frame : Store.Frame) (known : p.stores.get? server ≠ none) :
    (Move.storeAnswer server frame).apply w ((Move.storeHold server rest).apply w p) =
      (Move.storeHold server rest).apply w ((Move.storeAnswer server frame).apply w p) := by
  have answered := Buffers.apply w tidy.sound (.storeAnswer server frame) trivial
  have after := Buffers.apply w (tidy.apply w (.storeHold server rest)).sound
    (.storeAnswer server frame) trivial
  refine ext_of_unbuffered ?_ (fun s => ?_) (fun s => ?_)
  · rw [storeHold_unbuffered w rest (answered.stores server known), ← storeAnswer_apply_unbuffered,
      storeHold_unbuffered w rest known, storeAnswer_apply_unbuffered]
  · rw [after.cache]
    exact (answered.cache s).symm
  · rw [after.store, inbound_storeHold, inbound_storeHold, answered.store]

end Aside

end Proxy

end ReadThrough
