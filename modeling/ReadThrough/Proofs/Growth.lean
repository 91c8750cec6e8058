import ReadThrough.Proofs.Opening

namespace ReadThrough

def Action.toCache? (server : Nat) : Action → Option (CacheEntry × Cache.Command)
  | .cache s entry command => if s = server then some (entry, command) else none
  | _ => none

def Action.toStore? (server : Nat) : Action → Option (Nat × Store.Request)
  | .store s operation request => if s = server then some (operation, request) else none
  | _ => none

namespace Proxy

def pendingCache (p : Proxy) (server : Nat) : List CacheEntry :=
  (p.cacheLink server).pending

def pendingStore (p : Proxy) (server : Nat) : List (Nat × Store.RequestKind) :=
  (p.storeLink server).pending

structure Grows (p q : Proxy) (actions : List Action) : Prop where
  outbox : q.outbox = p.outbox ++ actions
  caches : ∀ server, q.pendingCache server =
    p.pendingCache server ++ (actions.filterMap (Action.toCache? server)).map Prod.fst
  stores : ∀ server, q.pendingStore server =
    p.pendingStore server ++
      (actions.filterMap (Action.toStore? server)).map fun message => (message.1, message.2.kind)

theorem pendingCache_setCache (p : Proxy) (s server : Nat) (link : CacheLink) :
    (p.setCache s link).pendingCache server =
      if server = s then link.pending else p.pendingCache server := by
  simp only [pendingCache, cacheLink, setCache, Table.get?_insert]
  split <;> rfl

theorem pendingStore_setStore (p : Proxy) (s server : Nat) (link : StoreLink) :
    (p.setStore s link).pendingStore server =
      if server = s then link.pending else p.pendingStore server := by
  simp only [pendingStore, storeLink, setStore, Table.get?_insert]
  split <;> rfl

namespace Grows

variable {fan : Nat → Prop} {p q r : Proxy} {actions more : List Action}

theorem of_eq (outbox : q.outbox = p.outbox) (caches : q.caches = p.caches)
    (stores : q.stores = p.stores) : Grows p q [] where
  outbox := by rw [outbox, List.append_nil]
  caches server := by simp [pendingCache, cacheLink, caches]
  stores server := by simp [pendingStore, storeLink, stores]

theorem trans (h : Grows p q actions) (h' : Grows q r more) : Grows p r (actions ++ more) where
  outbox := by rw [h'.outbox, h.outbox, List.append_assoc]
  caches server := by
    rw [h'.caches, h.caches, List.append_assoc, List.filterMap_append, List.map_append]
  stores server := by
    rw [h'.stores, h.stores, List.append_assoc, List.filterMap_append, List.map_append]

theorem ask (p : Proxy) (s : Nat) (entry : CacheEntry) (command : Cache.Command) :
    Grows p (p.ask s entry command) [.cache s entry command] where
  outbox := rfl
  caches server := by
    refine (pendingCache_setCache p s server _).trans ?_
    by_cases h : server = s
    · subst h
      simp [Action.toCache?, pendingCache]
    · simp [Action.toCache?, h, Ne.symm h]
  stores server := by
    simp [Proxy.ask, emit, setCache, pendingStore, storeLink, Action.toStore?]

theorem dispatch (p : Proxy) (id : Nat) (operation : Operation) (request : Store.Request)
    (s : Nat) : Grows p (p.dispatch id operation request s) [.store s id request] where
  outbox := rfl
  caches server := by
    simp [Proxy.dispatch, emit, setStore, addOperation, pendingCache, cacheLink, Action.toCache?]
  stores server := by
    refine (pendingStore_setStore p s server _).trans ?_
    by_cases h : server = s
    · subst h
      simp [Action.toStore?, pendingStore]
    · simp [Action.toStore?, h, Ne.symm h]

theorem reply (p : Proxy) (client slot : Nat) (value : Reply) :
    ∃ actions, Grows p (p.reply client slot value) actions := by
  rcases reply_cases p client slot value with ⟨-, what, h⟩ | ⟨filled, -, h⟩
  · rw [h]
    exact ⟨[], of_eq rfl rfl rfl⟩
  · rw [h]
    refine ⟨_, rfl, ?_, ?_⟩
    · intro server
      simp [pendingCache, cacheLink, List.filterMap_map, Action.toCache?]
    · intro server
      simp [pendingStore, storeLink, List.filterMap_map, Action.toStore?]

theorem deed {a b : Proxy × Hand} (h : Deed fan a b) : ∃ actions, Grows a.1 b.1 actions := by
  cases h with
  | quiet same => exact ⟨[], of_eq same.outbox same.caches same.stores⟩
  | sideEffect server command => exact ⟨_, ask _ server .sideEffect command⟩
  | @lookUp p hand id operation read server stage sound =>
      have asked := ask p server (.operation id) read.lookup
      exact ⟨_, asked.trans (of_eq rfl rfl rfl)⟩
  | @request p hand id operation request server sent sound =>
      exact ⟨_, dispatch p id operation request server⟩
  | reply value => exact reply _ _ _ value
  | number => exact ⟨[], of_eq rfl rfl rfl⟩
  | bring => exact ⟨[], of_eq rfl rfl rfl⟩
  | refuse => exact ⟨[], of_eq rfl rfl rfl⟩
  | gather => exact ⟨[], of_eq rfl rfl rfl⟩
  | gatherNothing => exact ⟨[], of_eq rfl rfl rfl⟩

theorem deeds {a b : Proxy × Hand} (h : Relation.ReflTransGen (Deed fan) a b) :
    ∃ actions, Grows a.1 b.1 actions := by
  induction h with
  | refl => exact ⟨[], of_eq rfl rfl rfl⟩
  | tail _ deed ih =>
      obtain ⟨actions, h⟩ := ih
      obtain ⟨more, h'⟩ := Grows.deed deed
      exact ⟨actions ++ more, h.trans h'⟩

theorem apply (w : World) (sound : SoundOperations p) (move : Move) :
    ∃ actions, Grows (move.opening p).1 (move.apply w p) actions :=
  deeds (deeds_of_apply w sound move)

end Grows

end Proxy

end ReadThrough
