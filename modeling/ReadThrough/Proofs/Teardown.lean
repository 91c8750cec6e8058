import ReadThrough.Proofs.Abandonment
import ReadThrough.Proofs.Aside
import ReadThrough.Proofs.Given
import ReadThrough.Proofs.Precedence
import ReadThrough.Proofs.Queues
import ReadThrough.Proofs.Torn

namespace ReadThrough

def Action.isClosing : Action → Bool
  | .closeCache _ | .closeStore _ => true
  | _ => false

def Event.OnStore (server : Nat) : Event → Prop
  | .storeData s _ | .storeClosed s | .storeTimeout s => s = server
  | _ => False

def Event.OnCache (server : Nat) : Event → Prop
  | .cacheData s _ | .cacheClosed s => s = server
  | _ => False

namespace Proxy

section Emitted

variable {fan : Nat → Prop} {w : World} {p : Proxy} {move : Move} {ms : List Move} {server : Nat}

def emitted (w : World) : Proxy → List Move → List Action
  | _, [] => []
  | p, move :: moves => move.emits w p ++ emitted w (move.apply w p) moves

theorem mem_emitted {action : Action} : action ∈ emitted w p ms ↔
    ∃ (n : Nat) (move : Move), ms[n]? = some move ∧
      action ∈ move.emits w (play w p (ms.take n)) := by
  induction ms generalizing p with
  | nil => simp [emitted]
  | cons first rest ih =>
      rw [emitted, List.mem_append, ih]
      constructor
      · rintro (now | ⟨n, move, made, later⟩)
        · exact ⟨0, first, rfl, now⟩
        · exact ⟨n + 1, move, made, later⟩
      · rintro ⟨n, move, made, hm⟩
        cases n with
        | zero =>
            cases made
            exact Or.inl hm
        | succ n => exact Or.inr ⟨n, move, made, hm⟩

theorem outbox_play (tidy : Tidy p []) (drainless : ∀ move ∈ ms, move ≠ .drain) :
    (play w p ms).outbox = p.outbox ++ emitted w p ms := by
  induction ms generalizing p with
  | nil => exact (List.append_nil _).symm
  | cons move ms ih =>
      have kept : move.leaves p = p.outbox := by
        cases move <;> first | rfl | exact absurd rfl (drainless _ List.mem_cons_self)
      rw [play_cons, ih (tidy.apply w move) fun m hm => drainless m (List.mem_cons_of_mem _ hm),
        outbox_apply move w tidy.sound, kept, List.append_assoc]
      rfl

theorem open_of_deed {a b : Proxy × Hand} (h : Deed fan a b) :
    ∃ actions, b.1.outbox = a.1.outbox ++ actions ∧
      ∀ action ∈ actions, action.isClosing = false := by
  have quiet : ∀ {q r : Proxy}, r.outbox = q.outbox → ∃ actions, r.outbox = q.outbox ++ actions ∧
      ∀ action ∈ actions, action.isClosing = false := by
    intro q r outbox
    exact ⟨[], by rw [outbox, List.append_nil], List.forall_mem_nil _⟩
  cases h with
  | quiet same => exact quiet same.outbox
  | number | bring | refuse | gather | gatherNothing => exact quiet rfl
  | sideEffect | lookUp | request => exact ⟨_, rfl, List.forall_mem_singleton.mpr rfl⟩
  | reply value =>
      obtain ⟨actions, outbox, replies⟩ := outbox_reply _ _ _ value
      refine ⟨actions, outbox, ?_⟩
      intro action hm
      obtain ⟨client, slot, value, rfl⟩ := replies action hm
      rfl

theorem open_of_deeds {a b : Proxy × Hand} (h : Relation.ReflTransGen (Deed fan) a b) :
    ∃ actions, b.1.outbox = a.1.outbox ++ actions ∧
      ∀ action ∈ actions, action.isClosing = false := by
  induction h with
  | refl => exact ⟨[], (List.append_nil _).symm, List.forall_mem_nil _⟩
  | tail _ last ih =>
      obtain ⟨actions, outbox, only⟩ := ih
      obtain ⟨more, outbox', only'⟩ := open_of_deed last
      refine ⟨actions ++ more, by rw [outbox', outbox, List.append_assoc], ?_⟩
      exact List.forall_mem_append.mpr ⟨only, only'⟩

theorem unasked_by_deed {a b : Proxy × Hand} {id : Nat} (h : Deed fan a b)
    (spare : id ∉ a.2.numbers) : ∃ actions, b.1.outbox = a.1.outbox ++ actions ∧
      ∀ server request, Action.store server id request ∉ actions := by
  have quiet : ∀ {q r : Proxy}, r.outbox = q.outbox → ∃ actions, r.outbox = q.outbox ++ actions ∧
      ∀ server request, Action.store server id request ∉ actions := by
    intro q r outbox
    exact ⟨[], by rw [outbox, List.append_nil], fun _ _ => List.not_mem_nil⟩
  cases h with
  | quiet same => exact quiet same.outbox
  | number | bring | refuse | gather | gatherNothing => exact quiet rfl
  | sideEffect | lookUp => exact ⟨_, rfl, by simp⟩
  | request =>
      refine ⟨_, rfl, ?_⟩
      intro server request hm
      cases List.mem_singleton.mp hm
      exact spare List.mem_cons_self
  | reply value =>
      obtain ⟨actions, outbox, replies⟩ := outbox_reply _ _ _ value
      refine ⟨actions, outbox, ?_⟩
      intro server request hm
      obtain ⟨client, slot, value, same⟩ := replies _ hm
      cases same

theorem unasked_by_deeds {a b : Proxy × Hand} {id : Nat}
    (h : Relation.ReflTransGen (Deed fan) a b) (spare : id ∉ a.2.numbers)
    (lt : id < a.1.nextOperation) : ∃ actions, b.1.outbox = a.1.outbox ++ actions ∧
      ∀ server request, Action.store server id request ∉ actions := by
  induction h using Relation.ReflTransGen.head_induction_on with
  | refl => exact ⟨[], (List.append_nil _).symm, fun _ _ => List.not_mem_nil⟩
  | head first _ ih =>
      obtain ⟨actions, outbox, unasked⟩ := unasked_by_deed first spare
      obtain ⟨more, outbox', unasked'⟩ := ih (untouched_by_deed first spare lt).2
        (Nat.lt_of_lt_of_le lt (nextOperation_le_of_deed first))
      refine ⟨actions ++ more, by rw [outbox', outbox, List.append_assoc], ?_⟩
      intro server request hm
      rcases List.mem_append.mp hm with early | late
      · exact unasked server request early
      · exact unasked' server request late

theorem unasked_of_apply {id : Nat} (tidy : Tidy p []) (other : move.subject? p ≠ some id)
    (lt : id < p.nextOperation) (server : Nat) (request : Store.Request) :
    Action.store server id request ∉ move.emits w p := by
  obtain ⟨actions, outbox, unasked⟩ := unasked_by_deeds (deeds_of_apply w tidy.sound move)
    (numbers_opening other) ((nextOperation_opening p move).symm ▸ lt)
  rw [emits_of_outbox move w outbox, List.mem_append, not_or]
  exact ⟨by cases move <;> simp [Move.notice], unasked server request⟩

theorem closings_emits (tidy : Tidy p []) (move : Move) :
    (move.emits w p).filter Action.isClosing = move.notice := by
  obtain ⟨actions, outbox, only⟩ := open_of_deeds (deeds_of_apply w tidy.sound move)
  have none : actions.filter Action.isClosing = [] := by
    refine List.filter_eq_nil_iff.mpr fun action hm => ?_
    rw [only action hm]
    exact Bool.false_ne_true
  rw [emits_of_outbox move w outbox, List.filter_append, none, List.append_nil]
  cases move <;> rfl

theorem closings_emitted (tidy : Tidy p []) :
    (emitted w p ms).filter Action.isClosing = ms.flatMap Move.notice := by
  induction ms generalizing p with
  | nil => rfl
  | cons move ms ih =>
      rw [emitted, List.filter_append, closings_emits tidy, ih (tidy.apply w move),
        List.flatMap_cons]

end Emitted

section Line

variable {σ μ ε : Type} {line : Line σ μ ε} {w : World} {p : Proxy} {move : Move} {ms : List Move}
  (grows : ∀ q : Proxy, Tidy q [] → ∀ move : Move, line.pending (move.apply w q) =
    (line.passage move).left (line.pending q) ++ (line.messages w q move).map line.entry)

include grows

theorem pending_play (tidy : Tidy p []) (other : ∀ move ∈ ms, line.passage move = .other) :
    line.pending (play w p ms) =
      line.pending p ++ ((emitted w p ms).filterMap line.message?).map line.entry := by
  induction ms generalizing p with
  | nil => exact (List.append_nil _).symm
  | cons move ms ih =>
      obtain ⟨first, others⟩ := List.forall_mem_cons.mp other
      rw [play_cons, ih (tidy.apply w move) others, grows p tidy move, first, emitted,
        List.filterMap_append, List.map_append, List.append_assoc]
      rfl

theorem pending_after_loss (tidy : Tidy p []) (lost : line.passage move = .loss)
    (other : ∀ move ∈ ms, line.passage move = .other)
    (silent : ∀ action ∈ emitted w p (move :: ms), line.message? action = none) :
    line.pending (play w p (move :: ms)) = [] := by
  obtain ⟨now, later⟩ := List.forall_mem_append.mp silent
  rw [play_cons, pending_play grows (tidy.apply w move) other, grows p tidy move, lost,
    Line.messages, List.filterMap_eq_nil_iff.mpr now, List.filterMap_eq_nil_iff.mpr later]
  rfl

end Line

theorem pending_storeLine_apply (w : World) (server : Nat) (q : Proxy) (tidy : Tidy q [])
    (move : Move) : (storeLine server).pending (move.apply w q) =
      ((storeLine server).passage move).left ((storeLine server).pending q) ++
        ((storeLine server).messages w q move).map (storeLine server).entry :=
  pendingStore_apply move server w tidy.sound

theorem pending_cacheLine_apply (w : World) (server : Nat) (q : Proxy) (tidy : Tidy q [])
    (move : Move) : (cacheLine server).pending (move.apply w q) =
      ((cacheLine server).passage move).left ((cacheLine server).pending q) ++
        ((cacheLine server).messages w q move).map (cacheLine server).entry :=
  pendingCache_apply move server w tidy.sound

def Place.passage : Place → Move → Passage
  | .cache server _ => (cacheLine server).passage
  | .store server _ => (storeLine server).passage

structure Move.Within (lost : Nat → Place) (move : Move) : Prop where
  stays : ∀ client, move ≠ .hangUp client
  other : ∀ place : Place, (∀ position, place ≠ lost position) → place.passage move = .other

def Spares (lost : Nat → Place) (p q : Proxy) : Prop :=
  ∀ (place : Place) (id : Nat) (kind : Option Store.RequestKind),
    (∀ position, place ≠ lost position) → place.ticket? p = some (id, kind) →
    place.ticket? q = some (id, kind) ∧ q.operations.get? id = p.operations.get? id

section Spares

variable {w : World} {p q r : Proxy} {torn rest : List Ticket} {move : Move} {ms : List Move}
  {lost : Nat → Place} {place : Place} {id : Nat} {kind : Option Store.RequestKind}

theorem operations_of_apply (tidy : Tidy p []) (lt : id < p.nextOperation)
    (other : move.subject? p ≠ some id) (stays : ∀ client, move ≠ .hangUp client) :
    (move.apply w p).operations.get? id = p.operations.get? id := by
  cases held : p.operations.get? id with
  | none => exact operations_gone tidy lt held [move]
  | some operation => exact kept_of_apply tidy held other (stays _)

theorem ticket_of_apply (tidy : Tidy p []) (other : place.passage move = .other)
    (h : place.ticket? p = some (id, kind)) :
    place.ticket? (move.apply w p) = some (id, kind) := by
  cases place with
  | cache server position =>
      obtain ⟨entry, he, ht⟩ := Option.bind_eq_some_iff.mp h
      have lt : position < (p.pendingCache server).length := (List.getElem?_eq_some_iff.mp he).1
      have grown := pendingCache_apply move server w tidy.sound
      rw [show (cacheLine server).passage move = .other from other] at grown
      refine Option.bind_eq_some_iff.mpr ⟨entry, ?_, ht⟩
      change ((move.apply w p).pendingCache server)[position]? = some entry
      rw [grown, Passage.left, List.getElem?_append_left lt]
      exact he
  | store server position =>
      obtain ⟨entry, he, ht⟩ := Option.map_eq_some_iff.mp h
      have lt : position < (p.pendingStore server).length := (List.getElem?_eq_some_iff.mp he).1
      have grown := pendingStore_apply move server w tidy.sound
      rw [show (storeLine server).passage move = .other from other] at grown
      refine Option.map_eq_some_iff.mpr ⟨entry, ?_, ht⟩
      change ((move.apply w p).pendingStore server)[position]? = some entry
      rw [grown, Passage.left, List.getElem?_append_left lt]
      exact he

theorem subject?_ne_of_place (h : Torn torn p) (tears : Tears p torn move rest)
    (other : place.passage move = .other) (stands : place.ticket? p = some (id, kind)) :
    move.subject? p ≠ some id := by
  have numbers := h.nodup
  rw [List.map_append] at numbers
  have nodup := (List.nodup_append.mp numbers).1
  have apart : id ∉ torn.map Prod.fst := by
    intro hm
    exact (List.nodup_append.mp numbers).2.2 id
      (List.mem_map.mpr ⟨_, ticket_of_place stands, rfl⟩) id hm rfl
  intro subject
  obtain ⟨news, brings⟩ := Move.subject?_eq_some_iff.mp subject
  cases brings with
  | @value server value rest pending =>
      have front : (Place.cache server 0).ticket? p = some (id, none) := by
        simp [Place.ticket?, pending, CacheEntry.ticket?]
      cases place_unique nodup stands front
      simp [Place.passage, cacheLine] at other
  | @response server frame kind _ _ pending | @undecodable server frame kind _ _ pending =>
      have front : (Place.store server 0).ticket? p = some (id, some kind) := by
        simp [Place.ticket?, pending]
      cases place_unique nodup stands front
      simp [Place.passage, storeLine] at other
  | missed =>
      cases tears with
      | steady steady => exact steady
      | cacheSilence => exact apart List.mem_cons_self
  | reset =>
      cases tears with
      | steady steady => exact steady
      | storeReset => exact apart List.mem_cons_self
  | lost =>
      cases tears with
      | steady steady => exact steady
      | storeSilence => exact apart List.mem_cons_self

theorem spares_of_apply (h : Torn torn p) (tears : Tears p torn move rest)
    (within : move.Within lost) : Spares lost p (move.apply w p) := by
  intro place id kind elsewhere stands
  have other := within.other place elsewhere
  refine ⟨ticket_of_apply h.tidy other stands, ?_⟩
  exact operations_of_apply h.tidy
    (h.ticketed.lt _ (List.mem_append_left _ (ticket_of_place stands)))
    (subject?_ne_of_place h tears other stands) within.stays

theorem Spares.trans (h : Spares lost p q) (h' : Spares lost q r) : Spares lost p r := by
  intro place id kind elsewhere stands
  obtain ⟨stands', same⟩ := h place id kind elsewhere stands
  obtain ⟨stands'', same'⟩ := h' place id kind elsewhere stands'
  exact ⟨stands'', same'.trans same⟩

theorem spares_of_play (mends : Mends w p torn ms) (h : Torn torn p)
    (within : ∀ move ∈ ms, move.Within lost) : Spares lost p (play w p ms) := by
  induction mends with
  | nil => exact fun _ _ _ _ stands => ⟨stands, rfl⟩
  | cons tears _ ih =>
      obtain ⟨first, others⟩ := List.forall_mem_cons.mp within
      exact (spares_of_apply h tears first).trans (ih (h.tears tears) others)

end Spares

section Within

variable {event : Event} {move : Move} {server : Nat}

theorem within_store (on : event.OnStore server) (arises : Arises event move) :
    move.Within (.store server) := by
  have other : ∀ {place : Place}, (∀ position, place ≠ .store server position) →
      ∀ {s position}, place = .store s position → s ≠ server := by
    rintro place elsewhere s position rfl rfl
    exact elsewhere position rfl
  cases arises <;> first | exact on.elim | skip
  all_goals
    cases on
    refine ⟨by simp, ?_⟩
    intro place elsewhere
    cases place with
    | cache s position => simp [Place.passage, cacheLine]
    | store s position => simp [Place.passage, storeLine, Ne.symm (other elsewhere rfl)]

theorem within_cache (on : event.OnCache server) (arises : Arises event move) :
    move.Within (.cache server) := by
  have other : ∀ {place : Place}, (∀ position, place ≠ .cache server position) →
      ∀ {s position}, place = .cache s position → s ≠ server := by
    rintro place elsewhere s position rfl rfl
    exact elsewhere position rfl
  cases arises <;> first | exact on.elim | skip
  all_goals
    cases on
    refine ⟨by simp, ?_⟩
    intro place elsewhere
    cases place with
    | store s position => simp [Place.passage, storeLine]
    | cache s position => simp [Place.passage, cacheLine, Ne.symm (other elsewhere rfl)]

end Within

def Move.torn? : Move → Option Nat
  | .cacheSilence (.operation id) | .storeReset id _ | .storeSilence _ id _ => some id
  | _ => none

def Move.IsClosing : Move → Prop
  | .cacheProtest _ | .cacheLoss _ | .cacheSilence _ | .storeProtest _ | .storeLoss _
  | .storeReset .. | .storeSilence .. => True
  | _ => False

/-- Exactly one of the moves deals with the operation, which has been left alone till then; and this
is what becomes of it. -/
def Meets (w : World) (p : Proxy) (ms : List Move) (id : Nat) (operation : Operation)
    (fate : Proxy → Move → Prop) : Prop :=
  ∃ (n : Nat) (move : Move), ms[n]? = some move ∧
    (play w p (ms.take n)).operations.get? id = some operation ∧
    fate (play w p (ms.take n)) move ∧
    ∀ (m : Nat) (other : Move), ms[m]? = some other →
      other.subject? (play w p (ms.take m)) = some id → m = n

section Meets

variable {w : World} {p : Proxy} {first : Move} {ms : List Move} {id : Nat} {operation : Operation}
  {fate : Proxy → Move → Prop}

theorem Meets.cons (h : Meets w (first.apply w p) ms id operation fate)
    (other : first.subject? p ≠ some id) : Meets w p (first :: ms) id operation fate := by
  obtain ⟨n, move, made, ho, becomes, once⟩ := h
  refine ⟨n + 1, move, made, ho, becomes, ?_⟩
  intro m later made' subject
  cases m with
  | zero =>
      cases made'
      exact absurd subject other
  | succ m => exact congrArg Nat.succ (once m later made' subject)

theorem Meets.head (ho : p.operations.get? id = some operation) (becomes : fate p first)
    (others : ∀ (m : Nat) (other : Move), ms[m]? = some other →
      other.subject? (play w (first.apply w p) (ms.take m)) ≠ some id) :
    Meets w p (first :: ms) id operation fate := by
  refine ⟨0, first, rfl, ho, becomes, ?_⟩
  intro m later made subject
  cases m with
  | zero => rfl
  | succ m => exact absurd subject (others m later made)

end Meets

structure Closing (p : Proxy) (ms : List Move) : Prop where
  tidy : Tidy p []
  closing : ∀ move ∈ ms, move.IsClosing
  nodup : (ms.filterMap Move.torn?).Nodup
  lt : ∀ id ∈ ms.filterMap Move.torn?, id < p.nextOperation

section Closing

variable {w : World} {p : Proxy} {ms : List Move} {move : Move} {id n server : Nat}
  {operation : Operation}

theorem Move.IsClosing.subject? (h : move.IsClosing) (p : Proxy) : move.subject? p = move.torn? := by
  cases move with
  | cacheSilence entry => cases entry <;> rfl
  | cacheProtest | cacheLoss | storeProtest | storeLoss | storeReset | storeSilence => rfl
  | _ => exact h.elim

theorem Move.IsClosing.stays (h : move.IsClosing) (client : Nat) : move ≠ .hangUp client := by
  rintro rfl
  exact h

theorem exists_of_torn (hm : id ∈ ms.filterMap Move.torn?) :
    ∃ (n : Nat) (move : Move), ms[n]? = some move ∧ move.torn? = some id := by
  obtain ⟨move, within, own⟩ := List.mem_filterMap.mp hm
  obtain ⟨n, made⟩ := List.mem_iff_getElem?.mp within
  exact ⟨n, move, made, own⟩

theorem operations_of_closing (tidy : Tidy p []) (closing : ∀ move ∈ ms, move.IsClosing)
    (spare : id ∉ ms.filterMap Move.torn?) (lt : id < p.nextOperation) :
    (play w p ms).operations.get? id = p.operations.get? id := by
  induction ms generalizing p with
  | nil => rfl
  | cons move ms ih =>
      obtain ⟨first, others⟩ := List.forall_mem_cons.mp closing
      have apart : move.torn? ≠ some id ∧ id ∉ ms.filterMap Move.torn? := by
        rw [List.filterMap_cons] at spare
        cases torn : move.torn? with
        | none =>
            rw [torn] at spare
            exact ⟨by simp, spare⟩
        | some k =>
            rw [torn] at spare
            rw [List.mem_cons, not_or] at spare
            exact ⟨fun same => spare.1 (Option.some.inj same).symm, spare.2⟩
      have lt' := Nat.lt_of_lt_of_le lt (frame_apply w p move).nextOperation
      rw [play_cons, ih (tidy.apply w move) others apart.2 lt']
      exact operations_of_apply tidy lt (first.subject? p ▸ apart.1) first.stays

namespace Closing

variable (h : Closing p ms)

include h

theorem spare (made : ms[n]? = some move) (torn : move.torn? = some id) :
    id ∉ (ms.take n).filterMap Move.torn? ∧ id ∉ (ms.drop (n + 1)).filterMap Move.torn? := by
  have nodup := h.nodup
  rw [← List.take_append_drop (n + 1) ms, take_succ made, List.filterMap_append,
    List.filterMap_append] at nodup
  obtain ⟨front, -, behind⟩ := List.nodup_append.mp nodup
  obtain ⟨-, -, before⟩ := List.nodup_append.mp front
  have here : id ∈ [move].filterMap Move.torn? := List.mem_filterMap.mpr ⟨move, by simp, torn⟩
  exact ⟨fun hm => before id hm id here rfl,
    fun hm => behind id (List.mem_append_right _ here) id hm rfl⟩

theorem held (made : ms[n]? = some move) (torn : move.torn? = some id) :
    (play w p (ms.take n)).operations.get? id = p.operations.get? id := by
  refine operations_of_closing h.tidy (fun m hm => h.closing m (List.mem_of_mem_take hm))
    (h.spare made torn).1 (h.lt id ?_)
  exact List.mem_filterMap.mpr ⟨move, List.mem_of_getElem? made, torn⟩

theorem settled (made : ms[n]? = some move) (torn : move.torn? = some id) :
    (play w p ms).operations.get? id =
      (move.apply w (play w p (ms.take n))).operations.get? id := by
  have lt := h.lt id (List.mem_filterMap.mpr ⟨move, List.mem_of_getElem? made, torn⟩)
  have later := operations_of_closing (w := w) (h.tidy.play w (ms.take (n + 1)))
    (fun m hm => h.closing m (List.mem_of_mem_drop hm)) (h.spare made torn).2
    (Nat.lt_of_lt_of_le lt (frame_play w p _).nextOperation)
  rwa [← play_append, List.take_append_drop, play_take_succ w p made] at later

theorem once {m : Nat} {other : Move} (made : ms[n]? = some move) (made' : ms[m]? = some other)
    (torn : move.torn? = some id) (torn' : other.torn? = some id) : m = n := by
  have early : ∀ {i j : Nat} {first second : Move}, ms[i]? = some first → ms[j]? = some second →
      first.torn? = some id → second.torn? = some id → ¬ i < j := by
    intro i j first second hi hj ti tj lt
    have within : (ms.take j)[i]? = some first := by rw [List.getElem?_take_of_lt lt, hi]
    exact (h.spare hj tj).1 (List.mem_filterMap.mpr ⟨first, List.mem_of_getElem? within, ti⟩)
  exact Nat.le_antisymm (Nat.not_lt.mp (early made made' torn torn'))
    (Nat.not_lt.mp (early made' made torn' torn))

theorem meets (ho : p.operations.get? id = some operation) (made : ms[n]? = some move)
    (torn : move.torn? = some id) {fate : Proxy → Move → Prop}
    (becomes : fate (play w p (ms.take n)) move) : Meets w p ms id operation fate := by
  refine ⟨n, move, made, (h.held made torn).trans ho, becomes, ?_⟩
  intro m other made' subject
  rw [(h.closing other (List.mem_of_getElem? made')).subject?] at subject
  exact h.once made made' torn subject

theorem emits_or_notice {action : Action} (hm : action ∈ emitted w p ms) :
    (∃ move ∈ ms, action ∈ move.notice) ∨ ∃ (n : Nat) (move : Move) (id : Nat)
      (operation : Operation), ms[n]? = some move ∧ move.torn? = some id ∧
        p.operations.get? id = some operation ∧ action ∈ move.emits w (play w p (ms.take n)) := by
  obtain ⟨n, move, made, sent⟩ := mem_emitted.mp hm
  have closes := h.closing move (List.mem_of_getElem? made)
  cases torn : move.torn? with
  | none =>
      have idle : move.emits w (play w p (ms.take n)) = move.notice ++ [] := by
        refine emits_of_outbox move w ?_
        cases move with
        | cacheSilence entry =>
            cases entry with
            | operation k => cases torn
            | sideEffect => exact (List.append_nil _).symm
        | cacheProtest | cacheLoss | storeProtest | storeLoss => exact (List.append_nil _).symm
        | storeReset | storeSilence => cases torn
        | _ => exact closes.elim
      rw [idle, List.append_nil] at sent
      exact Or.inl ⟨move, List.mem_of_getElem? made, sent⟩
  | some id =>
      have same := h.held (w := w) made torn
      cases ho : p.operations.get? id with
      | none =>
          have subject := (closes.subject? (play w p (ms.take n))).trans torn
          rw [emits_of_gone subject (same.trans ho)] at sent
          cases sent
      | some operation => exact Or.inr ⟨n, move, id, operation, made, torn, ho, sent⟩

theorem asked_once (made : ms[n]? = some move) (torn : move.torn? = some id) {s : Nat}
    {request : Store.Request} (hm : Action.store s id request ∈ emitted w p ms) :
    Action.store s id request ∈ move.emits w (play w p (ms.take n)) := by
  obtain ⟨m, other, made', sent⟩ := mem_emitted.mp hm
  have lt := h.lt id (List.mem_filterMap.mpr ⟨move, List.mem_of_getElem? made, torn⟩)
  by_cases subject : other.subject? (play w p (ms.take m)) = some id
  · rw [(h.closing other (List.mem_of_getElem? made')).subject?] at subject
    obtain rfl := h.once made made' torn subject
    cases made.symm.trans made'
    exact sent
  · exact absurd sent (unasked_of_apply (h.tidy.play w _) subject
      (Nat.lt_of_lt_of_le lt (frame_play w p _).nextOperation) s request)

theorem queued_iff (made : ms[n]? = some move) (torn : move.torn? = some id) {s : Nat}
    (other : ∀ move ∈ ms, (storeLine s).passage move = .other) (spare : id ∉ p.queued s) :
    id ∈ (play w p ms).queued s ↔
      ∃ request, Action.store s id request ∈ move.emits w (play w p (ms.take n)) := by
  have grown : (play w p ms).queued s =
      p.queued s ++ ((emitted w p ms).filterMap (Action.toStore? s)).map Prod.fst := by
    have pending := congrArg (List.map Prod.fst)
      (pending_play (pending_storeLine_apply w s) h.tidy other)
    rw [List.map_append, List.map_map] at pending
    exact pending
  rw [grown, List.mem_append, or_iff_right spare]
  simp only [List.mem_map, List.mem_filterMap]
  constructor
  · rintro ⟨message, ⟨action, hm, sends⟩, rfl⟩
    cases action with
    | store s' k request =>
        simp only [Action.toStore?, Option.ite_none_right_eq_some, Option.some.injEq] at sends
        obtain ⟨rfl, rfl⟩ := sends
        exact ⟨request, h.asked_once made torn hm⟩
    | _ => cases sends
  · rintro ⟨request, hm⟩
    have sent : Action.store s id request ∈ emitted w p ms := mem_emitted.mpr ⟨n, move, made, hm⟩
    exact ⟨(id, request), ⟨_, sent, by simp [Action.toStore?]⟩, rfl⟩

end Closing

variable {why : Failure} {reason : String}

theorem queued_eq_tickets (p : Proxy) (server : Nat) :
    p.queued server = (p.storeLink server).tickets.map Prod.fst := by
  rw [StoreLink.tickets, List.map_map]
  rfl

def lookedUp (p : Proxy) (server : Nat) : List Nat :=
  (p.cacheLink server).tickets.map Prod.fst

theorem mem_lookedUp : id ∈ p.lookedUp server ↔ .operation id ∈ p.pendingCache server := by
  simp only [lookedUp, CacheLink.tickets, List.mem_map, List.mem_filterMap]
  constructor
  · rintro ⟨ticket, ⟨entry, hm, ht⟩, rfl⟩
    cases entry with
    | operation k =>
        cases ht
        exact hm
    | sideEffect => cases ht
  · intro hm
    exact ⟨(id, none), ⟨_, hm, rfl⟩, rfl⟩

theorem closing_of_torn {tickets others : List Ticket} (h : Torn [] p)
    (parted : p.tickets.Perm (tickets ++ others)) (closing : ∀ move ∈ ms, move.IsClosing)
    (torn : ms.filterMap Move.torn? = tickets.map Prod.fst) : Closing p ms where
  tidy := h.tidy
  closing := closing
  nodup := by
    have nodup := h.nodup_tickets
    rw [(parted.map Prod.fst).nodup_iff, List.map_append] at nodup
    exact torn ▸ (List.nodup_append.mp nodup).1
  lt := by
    intro id hm
    rw [torn] at hm
    obtain ⟨ticket, ht, rfl⟩ := List.mem_map.mp hm
    exact h.ticketed.lt ticket (List.mem_append_left _ (parted.mem_iff.mpr (List.mem_append_left _ ht)))

theorem mem_storeLossMoves (hm : move ∈ storeLossMoves p server reason) :
    move = .storeLoss server ∨ ∃ id, move = .storeSilence server id reason := by
  rcases List.mem_cons.mp hm with rfl | hm
  · exact Or.inl rfl
  · obtain ⟨entry, -, rfl⟩ := List.mem_map.mp hm
    exact Or.inr ⟨entry.1, rfl⟩

theorem mem_cacheLossMoves (hm : move ∈ cacheLossMoves p server) :
    move = .cacheLoss server ∨ ∃ entry, move = .cacheSilence entry := by
  rcases List.mem_cons.mp hm with rfl | hm
  · exact Or.inl rfl
  · obtain ⟨entry, -, rfl⟩ := List.mem_map.mp hm
    exact Or.inr ⟨entry, rfl⟩

theorem torn?_storeCloseMoves (p : Proxy) (server : Nat) (why : Failure) :
    (storeCloseMoves p server why).filterMap Move.torn? = p.queued server := by
  change ((p.pendingStore server).map fun entry => Move.storeReset entry.1 why).filterMap
    Move.torn? = _
  rw [List.filterMap_map]
  exact congrFun List.filterMap_eq_map (p.pendingStore server)

theorem torn?_storeLossMoves (p : Proxy) (server : Nat) (reason : String) :
    (storeLossMoves p server reason).filterMap Move.torn? = p.queued server := by
  change ((p.pendingStore server).map fun entry =>
    Move.storeSilence server entry.1 reason).filterMap Move.torn? = _
  rw [List.filterMap_map]
  exact congrFun List.filterMap_eq_map (p.pendingStore server)

theorem torn?_cacheLossMoves (p : Proxy) (server : Nat) :
    (cacheLossMoves p server).filterMap Move.torn? = p.lookedUp server := by
  change ((p.cacheLink server).pending.map Move.cacheSilence).filterMap Move.torn? = _
  rw [List.filterMap_map, lookedUp, CacheLink.tickets, List.map_filterMap]
  refine List.filterMap_congr ?_
  intro entry _
  cases entry <;> rfl

theorem closing_storeCloseMoves (h : Torn [] p) (server : Nat) (why : Failure) :
    Closing p (storeCloseMoves p server why) := by
  refine closing_of_torn h (tickets_storeLink p server) ?_ ?_
  · refine List.forall_mem_cons.mpr ⟨trivial, List.forall_mem_cons.mpr ⟨trivial, ?_⟩⟩
    exact List.forall_mem_map.mpr fun _ _ => trivial
  · rw [torn?_storeCloseMoves, queued_eq_tickets]

theorem closing_storeLossMoves (h : Torn [] p) (server : Nat) (reason : String) :
    Closing p (storeLossMoves p server reason) := by
  refine closing_of_torn h (tickets_storeLink p server) ?_ ?_
  · exact List.forall_mem_cons.mpr ⟨trivial, List.forall_mem_map.mpr fun _ _ => trivial⟩
  · rw [torn?_storeLossMoves, queued_eq_tickets]

theorem closing_cacheLossMoves (h : Torn [] p) (server : Nat) :
    Closing p (cacheLossMoves p server) := by
  refine closing_of_torn h (tickets_cacheLink p server) ?_ ?_
  · exact List.forall_mem_cons.mpr ⟨trivial, List.forall_mem_map.mpr fun _ _ => trivial⟩
  · exact torn?_cacheLossMoves p server

theorem Closing.cons (h : Closing p ms) (closing : move.IsClosing) (none : move.torn? = none) :
    Closing p (move :: ms) where
  tidy := h.tidy
  closing := List.forall_mem_cons.mpr ⟨closing, h.closing⟩
  nodup := by
    rw [List.filterMap_cons, none]
    exact h.nodup
  lt := by
    rw [List.filterMap_cons, none]
    exact h.lt

end Closing

end Proxy

end ReadThrough
