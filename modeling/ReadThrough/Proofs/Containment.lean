import ReadThrough.Pool.Roster
import ReadThrough.Proofs.Fates
import ReadThrough.Proofs.Faults
import ReadThrough.Proofs.Resends
import ReadThrough.Proofs.Sendings
import ReadThrough.Proofs.Teardown
import ReadThrough.Proofs.Unbroken

namespace ReadThrough.Proxy

inductive LosesStore (server : Nat) : Event → String → Prop where
  | closed : LosesStore server (.storeClosed server) "connection closed"
  | timedOut : LosesStore server (.storeTimeout server) "request timed out"

structure Desynced (w : World) (p : Proxy) (ms : List Move) (server : Nat) (why : Failure) :
    Prop where
  fatal : why.kind.isFatalToConnection = true
  mute : ∀ action ∈ emitted w p ms, action = .closeStore server ∨
    ∃ client slot value, action = .reply client slot value
  failed : ∀ id kind operation, (id, kind) ∈ p.pendingStore server →
    p.operations.get? id = some operation →
    (∃ cause, (cause = .connectionReset why ∨ cause = .undecodableResponse why) ∧
      Meets w p ms id operation fun q move =>
        Quits w q move id operation (Reply.failure cause)) ∧
    (play w p ms).operations.get? id = none
  empty : (play w p ms).inFlight server = 0

structure Lost (w : World) (p : Proxy) (ms : List Move) (server : Nat) (reason : String) :
    Prop where
  resettled : ∀ id kind operation, (id, kind) ∈ p.pendingStore server →
    p.operations.get? id = some operation → ∃ next,
      (Meets w p ms id operation fun q move =>
        Outlives w q move id operation server reason next) ∧
      (∀ s, id ∈ (play w p ms).queued s ↔ next = some s) ∧ next ≠ some server ∧
      (next = none → (play w p ms).operations.get? id = none)
  empty : (play w p ms).inFlight server = 0

structure Missed (w : World) (p : Proxy) (ms : List Move) (server : Nat) : Prop where
  missed : ∀ id operation, .operation id ∈ p.pendingCache server →
    p.operations.get? id = some operation → ∃ read next, operation.stage = .cacheRead read ∧
      (Meets w p ms id operation fun q move => Misses w q move id operation read next) ∧
      (∀ s, id ∈ (play w p ms).queued s ↔ next = some s) ∧
      (next = none → (play w p ms).operations.get? id = none)
  dropped : ∀ s entry command, Action.cache s entry command ∉ emitted w p ms
  empty : (play w p ms).pendingCache server = []

section Desync

variable {w : World} {p : Proxy} {server id : Nat} {why : Failure}
  {operation : Operation}

variable (torn : Torn [] p) (balanced : Balanced p [])

include torn balanced

theorem desynced_of_close (server : Nat) (fatal : why.kind.isFatalToConnection = true) :
    Desynced w p (storeCloseMoves p server why) server why := by
  have closes := closing_storeCloseMoves torn server why
  have quits : ∀ {n move id operation}, (storeCloseMoves p server why)[n]? = some move →
      move.torn? = some id → p.operations.get? id = some operation →
      Quits w (play w p ((storeCloseMoves p server why).take n)) move id operation
        (Reply.failure (.connectionReset why)) := by
    intro n move id operation made own ho
    have held := (closes.held (w := w) made own).trans ho
    have reset : move = .storeReset id why := by
      rcases List.mem_cons.mp (List.mem_of_getElem? made) with rfl | hm
      · cases own
      · rcases List.mem_cons.mp hm with rfl | hm
        · cases own
        · obtain ⟨entry, -, rfl⟩ := List.mem_map.mp hm
          cases own
          rfl
    subst reset
    exact quits_of_failed rfl held (torn.tidy.play w _) (balanced.play torn.tidy w _) rfl
  have mute : ∀ action ∈ emitted w p (storeCloseMoves p server why),
      action = .closeStore server ∨ ∃ client slot value, action = .reply client slot value := by
    intro action hm
    rcases closes.emits_or_notice hm with
      ⟨move, hmove, noticed⟩ | ⟨n, move, id, operation, made, own, ho, sent⟩
    · rcases List.mem_cons.mp hmove with rfl | hmove
      · exact Or.inl (List.mem_singleton.mp noticed)
      · rcases List.mem_cons.mp hmove with rfl | hmove
        · cases noticed
        · obtain ⟨entry, -, rfl⟩ := List.mem_map.mp hmove
          cases noticed
    · exact Or.inr ((quits made own ho).only action sent)
  refine ⟨fatal, mute, ?_, ?_⟩
  · intro id kind operation queued ho
    have hm : Move.storeReset id why ∈ storeCloseMoves p server why :=
      List.mem_cons_of_mem _ (List.mem_cons_of_mem _ (List.mem_map.mpr ⟨_, queued, rfl⟩))
    obtain ⟨n, made⟩ := List.mem_iff_getElem?.mp hm
    refine ⟨⟨_, Or.inl rfl, closes.meets ho made rfl (quits made rfl ho)⟩, ?_⟩
    rw [closes.settled made rfl, (quits made rfl ho).operations, Table.get?_erase_self]
  · refine List.length_eq_zero_iff.mpr (pending_after_loss (pending_storeLine_apply w server)
      (p := (Move.storeProtest server).apply w p) (torn.tidy.apply w _) (if_pos rfl) ?_ ?_)
    · exact List.forall_mem_map.mpr fun _ _ => rfl
    · intro action hm
      rcases mute _ (List.mem_append_right _ hm) with rfl | ⟨_, _, _, rfl⟩ <;> rfl

omit balanced in
theorem nodup_queued (server : Nat) : (p.queued server).Nodup := by
  have nodup := (closing_storeLossMoves torn server "").nodup
  rwa [torn?_storeLossMoves] at nodup

section Undecoded

variable {frame : Store.Frame} {kind : Store.RequestKind} {pending : List (Nat × Store.RequestKind)}
  (queue : p.pendingStore server = (id, kind) :: pending)
  (decoded : Store.Response.decode frame.code frame.payload kind = .error why)

include queue decoded

theorem quits_of_undecoded (ho : p.operations.get? id = some operation) :
    Quits w p (.storeAnswer server frame) id operation
      (Reply.failure (.undecodableResponse why)) :=
  quits_of_failed (Move.news?_eq_some_iff.mpr (.undecodable queue decoded)) ho torn.tidy balanced rfl

theorem only_replies_of_undecoded : ∀ action ∈ (Move.storeAnswer server frame).emits w p,
    ∃ client slot value, action = .reply client slot value := by
  cases ho : p.operations.get? id with
  | some operation => exact (quits_of_undecoded torn balanced queue decoded ho).only
  | none =>
      have subject : (Move.storeAnswer server frame).subject? p = some id :=
        Move.subject?_eq_some_iff.mpr ⟨_, .undecodable queue decoded⟩
      rw [emits_of_gone subject ho]
      exact List.forall_mem_nil _

theorem pendingStore_of_undecoded (w : World) :
    ((Move.storeAnswer server frame).apply w p).pendingStore server = pending := by
  have silent : (storeLine server).messages w p (.storeAnswer server frame) = [] := by
    refine List.filterMap_eq_nil_iff.mpr ?_
    intro action hm
    obtain ⟨client, slot, value, rfl⟩ := only_replies_of_undecoded torn balanced queue decoded _ hm
    rfl
  rw [pendingStore_apply _ server w torn.tidy.sound, silent, queue]
  simp [storeLine]

theorem desynced_of_answer : Desynced w p (.storeAnswer server frame ::
    storeCloseMoves ((Move.storeAnswer server frame).apply w p) server why) server why := by
  have torn' : Torn [] ((Move.storeAnswer server frame).apply w p) :=
    torn.tears (.steady trivial)
  have balanced' := balanced.apply torn.tidy w (.storeAnswer server frame)
  have later := desynced_of_close (w := w) torn' balanced' server (Store.Response.fatal_of_decode decoded)
  have only := only_replies_of_undecoded (w := w) torn balanced queue decoded
  have behind := pendingStore_of_undecoded torn balanced queue decoded w
  have nodup := nodup_queued torn server
  rw [queued, queue, List.map_cons, List.nodup_cons] at nodup
  refine ⟨Store.Response.fatal_of_decode decoded, ?_, ?_, later.empty⟩
  · intro action hm
    rcases List.mem_append.mp hm with first | hm
    · exact Or.inr (only action first)
    · exact later.mute action hm
  · intro k kind' operation queued ho
    rw [queue] at queued
    rcases List.mem_cons.mp queued with same | queued
    · cases same
      have quits := quits_of_undecoded (w := w) torn balanced queue decoded ho
      refine ⟨⟨_, Or.inr rfl, .head ho quits ?_⟩, ?_⟩
      · intro m other made subject
        have closes := closing_storeCloseMoves torn' server why
        have within := List.mem_of_getElem? made
        rw [(closes.closing other within).subject?] at subject
        refine nodup.1 ?_
        rw [← behind]
        change id ∈ Proxy.queued _ server
        rw [← torn?_storeCloseMoves _ server why]
        exact List.mem_filterMap.mpr ⟨other, within, subject⟩
      · refine operations_gone torn'.tidy ?_ ?_ _
        · exact Nat.lt_of_lt_of_le (torn.tidy.operation_lt ho) (frame_apply w p _).nextOperation
        · rw [quits.operations, Table.get?_erase_self]
    · have ne : id ≠ k := by
        rintro rfl
        exact nodup.1 (List.mem_map.mpr ⟨_, queued, rfl⟩)
      have other : (Move.storeAnswer server frame).subject? p ≠ some k := by
        rw [Move.subject?_eq_some_iff.mpr ⟨_, .undecodable queue decoded⟩]
        exact fun same => ne (Option.some.inj same)
      have held := kept_of_apply (w := w) torn.tidy ho other (by simp)
      obtain ⟨⟨cause, causes, meets⟩, gone⟩ := later.failed k kind' operation (behind ▸ queued) held
      exact ⟨⟨cause, causes, meets.cons other⟩, gone⟩

end Undecoded

end Desync

section Loss

theorem server_of_queued {p : Proxy} {id s server : Nat} (torn : Torn [] p)
    (first : id ∈ p.queued s) (second : id ∈ p.queued server) : s = server := by
  have place : ∀ {s}, id ∈ p.queued s →
      ∃ position kind, (Place.store s position).ticket? p = some (id, some kind) := by
    intro s queue
    obtain ⟨entry, hm, rfl⟩ := List.mem_map.mp queue
    obtain ⟨position, at'⟩ := List.mem_iff_getElem?.mp hm
    exact ⟨position, entry.2, Option.map_eq_some_iff.mpr ⟨entry, at', rfl⟩⟩
  obtain ⟨position, kind, here⟩ := place first
  obtain ⟨position', kind', there⟩ := place second
  cases place_unique torn.nodup_tickets here there
  rfl

variable {w : World} {p : Proxy} {ms : List Move} {move : Move} {server s id : Nat}
  {reason : String} {operation : Operation} {next : Nat}

theorem server_ne_of_outlives (distinct : ∀ n, ((w.pool n).live .store).Nodup)
    (trailed : Trailed w [] p) (empty : ∀ server, p.queued server = []) {more : List Move}
    (waits : id ∈ (play w p ms).queued server)
    (outlives : Outlives w (play w p (ms ++ more)) move id operation s reason (some next)) :
    next ≠ server := by
  obtain ⟨sending, early, own, -⟩ := queued_since trailed.tidy (empty server) ms waits
  cases outlives with
  | @resent _ _ _ resend resendable _ _ _ sends =>
      have sent := sendings_concat w (history w p (ms ++ more)) (play w p (ms ++ more)) move id
      rw [← history_concat, sends.emits] at sent
      have earlier : sending ∈ sendings w (history w p (ms ++ more)) id := by
        have kept := sendings_prefix w (history w p ms) (history w (play w p ms) more) id
        rw [history_append]
        exact kept.subset early
      have held := sends.operations
      rw [← play_concat] at held
      obtain ⟨start, command, root, -, -, stands⟩ := (trailed.play (ms ++ more ++ [move])).table
        (by rw [held]; exact Table.get?_insert_self _ _ _)
      have again : Operation.isResendable { operation with resend } = true := resendable
      obtain ⟨read, request', first, rest, -, -, -, -, split, -, tried, -⟩ :=
        stands.read_of_resendable again
      have apart := (tries_of_tried distinct tried).distinct
      rw [← split, sent, List.map_append] at apart
      rintro rfl
      refine (List.nodup_append.mp apart).2.2 sending.server
        (List.mem_map.mpr ⟨_, earlier, rfl⟩) _ ?_ rfl
      simp [Action.sending?, own]

variable (losing : ms = storeLossMoves p server reason ∨
  ms = .storeProtest server :: storeLossMoves p server reason)

include losing

theorem torn?_of_loss : ms.filterMap Move.torn? = p.queued server := by
  rcases losing with rfl | rfl
  · exact torn?_storeLossMoves p server reason
  · exact torn?_storeLossMoves p server reason

theorem mem_of_loss (hm : move ∈ ms) : move = .storeProtest server ∨ move = .storeLoss server ∨
    ∃ id, move = .storeSilence server id reason := by
  rcases losing with rfl | rfl
  · exact Or.inr (mem_storeLossMoves hm)
  · rcases List.mem_cons.mp hm with rfl | hm
    · exact Or.inl rfl
    · exact Or.inr (mem_storeLossMoves hm)

variable (torn : Torn [] p)

include torn

theorem closing_of_loss : Closing p ms := by
  have plain := closing_storeLossMoves torn server reason
  rcases losing with rfl | rfl
  · exact plain
  · exact plain.cons trivial rfl

theorem empty_of_loss
    (silent : ∀ k request, Action.store server k request ∉ emitted w p ms) :
    (play w p ms).pendingStore server = [] := by
  have mute : ∀ action ∈ emitted w p ms, (storeLine server).message? action = none := by
    intro action hm
    cases action with
    | store s k request =>
        refine if_neg ?_
        rintro rfl
        exact silent k request hm
    | _ => rfl
  have calm : ∀ move ∈ (p.storeLink server).pending.map
      fun entry => Move.storeSilence server entry.1 reason,
      (storeLine server).passage move = .other := List.forall_mem_map.mpr fun _ _ => rfl
  rcases losing with rfl | rfl
  · exact pending_after_loss (pending_storeLine_apply w server) torn.tidy (if_pos rfl) calm mute
  · refine pending_after_loss (pending_storeLine_apply w server)
      (p := (Move.storeProtest server).apply w p) (torn.tidy.apply w _) (if_pos rfl) calm ?_
    exact fun action hm => mute action (List.mem_append_right _ hm)

variable (balanced : Balanced p [])

include balanced

theorem outlives_of_loss {n : Nat} (made : ms[n]? = some move) (own : move.torn? = some id)
    (ho : p.operations.get? id = some operation) : id ∈ p.queued server ∧
      ∃ next, Outlives w (play w p (ms.take n)) move id operation server reason next := by
  have within := List.mem_of_getElem? made
  have held := ((closing_of_loss losing torn).held (w := w) made own).trans ho
  refine ⟨torn?_of_loss losing ▸ List.mem_filterMap.mpr ⟨move, within, own⟩, ?_⟩
  rcases mem_of_loss losing within with rfl | rfl | ⟨k, rfl⟩
  · cases own
  · cases own
  · cases own
    have told : (Move.storeSilence server id reason).news? (play w p (ms.take n)) =
        some (id, .lost server reason) := rfl
    exact outlives_of_lost told held (torn.tidy.play w _) (balanced.play torn.tidy w _) rfl

theorem lost_of_loss
    (away : ∀ more move id operation next, id ∈ p.queued server →
      Outlives w (play w p more) move id operation server reason (some next) → next ≠ server) :
    Lost w p ms server reason := by
  have closes := closing_of_loss losing torn
  have outlives : ∀ {n move id operation}, ms[n]? = some move → move.torn? = some id →
      p.operations.get? id = some operation → ∃ next,
        Outlives w (play w p (ms.take n)) move id operation server reason next ∧
        next ≠ some server := by
    intro n move id operation made own ho
    obtain ⟨waits, next, fate⟩ := outlives_of_loss losing torn balanced made own ho
    refine ⟨next, fate, ?_⟩
    rintro rfl
    exact away _ _ _ _ _ waits fate rfl
  -- Whatever is sent again goes elsewhere, so that nothing joins the queue of the lost server.
  have empty : (play w p ms).pendingStore server = [] := by
    refine empty_of_loss losing torn ?_
    intro k request hm
    rcases closes.emits_or_notice hm with
      ⟨move, within, noticed⟩ | ⟨n, move, id, operation, made, own, ho, sent⟩
    · cases move <;> simp [Move.notice] at noticed
    · obtain ⟨next, fate, ne⟩ := outlives made own ho
      exact ne (fate.asks sent)
  refine ⟨?_, List.length_eq_zero_iff.mpr empty⟩
  intro id kind operation queue ho
  have waits : id ∈ p.queued server := List.mem_map.mpr ⟨_, queue, rfl⟩
  obtain ⟨n, move, made, own⟩ := exists_of_torn ((torn?_of_loss losing).symm ▸ waits)
  obtain ⟨next, fate, ne⟩ := outlives made own ho
  refine ⟨next, closes.meets ho made own fate, ?_, ne, ?_⟩
  · intro s
    by_cases same : s = server
    · subst same
      refine iff_of_false ?_ ne
      rw [queued, empty]
      exact List.not_mem_nil
    · rw [closes.queued_iff made own ?_ ?_, fate.asked_iff]
      · intro move hm
        rcases mem_of_loss losing hm with rfl | rfl | ⟨k, rfl⟩
        · rfl
        · exact if_neg (Ne.symm same)
        · rfl
      · exact fun elsewhere => same (server_of_queued torn elsewhere waits)
  · rintro rfl
    rw [closes.settled made own]
    cases fate with
    | failed spent quits => rw [quits.operations, Table.get?_erase_self]

end Loss

section CacheLoss

variable {w : World} {p : Proxy} {ms : List Move} {move : Move} {server id : Nat}
  {operation : Operation}

theorem not_queued_of_lookedUp (torn : Torn [] p) (waits : id ∈ p.lookedUp server) (s : Nat) :
    id ∉ p.queued s := by
  obtain ⟨position, here⟩ := List.mem_iff_getElem?.mp (mem_lookedUp.mp waits)
  intro queue
  obtain ⟨entry, hm, rfl⟩ := List.mem_map.mp queue
  obtain ⟨position', there⟩ := List.mem_iff_getElem?.mp hm
  have first : (Place.cache server position).ticket? p = some (entry.1, none) :=
    Option.bind_eq_some_iff.mpr ⟨_, here, rfl⟩
  have second : (Place.store s position').ticket? p = some (entry.1, some entry.2) :=
    Option.map_eq_some_iff.mpr ⟨_, there, rfl⟩
  cases place_unique torn.nodup_tickets first second

variable
  (losing : ms = cacheLossMoves p server ∨ ms = .cacheProtest server :: cacheLossMoves p server)

include losing

theorem torn?_of_cacheLoss : ms.filterMap Move.torn? = p.lookedUp server := by
  rcases losing with rfl | rfl
  · exact torn?_cacheLossMoves p server
  · exact torn?_cacheLossMoves p server

theorem mem_of_cacheLoss (hm : move ∈ ms) : move = .cacheProtest server ∨
    move = .cacheLoss server ∨ ∃ entry, move = .cacheSilence entry := by
  rcases losing with rfl | rfl
  · exact Or.inr (mem_cacheLossMoves hm)
  · rcases List.mem_cons.mp hm with rfl | hm
    · exact Or.inl rfl
    · exact Or.inr (mem_cacheLossMoves hm)

variable (torn : Torn [] p)

include torn

theorem closing_of_cacheLoss : Closing p ms := by
  have plain := closing_cacheLossMoves torn server
  rcases losing with rfl | rfl
  · exact plain
  · exact plain.cons trivial rfl

theorem empty_of_cacheLoss
    (silent : ∀ entry command, Action.cache server entry command ∉ emitted w p ms) :
    (play w p ms).pendingCache server = [] := by
  have mute : ∀ action ∈ emitted w p ms, (cacheLine server).message? action = none := by
    intro action hm
    cases action with
    | cache s entry command =>
        refine if_neg ?_
        rintro rfl
        exact silent entry command hm
    | _ => rfl
  have calm : ∀ move ∈ (p.cacheLink server).pending.map Move.cacheSilence,
      (cacheLine server).passage move = .other := List.forall_mem_map.mpr fun _ _ => rfl
  rcases losing with rfl | rfl
  · exact pending_after_loss (pending_cacheLine_apply w server) torn.tidy (if_pos rfl) calm mute
  · refine pending_after_loss (pending_cacheLine_apply w server)
      (p := (Move.cacheProtest server).apply w p) (torn.tidy.apply w _) (if_pos rfl) calm ?_
    exact fun action hm => mute action (List.mem_append_right _ hm)

variable (balanced : Balanced p [])

include balanced

theorem misses_of_loss {n : Nat} (made : ms[n]? = some move) (own : move.torn? = some id)
    (ho : p.operations.get? id = some operation) : ∃ read next,
      operation.stage = .cacheRead read ∧
        Misses w (play w p (ms.take n)) move id operation read next := by
  have within := List.mem_of_getElem? made
  have waits : id ∈ p.lookedUp server :=
    torn?_of_cacheLoss losing ▸ List.mem_filterMap.mpr ⟨move, within, own⟩
  have held := ((closing_of_cacheLoss losing torn).held (w := w) made own).trans ho
  have ticket : (id, none) ∈ p.tickets ++ [] := by
    rw [List.append_nil, (tickets_cacheLink p server).mem_iff]
    exact List.mem_append_left _ (List.mem_filterMap.mpr ⟨_, mem_lookedUp.mp waits, rfl⟩)
  obtain ⟨read, stage⟩ := cacheRead_of_ticket torn ho ticket
  rcases mem_of_cacheLoss losing within with rfl | rfl | ⟨entry, rfl⟩
  · cases own
  · cases own
  · cases entry with
    | sideEffect => cases own
    | operation k =>
        cases own
        have told : (Move.cacheSilence (.operation id)).news? (play w p (ms.take n)) =
            some (id, .missed) := rfl
        obtain ⟨next, fate⟩ := misses_of_missed told held (torn.tidy.play w _)
          (balanced.play torn.tidy w _) rfl stage
        exact ⟨read, next, stage, fate⟩

theorem missed_of_loss : Missed w p ms server := by
  have closes := closing_of_cacheLoss losing torn
  have dropped : ∀ s entry command, Action.cache s entry command ∉ emitted w p ms := by
    intro s entry command hm
    rcases closes.emits_or_notice hm with
      ⟨move, -, noticed⟩ | ⟨n, move, id, operation, made, own, ho, sent⟩
    · cases move <;> simp [Move.notice] at noticed
    · obtain ⟨read, next, -, fate⟩ := misses_of_loss losing torn balanced (w := w) made own ho
      exact fate.uncached sent
  refine ⟨?_, dropped, empty_of_cacheLoss losing torn (dropped server)⟩
  intro id operation queue ho
  have waits := mem_lookedUp.mpr queue
  obtain ⟨n, move, made, own⟩ := exists_of_torn ((torn?_of_cacheLoss losing).symm ▸ waits)
  obtain ⟨read, next, stage, fate⟩ := misses_of_loss losing torn balanced (w := w) made own ho
  refine ⟨read, next, stage, closes.meets ho made own fate, ?_, ?_⟩
  · intro s
    rw [closes.queued_iff made own ?_ (not_queued_of_lookedUp torn waits s),
      fate.asked_iff (torn.tidy.play w _)]
    intro move hm
    rcases mem_of_cacheLoss losing hm with rfl | rfl | ⟨entry, rfl⟩ <;> rfl
  · rintro rfl
    rw [closes.settled made own]
    cases fate with
    | failed bucket composes unsendable quits => rw [quits.operations, Table.get?_erase_self]
    | empty bucket gone => exact gone

end CacheLoss

def arrivedFrames (p : Proxy) (server : Nat) (data : Bytes) : List Store.Frame × Ending :=
  Store.Frame.reader.stream ((p.storeLink server).inbound.append data).bytes

def arrivedValues (p : Proxy) (server : Nat) (data : Bytes) : List Resp.Value × Ending :=
  Resp.reader.stream ((p.cacheLink server).inbound.append data).bytes

structure Contained (w : World) (p : Proxy) : Prop where
  state : ∀ event, play w p (moves w p event) = p.step w event
  outbox : ∀ event, event ≠ .drain →
    (p.step w event).outbox = p.outbox ++ emitted w p (moves w p event)
  desync : ∀ server data, ∃ good left after,
    (p.arrivedFrames server data).1 = good ++ left ∧
    moves w p (.storeData server data) = good.map (.storeAnswer server) ++ after ∧
    (((∃ rest, after = [.storeHold server rest]) ∧
        (emitted w p (moves w p (.storeData server data))).filter Action.isClosing = []) ∨
      ∃ why, Fault w (play w p (good.map (.storeAnswer server))) server
          (p.arrivedFrames server data).2 left why after ∧
        (emitted w p (moves w p (.storeData server data))).filter Action.isClosing =
          [.closeStore server] ∧
        Desynced w (play w p (good.map (.storeAnswer server))) after server why)
  lost : (∀ n, ((w.pool n).live .store).Nodup) → ∀ server event reason,
    LosesStore server event reason → Lost w p (moves w p event) server reason
  missed : ∀ server, Missed w p (moves w p (.cacheClosed server)) server
  garbled : ∀ server data, ∃ good left after,
    (p.arrivedValues server data).1 = good ++ left ∧
    moves w p (.cacheData server data) = good.map (.cacheAnswer server) ++ after ∧
    ((∃ rest, after = [.cacheHold server rest]) ∨
      CacheFault (play w p (good.map (.cacheAnswer server))) server
          (p.arrivedValues server data).2 left after ∧
        Missed w (play w p (good.map (.cacheAnswer server))) after server)
  spares : ∀ server event, event.OnStore server → Spares (.store server) p (p.step w event)
  sparesCache : ∀ server event, event.OnCache server → Spares (.cache server) p (p.step w event)

theorem notice_storeCloseMoves (p : Proxy) (server : Nat) (why : Failure) :
    (storeCloseMoves p server why).flatMap Move.notice = [.closeStore server] := by
  have calm : ((p.storeLink server).pending.map fun entry =>
      Move.storeReset entry.1 why).flatMap Move.notice = [] :=
    List.flatMap_eq_nil_iff.mpr (List.forall_mem_map.mpr fun _ _ => rfl)
  rw [storeCloseMoves, List.flatMap_cons, List.flatMap_cons, calm]
  rfl

theorem torn_of_mends {w : World} {p : Proxy} {torn : List Ticket} {ms : List Move}
    (mends : Mends w p torn ms) (h : Torn torn p) : Torn [] (play w p ms) := by
  induction mends with
  | nil => exact h
  | cons tears _ ih => exact ih (h.tears tears)

theorem contained_of_torn {w : World} {p : Proxy} (torn : Torn [] p) (balanced : Balanced p [])
    (away : (∀ n, ((w.pool n).live .store).Nodup) →
      ∀ more move id operation server reason next, id ∈ p.queued server →
        Outlives w (play w p more) move id operation server reason (some next) → next ≠ server) :
    Contained w p where
  state := play_moves w p
  outbox event drains := by
    rw [← play_moves]
    refine outbox_play torn.tidy ?_
    rintro move hm rfl
    cases arises_of_mem hm
    exact drains rfl
  desync server data := by
    obtain ⟨good, left, after, same, course, ends⟩ :=
      storeMoves_cases w server (p.arrivedFrames server data).2 (p.arrivedFrames server data).1 p
    refine ⟨good, left, after, same, course, ?_⟩
    -- The frames before the fault are answered as ever; the loss begins in the state behind them.
    have torn' : Torn [] (play w p (good.map (.storeAnswer server))) :=
      torn_of_mends (.steady (List.forall_mem_map.mpr fun _ _ => trivial)) torn
    have balanced' := balanced.play torn.tidy w (good.map (.storeAnswer server))
    have closings : (emitted w p (moves w p (.storeData server data))).filter Action.isClosing =
        after.flatMap Move.notice := by
      have calm : (good.map (Move.storeAnswer server)).flatMap Move.notice = [] :=
        List.flatMap_eq_nil_iff.mpr (List.forall_mem_map.mpr fun _ _ => rfl)
      rw [closings_emitted torn.tidy, show moves w p (.storeData server data) = _ from course,
        List.flatMap_append, calm, List.nil_append]
    rw [closings]
    rcases ends with ⟨rest, rfl⟩ | ⟨why, fault⟩
    · exact Or.inl ⟨⟨rest, rfl⟩, rfl⟩
    · refine Or.inr ⟨why, fault, ?_⟩
      cases fault with
      | unreadable refused =>
          exact ⟨notice_storeCloseMoves _ _ _,
            desynced_of_close torn' balanced' server (Store.Frame.fatal_of_stream refused)⟩
      | unrequested none =>
          exact ⟨notice_storeCloseMoves _ _ _, desynced_of_close torn' balanced' server rfl⟩
      | undecodable queue decoded =>
          exact ⟨notice_storeCloseMoves _ _ _, desynced_of_answer torn' balanced' queue decoded⟩
  lost distinct server event reason loses := by
    refine lost_of_loss ?_ torn balanced fun more move id operation next =>
      away distinct _ _ _ _ _ _ _
    cases loses with
    | closed => exact Or.inl rfl
    | timedOut => exact Or.inr rfl
  missed server := missed_of_loss (Or.inl rfl) torn balanced
  garbled server data := by
    obtain ⟨good, left, after, same, course, ends⟩ :=
      cacheMoves_cases w server (p.arrivedValues server data).2 (p.arrivedValues server data).1 p
    refine ⟨good, left, after, same, course, ?_⟩
    rcases ends with ⟨rest, rfl⟩ | fault
    · exact Or.inl ⟨rest, rfl⟩
    · have torn' : Torn [] (play w p (good.map (.cacheAnswer server))) :=
        torn_of_mends (.steady (List.forall_mem_map.mpr fun _ _ => trivial)) torn
      refine Or.inr ⟨fault, missed_of_loss ?_ torn' (balanced.play torn.tidy w _)⟩
      cases fault with
      | unreadable => exact Or.inr rfl
      | unrequested => exact Or.inr rfl
  spares server event on := by
    rw [← play_moves]
    exact spares_of_play (.moves event) torn fun move hm => within_store on (arises_of_mem hm)
  sparesCache server event on := by
    rw [← play_moves]
    exact spares_of_play (.moves event) torn fun move hm => within_cache on (arises_of_mem hm)

theorem contained_run (w : World) (settings : Settings) (policy : BucketPolicy)
    (events : List Event) : Contained w ((start settings policy).run w events) := by
  have torn : Torn [] (start settings policy) := Settled.start settings policy
  have trailed := Trailed.start w settings policy
  rw [← play_course]
  refine contained_of_torn ?_ ?_ ?_
  · exact torn_of_mends (.course events) torn
  · exact (Balanced.start settings policy).play trailed.tidy w _
  · intro distinct more move id operation server reason next waits outlives
    rw [← play_append] at outlives
    exact server_ne_of_outlives distinct trailed (fun _ => rfl) waits outlives

theorem contained_run_closed :
    let w : World :=
      { pool := fun _ =>
          { pick := fun tier _ => if tier = .store then some 0 else none, live := fun _ => [0, 1] }
        draw := fun _ => 0 }
    let read : List Event := [.command 7 (.get (ascii "b:k"))]
    let p := (start { maxResend := 2 } {}).run w read
    let q := p.step w (.storeClosed 0)
    (p.queued 0, q.queued 0, q.queued 1) = ([1], [], [1]) ∧
      ((q.step w (.storeTimeout 1)).operations.get? 1).isNone ∧ Contained w p ∧ Contained w q ∧
      (∃ reason, Lost w p (moves w p (.storeClosed 0)) 0 reason) ∧
      ∃ reason, Lost w q (moves w q (.storeTimeout 1)) 1 reason := by
  intro w read p q
  have distinct : ∀ n, ((w.pool n).live .store).Nodup := fun _ => (by decide : [0, 1].Nodup)
  have before : Contained w p := contained_run w _ _ read
  have after : Contained w q := contained_run w { maxResend := 2 } {} (read ++ [Event.storeClosed 0])
  exact ⟨by decide +kernel, by decide +kernel, before, after,
    ⟨_, before.lost distinct 0 _ _ .closed⟩, ⟨_, after.lost distinct 1 _ _ .timedOut⟩⟩

theorem lookup_lost_unsendable :
    let w : World :=
      { pool := fun _ => (Pool.Roster.ofNames ["cache0", "cache1"] []).view 0, draw := fun _ => 0 }
    let p := (start {} {}).step w
      (.command 7 (.algebra .union none [ascii "b:x", ascii "b:y"]))
    let q := p.step w (.cacheClosed 1)
    p.pendingCache 1 = [.operation 1] ∧ (p.operations.get? 1).isSome ∧
      emitted w p (moves w p (.cacheClosed 1)) = [] ∧ q.operations.get? 1 = none ∧
      (q.groups.table.get? 1).map (fun group => (group.failures, group.gathered)) =
        some (1, .emptySets 2) := by
  intro w p q
  refine ⟨by decide +kernel, by decide +kernel, List.length_eq_zero_iff.mp ?_, ?_, ?_⟩
  · decide +kernel
  · exact Option.isNone_iff_eq_none.mp (by decide +kernel)
  · decide +kernel

end ReadThrough.Proxy
