import ReadThrough.Proofs.Tenure

namespace ReadThrough.Proxy

structure Forgets (client : Nat) (p q : Proxy) : Prop where
  operations : ∀ id operation, q.operations.get? id = some operation ↔
    p.operations.get? id = some operation ∧ operation.client ≠ client
  groups : ∀ id group, q.groups.table.get? id = some group ↔
    p.groups.table.get? id = some group ∧ group.client ≠ client
  clients : ∀ c, q.clients.get? c = if c = client then none else p.clients.get? c
  rest : q = { p with
    operations := q.operations, clients := q.clients, groups := ⟨q.groups.table, p.groups.next⟩ }

theorem forgets_clientClosed (p : Proxy) (client : Nat) :
    Forgets client p (p.clientClosed client) where
  operations _ _ := get?_operations_clientClosed
  groups _ _ := get?_groups_clientClosed
  clients _ := Table.get?_erase _ _ _
  rest := rfl

section Forgets

variable {p q : Proxy} {client id : Nat}

theorem Forgets.operation_gone (h : Forgets client p q) {operation : Operation}
    (ho : p.operations.get? id = some operation) (own : operation.client = client) :
    q.operations.get? id = none := by
  cases left : q.operations.get? id with
  | none => rfl
  | some other =>
      obtain ⟨same, foreign⟩ := (h.operations id other).mp left
      cases ho.symm.trans same
      exact absurd own foreign

theorem Forgets.group_gone (h : Forgets client p q) {group : Fragment.Group GroupContext}
    (hg : p.groups.table.get? id = some group) (own : group.client = client) :
    q.groups.table.get? id = none := by
  cases left : q.groups.table.get? id with
  | none => rfl
  | some other =>
      obtain ⟨same, foreign⟩ := (h.groups id other).mp left
      cases hg.symm.trans same
      exact absurd own foreign

end Forgets

section Gone

variable {w : World} {p : Proxy} {move : Move} {moves : List Move} {client id server : Nat}

theorem frame_play (w : World) (p : Proxy) (moves : List Move) : Frame p (play w p moves) := by
  induction moves generalizing p with
  | nil => exact .refl p
  | cons move moves ih => exact (frame_apply w p move).trans (ih _)

theorem operations_gone (tidy : Tidy p []) (lt : id < p.nextOperation)
    (gone : p.operations.get? id = none) (moves : List Move) :
    (play w p moves).operations.get? id = none := by
  cases later : (play w p moves).operations.get? id with
  | none => rfl
  | some operation =>
      obtain ⟨old, ho, -⟩ := owed_before tidy later lt
      rw [gone] at ho
      cases ho

theorem groups_gone (lt : id < p.groups.next) (gone : p.groups.table.get? id = none)
    (moves : List Move) : (play w p moves).groups.table.get? id = none := by
  cases later : (play w p moves).groups.table.get? id with
  | none => rfl
  | some group =>
      rcases (frame_play w p moves).groups later with ⟨old, hg, -⟩ | le
      · rw [gone] at hg
        cases hg
      · exact absurd lt (Nat.not_lt.mpr le)

theorem resumed_of_gone (gone : p.operations.get? id = none) (handler : Proxy → Operation → Proxy) :
    p.resume id handler = p := by
  simp only [resume, takeOperation, gone, Option.map_none]

theorem apply_of_gone (subject : move.subject? p = some id) (gone : p.operations.get? id = none) :
    move.apply w p = move.prepare p := by
  obtain ⟨news, brings⟩ := Move.subject?_eq_some_iff.mp subject
  cases brings with
  | @value server value rest pending =>
      simp only [Move.apply, Move.prepare, pending]
      exact resumed_of_gone (p := p.setCache server _) gone fun q operation =>
        q.cacheReply w id operation value
  | @response server _ _ _ _ pending | @undecodable server _ _ _ _ pending =>
      simp only [Move.apply, Move.prepare, pending]
      exact resumed_of_gone (p := p.setStore server _) gone _
  | missed => exact resumed_of_gone gone fun q operation => q.cacheMiss w id operation
  | reset | lost => exact resumed_of_gone gone _

theorem emits_of_gone (subject : move.subject? p = some id)
    (gone : p.operations.get? id = none) : move.emits w p = [] := by
  have same : (move.apply w p).outbox = (move.opening p).1.outbox ++ [] := by
    obtain ⟨operations, opening⟩ := Move.opening_fst p move
    rw [apply_of_gone subject gone, opening, List.append_nil]
  rw [emits_of_outbox move w same]
  cases move <;> first | rfl | cases subject

theorem cacheAnswer_of_gone (gone : p.operations.get? id = none) (value : Resp.Value) :
    p.cacheAnswer w (.operation id) value = p :=
  resumed_of_gone gone fun q operation => q.cacheReply w id operation value

theorem cacheValues_of_gone {values : List Resp.Value} {front rest : List CacheEntry}
    (answers : List.Forall₂
      (fun _ entry => ∃ id, entry = .operation id ∧ p.operations.get? id = none) values front)
    (pending : (p.cacheLink server).pending = front ++ rest) (left : Bytes) :
    cacheValues w server (.waiting left) values p =
      p.setCache server { inbound := ⟨left⟩, pending := rest } := by
  obtain ⟨operations, same⟩ : ∃ operations, operations = p.operations := ⟨_, rfl⟩
  rw [← same] at answers
  induction answers generalizing p with
  | nil =>
      rw [List.nil_append] at pending
      simp only [cacheValues, pending]
  | @cons value entry values front gone _ ih =>
      obtain ⟨id, rfl, gone⟩ := gone
      let q := p.setCache server { p.cacheLink server with pending := front ++ rest }
      have ignored : q.cacheAnswer w (.operation id) value = q :=
        cacheAnswer_of_gone (same ▸ gone) value
      have others := ih (p := q)
        (by simp only [q, cacheLink, setCache, Table.get?_insert_self, Option.getD_some]) same
      simp only [cacheValues, pending, List.cons_append]
      rw [ignored, others]
      simp only [q, setCache, Table.insert_insert_self]

theorem storeFrames_of_gone {frames : List Store.Frame}
    {front rest : List (Nat × Store.RequestKind)}
    (answers : List.Forall₂
      (fun frame entry => p.operations.get? entry.1 = none ∧
        ∃ response, Store.Response.decode frame.code frame.payload entry.2 = .ok response)
      frames front)
    (pending : (p.storeLink server).pending = front ++ rest) (left : Bytes) :
    storeFrames w server (.waiting left) frames p =
      p.setStore server { inbound := ⟨left⟩, pending := rest } := by
  -- What has gone is gone from one table, and the table stays while the queue is used up: the
  -- induction is over all states that have it.
  obtain ⟨operations, same⟩ : ∃ operations, operations = p.operations := ⟨_, rfl⟩
  rw [← same] at answers
  induction answers generalizing p with
  | nil =>
      rw [List.nil_append] at pending
      simp only [storeFrames, pending]
  | @cons frame entry frames front gone _ ih =>
      obtain ⟨gone, response, decoded⟩ := gone
      let q := p.setStore server
        { inbound := (p.storeLink server).inbound, pending := front ++ rest }
      have untaken : q.takeOperation entry.1 = none := by
        simp only [takeOperation, q, setStore, ← same, gone, Option.map_none]
      have others := ih (p := q)
        (by simp only [q, storeLink, setStore, Table.get?_insert_self, Option.getD_some]) same
      simp only [storeFrames, pending, List.cons_append, decoded]
      simp only [q] at untaken others
      simp only [untaken, others]
      simp only [setStore, Table.insert_insert_self]

end Gone

theorem Sessions.works_of_fills {w : World} {past : History} {p : Proxy} {move : Move}
    {client slot : Nat} {value : Reply} (h : Sessions w past p)
    (fills : Fills w (past ++ [(p, move)]) past.length client slot value) :
    ∃ start, (session w client (past ++ [(p, move)])).asked[slot]? = some start ∧
      start ≤ past.length ∧ Works w (past ++ [(p, move)]) start past.length := by
  obtain ⟨q, made, at', empty, given⟩ := fills
  rw [List.getElem?_concat_length, Option.some.injEq, Prod.mk.injEq] at at'
  obtain ⟨rfl, rfl⟩ := at'
  by_cases hangsUp : ∃ client, move = .hangUp client
  · obtain ⟨c, rfl⟩ := hangsUp
    have silent : (Move.hangUp c).emits w p = [] := by
      simp [Move.emits, Move.apply, clientClosed]
    rw [silent] at given
    rcases given with held | sent
    · simp only [Move.apply, slots, client_clientClosed] at held
      split at held
      · cases held
      · exact absurd held (empty value)
    · cases sent
  · have stays : ∀ client, move ≠ .hangUp client := fun client he => hangsUp ⟨client, he⟩
    obtain ⟨mine, continues⟩ := h.continues stays
    obtain ⟨actions, outbox, refills⟩ := (continues.serves h).replies
    have filled : (slot, some value) ∈
        repliesTo client actions ++ (move.apply w p).slots client := by
      rcases given with held | sent
      · exact List.mem_append_right _ held
      · rw [← repliesTo_emits outbox]
        exact List.mem_append_left _ (mem_repliesTo.mpr sent)
    rcases (refills client).filled filled with old | ⟨-, own⟩
    · exact absurd ((mem_slots_opening stays).mp old) (empty value)
    · obtain ⟨start, asked, le, works, -⟩ := continues.works own
      exact ⟨start, asked, le, works⟩

def hungUp (w : World) (p : Proxy) (events : List Event) (client : Nat) : Proxy :=
  (p.run w events).step w (.clientClosed client)

def Underwent (w : World) (p : Proxy) (events : List Event) (client id : Nat) : Prop :=
  ∃ operation, (p.run w events).operations.get? id = some operation ∧ operation.client = client

section Run

variable {w : World} {p : Proxy} {events : List Event} {ms : List Move} {client id slot time : Nat}
  {value : Reply}

theorem Underwent.stems (sessions : Sessions w [] p) (h : Underwent w p events client id) :
    ∃ start, start < (course w p events).length ∧
      (∃ q c content, (history w p (course w p events))[start]? = some (q, .request c content)) ∧
      Stems w (history w p (course w p events)) start id := by
  obtain ⟨operation, ho, -⟩ := h
  rw [← play_course] at ho
  obtain ⟨slot, start, -, asked, stems⟩ := (sessions.play (course w p events)).stems ho
  obtain ⟨q, content, at'⟩ := asked_request asked
  exact ⟨start, length_history (w := w) (p := p) ▸ stems.start_lt, ⟨q, _, content, at'⟩, stems⟩

theorem works_after_hangUp (sessions : Sessions w [] p)
    (late : (course w p events).length < time)
    (fills : Fills w (history w p (course w p events ++ .hangUp client :: ms)) time client slot
      value) :
    ∃ start, (course w p events).length < start ∧ start ≤ time ∧
      (∃ content, (course w p events ++ .hangUp client :: ms)[start]? =
        some (.request client content)) ∧
      Works w (history w p (course w p events ++ .hangUp client :: ms)) start time := by
  obtain ⟨q, move, at', empty, given⟩ := fills
  obtain ⟨made, rfl⟩ := getElem?_history.mp at'
  generalize split : course w p events ++ Move.hangUp client :: ms = all at *
  have length : (history w p (all.take time)).length = time := by
    rw [length_history, List.length_take, Nat.min_eq_left]
    exact (List.getElem?_eq_some_iff.mp made).1.le
  have fills : Fills w (history w p (all.take time) ++ [(play w p (all.take time), move)])
      (history w p (all.take time)).length client slot value :=
    ⟨_, move, by simp, empty, given⟩
  obtain ⟨start, asked, le, works⟩ := (sessions.play (all.take time)).works_of_fills fills
  rw [length] at le works
  rw [← history_concat, ← take_succ made] at asked works
  have hangs : (history w p (all.take (time + 1)))[(course w p events).length]? =
      some (play w p ((all.take (time + 1)).take (course w p events).length),
        .hangUp client) := by
    refine getElem?_history.mpr ⟨?_, rfl⟩
    rw [List.getElem?_take_of_lt (Nat.lt_succ_of_lt late), ← split,
      List.getElem?_append_right (Nat.le_refl _), Nat.sub_self]
    rfl
  obtain ⟨q, content, request⟩ := asked_request asked
  obtain ⟨later, whole⟩ := history_take w p all (time + 1)
  refine ⟨start, asked_after_hangUp asked hangs, le, ⟨content, ?_⟩, whole ▸ works.concat later⟩
  have request := (getElem?_history.mp request).1
  rwa [List.getElem?_take_of_lt (Nat.lt_succ_of_le le)] at request

theorem subject?_ne_of_works (sessions : Sessions w [] p) {start : Nat}
    {content : Except Failure Command}
    (late : (course w p events).length < start)
    (request : (course w p events ++ .hangUp client :: ms)[start]? =
      some (.request client content))
    (works : Works w (history w p (course w p events ++ .hangUp client :: ms)) start time)
    (old : Underwent w p events client id) {q : Proxy} {move : Move}
    (at' : (history w p (course w p events ++ .hangUp client :: ms))[time]? = some (q, move)) :
    move.subject? q ≠ some id := by
  intro subject
  have request' := getElem?_history (w := w) (p := p) |>.mpr ⟨request, rfl⟩
  rcases works with rfl | ⟨q', move', k, at'', subject', stems⟩
  · cases Option.some.inj (request'.symm.trans at')
    cases subject
  · cases Option.some.inj (at'.symm.trans at'')
    obtain rfl : id = k := Option.some.inj (subject.symm.trans subject')
    obtain ⟨start', lt, ⟨q', c, content', asked⟩, stems'⟩ := old.stems sessions
    have before := stems'.concat (history w (play w p (course w p events)) (.hangUp client :: ms))
    have asked := getElem?_of_front
      (List.prefix_append _ (history w (play w p (course w p events)) (.hangUp client :: ms))) asked
    rw [← history_append] at before asked
    have same := stems_unique stems before ⟨_, _, _, request'⟩ ⟨_, _, _, asked⟩
    omega

end Run

/-- After the events the client hangs up, and then other events follow. -/
structure Isolated (w : World) (p : Proxy) (events : List Event) (client : Nat)
    (later : List Event) : Prop
    extends Unrolled w p (events ++ .clientClosed client :: later) where
  forgets : Forgets client (p.run w events) (hungUp w p events client)
  gone : ∀ ms, ms <+: course w (hungUp w p events client) later →
    (∀ id, Underwent w p events client id →
      (play w (hungUp w p events client) ms).operations.get? id = none) ∧
    ∀ id group, (p.run w events).groups.table.get? id = some group → group.client = client →
      (play w (hungUp w p events client) ms).groups.table.get? id = none
  cacheAnswer : ∀ ms server value id rest q,
    ms ++ [.cacheAnswer server value] <+: course w (hungUp w p events client) later →
    q = play w (hungUp w p events client) ms → Underwent w p events client id →
    (q.cacheLink server).pending = .operation id :: rest →
    (Move.cacheAnswer server value).apply w q =
        q.setCache server { q.cacheLink server with pending := rest } ∧
      (Move.cacheAnswer server value).emits w q = []
  storeAnswer : ∀ ms server frame id kind rest q,
    ms ++ [.storeAnswer server frame] <+: course w (hungUp w p events client) later →
    q = play w (hungUp w p events client) ms → Underwent w p events client id →
    (q.storeLink server).pending = (id, kind) :: rest →
    (Move.storeAnswer server frame).apply w q =
        q.setStore server { q.storeLink server with pending := rest } ∧
      (Move.storeAnswer server frame).emits w q = []
  silence : ∀ ms move id q, ms ++ [move] <+: course w (hungUp w p events client) later →
    q = play w (hungUp w p events client) ms → Underwent w p events client id →
    (move = .cacheSilence (.operation id) ∨ (∃ why, move = .storeReset id why) ∨
      ∃ server reason, move = .storeSilence server id reason) →
    move.apply w q = q ∧ move.emits w q = []
  cacheData : ∀ before server data q,
    before ++ [.cacheData server data] <+: later → q = (hungUp w p events client).run w before →
    ∀ values left front rest,
    Resp.reader.stream ((q.cacheLink server).inbound.append data).bytes = (values, .waiting left) →
    (q.cacheLink server).pending = front ++ rest →
    List.Forall₂ (fun _ entry => ∃ id, entry = .operation id ∧ Underwent w p events client id)
      values front →
    q.step w (.cacheData server data) = q.setCache server { inbound := ⟨left⟩, pending := rest }
  storeData : ∀ before server data q,
    before ++ [.storeData server data] <+: later → q = (hungUp w p events client).run w before →
    ∀ frames left front rest,
    Store.Frame.reader.stream ((q.storeLink server).inbound.append data).bytes =
      (frames, .waiting left) →
    (q.storeLink server).pending = front ++ rest →
    List.Forall₂ (fun frame entry => Underwent w p events client entry.1 ∧
      ∃ response, Store.Response.decode frame.code frame.payload entry.2 = .ok response)
      frames front →
    q.step w (.storeData server data) = q.setStore server { inbound := ⟨left⟩, pending := rest }
  fills : ∀ ms, ms <+: course w (hungUp w p events client) later →
    ∀ moves, moves = course w p events ++ .hangUp client :: ms →
    ∀ time slot value, (course w p events).length < time →
    Fills w (history w p moves) time client slot value →
    ∃ start, (course w p events).length < start ∧ start ≤ time ∧
      (∃ content, moves[start]? = some (.request client content)) ∧
      Works w (history w p moves) start time ∧
      ∀ id q move, Underwent w p events client id → (history w p moves)[time]? = some (q, move) →
        move.subject? q ≠ some id

theorem isolated_run (w : World) (settings : Settings) (policy : BucketPolicy)
    (events : List Event) (client : Nat) (later : List Event) :
    Isolated w (start settings policy) events client later := by
  have tidy := (Tidy.start settings policy).play w (course w (start settings policy) events)
  rw [play_course] at tidy
  have forgets : Forgets client ((start settings policy).run w events)
      (hungUp w (start settings policy) events client) := forgets_clientClosed _ client
  have gone : ∀ ms id, Underwent w (start settings policy) events client id →
      (play w (hungUp w (start settings policy) events client) ms).operations.get? id = none := by
    rintro ms id ⟨operation, ho, own⟩
    exact operations_gone (tidy.clientClosed client) (tidy.operation_lt ho)
      (forgets.operation_gone ho own) ms
  refine
    { toUnrolled := unrolled_of_tidy w (Tidy.start settings policy) _
      forgets, gone := ?_, cacheAnswer := ?_, storeAnswer := ?_, silence := ?_, cacheData := ?_
      storeData := ?_
      fills := ?_ }
  · intro ms _
    refine ⟨gone ms, ?_⟩
    intro id group hg own
    have lt : id < (hungUp w (start settings policy) events client).groups.next := tidy.group_lt hg
    exact groups_gone lt (forgets.group_gone hg own) ms
  · rintro ms server value id rest q - rfl old pending
    have subject : (Move.cacheAnswer server value).subject?
        (play w (hungUp w (start settings policy) events client) ms) = some id := by
      simp only [Move.subject?, pending]
    refine ⟨?_, emits_of_gone subject (gone ms id old)⟩
    rw [apply_of_gone subject (gone ms id old)]
    simp only [Move.prepare, pending]
  · rintro ms server frame id kind rest q - rfl old pending
    have subject : (Move.storeAnswer server frame).subject?
        (play w (hungUp w (start settings policy) events client) ms) = some id := by
      simp only [Move.subject?, pending, List.head?_cons, Option.map_some]
    refine ⟨?_, emits_of_gone subject (gone ms id old)⟩
    rw [apply_of_gone subject (gone ms id old)]
    simp only [Move.prepare, pending]
  · rintro ms move id q - rfl old silent
    have subject : move.subject?
        (play w (hungUp w (start settings policy) events client) ms) = some id := by
      rcases silent with rfl | ⟨why, rfl⟩ | ⟨server, reason, rfl⟩ <;> rfl
    refine ⟨?_, emits_of_gone subject (gone ms id old)⟩
    rw [apply_of_gone subject (gone ms id old)]
    rcases silent with rfl | ⟨why, rfl⟩ | ⟨server, reason, rfl⟩ <;> rfl
  · rintro before server data q - rfl values left front rest arrived pending answers
    simp only [step, Proxy.cacheData, arrived]
    refine cacheValues_of_gone (answers.imp ?_) pending left
    rintro _ _ ⟨id, rfl, old⟩
    exact ⟨id, rfl, play_course w _ before ▸ gone _ id old⟩
  · rintro before server data q - rfl frames left front rest arrived pending answers
    simp only [step, Proxy.storeData, arrived]
    refine storeFrames_of_gone (answers.imp ?_) pending left
    rintro _ _ ⟨old, decodes⟩
    exact ⟨play_course w _ before ▸ gone _ _ old, decodes⟩
  · rintro ms - moves rfl time slot value late fills
    have sessions := Sessions.start w settings policy
    obtain ⟨start, lt, le, request, works⟩ := works_after_hangUp sessions late fills
    obtain ⟨content, came⟩ := request
    refine ⟨start, lt, le, ⟨content, came⟩, works, ?_⟩
    intro id q move old at'
    exact subject?_ne_of_works sessions lt came works old at'

end ReadThrough.Proxy
