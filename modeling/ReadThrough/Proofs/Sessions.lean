import Mathlib.Data.List.Induction
import Mathlib.Data.List.Nodup
import ReadThrough.Proofs.Lines
import ReadThrough.Proofs.Service

namespace ReadThrough.Proxy

abbrev History := List (Proxy × Move)

def history (w : World) : Proxy → List Move → History
  | _, [] => []
  | p, move :: moves => (p, move) :: history w (move.apply w p) moves

structure Session where
  asked : List Nat := []
  sent : List (Nat × Reply) := []

def Session.advance (w : World) (client : Nat) (session : Session) (made : (Proxy × Move) × Nat) :
    Session :=
  let sent :=
    session.sent ++ (made.1.2.emits w made.1.1).filterMap (Action.toClient? client)
  match made.1.2 with
  | .request c _ =>
      { asked := if c = client then session.asked ++ [made.2] else session.asked, sent }
  | .hangUp c => if c = client then {} else { session with sent }
  | _ => { session with sent }

def session (w : World) (client : Nat) (past : History) : Session :=
  past.zipIdx.foldl (Session.advance w client) {}

/-- The operation was begun by a move, or by one that dealt with an operation that stems from it. -/
inductive Stems (w : World) (past : History) (start : Nat) : Nat → Prop where
  | begun {p : Proxy} {move : Move} {id : Nat} : past[start]? = some (p, move) →
      p.nextOperation ≤ id → id < (move.apply w p).nextOperation → Stems w past start id
  | spawned {time : Nat} {p : Proxy} {move : Move} {parent id : Nat} :
      past[time]? = some (p, move) → move.subject? p = some parent → Stems w past start parent →
      p.nextOperation ≤ id → id < (move.apply w p).nextOperation → Stems w past start id

def Works (w : World) (past : History) (start time : Nat) : Prop :=
  time = start ∨ ∃ p move id, past[time]? = some (p, move) ∧ move.subject? p = some id ∧
    Stems w past start id

def Fills (w : World) (past : History) (time client slot : Nat) (value : Reply) : Prop :=
  ∃ p move, past[time]? = some (p, move) ∧ (∀ held, (slot, some held) ∉ p.slots client) ∧
    ((slot, some value) ∈ (move.apply w p).slots client ∨
      Action.reply client slot value ∈ move.emits w p)

def Produced (w : World) (past : History) (client slot : Nat) (value : Reply) : Prop :=
  ∃ start time, (session w client past).asked[slot]? = some start ∧ start ≤ time ∧
    Works w past start time ∧ Fills w past time client slot value

section History

variable {w : World} {p : Proxy} {past : History} {made : Proxy × Move} {start time id : Nat}
  {client slot : Nat} {value : Reply}

theorem history_append (moves more : List Move) :
    history w p (moves ++ more) = history w p moves ++ history w (play w p moves) more := by
  induction moves generalizing p with
  | nil => rfl
  | cons first moves ih =>
      rw [List.cons_append, history, ih]
      rfl

theorem history_concat (moves : List Move) (move : Move) :
    history w p (moves ++ [move]) = history w p moves ++ [(play w p moves, move)] :=
  history_append moves [move]

theorem session_concat : session w client (past ++ [made]) =
    (session w client past).advance w client (made, past.length) := by
  simp [session, List.zipIdx_append]

theorem getElem?_of_front {α : Type} {xs ys : List α} {x : α} {i : Nat} (h : xs <+: ys)
    (hx : xs[i]? = some x) : ys[i]? = some x := by
  obtain ⟨more, rfl⟩ := h
  rwa [List.getElem?_append_left (List.getElem?_eq_some_iff.mp hx).1]

theorem Stems.concat (h : Stems w past start id) (more : History) :
    Stems w (past ++ more) start id := by
  induction h with
  | begun at' le lt => exact .begun (getElem?_of_front (List.prefix_append _ _) at') le lt
  | spawned at' subject _ le lt ih =>
      exact .spawned (getElem?_of_front (List.prefix_append _ _) at') subject ih le lt

theorem Stems.start_lt (h : Stems w past start id) : start < past.length := by
  induction h with
  | begun at' => exact (List.getElem?_eq_some_iff.mp at').1
  | spawned _ _ _ _ _ ih => exact ih

theorem Works.concat (h : Works w past start time) (more : History) :
    Works w (past ++ more) start time := by
  rcases h with rfl | ⟨p, move, id, at', subject, stems⟩
  · exact Or.inl rfl
  · exact Or.inr ⟨p, move, id, getElem?_of_front (List.prefix_append _ _) at', subject,
      stems.concat more⟩

theorem Produced.concat (h : Produced w past client slot value)
    (asked : (session w client past).asked <+: (session w client (past ++ [made])).asked) :
    Produced w (past ++ [made]) client slot value := by
  obtain ⟨start, time, ha, le, works, p, move, at', empty, given⟩ := h
  exact ⟨start, time, getElem?_of_front asked ha, le, works.concat _, p, move,
    getElem?_of_front (List.prefix_append _ _) at', empty, given⟩

end History

theorem mem_repliesTo {client slot : Nat} {value : Reply} {actions : List Action} :
    (slot, some value) ∈ repliesTo client actions ↔ Action.reply client slot value ∈ actions := by
  constructor
  · intro h
    obtain ⟨⟨s, v⟩, hm, he⟩ := List.mem_map.mp h
    cases he
    obtain ⟨action, ha, hs⟩ := List.mem_filterMap.mp hm
    cases action with
    | reply c s v =>
        simp only [Action.toClient?, Option.ite_none_right_eq_some, Option.some.injEq,
          Prod.mk.injEq] at hs
        obtain ⟨rfl, rfl, rfl⟩ := hs
        exact ha
    | _ => cases hs
  · intro h
    refine List.mem_map.mpr ⟨(slot, value), List.mem_filterMap.mpr ⟨_, h, ?_⟩, rfl⟩
    simp [Action.toClient?]

def tape (w : World) (past : History) (p : Proxy) (client : Nat) : List (Nat × Option Reply) :=
  ((session w client past).sent.map fun sent => (sent.1, some sent.2)) ++ p.slots client

structure Sessions (w : World) (past : History) (p : Proxy) : Prop where
  tidy : Tidy p []
  keys : ∀ client, (tape w past p client).map Prod.fst =
    List.range (session w client past).asked.length
  next : ∀ client, (p.client client).replies.next = (session w client past).asked.length
  stems : ∀ {id operation}, p.operations.get? id = some operation →
    ∃ slot start, operation.duty.IsFor p operation.client slot ∧
      (session w operation.client past).asked[slot]? = some start ∧ Stems w past start id
  produced : ∀ {client slot value}, (slot, some value) ∈ tape w past p client →
    Produced w past client slot value

namespace Sessions

variable {w : World} {past : History} {p : Proxy}

theorem hangUp (h : Sessions w past p) (client : Nat) :
    Sessions w (past ++ [(p, .hangUp client)]) (p.clientClosed client) := by
  have sessions : ∀ c, session w c (past ++ [(p, .hangUp client)]) =
      if c = client then {} else session w c past := by
    intro c
    rw [session_concat]
    have silent : (Move.hangUp client).emits w p = [] := by
      simp [Move.emits, Move.apply, clientClosed]
    simp only [Session.advance, silent, List.filterMap_nil, List.append_nil, eq_comm]
  have tapes : ∀ c, tape w (past ++ [(p, .hangUp client)]) (p.clientClosed client) c =
      if c = client then [] else tape w past p c := by
    intro c
    rw [tape, sessions, slots, client_clientClosed]
    split <;> rfl
  refine ⟨h.tidy.clientClosed client, ?_, ?_, ?_, ?_⟩
  · intro c
    rw [tapes, sessions]
    split
    · rfl
    · exact h.keys c
  · intro c
    rw [client_clientClosed, sessions]
    split
    · rfl
    · exact h.next c
  · intro id operation ho
    obtain ⟨ho, other⟩ := get?_operations_clientClosed.mp ho
    obtain ⟨slot, start, isFor, asked, stems⟩ := h.stems ho
    refine ⟨slot, start, isFor.mono (Nat.le_refl _) ?_, ?_, stems.concat _⟩
    · intro k group hg
      exact Or.inl ⟨group, (get?_groups_clientClosed.mp hg).1, rfl, rfl⟩
    · rw [sessions, if_neg other]
      exact asked
  · intro c slot value hm
    rw [tapes] at hm
    split at hm
    · cases hm
    · next other =>
        refine (h.produced hm).concat ?_
        have kept := sessions c
        rw [if_neg other] at kept
        simp only [kept, List.prefix_rfl]

end Sessions

def Move.asks (client : Nat) : Move → Bool
  | .request c _ => c = client
  | _ => false

section Asks

variable {p : Proxy} {move : Move} (stays : ∀ client, move ≠ .hangUp client)

include stays

theorem session_made (w : World) (past : History) (client : Nat) :
    session w client (past ++ [(p, move)]) =
      { asked := (session w client past).asked ++ if move.asks client then [past.length] else []
        sent := (session w client past).sent ++
          (move.emits w p).filterMap (Action.toClient? client) } := by
  rw [session_concat]
  cases move with
  | hangUp c => exact absurd rfl (stays c)
  | request c content =>
      by_cases same : c = client <;> simp [Session.advance, Move.asks, same]
  | _ => simp [Session.advance, Move.asks]

theorem replies_opening (client : Nat) : ((move.opening p).1.client client).replies =
    if move.asks client then (p.client client).replies.reserve.2
    else (p.client client).replies := by
  obtain ⟨operations, h⟩ := Move.opening_fst p move
  rw [h]
  change ((move.prepare p).client client).replies = _
  cases move with
  | hangUp c => exact absurd rfl (stays c)
  | request c content =>
      simp only [Move.prepare, Move.asks, reserve, client_setClient, decide_eq_true_eq,
        eq_comm (a := c)]
      split
      · next same => rw [same]
      · rfl
  | hold c rest =>
      simp only [Move.prepare, Move.asks, client_setClient]
      split
      · next same => simp [same]
      · rfl
  | cacheAnswer server value =>
      simp only [Move.prepare, Move.asks]
      split <;> rfl
  | storeAnswer server frame =>
      simp only [Move.prepare, Move.asks]
      split <;> rfl
  | _ => rfl

theorem groups_opening : (move.opening p).1.groups = p.groups := by
  obtain ⟨operations, h⟩ := Move.opening_fst p move
  rw [h]
  change (move.prepare p).groups = _
  cases move with
  | hangUp c => exact absurd rfl (stays c)
  | cacheAnswer server value =>
      simp only [Move.prepare]
      split <;> rfl
  | storeAnswer server frame =>
      simp only [Move.prepare]
      split <;> rfl
  | _ => rfl

theorem operations_prepare : (move.prepare p).operations = p.operations := by
  cases move with
  | hangUp c => exact absurd rfl (stays c)
  | cacheAnswer server value =>
      simp only [Move.prepare]
      split <;> rfl
  | storeAnswer server frame =>
      simp only [Move.prepare]
      split <;> rfl
  | _ => rfl

theorem opening_hand (asks : ∀ client content, move ≠ .request client content) :
    (move.opening p).2 = [] ∨ ∃ id operation, move.subject? p = some id ∧
      p.operations.get? id = some operation ∧
      (move.opening p).2 = [(some id, operation.duty)] := by
  have incoming : move.incoming p = [] := by
    cases move with
    | request c content => exact absurd rfl (asks c content)
    | _ => rfl
  rcases Move.opening_cases p move with h | ⟨id, subject, -, h⟩
  · exact Or.inl (by rw [h, incoming])
  · rcases (move.prepare p).resumed_cases id with ⟨-, hr⟩ | ⟨operation, ho, hr⟩
    · exact Or.inl (by rw [h, hr])
    · rw [operations_prepare stays] at ho
      exact Or.inr ⟨id, operation, subject, ho, by rw [h, hr]⟩

end Asks

theorem nextOperation_opening (p : Proxy) (move : Move) :
    (move.opening p).1.nextOperation = p.nextOperation := by
  obtain ⟨operations, h⟩ := Move.opening_fst p move
  rw [h]
  change (move.prepare p).nextOperation = _
  cases move with
  | cacheAnswer server value =>
      simp only [Move.prepare]
      split <;> rfl
  | storeAnswer server frame =>
      simp only [Move.prepare]
      split <;> rfl
  | _ => rfl

theorem operations_opening {p : Proxy} {move : Move} (stays : ∀ client, move ≠ .hangUp client)
    {id : Nat} {operation : Operation}
    (ho : (move.opening p).1.operations.get? id = some operation) :
    p.operations.get? id = some operation := by
  have prepared := operations_prepare (p := p) stays
  rcases Move.opening_cases p move with h | ⟨k, -, -, h⟩
  · rwa [h, prepared] at ho
  · rcases (move.prepare p).resumed_cases k with ⟨-, hr⟩ | ⟨taken, -, hr⟩
    · rwa [h, hr, prepared] at ho
    · rw [h, hr, prepared] at ho
      exact (Table.get?_erase_eq_some_iff.mp ho).2

namespace Sessions

variable {w : World} {past : History} {p : Proxy} {move : Move}

structure Continues (w : World) (past : History) (p : Proxy) (move : Move)
    (mine : Nat → Nat → Prop) : Prop where
  owed : ∀ entry ∈ (move.opening p).2, entry.2.OwedTo mine (move.opening p).1
  works : ∀ {client slot}, mine client slot → ∃ start,
    (session w client (past ++ [(p, move)])).asked[slot]? = some start ∧ start ≤ past.length ∧
      Works w (past ++ [(p, move)]) start past.length ∧
      ∀ {id}, id ∈ (move.opening p).2.numbers ∨
        (p.nextOperation ≤ id ∧ id < (move.apply w p).nextOperation) →
        Stems w (past ++ [(p, move)]) start id

theorem keys_opening (h : Sessions w past p) (stays : ∀ client, move ≠ .hangUp client)
    (client : Nat) :
    ((session w client past).sent.map fun sent => sent.1) ++
        ((move.opening p).1.slots client).map Prod.fst =
      List.range (session w client (past ++ [(p, move)])).asked.length := by
  have keys := h.keys client
  have next := h.next client
  simp only [tape, List.map_append, List.map_map, Function.comp_def] at keys
  rw [session_made stays, slots, replies_opening stays]
  split
  · simp only [ReplyQueue.reserve, List.map_append, List.map_cons, List.map_nil,
      List.length_append, List.length_cons, List.length_nil, List.range_succ, next]
    rw [← List.append_assoc]
    exact congrArg (· ++ _) keys
  · simpa [slots] using keys

theorem mem_slots_opening (stays : ∀ client, move ≠ .hangUp client) {client slot : Nat}
    {value : Reply} : (slot, some value) ∈ (move.opening p).1.slots client ↔
      (slot, some value) ∈ p.slots client := by
  rw [slots, replies_opening stays]
  split
  · simp [ReplyQueue.reserve, slots]
  · rfl

theorem Continues.serves {mine : Nat → Nat → Prop} (h : Sessions w past p)
    (continues : Continues w past p move mine) :
    Serves mine (move.opening p).1 (move.opening p).2 (move.apply w p) [] :=
  Serves.deeds (deeds_of_apply w h.tidy.sound move) continues.owed

theorem repliesTo_emits {actions : List Action}
    (outbox : (move.apply w p).outbox = (move.opening p).1.outbox ++ actions) (client : Nat) :
    repliesTo client (move.emits w p) = repliesTo client actions := by
  rw [emits_of_outbox move w outbox, repliesTo_append]
  have silent : repliesTo client move.notice = [] := by cases move <;> rfl
  rw [silent, List.nil_append]

theorem tape_made (past : History) (stays : ∀ client, move ≠ .hangUp client)
    {actions : List Action}
    (outbox : (move.apply w p).outbox = (move.opening p).1.outbox ++ actions) (client : Nat) :
    tape w (past ++ [(p, move)]) (move.apply w p) client =
      ((session w client past).sent.map fun sent => (sent.1, some sent.2)) ++
        (repliesTo client actions ++ (move.apply w p).slots client) := by
  rw [tape, session_made stays w past, List.map_append, List.append_assoc, ← repliesTo_emits outbox]
  rfl

theorem of_continues (h : Sessions w past p) (stays : ∀ client, move ≠ .hangUp client)
    {mine : Nat → Nat → Prop} (continues : Continues w past p move mine) :
    Sessions w (past ++ [(p, move)]) (move.apply w p) := by
  have serves := continues.serves h
  obtain ⟨actions, outbox, refills⟩ := serves.replies
  have tidy := h.tidy.apply w move
  have made := session_made (p := p) stays w past
  have kept : ∀ client, (session w client past).asked <+:
      (session w client (past ++ [(p, move)])).asked := by
    intro client
    rw [made]
    exact List.prefix_append _ _
  have tapes := tape_made past stays outbox
  refine ⟨tidy, ?_, ?_, ?_, ?_⟩
  · intro client
    rw [tapes, List.map_append, (refills client).keys, ← h.keys_opening stays client, List.map_map]
    rfl
  · intro client
    rw [serves.next, replies_opening stays, made]
    split
    · simp [ReplyQueue.reserve, h.next]
    · simp [h.next]
  · intro id operation ho
    rcases serves.operations ho with old | ⟨new, client, slot, own, isFor⟩
    · obtain ⟨slot, start, isFor, asked, stems⟩ := h.stems (operations_opening stays old)
      have groups := groups_opening (p := p) stays
      refine ⟨slot, start, isFor.mono ?_ ?_, getElem?_of_front (kept _) asked, stems.concat _⟩
      · exact groups ▸ serves.groups_le
      · intro k group hg
        rw [← groups]
        exact (serves.groups hg).imp_right And.left
    · obtain ⟨start, asked, -, -, stems⟩ := continues.works own
      obtain rfl : operation.client = client := by
        rw [← operation.client_duty]
        exact isFor.client_eq
      refine ⟨slot, start, isFor, asked, stems (new.imp_right fun le => ⟨?_, tidy.operation_lt ho⟩)⟩
      exact nextOperation_opening p move ▸ le
  · intro client slot value hm
    have before : ∀ {v}, (slot, some v) ∈ tape w past p client →
        Produced w (past ++ [(p, move)]) client slot v :=
      fun hm => (h.produced hm).concat (kept client)
    rw [tapes] at hm
    rcases List.mem_append.mp hm with hm | hm
    · exact before (List.mem_append_left _ hm)
    · rcases (refills client).filled hm with held | ⟨empty, own⟩
      · exact before (List.mem_append_right _ ((mem_slots_opening stays).mp held))
      · obtain ⟨start, asked, le, works, -⟩ := continues.works own
        refine ⟨start, past.length, asked, le, works, p, move, by simp, ?_, ?_⟩
        · intro held hh
          have nodup := ((h.tidy.opening move).contiguous client).nodup
          have same := List.inj_on_of_nodup_map nodup empty ((mem_slots_opening stays).mpr hh) rfl
          cases same
        · rcases List.mem_append.mp hm with hm | hm
          · rw [← repliesTo_emits outbox] at hm
            exact Or.inr (mem_repliesTo.mp hm)
          · exact Or.inl hm

theorem continues_request (h : Sessions w past p) (client : Nat)
    (content : Except Failure Command) : Continues w past p (.request client content)
      fun c slot => c = client ∧ slot = (p.client client).replies.next where
  owed := by
    intro entry hm
    obtain rfl := List.mem_singleton.mp hm
    exact ⟨client, _, ⟨rfl, rfl⟩, rfl, rfl⟩
  works := by
    rintro c slot ⟨rfl, rfl⟩
    have at' : (past ++ [(p, Move.request c content)])[past.length]? =
        some (p, .request c content) := by simp
    refine ⟨past.length, ?_, Nat.le_refl _, Or.inl rfl, ?_⟩
    · rw [session_made (by simp), h.next]
      simp [Move.asks]
    · rintro id (hm | ⟨le, lt⟩)
      · cases hm
      · exact .begun at' le lt

theorem continues_idle (idle : (move.opening p).2 = []) :
    Continues w past p move fun _ _ => False where
  owed := by
    intro entry hm
    rw [idle] at hm
    cases hm
  works own := own.elim

theorem continues_operation (h : Sessions w past p) (stays : ∀ client, move ≠ .hangUp client)
    {id : Nat} {operation : Operation} (subject : move.subject? p = some id)
    (ho : p.operations.get? id = some operation)
    (hand : (move.opening p).2 = [(some id, operation.duty)]) :
    ∃ mine, Continues w past p move mine := by
  obtain ⟨slot, start, isFor, asked, stems⟩ := h.stems ho
  have at' : (past ++ [(p, move)])[past.length]? = some (p, move) := by simp
  refine ⟨fun c s => c = operation.client ∧ s = slot, ?_, ?_⟩
  · intro entry hm
    rw [hand, List.mem_singleton] at hm
    subst hm
    refine ⟨operation.client, slot, ⟨rfl, rfl⟩, isFor.mono ?_ ?_⟩
    · rw [groups_opening stays]
    · intro k group hg
      rw [groups_opening stays] at hg
      exact Or.inl ⟨group, hg, rfl, rfl⟩
  · rintro c s ⟨rfl, rfl⟩
    refine ⟨start, ?_, Nat.le_of_lt stems.start_lt, ?_, ?_⟩
    · rw [session_made stays]
      exact getElem?_of_front (List.prefix_append _ _) asked
    · exact Or.inr ⟨p, move, id, at', subject, stems.concat _⟩
    · rintro k (hm | ⟨le, lt⟩)
      · rw [hand, numbers_some, numbers_nil, List.mem_singleton] at hm
        exact hm ▸ stems.concat _
      · exact .spawned at' subject (stems.concat _) le lt

theorem continues (h : Sessions w past p) (stays : ∀ client, move ≠ .hangUp client) :
    ∃ mine, Continues w past p move mine := by
  by_cases asks : ∃ client content, move = .request client content
  · obtain ⟨client, content, rfl⟩ := asks
    exact ⟨_, h.continues_request client content⟩
  · rcases opening_hand (p := p) stays fun client content he => asks ⟨client, content, he⟩ with
      idle | ⟨id, operation, subject, ho, hand⟩
    · exact ⟨_, continues_idle idle⟩
    · exact h.continues_operation stays subject ho hand

theorem step (h : Sessions w past p) (move : Move) :
    Sessions w (past ++ [(p, move)]) (move.apply w p) := by
  by_cases hangsUp : ∃ client, move = .hangUp client
  · obtain ⟨client, rfl⟩ := hangsUp
    exact h.hangUp client
  · have stays : ∀ client, move ≠ .hangUp client := fun client he => hangsUp ⟨client, he⟩
    obtain ⟨mine, continues⟩ := h.continues stays
    exact h.of_continues stays continues

theorem play (h : Sessions w [] p) (moves : List Move) :
    Sessions w (history w p moves) (play w p moves) := by
  induction moves using List.reverseRecOn with
  | nil => exact h
  | append_singleton moves move ih =>
      rw [history_concat, play_concat]
      exact ih.step move

theorem start (w : World) (settings : Settings) (policy : BucketPolicy) :
    Sessions w [] (start settings policy) where
  tidy := Tidy.start settings policy
  keys _ := rfl
  next _ := rfl
  stems ho := by cases ho
  produced hm := by cases hm

end Sessions

structure InOrder (w : World) (past : History) (p : Proxy) (client : Nat) : Prop where
  order : (session w client past).sent.map Prod.fst =
    List.range (session w client past).sent.length
  outstanding : p.outstandingReplies client + (session w client past).sent.length =
    (session w client past).asked.length
  produced : ∀ slot value, (slot, value) ∈ (session w client past).sent →
    Produced w past client slot value

theorem inOrder_of_sessions {w : World} {past : History} {p : Proxy} (h : Sessions w past p)
    (client : Nat) : InOrder w past p client := by
  have keys := h.keys client
  simp only [tape, List.map_append, List.map_map, Function.comp_def] at keys
  have length := congrArg List.length keys
  simp only [List.length_append, List.length_map, List.length_range] at length
  refine ⟨?_, ?_, ?_⟩
  · have front := congrArg (List.take (session w client past).sent.length) keys
    rw [List.take_left' (List.length_map _), List.take_range, Nat.min_eq_left (by omega)] at front
    exact front
  · rw [outstandingReplies, ReplyQueue.outstanding, ← length, Nat.add_comm]
    rfl
  · intro slot value hm
    refine h.produced (List.mem_append_left _ ?_)
    exact List.mem_map.mpr ⟨(slot, value), hm, rfl⟩

structure Served (w : World) (p : Proxy) (events : List Event) : Prop
    extends Unrolled w p events where
  inOrder : ∀ ms, ms <+: course w p events → ∀ client,
    InOrder w (history w p ms) (play w p ms) client

theorem served_run (w : World) (settings : Settings) (policy : BucketPolicy)
    (events : List Event) : Served w (start settings policy) events where
  toUnrolled := unrolled_of_tidy w (Tidy.start settings policy) events
  inOrder ms _ := inOrder_of_sessions ((Sessions.start w settings policy).play ms)

end ReadThrough.Proxy
