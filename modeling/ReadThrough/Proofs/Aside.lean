import ReadThrough.Proofs.Tenure
import ReadThrough.Proofs.Trailed

namespace ReadThrough.Proxy

section Deeds

variable {fan : Nat → Prop} {a b : Proxy × Hand} {mine : Nat → Nat → Prop} {id : Nat}
  {g : Fragment.Group GroupContext}

theorem untouched_by_deed (h : Deed fan a b) (spare : id ∉ a.2.numbers)
    (lt : id < a.1.nextOperation) :
    b.1.operations.get? id = a.1.operations.get? id ∧ id ∉ b.2.numbers := by
  cases h with
  | quiet same => exact ⟨by rw [same.operations], spare⟩
  | number =>
      refine ⟨rfl, ?_⟩
      rw [numbers_some, List.mem_cons]
      rintro (rfl | held)
      · exact Nat.lt_irrefl _ lt
      · exact spare held
  | sideEffect | gatherNothing => exact ⟨rfl, spare⟩
  | lookUp | request =>
      rw [numbers_some, List.mem_cons, not_or] at spare
      exact ⟨Table.get?_insert_of_ne _ _ spare.1, spare.2⟩
  | reply =>
      refine ⟨by rw [operations_reply], fun held => spare ?_⟩
      exact (numbers_cons_sublist _ _ _).subset held
  | refuse => exact ⟨rfl, fun held => spare ((numbers_cons_sublist _ _ _).subset held)⟩
  | bring =>
      refine ⟨rfl, fun held => spare ?_⟩
      rw [numbers_owed] at held
      exact (numbers_cons_sublist _ _ _).subset held
  | gather =>
      refine ⟨rfl, fun held => spare ?_⟩
      rw [numbers_parts] at held
      exact (numbers_cons_sublist _ _ _).subset held

theorem untouched_by_deeds (h : Relation.ReflTransGen (Deed fan) a b) (spare : id ∉ a.2.numbers)
    (lt : id < a.1.nextOperation) : b.1.operations.get? id = a.1.operations.get? id := by
  induction h using Relation.ReflTransGen.head_induction_on with
  | refl => rfl
  | head first _ ih =>
      obtain ⟨same, spare⟩ := untouched_by_deed first spare lt
      exact (ih spare (Nat.lt_of_lt_of_le lt (nextOperation_le_of_deed first))).trans same

theorem spared_by_deed (h : Deed fan a b) (owed : ∀ entry ∈ a.2, entry.2.OwedTo mine a.1)
    (other : ¬ mine g.client g.context.slot) (hg : b.1.groups.table.get? id = some g) :
    a.1.groups.table.get? id = some g := by
  cases h with
  | quiet same => rwa [same.groups] at hg
  | reply value => rwa [groups_reply] at hg
  | number | sideEffect | lookUp | request | refuse => exact hg
  | @bring p hand number client group index yield part brings accepts =>
      obtain ⟨client', slot, own, -, -, isFor⟩ := owed _ List.mem_cons_self
      rcases Fragment.Groups.get?_contribute accepts hg with ⟨old, ho, accepted, rfl, -⟩ | ⟨-, hg⟩
      · obtain ⟨client, -, context, -⟩ := Fragment.Group.frame_of_accept? accepted
        obtain ⟨rfl, rfl⟩ := isFor old ho
        rw [client, context] at other
        exact absurd own other
      · exact hg
  | @gather p hand client total gathered context yield fits begins =>
      rcases Fragment.Groups.get?_openGroup hg with ⟨-, rfl⟩ | hg
      · obtain ⟨client', slot, own, rfl, rfl⟩ := owed _ List.mem_cons_self
        exact absurd own other
      · exact hg
  | gatherNothing => exact (Table.get?_erase_eq_some_iff.mp hg).2

theorem spared_by_deeds (h : Relation.ReflTransGen (Deed fan) a b)
    (owed : ∀ entry ∈ a.2, entry.2.OwedTo mine a.1) (other : ¬ mine g.client g.context.slot)
    (hg : b.1.groups.table.get? id = some g) : a.1.groups.table.get? id = some g := by
  induction h using Relation.ReflTransGen.head_induction_on with
  | refl => exact hg
  | head first _ ih => exact spared_by_deed first owed other (ih (Serves.deed first owed).owed)

end Deeds

structure Aside (w : World) (past : History) (p : Proxy) (move : Move) (client slot start : Nat) :
    Prop where
  operations : ∀ {id operation}, (move.apply w p).operations.get? id = some operation →
    Stems w (past ++ [(p, move)]) start id →
    p.operations.get? id = some operation ∧ Stems w past start id
  deaf : ∀ {id news operation}, move.news? p = some (id, news) →
    p.operations.get? id = some operation → ¬ Stems w past start id
  groups : ∀ {id g}, (move.apply w p).groups.table.get? id = some g → g.client = client →
    g.context.slot = slot → p.groups.table.get? id = some g ∧
      ∀ index ∈ p.partsUnderWay id, index ∈ (move.apply w p).partsUnderWay id

section Moves

variable {w : World} {p : Proxy} {ms : List Move} {move : Move} {client slot start id k : Nat}
  {operation : Operation} {duty : Duty}

theorem news?_of_subject? (subject : move.subject? p = some id) :
    ∃ news, move.news? p = some (id, news) := by
  obtain ⟨news, brings⟩ := Move.subject?_eq_some_iff.mp subject
  exact ⟨news, Move.news?_eq_some_iff.mpr brings⟩

theorem opening_of_subject (subject : move.subject? p = some id)
    (ho : p.operations.get? id = some operation) :
    move.opening p = ({ move.prepare p with operations := p.operations.erase id },
      [(some id, operation.duty)]) := by
  have prepared : (move.prepare p).operations = p.operations :=
    operations_prepare (by rintro client rfl; cases subject)
  unfold Move.opening
  rw [subject]
  dsimp only
  rcases (move.prepare p).resumed_cases id with ⟨gone, -⟩ | ⟨taken, ht, hr⟩
  · rw [prepared, ho] at gone
    cases gone
  · rw [prepared] at ht hr
    cases ho.symm.trans ht
    exact hr

theorem asked_concat {past : History} (h : (session w client past).asked[slot]? = some start)
    (stays : move ≠ .hangUp client) :
    (session w client (past ++ [(p, move)])).asked[slot]? = some start := by
  rw [session_concat]
  cases move with
  | request c content =>
      simp only [Session.advance]
      split
      · exact getElem?_of_front (List.prefix_append _ _) h
      · exact h
  | hangUp c =>
      simp only [Session.advance]
      split
      · next same => exact absurd (by rw [same]) stays
      · exact h
  | _ => exact h

theorem asked_eq {past : History} {client' slot' : Nat}
    (h : (session w client past).asked[slot]? = some start)
    (h' : (session w client' past).asked[slot']? = some start) :
    client = client' ∧ slot = slot' := by
  obtain ⟨q, content, came⟩ := asked_request h
  obtain ⟨q', content', came'⟩ := asked_request h'
  cases came.symm.trans came'
  exact ⟨rfl, asked_inj h h'⟩

theorem stems_of_table (sessions : Sessions w (history w p ms) (play w p ms))
    (ho : (play w p ms).operations.get? id = some operation) {more : List Move}
    (stems : Stems w (history w p (ms ++ more)) start id)
    (asked : (session w client (history w p (ms ++ more))).asked[slot]? = some start) :
    Stems w (history w p ms) start id := by
  obtain ⟨slot', start', -, asked', before⟩ := sessions.stems ho
  obtain ⟨q, content, came⟩ := asked_request asked
  obtain ⟨q', content', came'⟩ := asked_request asked'
  have later := before.concat (history w (play w p ms) more)
  have came'' := getElem?_of_front (List.prefix_append _ (history w (play w p ms) more)) came'
  rw [← history_append] at later came''
  obtain rfl := stems_unique stems later ⟨q, _, content, came⟩ ⟨q', _, content', came''⟩
  exact before

theorem numbers_opening (other : move.subject? p ≠ some id) :
    id ∉ (move.opening p).2.numbers := by
  rcases Move.opening_cases p move with same | ⟨j, subject, -, same⟩
  · rw [same]
    cases move <;> exact List.not_mem_nil
  · rcases (move.prepare p).resumed_cases j with ⟨-, hr⟩ | ⟨taken, -, hr⟩
    · rw [same, hr]
      exact List.not_mem_nil
    · rw [same, hr, numbers_some, numbers_nil, List.mem_singleton]
      rintro rfl
      exact other subject

theorem kept_of_apply (tidy : Tidy p []) (ho : p.operations.get? id = some operation)
    (other : move.subject? p ≠ some id) (stays : move ≠ .hangUp operation.client) :
    (move.apply w p).operations.get? id = some operation := by
  have opened : (move.opening p).1.operations.get? id = some operation := by
    by_cases hangsUp : ∃ c, move = .hangUp c
    · obtain ⟨c, rfl⟩ := hangsUp
      refine get?_operations_clientClosed.mpr ⟨ho, ?_⟩
      rintro rfl
      exact stays rfl
    · rw [← operations_prepare fun c he => hangsUp ⟨c, he⟩] at ho
      rcases Move.opening_cases p move with same | ⟨j, subject, -, same⟩
      · rwa [same]
      · rcases (move.prepare p).resumed_cases j with ⟨-, hr⟩ | ⟨taken, -, hr⟩
        · rwa [same, hr]
        · rw [same, hr]
          refine (Table.get?_erase_of_ne _ ?_).trans ho
          rintro rfl
          exact other subject
  have lt : id < (move.opening p).1.nextOperation :=
    (nextOperation_opening p move).symm ▸ tidy.operation_lt ho
  rw [untouched_by_deeds (deeds_of_apply w tidy.sound move) (numbers_opening other) lt, opened]

section Continues

variable {mine : Nat → Nat → Prop}
  (sessions : Sessions w (history w p ms) (play w p ms))
  (continues : Sessions.Continues w (history w p ms) (play w p ms) move mine)
  (asked : (session w client (history w p (ms ++ [move]))).asked[slot]? = some start)

include continues asked

theorem mine_of_stems {client' slot' : Nat} (own : mine client' slot')
    (new : id ∈ (move.opening (play w p ms)).2.numbers ∨ ((play w p ms).nextOperation ≤ id ∧
      id < (move.apply w (play w p ms)).nextOperation))
    (stems : Stems w (history w p (ms ++ [move])) start id) : mine client slot := by
  obtain ⟨start', asked', -, -, stems'⟩ := continues.works own
  rw [← history_concat] at asked' stems'
  obtain ⟨q, content, came⟩ := asked_request asked
  obtain ⟨q', content', came'⟩ := asked_request asked'
  obtain rfl := stems_unique stems (stems' new) ⟨q, _, content, came⟩ ⟨q', _, content', came'⟩
  obtain ⟨rfl, rfl⟩ := asked_eq asked asked'
  exact own

include sessions in
theorem aside_of_continues (stays : ∀ client, move ≠ .hangUp client)
    (other : ¬ mine client slot) :
    Aside w (history w p ms) (play w p ms) move client slot start := by
  have serves := continues.serves sessions
  have tidy := sessions.tidy
  have apart : ∀ {id operation}, move.subject? (play w p ms) = some id →
      (play w p ms).operations.get? id = some operation →
      ¬ Stems w (history w p (ms ++ [move])) start id := by
    intro id operation subject ho stems
    have hand := congrArg Prod.snd (opening_of_subject subject ho)
    obtain ⟨client', slot', own, -⟩ := continues.owed (some id, operation.duty) (by rw [hand]; simp)
    exact other (mine_of_stems continues asked own (Or.inl (by rw [hand]; simp)) stems)
  refine ⟨?_, ?_, ?_⟩
  · intro id operation ho stems
    rw [← history_concat] at stems
    rcases serves.operations ho with old | ⟨new, client', slot', own, -⟩
    · have before := operations_opening stays old
      exact ⟨before, stems_of_table sessions before stems asked⟩
    · rw [nextOperation_opening] at new
      refine absurd
        (mine_of_stems continues asked own (new.imp_right fun le => ⟨le, ?_⟩) stems) other
      exact (tidy.apply w move).operation_lt ho
  · intro id news operation told ho stems
    refine apart (subject?_of_news? told) ho ?_
    rw [history_concat]
    exact stems.concat _
  · rintro id g hg rfl rfl
    have before := spared_by_deeds (deeds_of_apply w tidy.sound move) continues.owed other hg
    rw [groups_opening stays] at before
    refine ⟨before, ?_⟩
    intro index hm
    obtain ⟨k, operation, hk, target⟩ := mem_partsUnderWay.mp hm
    have unmoved : move.subject? (play w p ms) ≠ some k := by
      intro subject
      have hand := congrArg Prod.snd (opening_of_subject subject hk)
      obtain ⟨client', slot', own, isFor⟩ :=
        continues.owed (some k, operation.duty) (by rw [hand]; simp)
      simp only [Operation.duty, target, groups_opening stays, Duty.IsFor] at isFor
      obtain ⟨rfl, rfl⟩ := isFor.2.2 g before
      exact other own
    exact mem_partsUnderWay.mpr ⟨k, operation, kept_of_apply tidy hk unmoved (stays _), target⟩

end Continues

theorem aside_or_news (sessions : Sessions w (history w p ms) (play w p ms))
    (asked : (session w client (history w p ms)).asked[slot]? = some start)
    (stays : move ≠ .hangUp client) :
    Aside w (history w p ms) (play w p ms) move client slot start ∨
      ∃ id news operation, move.news? (play w p ms) = some (id, news) ∧
        (play w p ms).operations.get? id = some operation ∧
        Stems w (history w p ms) start id := by
  have asked' : (session w client (history w p (ms ++ [move]))).asked[slot]? = some start := by
    rw [history_concat]
    exact asked_concat asked stays
  -- Someone else hangs up, someone asks for something, or an operation hears something: only the
  -- last can concern the request.
  by_cases hangsUp : ∃ c, move = .hangUp c
  · obtain ⟨c, rfl⟩ := hangsUp
    left
    refine ⟨?_, nofun, ?_⟩
    · intro id operation ho stems
      have before := (get?_operations_clientClosed.mp ho).1
      rw [← history_concat] at stems
      exact ⟨before, stems_of_table sessions before stems asked'⟩
    rintro id g hg rfl -
    have before := (get?_groups_clientClosed.mp hg).1
    refine ⟨before, ?_⟩
    intro index hm
    obtain ⟨k, operation, hk, target⟩ := mem_partsUnderWay.mp hm
    obtain ⟨slot', start', isFor, -⟩ := sessions.stems hk
    simp only [Operation.duty, target, Duty.IsFor] at isFor
    obtain ⟨own, -⟩ := isFor.2.2 g before
    refine mem_partsUnderWay.mpr ⟨k, operation, get?_operations_clientClosed.mpr ⟨hk, ?_⟩, target⟩
    rw [← own]
    rintro rfl
    exact stays rfl
  · have stays : ∀ c, move ≠ .hangUp c := fun c he => hangsUp ⟨c, he⟩
    have done : ∀ {mine}, Sessions.Continues w (history w p ms) (play w p ms) move mine →
        ¬ mine client slot → Aside w (history w p ms) (play w p ms) move client slot start :=
      fun continues other => aside_of_continues sessions continues asked' stays other
    by_cases asks : ∃ c content, move = .request c content
    · obtain ⟨c, content, rfl⟩ := asks
      refine Or.inl (done (sessions.continues_request c content) ?_)
      rintro ⟨rfl, rfl⟩
      rw [sessions.next] at asked
      exact absurd (List.getElem?_eq_some_iff.mp asked).1 (Nat.lt_irrefl _)
    · rcases opening_hand (p := play w p ms) stays fun c content he => asks ⟨c, content, he⟩ with
        idle | ⟨id, operation, subject, ho, hand⟩
      · exact Or.inl (done (Sessions.continues_idle idle) id)
      · obtain ⟨mine, continues⟩ := sessions.continues_operation stays subject ho hand
        by_cases own : mine client slot
        · right
          obtain ⟨start', at', -, -, stems⟩ := continues.works own
          rw [← history_concat] at at' stems
          cases asked'.symm.trans at'
          obtain ⟨news, told⟩ := news?_of_subject? subject
          have stems : Stems w (history w p (ms ++ [move])) start id :=
            stems (Or.inl (by rw [hand]; simp))
          exact ⟨id, news, operation, told, ho, stems_of_table sessions ho stems asked'⟩
        · exact Or.inl (done continues own)

end Moves

end ReadThrough.Proxy
