import ReadThrough.Proofs.Underway

namespace ReadThrough.Proxy

section Opening

variable {p : Proxy} {move : Move} {id : Nat} {operation : Operation} {news : News}

theorem get?_operations_ready (ho : (move.ready p).operations.get? id = some operation) :
    p.operations.get? id = some operation ∧ move.subject? p ≠ some id := by
  rw [(akin_ready p move).operations] at ho
  by_cases hangsUp : ∃ client, move = .hangUp client
  · obtain ⟨client, rfl⟩ := hangsUp
    exact ⟨(get?_operations_clientClosed.mp ho).1, by simp [Move.subject?]⟩
  · have stays : ∀ client, move ≠ .hangUp client := fun client he => hangsUp ⟨client, he⟩
    refine ⟨operations_opening stays ho, ?_⟩
    intro subject
    simp only [Move.opening, subject] at ho
    rcases (move.prepare p).resumed_cases id with ⟨gone, hr⟩ | ⟨taken, -, hr⟩
    · rw [hr, gone] at ho
      cases ho
    · rw [hr, Table.get?_erase_self] at ho
      cases ho

theorem subject?_of_news? (h : move.news? p = some (id, news)) : move.subject? p = some id :=
  Move.subject?_eq_some_iff.mpr ⟨news, Move.news?_eq_some_iff.mp h⟩

theorem stays_of_told (told : move.news? p = some (id, news)) (client : Nat) :
    move ≠ .hangUp client := by
  rintro rfl
  cases told

theorem tasks_of_told (told : move.news? p = some (id, news))
    (ho : p.operations.get? id = some operation) : move.tasks p = [.news id operation news] := by
  cases move with
  | request client content => cases told
  | _ => simp only [Move.tasks, told, ho, Option.map_some, Option.toList_some]

theorem tasks_of_news (asks : ∀ client content, move ≠ .request client content) :
    move.tasks p = [] ∨ ∃ id operation news, move.news? p = some (id, news) ∧
      p.operations.get? id = some operation ∧ move.tasks p = [.news id operation news] := by
  cases told : move.news? p with
  | none =>
      left
      cases move with
      | request client content => exact absurd rfl (asks client content)
      | _ => simp only [Move.tasks, told]
  | some news =>
      obtain ⟨id, news⟩ := news
      cases ho : p.operations.get? id with
      | none =>
          left
          cases move with
          | request client content => exact absurd rfl (asks client content)
          | _ => simp only [Move.tasks, told, ho, Option.map_none, Option.toList_none]
      | some operation => exact Or.inr ⟨id, operation, news, rfl, ho, tasks_of_told told ho⟩

theorem tasks_cases (w : World) (p : Proxy) (move : Move) :
    (∀ task ∈ move.tasks p, ∃ client slot value, task = .reply client slot value) ∨
    (∃ (command : Command) (root : Root), move = .request root.client (.ok command) ∧
      root.Of w p command ∧ move.tasks p = root.plan.tasks root.client root.slot) ∨
    ∃ id operation news, move.news? p = some (id, news) ∧
      p.operations.get? id = some operation ∧ move.tasks p = [.news id operation news] := by
  by_cases asks : ∃ client content, move = .request client content
  · obtain ⟨client, content, rfl⟩ := asks
    have answers : ∀ value, ∀ task ∈ [Task.reply client (p.client client).replies.next value],
        ∃ client slot value, task = .reply client slot value :=
      fun value => List.forall_mem_singleton.mpr ⟨client, _, value, rfl⟩
    cases content with
    | error why => exact Or.inl (answers _)
    | ok command =>
        cases planned : p.plan command with
        | error why =>
            simp only [Move.tasks, planned]
            exact Or.inl (answers _)
        | ok plan =>
            simp only [Move.tasks, planned]
            let numbers := Finset.Ico p.nextOperation (p.clientCommand w client command).nextOperation
            exact Or.inr (Or.inl ⟨command, ⟨client, _, plan, numbers⟩, rfl, ⟨planned, rfl, rfl⟩, rfl⟩)
  · rcases tasks_of_news (p := p) fun client content he => asks ⟨client, content, he⟩ with
      none | heard
    · rw [none]
      exact Or.inl (List.forall_mem_nil _)
    · exact Or.inr (Or.inr heard)

end Opening

structure Calm (p q : Proxy) : Prop where
  operations : q.operations = p.operations
  nextOperation : q.nextOperation = p.nextOperation
  outbox : ∃ actions, q.outbox = p.outbox ++ actions ∧ ∀ past id, newly past actions id = []

namespace Calm

variable {w : World} {p q r : Proxy}

theorem refl (p : Proxy) : Calm p p := ⟨rfl, rfl, [], (List.append_nil _).symm, fun _ _ => rfl⟩

theorem trans (h : Calm p q) (h' : Calm q r) : Calm p r := by
  obtain ⟨actions, outbox, silent⟩ := h.outbox
  obtain ⟨more, outbox', silent'⟩ := h'.outbox
  refine ⟨h'.operations.trans h.operations, h'.nextOperation.trans h.nextOperation,
    actions ++ more, ?_, ?_⟩
  · rw [outbox', outbox, List.append_assoc]
  · intro past id
    rw [newly_append, silent, silent', List.append_nil]

theorem reply (p : Proxy) (client slot : Nat) (value : Reply) :
    Calm p (p.reply client slot value) := by
  rcases reply_cases p client slot value with ⟨-, what, h⟩ | ⟨filled, -, h⟩
  · rw [h]
    exact ⟨rfl, rfl, [], (List.append_nil _).symm, fun _ _ => rfl⟩
  · rw [h]
    exact ⟨rfl, rfl, _, rfl, fun past id => newly_replies past client id filled.drain.1⟩

theorem steps {a b : Proxy × List Task} (done : Steps w a b)
    (replies : ∀ task ∈ a.2, ∃ client slot value, task = .reply client slot value) :
    Calm a.1 b.1 := by
  induction done using Relation.ReflTransGen.head_induction_on with
  | refl => exact refl _
  | head first _ ih =>
      cases first with
      | still same =>
          refine trans ⟨same.operations, same.nextOperation, [], ?_, fun _ _ => rfl⟩ (ih replies)
          rw [same.outbox, List.append_nil]
      | task does =>
          obtain ⟨⟨client, slot, value, rfl⟩, others⟩ := List.forall_mem_cons.mp replies
          cases does
          exact (reply _ client slot value).trans (ih others)

end Calm

section Sent

variable {w : World} {past : History} {p : Proxy} {move : Move} {actions : List Action} {id : Nat}

theorem sendings_of_outbox (outbox : (move.apply w p).outbox = (move.ready p).outbox ++ actions) :
    sendings w (past ++ [(p, move)]) id = soFar w past actions id := by
  have silent : newly past move.notice id = [] := by cases move <;> rfl
  rw [(akin_ready p move).outbox] at outbox
  rw [sendings_concat, emits_of_outbox move w outbox, soFar]
  refine congrArg _ ?_
  change newly past (move.notice ++ actions) id = newly past actions id
  rw [newly_append, silent, List.nil_append]

end Sent

theorem Stands.concat {w : World} {past : History} {start id : Nat} {root : Root} {p : Proxy}
    {operation : Operation} {sent : List Sending} {made : Proxy × Move}
    (h : Stands w past start root p id operation sent)
    (silent : ∀ news, ¬ Told (past ++ [made]) past.length id news) :
    Stands w (past ++ [made]) start root p id operation sent where
  client := h.client
  trail := by
    obtain ⟨place, at', trail⟩ := h.trail
    exact ⟨place, at', trail.concat _⟩
  begun := h.begun
  fresh := h.fresh
  left read slot first rest stage target split := by
    have left := h.left read slot first rest stage target split
    refine ⟨left.primary, ?_⟩
    rcases left.servers with ⟨none, alone, unheard⟩ | ⟨servers, some, resent⟩
    · refine Or.inl ⟨none, alone, ?_⟩
      intro t gt news told
      have lt := told.lt
      rw [List.length_append, List.length_singleton] at lt
      rcases Nat.lt_succ_iff_lt_or_eq.mp lt with before | rfl
      · exact unheard t gt news (told.of_concat before)
      · exact silent news told
    · exact Or.inr ⟨servers, some, resent.concat _⟩

theorem belongs_tasks {w : World} {past : History} {move : Proxy × Move} {root : Root}
    (begins : root.Begins w past move past.length) (p : Proxy) (sent : Nat → List Sending) :
    ∀ task ∈ root.plan.tasks root.client root.slot,
      task.Belongs w past move past.length root p sent := by
  obtain ⟨client, slot, plan, numbers⟩ := root
  cases plan with
  | read read =>
      refine List.forall_mem_singleton.mpr fun past id spare => ?_
      exact ⟨rfl, ⟨none, ⟨rfl, rfl⟩, .lookUp⟩, Or.inr (begins.numbers spare), fun _ _ => rfl,
        by simp⟩
  | write change request =>
      refine List.forall_mem_singleton.mpr ⟨⟨rfl, none, rfl, rfl⟩, fun id server spare picked => ?_⟩
      exact ⟨rfl, ⟨none, ⟨rfl, rfl⟩, .write picked⟩, Or.inr (begins.numbers spare), by simp,
        by simp⟩
  | readThenPut address value deferred fetch =>
      refine List.forall_mem_singleton.mpr ⟨⟨rfl, none, rfl, rfl⟩, fun id server spare picked => ?_⟩
      exact ⟨rfl, ⟨none, ⟨rfl, rfl⟩, .fetch picked⟩, Or.inr (begins.numbers spare), by simp,
        by simp⟩
  | delete cacheOnly stored =>
      refine List.forall_mem_append.mpr
        ⟨?_, List.forall_mem_singleton.mpr ⟨rfl, rfl, begins, cacheOnly, rfl⟩⟩
      intro task hm
      obtain ⟨address, -, rfl⟩ := List.mem_map.mp hm
      trivial
  | combine op dest sources =>
      exact List.forall_mem_singleton.mpr ⟨rfl, rfl, begins, rfl⟩

theorem numbers_tasks (client slot : Nat) (plan : Plan) : numbers (plan.tasks client slot) = [] := by
  cases plan with
  | delete cacheOnly stored =>
      simp [Plan.tasks, numbers, List.filterMap_map, Function.comp_def, Task.number?]
  | _ => rfl

structure Trailed (w : World) (past : History) (p : Proxy) : Prop where
  tidy : Tidy p []
  fresh : ∀ {id}, p.nextOperation ≤ id → sendings w past id = []
  known : ∀ {id}, sendings w past id ≠ [] → ∃ start command root,
    Planned w past start command root ∧ Stems w past start id ∧ ∃ place stage request,
      Trail w past p.settings start id root.plan place stage request (sendings w past id)
  table : ∀ {id operation}, p.operations.get? id = some operation → ∃ start command root,
    Planned w past start command root ∧ Stems w past start id ∧
      Stands w past start root p id operation (sendings w past id)

namespace Trailed

variable {w : World} {past : History} {p : Proxy} {move : Move} {actions : List Action}

theorem silent_of_subject? {id : Nat} (h : move.subject? p ≠ some id) (news : News) :
    ¬ Told (past ++ [(p, move)]) past.length id news := by
  rintro ⟨q, m, operation, at', told, -⟩
  rw [List.getElem?_concat_length, Option.some.injEq, Prod.mk.injEq] at at'
  obtain ⟨rfl, rfl⟩ := at'
  exact h (subject?_of_news? told)

theorem table_old (h : Trailed w past p) {id : Nat} {operation : Operation}
    (ho : (move.ready p).operations.get? id = some operation) :
    ∃ start command root, Planned w (past ++ [(p, move)]) start command root ∧
      Stems w (past ++ [(p, move)]) start id ∧
      Stands w (past ++ [(p, move)]) start root (move.apply w p) id operation
        (sendings w past id) := by
  obtain ⟨ho, other⟩ := get?_operations_ready ho
  obtain ⟨start, command, root, planned, stems, stands⟩ := h.table ho
  exact ⟨start, command, root, planned.concat _, stems.concat _,
    (stands.concat (silent_of_subject? other)).mono (frame_apply w p move)⟩

theorem known_old (h : Trailed w past p) {id : Nat} (sent : sendings w past id ≠ []) :
    ∃ start command root, Planned w (past ++ [(p, move)]) start command root ∧
      Stems w (past ++ [(p, move)]) start id ∧ ∃ place stage request,
        Trail w (past ++ [(p, move)]) (move.apply w p).settings start id root.plan place stage
          request (sendings w past id) := by
  obtain ⟨start, command, root, planned, stems, place, stage, request, trail⟩ := h.known sent
  refine ⟨start, command, root, planned.concat _, stems.concat _, place, stage, request, ?_⟩
  exact (frame_apply w p move).settings ▸ trail.concat _

theorem of_calm (h : Trailed w past p) (calm : Calm (move.ready p) (move.apply w p)) :
    Trailed w (past ++ [(p, move)]) (move.apply w p) := by
  obtain ⟨actions, outbox, silent⟩ := calm.outbox
  have same : ∀ id, sendings w (past ++ [(p, move)]) id = sendings w past id := by
    intro id
    rw [sendings_of_outbox outbox, soFar, silent, List.append_nil]
  refine ⟨h.tidy.apply w move, ?_, ?_, ?_⟩
  · intro id le
    rw [same]
    exact h.fresh (Nat.le_trans (frame_apply w p move).nextOperation le)
  · intro id sent
    rw [same] at sent ⊢
    exact h.known_old sent
  · intro id operation ho
    rw [same]
    exact h.table_old (calm.operations ▸ ho)

theorem of_underway (h : Trailed w past p) {start : Nat} {command : Command} {root : Root}
    {mine : Nat → Prop} (planned : Planned w (past ++ [(p, move)]) start command root)
    (stems : ∀ id, mine id → id < (move.apply w p).nextOperation →
      Stems w (past ++ [(p, move)]) start id)
    (u : Underway w past (p, move) start root mine (move.ready p) (move.apply w p) actions []) :
    Trailed w (past ++ [(p, move)]) (move.apply w p) := by
  have sent : ∀ id, sendings w (past ++ [(p, move)]) id = soFar w past actions id :=
    fun id => sendings_of_outbox u.outbox
  refine ⟨h.tidy.apply w move, ?_, ?_, ?_⟩
  · intro id le
    rw [sent]
    exact u.fresh le
  · intro id some
    rw [sent] at some ⊢
    cases new : newly past actions id with
    | nil =>
        rw [soFar, new, List.append_nil] at some ⊢
        exact h.known_old some
    | cons sending more =>
        obtain ⟨operation, ho⟩ := u.made (new ▸ List.cons_ne_nil _ _)
        rcases u.table ho with ⟨-, none⟩ | ⟨own, stands⟩
        · rw [new] at none
          cases none
        · obtain ⟨place, -, trail⟩ := stands.trail
          exact ⟨start, command, root, planned, stems id own (u.apart.table ho), place, _, _, trail⟩
  · intro id operation ho
    rw [sent]
    rcases u.table ho with ⟨old, new⟩ | ⟨own, stands⟩
    · rw [soFar, new, List.append_nil]
      exact h.table_old old
    · exact ⟨start, command, root, planned, stems id own (u.apart.table ho), stands⟩

theorem underway (h : Trailed w past p) (move : Move) {start : Nat} {root : Root}
    {mine : Nat → Prop} (nodup : (numbers (move.tasks p)).Nodup)
    (taken : ∀ id ∈ numbers (move.tasks p), move.subject? p = some id ∧
      id < p.nextOperation ∧ mine id)
    (belongs : ∀ task ∈ move.tasks p,
      task.Belongs w past (p, move) start root (move.ready p) (soFar w past [])) :
    Underway w past (p, move) start root mine (move.ready p) (move.ready p) [] (move.tasks p) where
  apart := by
    refine ⟨?_, nodup, ?_, ?_⟩
    · intro id hm
      exact (taken id hm).2.1.trans_le (nextOperation_le_ready p move)
    · intro id operation ho
      exact (h.tidy.operation_lt (get?_operations_ready ho).1).trans_le
        (nextOperation_le_ready p move)
    · intro id hm
      cases ho : (move.ready p).operations.get? id with
      | none => rfl
      | some operation => exact absurd (taken id hm).1 (get?_operations_ready ho).2
  own hm := (taken _ hm).2.2
  frame := Frame.refl _
  outbox := (List.append_nil _).symm
  fresh le := by
    rw [soFar, h.fresh ((nextOperation_le_ready p move).trans le)]
    rfl
  belongs := belongs
  made sent := absurd rfl sent
  table ho := Or.inl ⟨ho, rfl⟩

theorem finished {start : Nat} {root : Root} {mine : Nat → Prop}
    (u : Underway w past (p, move) start root mine (move.ready p) (move.ready p) []
      (move.tasks p))
    (newer : ∀ id, p.nextOperation ≤ id → mine id) (le : start ≤ past.length) :
    ∃ actions,
      Underway w past (p, move) start root mine (move.ready p) (move.apply w p) actions [] :=
  Underway.steps (steps_apply w p move) u
    (fun id since => newer id ((nextOperation_le_ready p move).trans since)) (frame_ready p move) le
    (Frame.refl _)

theorem underway_request (h : Trailed w past p) {command : Command} {root : Root}
    (asks : move = .request root.client (.ok command)) (of : root.Of w p command)
    (tasks : move.tasks p = root.plan.tasks root.client root.slot) :
    Underway w past (p, move) past.length root (p.nextOperation ≤ ·) (move.ready p)
      (move.ready p) [] (move.tasks p) := by
  refine h.underway move ?_ ?_ ?_
  · rw [tasks, numbers_tasks]
    exact List.nodup_nil
  · rw [tasks, numbers_tasks]
    exact List.forall_mem_nil _
  · rw [tasks]
    refine belongs_tasks ⟨rfl, fun spare => ?_⟩ _ _
    rw [asks] at spare
    rw [of.numbers, Finset.mem_Ico]
    exact spare

theorem underway_news (h : Trailed w past p) {id start : Nat} {operation : Operation} {news : News}
    {root : Root} (told : move.news? p = some (id, news))
    (ho : p.operations.get? id = some operation) (tasks : move.tasks p = [.news id operation news])
    (stands : Stands w past start root p id operation (sendings w past id)) :
    Underway w past (p, move) start root (fun k => k = id ∨ p.nextOperation ≤ k) (move.ready p)
      (move.ready p) [] (move.tasks p) := by
  have at' : (past ++ [(p, move)])[past.length]? = some (p, move) := by simp
  refine h.underway move ?_ ?_ ?_
  · rw [tasks]
    exact List.nodup_singleton id
  · rw [tasks]
    exact List.forall_mem_singleton.mpr
      ⟨subject?_of_news? told, h.tidy.operation_lt ho, Or.inl rfl⟩
  · rw [tasks]
    refine List.forall_mem_singleton.mpr ⟨?_, Or.inl ⟨p, move, operation, at', told, ho⟩⟩
    rw [soFar]
    simpa [newly] using stands.mono (frame_ready p move)

theorem step (h : Trailed w past p) (move : Move) :
    Trailed w (past ++ [(p, move)]) (move.apply w p) := by
  have at' : (past ++ [(p, move)])[past.length]? = some (p, move) := by simp
  rcases tasks_cases w p move with replies | ⟨command, root, asks, of, tasks⟩ |
    ⟨id, operation, news, told, ho, tasks⟩
  · exact h.of_calm (Calm.steps (steps_apply w p move) replies)
  · obtain ⟨actions, done⟩ := finished (h.underway_request asks of tasks) (fun _ le => le)
      (Nat.le_refl _)
    exact h.of_underway ⟨p, asks ▸ at', of⟩ (fun id le lt => .begun at' le lt) done
  · obtain ⟨start, command, root, planned, stems, stands⟩ := h.table ho
    have subject := subject?_of_news? told
    obtain ⟨actions, done⟩ := finished (h.underway_news told ho tasks stands)
      (fun _ le => Or.inr le) (Nat.le_of_lt stems.start_lt)
    refine h.of_underway (planned.concat _) ?_ done
    rintro k (rfl | le) lt
    · exact stems.concat _
    · exact .spawned at' subject (stems.concat _) le lt

theorem play (h : Trailed w [] p) (moves : List Move) :
    Trailed w (history w p moves) (play w p moves) := by
  induction moves using List.reverseRecOn with
  | nil => exact h
  | append_singleton moves move ih =>
      rw [history_concat, play_concat]
      exact ih.step move

theorem start (w : World) (settings : Settings) (policy : BucketPolicy) :
    Trailed w [] (start settings policy) where
  tidy := Tidy.start settings policy
  fresh _ := rfl
  known sent := absurd rfl sent
  table ho := by cases ho

end Trailed

end ReadThrough.Proxy
