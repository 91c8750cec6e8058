import ReadThrough.Proofs.Algebra
import ReadThrough.Proofs.Copies
import ReadThrough.Proofs.Honesty
import ReadThrough.Proofs.MemberSets
import ReadThrough.Proofs.Sendings

namespace ReadThrough.Proxy

structure Storing (w : World) (p : Proxy) (events : List Event) (ms : List Move) (c : Combination)
    (client : Nat) (dest : Address) : Prop where
  run : ms <+: course w p events
  request : ∃ raw keys, ms[c.start]? =
      some (.request client (.ok (.algebra c.op (some raw) keys))) ∧
    keys.mapM Address.parse = .ok c.sources ∧ planDest (some raw) = .ok (some dest)
  dest : c.dest = some dest

/-- The operation answers the request itself; the others read its sources. -/
def Answers (w : World) (p : Proxy) (ms : List Move) (start id : Nat) : Prop :=
  Stems w (history w p ms) start id ∧ ∃ n operation slot, n ≤ ms.length ∧
    (play w p (ms.take n)).operations.get? id = some operation ∧ operation.target = .client slot

def Replaces (settings : Settings) (key : Key) (current : List Bytes) (context : Option Bytes)
    (wanted : List Bytes) (request : Store.Request) : Prop :=
  ∃ adds removes, request =
      { key, quorum := settings.quorum
        body := .setReplace (Store.Request.setBucketType settings key) adds removes context } ∧
    (∀ m ∈ adds, m ∉ current) ∧ (∀ m ∈ removes, m ∈ current) ∧
    ∀ m, m ∈ wanted ↔ (m ∈ current ∨ m ∈ adds) ∧ m ∉ removes

def Unsendable (w : World) (past : History) (settings : Settings) (time : Nat) (route : Bytes)
    (request : Store.Request) (why : Failure) : Prop :=
  request.checkSize settings.maxFrameSize = .error why ∨ why = .noStoreServer ∧
    ∃ look, Looked w past time look ∧ (w.pool look).pick .store route = none

section Change

variable {settings : Settings} {key : Key} {fetch : Store.Request} {current wanted : List Bytes}

theorem setReplace_cases (fetches : Store.Request.setFetch settings key = .ok fetch)
    (current : List Bytes) (context : Option Bytes) (wanted : List Bytes) :
    (Store.Request.setReplace settings key current context wanted = .ok none ∧
      ∀ m, m ∈ wanted ↔ m ∈ current) ∨
    ∃ request, Store.Request.setReplace settings key current context wanted = .ok (some request) ∧
      Replaces settings key current context wanted request ∧ ¬ ∀ m, m ∈ wanted ↔ m ∈ current := by
  obtain ⟨key', required, -⟩ := map_eq_ok fetches
  obtain ⟨rfl, -⟩ := Key.requireBucket_eq_ok required
  by_cases same : Members.without wanted current = [] ∧ Members.without current wanted = []
  · refine Or.inl ⟨by simp only [Store.Request.setReplace, same, and_self, if_true], ?_⟩
    simp only [Members.without_eq_nil_iff] at same
    exact fun m => ⟨same.1 m, same.2 m⟩
  · refine Or.inr ⟨_, ?_, ⟨Members.without wanted current, Members.without current wanted, rfl, ?_,
      ?_, ?_⟩, ?_⟩
    · simp only [Store.Request.setReplace, same, if_false, Store.Request.compose, required,
        Except.map]
    · exact fun m hm => (Members.mem_without.mp hm).2
    · exact fun m hm => (Members.mem_without.mp hm).1
    · intro m
      simp only [Members.mem_without]
      tauto
    · intro all
      refine same ⟨?_, ?_⟩ <;> rw [Members.without_eq_nil_iff]
      · exact fun m => (all m).mp
      · exact fun m => (all m).mpr

end Change

section Move

variable {w : World} {p : Proxy} {past : History} {move : Move} {id k server slot client : Nat}
  {operation : Operation} {dest : Address} {members current : List Bytes}
  {context : Option Bytes} {response : Store.Response} {fetch : Store.Request} {value : Reply}
  {route : Bytes} {commands : List Cache.Command}

theorem Concludes.sendings (h : Concludes w p move route commands client slot value)
    (past : History) : sendings w (past ++ [(p, move)]) id = Proxy.sendings w past id := by
  obtain ⟨sent, replies, emits, -, only⟩ := h.emits
  rw [sendings_concat, emits, List.append_right_eq_self, List.filterMap_eq_nil_iff]
  intro action hm
  rcases List.mem_append.mp hm with notice | hm
  · cases move with
    | cacheProtest | storeProtest =>
        obtain rfl := List.mem_singleton.mp notice
        rfl
    | _ => cases notice
  · rcases List.mem_append.mp hm with posted | replied
    · obtain ⟨s, -, rfl⟩ := List.mem_map.mp posted
      rfl
    · obtain ⟨client, slot, value, rfl⟩ := only action replied
      rfl

variable (ho : p.operations.get? id = some operation) (target : operation.target = .client slot)

include ho target

theorem concludes_of_acknowledgement
    (told : move.news? p = some (id, .response server response))
    (stage : operation.stage = .storeFetch dest members ∨
      operation.stage = .storeWrite (.store dest members))
    (acknowledged : operation.stage.acknowledgement? response = some value) :
    value = Reply.count members.length ∧
      Concludes w p move dest.raw (Cache.replaceSet dest.raw members (p.ttl dest))
        operation.client slot value := by
  obtain ⟨r, same, ttl, done⟩ := decided_of_told told w ho
  suffices decided : value = Reply.count members.length ∧
      operation.decide w r id (.response server response) = operation.replaced r dest members by
    obtain ⟨rfl, decided⟩ := decided
    rw [decided, Operation.replaced, ttl, Operation.conclude, target] at done
    exact ⟨rfl, r, same, done⟩
  rcases stage with stage | stage
  · cases response with
    | set current context =>
        simp only [stage, Stage.acknowledgement?, Option.ite_none_right_eq_some,
          Option.some.injEq] at acknowledged
        obtain ⟨unchanged, rfl⟩ := acknowledged
        refine ⟨rfl, ?_⟩
        simp only [Operation.decide, Operation.onResponse, stage, Operation.onFetched,
          Store.Request.setReplace, unchanged, and_self, if_true]
    | _ => simp only [stage, Stage.acknowledgement?, reduceCtorEq] at acknowledged
  · cases response with
    | updateAck =>
        simp only [stage, Stage.acknowledgement?, Option.some.injEq] at acknowledged
        refine ⟨acknowledged.symm, ?_⟩
        simp only [Operation.decide, Operation.onResponse, stage, Operation.onWritten]
    | _ => simp only [stage, Stage.acknowledgement?, reduceCtorEq] at acknowledged

theorem fetched_cases
    (told : move.news? p = some (id, .response server (.set current context)))
    (stage : operation.stage = .storeFetch dest members)
    (fetches : Store.Request.setFetch p.settings dest.key = .ok fetch) :
    ((∀ m, m ∈ members ↔ m ∈ current) ∧ ∃ commands value,
      Concludes w p move dest.raw commands operation.client slot value) ∨
    (¬ ∀ m, m ∈ members ↔ m ∈ current) ∧ ∃ request,
      Replaces p.settings dest.key current context members request ∧
      ((∃ server, move.emits w p = [.store server id request]) ∨
        ∃ why, (request.checkSize p.settings.maxFrameSize = .error why ∨ why = .noStoreServer ∧
            ∃ look, Between p (move.apply w p) look ∧ (w.pool look).pick .store dest.raw = none) ∧
          Concludes w p move dest.raw [] operation.client slot (Reply.failure why)) := by
  obtain ⟨r, same, -, done⟩ := decided_of_told told w ho
  have settings : r.settings = p.settings :=
    same.settings.trans ((akin_ready p move).settings.trans (settings_opening p move))
  have decided : operation.decide w r id (.response server (.set current context)) =
      operation.onFetched r id dest members (.set current context) := by
    simp only [Operation.decide, Operation.onResponse, stage]
  rw [decided] at done
  simp only [Operation.onFetched, settings] at done
  rcases setReplace_cases fetches current context members with
    ⟨none, unchanged⟩ | ⟨request, some, change, differs⟩
  · rw [none] at done
    simp only [Operation.replaced, Operation.conclude, target] at done
    exact Or.inl ⟨unchanged, _, _, r, same, done⟩
  · rw [some] at done
    refine Or.inr ⟨differs, request, change, ?_⟩
    obtain ⟨q, q', more, same', does, later⟩ := steps_cons done
    have whole := same.trans same'
    have settings' : q.settings = p.settings := same'.settings.trans settings
    have looks : p.looks ≤ q.looks := looks_ready p move ▸ whole.looks
    rw [List.append_nil] at later
    cases does with
    | @send _ _ _ server' fits picked =>
        left
        have outbox : (move.apply w p).outbox =
            (move.opening p).1.outbox ++ [.store server' id request] := by
          rw [(steps_nil later rfl).outbox, ← (akin_ready p move).outbox, ← whole.outbox]
          rfl
        refine ⟨server', ?_⟩
        rw [emits_of_outbox move w outbox, notice_of_told told, List.nil_append]
    | oversize large =>
        simp only [Operation.failing, Operation.conclude, target] at later
        exact Or.inr ⟨_, Or.inl (settings' ▸ large), q, whole, later⟩
    | unreached fits picked =>
        simp only [Operation.failing, Operation.conclude, target] at later
        refine Or.inr ⟨_, Or.inr ⟨rfl, q.looks, ⟨looks, ?_⟩, picked⟩, _,
          whole.trans (Still.look q w), later⟩
        exact (Frame.steps later).looks

end Move

section Ended

variable {w : World} {p : Proxy} {ms : List Move} {start id n : Nat} {operation : Operation}

theorem Answers.target (h : Answers w p ms start id) (tidy : Tidy p [])
    (ho : (play w p (ms.take n)).operations.get? id = some operation) :
    ∃ slot, operation.target = .client slot := by
  obtain ⟨-, m, other, slot, -, hk, target⟩ := h
  have same : operation.duty = other.duty := by
    rcases Nat.le_total n m with le | le
    · exact duty_eq tidy le ho hk
    · exact (duty_eq tidy le hk ho).symm
  exact ⟨slot, target_of_duty same target⟩

theorem not_stems_of_refusal {client : Nat} {command : Command} {why : Failure}
    (request : ms[start]? = some (.request client (.ok command)))
    (other : ∀ key value, command ≠ .set key value)
    (refused : ∀ q : Proxy, q.plan command = .error why) :
    ¬ Stems w (history w p ms) start id := by
  intro stems
  induction stems with
  | spawned _ _ _ _ _ ih => exact ih
  | @begun q move id at' le lt =>
      obtain ⟨made, -⟩ := getElem?_history.mp at'
      cases request.symm.trans made
      have calm := Calm.steps (steps_apply w q (.request client (.ok command))) (by
        simp only [Move.tasks, refused]
        exact List.forall_mem_singleton.mpr ⟨client, _, _, rfl⟩)
      have same : ((Move.request client (.ok command)).ready q).nextOperation = q.nextOperation :=
        nextOperation_ready q (by rintro _ key value ⟨⟩; exact other key value rfl)
      rw [calm.nextOperation, same] at lt
      exact absurd lt (Nat.not_lt.mpr le)

theorem given_of_concludes (sessions : Sessions w [] p) (balanced : Balanced p []) {move : Move}
    {news : News} {route : Bytes} {commands : List Cache.Command}
    {slot time : Nat} {value : Reply} (made : ms[time]? = some move)
    (told : move.news? (play w p (ms.take time)) = some (id, news))
    (ho : (play w p (ms.take time)).operations.get? id = some operation)
    (target : operation.target = .client slot)
    (concludes : Concludes w (play w p (ms.take time)) move route commands operation.client slot
      value) : (slot, some value) ∈ tape w (history w p (ms.take (time + 1)))
        (play w p (ms.take (time + 1))) operation.client := by
  obtain ⟨contiguous, waits⟩ := waits_ready sessions balanced told ho target
  exact tape_of_gave made told (concludes.gave contiguous waits)

theorem sendings_of_concludes (trailed : Trailed w [] p) {move : Move} {news : News}
    {route : Bytes} {commands : List Cache.Command} {slot time : Nat} {value : Reply}
    (made : ms[time]? = some move)
    (told : move.news? (play w p (ms.take time)) = some (id, news))
    (ho : (play w p (ms.take time)).operations.get? id = some operation)
    (concludes : Concludes w (play w p (ms.take time)) move route commands operation.client slot
      value) :
    sendings w (history w p ms) id = sendings w (history w p (ms.take time)) id := by
  have lt := (trailed.play (ms.take time)).tidy.operation_lt ho
  rw [← sendings_of_gone (n := time + 1) trailed, take_succ made, history_concat,
    concludes.sendings]
  · rw [play_take_succ w p made]
    exact Nat.lt_of_lt_of_le lt (frame_apply w _ move).nextOperation
  · rw [play_take_succ w p made, concludes.operations, operations_ready told ho,
      Table.get?_erase_self]

end Ended

section Stored

variable {w : World} {p : Proxy} {events : List Event} {ms : List Move} {c : Combination}
  {client m n id k slot : Nat} {dest : Address} {operation other : Operation}
  {members members' : List Bytes}
  (h : Storing w p events ms c client dest) (sessions : Sessions w [] p)
  (trailed : Trailed w [] p) (balanced : Balanced p []) (empty : ∀ server, p.queued server = [])

include h sessions trailed

theorem listens_of_held
    (ho : (play w p (ms.take n)).operations.get? id = some operation)
    (stems : Stems w (history w p ms) c.start id) : ∃ command root,
    Listens w p events (ms.take n) c command root ∧ root.client = client ∧
      Stems w (history w p (ms.take n)) c.start id ∧
      Stands w (history w p (ms.take n)) c.start root (play w p (ms.take n)) id operation
        (sendings w (history w p (ms.take n)) id) := by
  obtain ⟨raw, keys, request, parsed, planned⟩ := h.request
  obtain ⟨start, command, root, begun, stems', stands⟩ := (trailed.play (ms.take n)).table ho
  obtain ⟨rfl, rfl, of⟩ := root_of_request request stems begun stems'
  have plan : root.plan = c.plan := by
    obtain ⟨client', slot', plan, numbers⟩ := root
    have plans := plans_of_plan of.plan
    cases plans with
    | algebra parsed' planned' =>
        cases parsed.symm.trans parsed'
        cases planned.symm.trans planned'
        rw [Combination.plan, h.dest]
  have lt := stems'.lt_of_take
  have request' : (ms.take n)[c.start]? =
      some (.request root.client (.ok (.algebra c.op (some raw) keys))) := by
    rw [List.getElem?_take_of_lt lt, request]
  have taken : (ms.take n).take c.start = ms.take c.start := by
    rw [List.take_take, Nat.min_eq_left lt.le]
  have asked : (session w root.client (history w p (ms.take n))).asked[root.slot]? =
      some c.start := by
    obtain ⟨slot', start', -, asked, stems''⟩ := (sessions.play (ms.take n)).stems ho
    obtain ⟨q, content, came⟩ := asked_request asked
    obtain rfl := stems_unique stems' stems'' begun.asks ⟨q, _, content, came⟩
    rw [stands.client] at asked
    have slot := slot_of_asked sessions request' asked
    rw [taken, ← of.slot] at slot
    rwa [← slot]
  exact ⟨_, root,
    ⟨⟨(List.take_prefix n ms).trans h.run, request', taken.symm ▸ of, asked⟩, plan⟩, rfl, stems',
    stands⟩

theorem quiet_of_held (balanced : Balanced p [])
    (ho : (play w p (ms.take n)).operations.get? id = some operation)
    (target : operation.target = .client slot) (stems : Stems w (history w p ms) c.start id)
    (hk : (play w p (ms.take n)).operations.get? k = some other)
    (stems' : Stems w (history w p ms) c.start k) : k = id := by
  obtain ⟨command, root, listens, -, -, stands⟩ := listens_of_held h sessions trailed ho stems
  obtain ⟨command', root', listens', -, -, stands'⟩ :=
    listens_of_held h sessions trailed hk stems'
  obtain ⟨-, rfl⟩ := listens.planned.unique listens'.planned
  have balanced' := balanced.play trailed.tidy w (ms.take n)
  have contiguous := ((trailed.play (ms.take n)).tidy.contiguous root.client)
  rcases owner_of_stands balanced' ho stands with ⟨-, owns⟩ | ⟨group, index, other, -⟩
  · rcases owner_of_stands balanced' hk stands' with ⟨-, owns'⟩ | ⟨group, index, -, owns'⟩
    · cases owner_unique balanced' contiguous owns owns'
      rfl
    · cases owner_unique balanced' contiguous owns owns'
  · cases target.symm.trans other

include balanced empty

theorem computed_of_held
    (ho : (play w p (ms.take n)).operations.get? id = some operation)
    (stems : Stems w (history w p ms) c.start id) (target : operation.target = .client slot) :
    ∃ members, (operation.stage = .storeFetch dest members ∨
        operation.stage = .storeWrite (.store dest members)) ∧
      c.Computed w (history w p (ms.take n)) members := by
  obtain ⟨command, root, listens, -, stems', stands⟩ :=
    listens_of_held h sessions trailed ho stems
  obtain ⟨address, members, own, stage⟩ := stands.replaces listens.plan target
  cases h.dest.symm.trans own
  have fair := (kept_of_run listens sessions trailed balanced empty).table ho stems'
  simp only [Operation.Fair, target] at fair
  refine ⟨members, stage, fair.2 members ?_⟩
  rcases stage with stage | stage <;> rw [stage] <;> rfl

theorem computed_eq (le : m ≤ n) (len : n ≤ ms.length)
    (ho : (play w p (ms.take m)).operations.get? id = some operation)
    (hk : (play w p (ms.take n)).operations.get? id = some other)
    (stems : Stems w (history w p ms) c.start id) (target : operation.target = .client slot)
    (computed : c.Computed w (history w p (ms.take m)) members)
    (computed' : c.Computed w (history w p (ms.take n)) members') : members = members' := by
  obtain ⟨command, root, listens, -, -, -⟩ := listens_of_held h sessions trailed hk stems
  have kept := kept_of_run listens sessions trailed balanced empty
  have taken : ∀ {t}, t ≤ n → (ms.take n).take t = ms.take t := fun le => by
    rw [List.take_take, Nat.min_eq_left le]
  have length : (ms.take n).length = n := List.length_take_of_le len
  have same : c.Computed w (history w p (ms.take n)) members := by
    refine computed.of_same fun index time operation' news => ?_
    rw [← taken le]
    refine hears_of_quiet (by omega) ?_ time operation' news
    intro t ge lt j reader group hr source stems'
    rw [length] at lt
    rw [taken lt.le] at hr stems'
    have given : id < (play w p (ms.take t)).nextOperation :=
      Nat.lt_of_lt_of_le ((trailed.play (ms.take m)).tidy.operation_lt ho) (by
        obtain ⟨more, split⟩ : ms.take m <+: ms.take t := List.take_prefix_take_left ge
        rw [← split, play_append]
        exact nextOperation_le_play w _ more)
    obtain ⟨held, hh, -⟩ := held_before trailed.tidy lt.le hk given
    have answers := target_of_duty (duty_eq trailed.tidy ge ho hh).symm target
    obtain rfl := quiet_of_held h sessions trailed balanced hh answers stems hr
      stems'.of_take
    cases hh.symm.trans hr
    cases answers.symm.trans source
  obtain ⟨sets, all, rfl⟩ := same
  obtain ⟨sets', all', rfl⟩ := computed'
  rw [kept.sets_unique all all']

omit empty in
theorem answers_unique (hi : Answers w p ms c.start id) (hk : Answers w p ms c.start k) :
    id = k := by
  have stood : ∀ {id}, Answers w p ms c.start id → ∃ command root,
      Planned w (history w p ms) c.start command root ∧
        Stood w p ms c.start command root id none := by
    intro id hi
    obtain ⟨stems, n, operation, slot, le, ho, target⟩ := hi
    obtain ⟨command, root, listens, -, stems', stands⟩ :=
      listens_of_held h sessions trailed ho stems
    obtain ⟨place, at', -⟩ := stands.trail
    rw [target] at at'
    obtain ⟨rfl, -⟩ := at'
    have planned := listens.planned
    refine ⟨command, root, planned.of_take, n, operation, _, le, ho, planned, stems', stands, ?_⟩
    rw [target]
    exact ⟨rfl, rfl⟩
  obtain ⟨command, root, planned, stood'⟩ := stood hi
  obtain ⟨command', root', planned', stood''⟩ := stood hk
  obtain ⟨rfl, rfl⟩ := planned.unique planned'
  exact stood_unique trailed sessions balanced stood' stood''

omit balanced empty in
theorem source_of_sent (stems : Stems w (history w p ms) c.start id)
    (reads : ¬ Answers w p ms c.start id) : sendings w (history w p ms) id = [] ∨
    ∃ sending address, sendings w (history w p ms) id = [sending] ∧ address ∈ c.sources ∧
      Store.Request.setFetch p.settings address.key = .ok sending.request := by
  by_cases sent : sendings w (history w p ms) id = []
  · exact Or.inl sent
  · obtain ⟨n, operation, le, ho, last⟩ := waits_after_last trailed sent
    obtain ⟨command, root, listens, -, -, stands⟩ := listens_of_held h sessions trailed ho stems
    obtain ⟨place, at', trail⟩ := stands.trail
    cases target : operation.target with
    | client slot => exact absurd ⟨stems, n, operation, slot, le, ho, target⟩ reads
    | fragment group index =>
        rw [target] at at'
        obtain ⟨-, rfl⟩ := at'
        rw [listens.plan, Combination.plan, h.dest, settings_play, last] at trail
        generalize sendings w (history w p ms) id = all at trail sent ⊢
        generalize operation.stage = stage, operation.request = request at trail
        cases trail with
        | source => exact absurd rfl sent
        | @sourceRead _ _ _ _ time server address request part fetches =>
            exact Or.inr ⟨_, address, rfl, List.mem_of_getElem? part, fetches⟩

omit balanced empty in
theorem trail_of_answers (hi : Answers w p ms c.start id)
    (ho : (play w p (ms.take n)).operations.get? id = some operation) :
    Trail w (history w p (ms.take n)) p.settings c.start id (.combine c.op (some dest) c.sources)
      none operation.stage operation.request (sendings w (history w p (ms.take n)) id) := by
  obtain ⟨command, root, listens, -, -, stands⟩ := listens_of_held h sessions trailed ho hi.1
  obtain ⟨slot, target⟩ := hi.target trailed.tidy ho
  obtain ⟨place, at', trail⟩ := stands.trail
  rw [target] at at'
  obtain ⟨-, rfl⟩ := at'
  rwa [listens.plan, settings_play, Combination.plan, h.dest] at trail

theorem sent_of_answers (hi : Answers w p ms c.start id) : ∃ fetch rest members,
    sendings w (history w p ms) id = fetch :: rest ∧
    Store.Request.setFetch p.settings dest.key = .ok fetch.request ∧
    c.Computed w (history w p (ms.take (fetch.time + 1))) members ∧
    (rest = [] ∨ ∃ update answering current context, rest = [update] ∧
      Told (history w p ms) update.time id (.response answering (.set current context)) ∧
      Replaces p.settings dest.key current context members update.request ∧
      ¬ ∀ m, m ∈ members ↔ m ∈ current) := by
  have stems := hi.1
  have nonempty : sendings w (history w p ms) id ≠ [] := by
    obtain ⟨n, operation, slot, -, ho, -⟩ := hi.2
    have trail := trail_of_answers h sessions trailed hi ho
    obtain ⟨sending, hm⟩ : ∃ sending, sending ∈ sendings w (history w p (ms.take n)) id := by
      generalize sendings w (history w p (ms.take n)) id = all, operation.stage = stage,
        operation.request = request at trail
      cases trail with
      | dest | replace => exact ⟨_, List.mem_cons_self⟩
    exact List.ne_nil_of_mem (sending_of_take hm).1
  obtain ⟨n, operation, le, ho, last⟩ := waits_after_last trailed nonempty
  have computed : ∀ {sending}, sending ∈ sendings w (history w p ms) id → ∃ members,
      c.Computed w (history w p (ms.take (sending.time + 1))) members ∧ ∀ members',
        c.Computed w (history w p (ms.take n)) members' → members = members' := by
    intro sending hm
    obtain ⟨early, held⟩ := held_of_sending trailed hm
    obtain ⟨slot, target⟩ := hi.target trailed.tidy held
    obtain ⟨members, -, computed⟩ :=
      computed_of_held h sessions trailed balanced empty held stems target
    have lt := (sending_of_take (last.symm ▸ hm)).2
    exact ⟨members, computed, fun members' => computed_eq h sessions trailed balanced empty lt le
      held ho stems target computed⟩
  obtain ⟨slot, target⟩ := hi.target trailed.tidy ho
  obtain ⟨wanted, stage, computed'⟩ :=
    computed_of_held h sessions trailed balanced empty ho stems target
  have trail := trail_of_answers h sessions trailed hi ho
  rw [last] at trail
  generalize sendings w (history w p ms) id = all at trail computed
  generalize operation.stage = now, operation.request = request at trail stage
  cases trail with
  | dest le' fetches =>
      obtain ⟨members, known, -⟩ := computed List.mem_cons_self
      exact ⟨_, _, members, rfl, fetches, known, Or.inl rfl⟩
  | @replace _ _ _ members current sent server time other answering fetch request context le'
      fetches told replaces =>
      obtain ⟨members', known, only⟩ := computed List.mem_cons_self
      obtain rfl := only wanted computed'
      obtain rfl : members = members' := by
        rcases stage with stage | stage <;> cases stage
        rfl
      obtain ⟨later, split⟩ := history_take w p ms n
      refine ⟨_, _, members, rfl, fetches, known,
        Or.inr ⟨_, answering, current, context, rfl, split ▸ told.concat later, ?_⟩⟩
      rcases setReplace_cases fetches current context members with
        ⟨same, -⟩ | ⟨request', some, change⟩
      · cases same.symm.trans replaces
      · cases some.symm.trans replaces
        exact change

omit balanced empty in
theorem fetching_of_answers {fetch : Sending} (hi : Answers w p ms c.start id)
    (ho : (play w p (ms.take n)).operations.get? id = some operation)
    (stage : operation.stage = .storeFetch dest members ∨
      operation.stage = .storeWrite (.store dest members))
    (sent : sendings w (history w p (ms.take n)) id = [fetch]) :
    operation.stage = .storeFetch dest members ∧
      Store.Request.setFetch p.settings dest.key = .ok fetch.request := by
  have trail := trail_of_answers h sessions trailed hi ho
  rw [sent] at trail
  generalize operation.stage = now, operation.request = request at trail stage
  cases trail with
  | dest _ fetches =>
      rcases stage with stage | stage <;> cases stage
      exact ⟨rfl, fetches⟩

theorem changed_of_told {fetch : Sending} {time answering : Nat} {current : List Bytes}
    {context : Option Bytes} (hi : Answers w p ms c.start id)
    (told : Told (history w p ms) time id (.response answering (.set current context)))
    (sent : sendings w (history w p (ms.take time)) id = [fetch]) :
    ∃ members, c.Computed w (history w p (ms.take time)) members ∧
      ((∀ m, m ∈ members ↔ m ∈ current) → sendings w (history w p ms) id = [fetch]) ∧
      (¬ (∀ m, m ∈ members ↔ m ∈ current) → ∃ request,
        Replaces p.settings dest.key current context members request ∧
        ((∃ server, sendings w (history w p ms) id = [fetch, ⟨time, server, request⟩]) ∨
          sendings w (history w p ms) id = [fetch] ∧ ∃ why slot,
            Unsendable w (history w p ms) p.settings time dest.raw request why ∧
            (session w client (history w p (ms.take (time + 1)))).asked[slot]? = some c.start ∧
            (slot, some (Reply.failure why)) ∈ tape w (history w p (ms.take (time + 1)))
              (play w p (ms.take (time + 1))) client)) := by
  obtain ⟨q, move, operation, at', told, ho⟩ := told
  obtain ⟨made, rfl⟩ := getElem?_history.mp at'
  have stems := hi.1
  obtain ⟨slot, target⟩ := hi.target trailed.tidy ho
  obtain ⟨members, stage, computed⟩ :=
    computed_of_held h sessions trailed balanced empty ho stems target
  obtain ⟨stage, fetches⟩ := fetching_of_answers h sessions trailed hi ho stage sent
  rw [← settings_play w p (ms.take time)] at fetches
  have ended : ∀ {commands value}, Concludes w (play w p (ms.take time)) move dest.raw commands
      operation.client slot value → sendings w (history w p ms) id = [fetch] :=
    fun concludes => (sendings_of_concludes trailed made told ho concludes).trans sent
  refine ⟨members, computed, ?_⟩
  rcases fetched_cases (w := w) ho target told stage fetches with
    ⟨same, commands, value, concludes⟩ | ⟨differs, request, change, outcome⟩
  · exact ⟨fun _ => ended concludes, fun differs => absurd same differs⟩
  · refine ⟨fun same => absurd same differs, fun _ => ⟨request, ?_, ?_⟩⟩
    · rwa [settings_play] at change
    · rcases outcome with ⟨server, emits⟩ | ⟨why, unsendable, concludes⟩
      · left
        obtain ⟨first, rest, _, all, -, -, few⟩ :=
          sent_of_answers h sessions trailed balanced empty hi
        have front := sendings_take w p ms (time + 1) id
        rw [sendings_of_emits made emits, sent, all] at front
        rcases few with rfl | ⟨update, _, _, _, rfl, -⟩
        · exact absurd front.length_le (by simp)
        · exact ⟨server, all.trans (front.eq_of_length rfl).symm⟩
      · obtain ⟨command, root, listens, own, -, stands⟩ :=
          listens_of_held h sessions trailed ho stems
        obtain ⟨place, there, -⟩ := stands.trail
        rw [target] at there
        obtain ⟨rfl, -⟩ := there
        have given := given_of_concludes sessions balanced made told ho target concludes
        rw [stands.client, own] at given
        have asked : (session w client (history w p (ms.take (time + 1)))).asked[root.slot]? =
            some c.start := by
          rw [take_succ made, history_concat, ← own]
          exact asked_concat listens.asked (stays_of_told told _)
        refine Or.inr ⟨ended concludes, why, root.slot, ?_, asked, given⟩
        refine unsendable.imp (settings_play w p _ ▸ ·) (And.imp_right ?_)
        rintro ⟨look, between, picked⟩
        exact ⟨look, ⟨_, move, at', between⟩, picked⟩

theorem replied_of_given {value : Reply}
    (asked : (session w client (history w p ms)).asked[slot]? = some c.start)
    (given : (slot, some value) ∈ tape w (history w p ms) (play w p ms) client)
    (good : value.isError = false) : ∃ time move members sent replies,
      ms[time]? = some move ∧ c.Computed w (history w p (ms.take time)) members ∧
      members.Nodup ∧ value = Reply.count members.length ∧
      (slot, none) ∈ (play w p (ms.take time)).slots client ∧
      move.emits w (play w p (ms.take time)) = posts sent ++ replies ∧
      Posted w (Looked w (history w p ms) time)
        ((Cache.replaceSet dest.raw members ((play w p (ms.take time)).ttl dest)).map
          (dest.raw, ·)) sent ∧
      ∀ action ∈ replies, ∃ client slot value, action = .reply client slot value := by
  obtain ⟨raw, keys, request, -, -⟩ := h.request
  have writes : (Command.algebra c.op (some raw) keys).Writes := by
    simp [Command.Writes]
  rcases heeded_of_given sessions trailed asked request writes given with
    error | ⟨time, move, id, operation, server, response, made, told, ho, stems, acknowledged⟩
  · cases good.symm.trans error
  · have le := (List.getElem?_eq_some_iff.mp made).1.le
    obtain ⟨-, own, target⟩ := owes_of_acknowledgement sessions trailed asked request writes le ho
      stems acknowledged
    obtain ⟨members, stage, computed⟩ :=
      computed_of_held h sessions trailed balanced empty ho stems target
    obtain ⟨rfl, concludes⟩ := concludes_of_acknowledgement ho target told stage acknowledged
    obtain ⟨sent, replies, emits, posted, only⟩ := concludes.emits
    rw [notice_of_told told, List.nil_append] at emits
    refine ⟨time, move, members, sent, replies, made, computed, ?_, rfl, ?_, emits,
      posted.mono ?_, only⟩
    · obtain ⟨sets, -, rfl⟩ := computed
      exact Members.nodup_combine c.op sets
    · rw [← own]
      exact waits_of_target (balanced.play sessions.tidy w _) ho target
    · exact fun look between => ⟨_, move, getElem?_history.mpr ⟨made, rfl⟩, between⟩

end Stored

structure Replacing (w : World) (p : Proxy) (events : List Event) : Prop
    extends Unrolled w p events where
  refused : ∀ ms, ms <+: course w p events → ∀ client start op raw keys why,
    ms[start]? = some (.request client (.ok (.algebra op (some raw) keys))) →
    (keys.mapM Address.parse).bind (fun _ => planDest (some raw)) = .error why →
    ∀ id, ¬ Stems w (history w p ms) start id
  once : ∀ ms c client dest, Storing w p events ms c client dest → ∀ id k,
    Answers w p ms c.start id → Answers w p ms c.start k → id = k
  sources : ∀ ms c client dest, Storing w p events ms c client dest → ∀ id,
    Stems w (history w p ms) c.start id → ¬ Answers w p ms c.start id →
    sendings w (history w p ms) id = [] ∨ ∃ sending address,
      sendings w (history w p ms) id = [sending] ∧ address ∈ c.sources ∧
      Store.Request.setFetch p.settings address.key = .ok sending.request
  sent : ∀ ms c client dest, Storing w p events ms c client dest → ∀ id,
    Answers w p ms c.start id → ∃ fetch rest members,
      sendings w (history w p ms) id = fetch :: rest ∧
      Store.Request.setFetch p.settings dest.key = .ok fetch.request ∧
      c.Computed w (history w p (ms.take (fetch.time + 1))) members ∧
      (rest = [] ∨ ∃ update answering current context, rest = [update] ∧
        Told (history w p ms) update.time id (.response answering (.set current context)) ∧
        Replaces p.settings dest.key current context members update.request ∧
        ¬ ∀ m, m ∈ members ↔ m ∈ current)
  changed : ∀ ms c client dest, Storing w p events ms c client dest →
    ∀ id fetch time answering current context, Answers w p ms c.start id →
    Told (history w p ms) time id (.response answering (.set current context)) →
    sendings w (history w p (ms.take time)) id = [fetch] →
    ∃ members, c.Computed w (history w p (ms.take time)) members ∧
      ((∀ m, m ∈ members ↔ m ∈ current) → sendings w (history w p ms) id = [fetch]) ∧
      (¬ (∀ m, m ∈ members ↔ m ∈ current) → ∃ request,
        Replaces p.settings dest.key current context members request ∧
        ((∃ server, sendings w (history w p ms) id = [fetch, ⟨time, server, request⟩]) ∨
          sendings w (history w p ms) id = [fetch] ∧ ∃ why slot,
            Unsendable w (history w p ms) p.settings time dest.raw request why ∧
            (session w client (history w p (ms.take (time + 1)))).asked[slot]? = some c.start ∧
            (slot, some (Reply.failure why)) ∈ tape w (history w p (ms.take (time + 1)))
              (play w p (ms.take (time + 1))) client))
  replied : ∀ ms c client dest, Storing w p events ms c client dest → ∀ slot value,
    (session w client (history w p ms)).asked[slot]? = some c.start →
    (slot, some value) ∈ tape w (history w p ms) (play w p ms) client → value.isError = false →
    ∃ time move members sent replies,
      ms[time]? = some move ∧ c.Computed w (history w p (ms.take time)) members ∧
      members.Nodup ∧ value = Reply.count members.length ∧
      (slot, none) ∈ (play w p (ms.take time)).slots client ∧
      move.emits w (play w p (ms.take time)) = posts sent ++ replies ∧
      Posted w (Looked w (history w p ms) time)
        ((Cache.replaceSet dest.raw members ((play w p (ms.take time)).ttl dest)).map
          (dest.raw, ·)) sent ∧
      ∀ action ∈ replies, ∃ client slot value, action = .reply client slot value

theorem replacing_run (w : World) (settings : Settings) (policy : BucketPolicy)
    (events : List Event) : Replacing w (start settings policy) events where
  toUnrolled := unrolled_of_tidy w (Tidy.start settings policy) events
  refused := by
    intro ms _ client begin op raw keys why request refuses id
    have unplanned : ∀ q : Proxy, q.plan (.algebra op (some raw) keys) = .error why := by
      intro q
      cases read : keys.mapM Address.parse with
      | error why' =>
          rw [read] at refuses
          cases refuses
          simp only [plan, read]
          rfl
      | ok sources =>
          rw [read] at refuses
          change planDest (some raw) = .error why at refuses
          simp only [plan, read, refuses]
          rfl
    exact not_stems_of_refusal request (by simp) unplanned
  once _ _ _ _ h _ _ hi hk := answers_unique h (Sessions.start w settings policy)
    (Trailed.start w settings policy) (Balanced.start settings policy) hi hk
  sources _ _ _ _ h _ stems reads := source_of_sent h (Sessions.start w settings policy)
    (Trailed.start w settings policy) stems reads
  sent _ _ _ _ h _ hi := sent_of_answers h (Sessions.start w settings policy)
    (Trailed.start w settings policy) (Balanced.start settings policy) (fun _ => rfl) hi
  changed _ _ _ _ h _ _ _ _ _ _ hi told sent := changed_of_told h
    (Sessions.start w settings policy) (Trailed.start w settings policy)
    (Balanced.start settings policy) (fun _ => rfl) hi told sent
  replied _ _ _ _ h _ _ asked given good := replied_of_given h (Sessions.start w settings policy)
    (Trailed.start w settings policy) (Balanced.start settings policy) (fun _ => rfl) asked given
    good

theorem update_too_large :
    let w : World :=
      { pool := fun _ =>
          { pick := fun tier _ => if tier = .store then some 0 else none, live := fun _ => [0] }
        draw := fun _ => 0 }
    let dest : Address := ⟨ascii "b:d", ⟨none, ascii "b", ascii "d"⟩⟩
    let source : Address := ⟨ascii "b:x", ⟨none, ascii "b", ascii "x"⟩⟩
    let command : Command := .algebra .union (some (ascii "b:d")) [ascii "b:x"]
    let p : Proxy := start { maxFrameSize := 20 } {}
    let events : List Event :=
      [.command 7 command, .storeData 0 [0, 0, 0, 8, 81, 16, 2, 26, 3, 18, 1, 109],
        .storeData 0 [0, 0, 0, 1, 81]]
    let ms := course w p events
    let c : Combination := ⟨0, .union, some dest, [source]⟩
    Storing w p events ms c 7 dest ∧ Answers w p ms 0 2 ∧
      Told (history w p ms) 3 2 (.response 0 (.set [] none)) ∧
      c.Computed w (history w p (ms.take 3)) [ascii "m"] ∧
      (¬ ∀ m, m ∈ [ascii "m"] ↔ m ∈ ([] : List Bytes)) ∧
      ∃ fetch, sendings w (history w p ms) 2 = [fetch] := by
  intro w dest source command p events ms c
  have storing : Storing w p events ms c 7 dest :=
    ⟨List.prefix_rfl, ⟨ascii "b:d", [ascii "b:x"], rfl, rfl, rfl⟩, rfl⟩
  have held : ((play w p (ms.take 3)).operations.get? 2).map (fun o => (o.target, o.stage)) =
      some (.client 0, .storeFetch dest [ascii "m"]) := by decide +kernel
  obtain ⟨operation, ho, same⟩ := Option.map_eq_some_iff.mp held
  obtain ⟨target, stage⟩ := Prod.mk.inj same
  have arrived : Store.Frame.reader.stream
      (((play w p (ms.take 3)).storeLink 0).inbound.append [0, 0, 0, 1, 81]).bytes =
        ([⟨81, []⟩], .waiting []) := by
    decide +kernel
  have pending : ((play w p (ms.take 3)).storeLink 0).pending = [(2, .setFetch)] := by
    decide +kernel
  have decoded : Store.Response.decode 81 [] .setFetch = .ok (.set [] none) := by decide +kernel
  have made : ms[3]? = some (.storeAnswer 0 ⟨81, []⟩) := by
    have length : (course w p (events.take 2)).length = 3 := by decide +kernel
    have split : ms = course w p (events.take 2) ++
        course w (p.run w (events.take 2)) (events.drop 2) :=
      course_append w p (events.take 2) (events.drop 2)
    have state : play w p (ms.take 3) = p.run w (events.take 2) := by
      rw [split, List.take_left' length, play_course]
    rw [state] at arrived pending
    rw [split, List.getElem?_append_right length.le, length]
    simp only [events, List.drop, course, moves] at arrived pending ⊢
    simp only [arrived, storeMoves, pending]
    rfl
  have told : (Move.storeAnswer 0 ⟨81, []⟩).news? (play w p (ms.take 3)) =
      some (2, .response 0 (.set [] none)) := by
    simp only [Move.news?, pending, decoded]
  have numbers : ∀ time < 2, ((history w p ms)[time]?).map (fun made =>
      (made.2.subject? made.1, made.1.nextOperation, (made.2.apply w made.1).nextOperation)) =
        some (if time = 0 then none else some 1, time + 1, time + 2) := by
    decide +kernel
  have stems : Stems w (history w p ms) 0 2 := by
    obtain ⟨⟨q, move⟩, at', same⟩ := Option.map_eq_some_iff.mp (numbers 0 (by decide))
    obtain ⟨⟨q', move'⟩, at'', same'⟩ := Option.map_eq_some_iff.mp (numbers 1 (by decide))
    simp only [Prod.mk.injEq] at same same'
    exact .spawned at'' same'.1 (.begun at' same.2.1.le (by omega)) same'.2.1.le (by omega)
  have sent : sendings w (history w p ms) 2 =
      [⟨1, 0, ⟨dest.key, {}, .setFetch (ascii "sets")⟩⟩] := by
    decide +kernel
  obtain ⟨members, wanted, computed⟩ := computed_of_held storing (Sessions.start w _ _)
    (Trailed.start w _ _) (Balanced.start _ _) (fun _ => rfl) ho stems target
  obtain rfl : members = [ascii "m"] := by
    rw [stage] at wanted
    rcases wanted with wanted | wanted <;> cases wanted
    rfl
  exact ⟨storing, ⟨stems, 3, operation, 0, by decide +kernel, ho, target⟩,
    ⟨_, _, operation, getElem?_history.mpr ⟨made, rfl⟩, told, ho⟩, computed, by simp, _, sent⟩

end ReadThrough.Proxy
