import ReadThrough.Proofs.Erasure
import ReadThrough.Proofs.Reckoning

namespace ReadThrough.Proxy

structure Erases (w : World) (past : History) (p : Proxy) (c : Erasure) (client slot : Nat) :
    Prop where
  table : ∀ {id operation}, p.operations.get? id = some operation → Stems w past c.start id →
    operation.Unanswered w past c.start
  unfinished : ∀ {id g}, p.groups.table.get? id = some g → g.client = client →
    g.context.slot = slot → g.done < g.total
  toll : ∀ {id g}, p.groups.table.get? id = some g → g.client = client → g.context.slot = slot →
    ∃ due, c.Due w past due ∧ Toll c.stored.length due 0 g

section Erases

variable {w : World} {past : History} {p q : Proxy} {c : Erasure} {client slot : Nat} {move : Move}

theorem Erases.aside (h : Erases w past p c client slot)
    (aside : Aside w past p move client slot c.start) :
    Erases w (past ++ [(p, move)]) (move.apply w p) c client slot := by
  have same : ∀ index time operation news,
      Hears w (past ++ [(p, move)]) c.start index time operation news ↔
        Hears w past c.start index time operation news :=
    fun index time operation news => hears_of_other fun _ _ _ _ told ho _ => aside.deaf told ho
  refine ⟨?_, ?_, ?_⟩
  · intro id operation ho stems group index target time other news heard
    obtain ⟨before, stems⟩ := aside.operations ho stems
    exact h.table before stems group index target time other news ((same _ _ _ _).mp heard)
  · intro id g hg own there
    exact h.unfinished (aside.groups hg own there).1 own there
  · intro id g hg own there
    obtain ⟨due, counts, toll⟩ := h.toll (aside.groups hg own there).1 own there
    exact ⟨due, counts.congr fun j => by simp only [Acked, same], toll⟩

theorem erases_of_erasing {group due : Nat} (last : Erasing w past c group due p q [])
    (counts : c.Due w past due)
    (old : ∀ {id operation}, p.operations.get? id = some operation → Stems w past c.start id →
      operation.Unanswered w past c.start)
    (sole : ∀ {id g}, q.groups.table.get? id = some g → g.client = client →
      g.context.slot = slot → id = group) : Erases w past q c client slot where
  table ho stems := (last.table ho).elim (fun before => old before stems) id
  unfinished hg own there := by
    obtain rfl := sole hg own there
    refine last.unfinished hg (Nat.pos_of_ne_zero fun none => ?_)
    cases last.polled hg none
  toll hg own there := by
    obtain rfl := sole hg own there
    exact ⟨due, counts, last.toll hg⟩

end Erases

section Stands

variable {w : World} {past : History} {p : Proxy} {c : Erasure} {settings : Settings} {root : Root}
  {id : Nat} {operation : Operation} {sent : List Sending}

theorem Trail.of_delete {time : Nat} {cacheOnly : List Address}
    {stored : List (Address × Store.Request)} {place : Option Nat} {stage : Stage}
    {request : Option Store.Request}
    (h : Trail w past settings time id (.delete cacheOnly stored) place stage request sent) :
    ∃ index address asked, place = some index ∧ stored[index]? = some (address, asked) ∧
      stage = .storeWrite (.delete address) ∧ request = some asked := by
  cases h with
  | delete part picked => exact ⟨_, _, _, rfl, part, rfl, rfl⟩

theorem Stands.deletes (h : Stands w past c.start root p id operation sent)
    (plan : root.plan = c.plan settings) : ∃ group index address,
      operation.target = .fragment group index ∧ c.stored[index]? = some address ∧
      operation.stage = .storeWrite (.delete address) ∧ operation.request =
        some { key := address.key, quorum := settings.quorum, body := .delete } := by
  obtain ⟨place, at', trail⟩ := h.trail
  rw [plan, Erasure.plan] at trail
  obtain ⟨index, address, asked, rfl, part, stage, request⟩ := trail.of_delete
  rw [Erasure.requests, List.getElem?_map, Option.map_eq_some_iff] at part
  obtain ⟨address', part, same⟩ := part
  cases same
  cases target : operation.target with
  | client slot =>
      rw [target] at at'
      cases at'.2
  | fragment group index' =>
      rw [target] at at'
      cases at'.2
      exact ⟨group, index, address, rfl, part, stage, request⟩

end Stands

section News

variable {w : World} {past : History} {p : Proxy} {move : Move} {start id group index : Nat}
  {operation : Operation} {news : News} (told : move.news? p = some (id, news))
  (ho : p.operations.get? id = some operation) (target : operation.target = .fragment group index)
  (stems : Stems w past start id)

include told ho target stems

theorem acked_concat (j : Nat) : Acked w (past ++ [(p, move)]) start j ↔
    Acked w past start j ∨ j = index ∧ ∃ server, news = .response server .deleteAck := by
  constructor
  · rintro ⟨time, other, server, heard⟩
    rcases hears_concat.mp heard with before | ⟨-, k, group', told', hk, target', -⟩
    · exact Or.inl ⟨time, other, server, before⟩
    · cases told.symm.trans told'
      cases ho.symm.trans hk
      cases target.symm.trans target'
      exact Or.inr ⟨rfl, server, rfl⟩
  · rintro (⟨time, other, server, heard⟩ | ⟨rfl, server, rfl⟩)
    · exact ⟨time, other, server, hears_concat.mpr (Or.inl heard)⟩
    · exact ⟨past.length, operation, server,
        hears_concat.mpr (Or.inr ⟨rfl, id, group, told, ho, target, stems⟩)⟩

theorem due_of_told {c : Erasure} (start' : c.start = start) {due : Nat} {address : Address}
    (counts : c.Due w past due) (part : c.stored[index]? = some address)
    (unanswered : operation.Unanswered w past start) :
    c.Due w (past ++ [(p, move)])
      (due + [Task.news id operation news].countP (Task.pays group)) := by
  subst start'
  have fresh : ¬ Acked w past c.start index := by
    rintro ⟨time, other, server, heard⟩
    exact unanswered group index target time other _ heard
  have acked := acked_concat told ho target stems
  by_cases ack : ∃ server, news = .response server .deleteAck
  · have paid : [Task.news id operation news].countP (Task.pays group) = 1 := by
      obtain ⟨server, rfl⟩ := ack
      simp [Task.pays, target, part?_fragment]
    rw [paid]
    refine counts.succ (List.getElem?_eq_some_iff.mp part).1 fresh fun j => ?_
    rw [acked, or_comm, and_iff_left ack]
  · have unpaid : [Task.news id operation news].countP (Task.pays group) = 0 := by
      rw [List.countP_singleton, if_neg]
      intro pays
      refine ack ?_
      cases news with
      | response server response =>
          cases response with
          | deleteAck => exact ⟨server, rfl⟩
          | _ => cases pays
      | _ => cases pays
    rw [unpaid, Nat.add_zero]
    exact counts.congr fun j => (acked j).trans (or_iff_left fun h => ack h.2)

end News

section Part

variable {w : World} {past : History} {p : Proxy} {move : Move} {c : Erasure} {root : Root}
  {id group index : Nat} {operation : Operation} {news : News} {address : Address}
  (h : Erases w past p c root.client root.slot) (balanced : Balanced p [])
  (told : move.news? p = some (id, news)) (ho : p.operations.get? id = some operation)

include h balanced told ho

theorem Erases.erasing (stems : Stems w past c.start id)
    (target : operation.target = .fragment group index) (part : c.stored[index]? = some address)
    (stage : operation.stage = .storeWrite (.delete address))
    (owns : (Owner.group group).Owns p root.client root.slot) :
    ∃ due, c.Due w (past ++ [(p, move)]) due ∧
      Erasing w (past ++ [(p, move)]) c group due (move.ready p) (move.ready p)
        [.news id operation news] := by
  have groups := groups_ready told
  obtain ⟨g, hg, own, there⟩ := owns
  have same : ∀ {g'}, p.groups.table.get? group = some g' → g' = g := fun hg' =>
    Option.some.inj (hg'.symm.trans hg)
  obtain ⟨due, counts, toll⟩ := h.toll hg own there
  refine ⟨_, due_of_told told ho target stems rfl counts part (h.table ho stems),
    lacks_of_part balanced ho (by rw [target, part?_fragment]) (operations_ready told ho) groups
      (fun hg' => same hg' ▸ toll.total)
      (fun hg' _ => h.unfinished hg' (same hg' ▸ own) (same hg' ▸ there)),
    List.forall_mem_singleton.mpr ⟨⟨index, target⟩, address, stage⟩, Or.inl, ?_, ?_⟩
  · intro g' hg'
    obtain rfl := same (groups ▸ hg')
    obtain ⟨counted, gathered, rfl⟩ := toll.sum
    exact ⟨toll.context, toll.total, counted, gathered, rfl⟩
  · intro _ _ none
    have lt := (List.getElem?_eq_some_iff.mp part).1
    omega

theorem Erases.unanswered_of_told {k : Nat} {other : Operation}
    (contiguous : (p.client root.client).replies.Contiguous)
    (hk : p.operations.get? k = some other) (stems : Stems w past c.start k) (ne : id ≠ k)
    (stands : Stands w past c.start root p id operation (sendings w past id))
    (stands' : Stands w past c.start root p k other (sendings w past k)) :
    other.Unanswered w (past ++ [(p, move)]) c.start := by
  obtain ⟨_, _, index', target', own', apart⟩ :=
    parts_apart balanced contiguous ho hk stands stands' ne
  intro group' index'' target time heard news' hears
  cases own'.symm.trans target
  refine h.table hk stems _ _ own' time heard news' ((hears_of_told told ho ?_ _ _ _).mp hears)
  intro group'' here
  cases target'.symm.trans here
  exact apart rfl

end Part

section Run

variable {w : World} {p : Proxy} {ms : List Move} {move : Move} {c : Erasure} {settings : Settings}
  {command : Command} {root : Root} {id : Nat} {operation : Operation} {news : News}
  (sessions : Sessions w [] p) (trailed : Trailed w [] p) (balanced : Balanced p [])
  (plan : root.plan = c.plan settings)
  (asked : (session w root.client (history w p (ms ++ [move]))).asked[root.slot]? = some c.start)

include sessions trailed balanced plan asked

theorem Erases.told (h : Erases w (history w p ms) (play w p ms) c root.client root.slot)
    (planned : Planned w (history w p ms) c.start command root)
    (told : move.news? (play w p ms) = some (id, news))
    (ho : (play w p ms).operations.get? id = some operation)
    (stems : Stems w (history w p ms) c.start id) :
    Erases w (history w p (ms ++ [move])) (play w p (ms ++ [move])) c root.client root.slot ∧
      Allows w p ms move (c.Result w) := by
  have tidy := trailed.tidy.play w ms
  have balanced' := balanced.play trailed.tidy w ms
  have contiguous := tidy.contiguous root.client
  have stands := stands_of_stems trailed planned ho stems
  have tasks := tasks_of_told told ho
  obtain ⟨group, index, address, target, part, stage, -⟩ := stands.deletes plan
  have owns : (Owner.group group).Owns (play w p ms) root.client root.slot := by
    rcases owner_of_stands balanced' ho stands with ⟨target', -⟩ | ⟨group', _, target', owns⟩
    · cases target.symm.trans target'
    · cases target.symm.trans target'
      exact owns
  obtain ⟨due, counts, begins⟩ := h.erasing balanced' told ho stems target part stage owns
  rw [← tasks] at begins
  obtain ⟨last, gives⟩ := begins.steps (steps_apply w _ move)
    ((trailed.play ms).underway_news told ho tasks stands)
    (fun k le => Or.inr ((nextOperation_le_ready _ move).trans le)) (frame_ready _ move)
    stems.start_lt.le (Frame.refl _)
  rw [← history_concat] at counts last
  rw [play_concat]
  refine ⟨erases_of_erasing last counts ?_ ?_, ?_⟩
  · intro k other hk stems'
    obtain ⟨hk, before, ne⟩ := other_of_told (sessions.play ms) asked told hk stems'
    rw [history_concat]
    exact h.unanswered_of_told balanced' told ho contiguous hk before ne stands
      (stands_of_stems trailed planned hk before)
  · intro k g hg own there
    have owns' := old_group trailed hg own there (last.next.trans (by rw [groups_ready told]))
    cases owner_unique balanced' contiguous owns owns'
    rfl
  · exact gives.imp fun value same => ⟨_, counts, same⟩

theorem erases_request (of : root.Of w (play w p ms) command) (start : c.start = ms.length)
    (asks : move = .request root.client (.ok command)) :
    Erases w (history w p (ms ++ [move])) (play w p (ms ++ [move])) c root.client root.slot ∧
      Allows w p ms move (c.Result w) := by
  have tidy := trailed.tidy.play w ms
  have balanced' := balanced.play trailed.tidy w ms
  have now : (history w p ms).length = c.start := by rw [length_history, start]
  have tasks : move.tasks (play w p ms) =
      c.cacheOnly.map (fun address => .copy address.raw (Cache.invalidate address.raw)) ++
        [.delete root.client root.slot c.cacheOnly.length (c.requests settings)] := by
    simp only [asks, Move.tasks, of.plan, of.slot, plan, Erasure.plan, Plan.tasks]
  have underway := (trailed.play ms).underway_request asks of
    (by rw [tasks, plan]; rfl)
  have unheard : ∀ index time operation news,
      ¬ Hears w (history w p (ms ++ [move])) c.start index time operation news := by
    intro index time operation news heard
    have lt := heard.lt
    have after := heard.after
    rw [length_history, List.length_append, List.length_singleton] at lt
    omega
  have run := steps_apply w (play w p ms) move
  rw [tasks] at run
  obtain ⟨r, early, run, operations, groups, mute⟩ := steps_quiet run (by
    intro task hm
    obtain ⟨address, -, rfl⟩ := List.mem_map.mp hm
    trivial)
  obtain ⟨s, s', more, still, does, later⟩ := steps_cons run
  have readied : s.groups = (play w p ms).groups := by
    rw [still.groups, groups, groups_ready_of_asks asks]
  have operations' : s.operations = (play w p ms).operations := by
    rw [still.operations, operations, operations_ready_of_asks asks]
  have free : s.partsUnderWay s.groups.next = [] := by
    rw [partsUnderWay, operations', readied]
    exact partsUnderWay_next tidy balanced'
  cases does with
  | delete =>
      have ends := Frame.steps later
      obtain ⟨added, opened⟩ := Underway.steps
        (early.trans (.head (.still still) (.head (.task .delete) .refl))) (tasks ▸ underway)
        (fun id le => (nextOperation_le_ready _ move).trans le) (frame_ready _ move) le_rfl
        (by rwa [List.append_nil] at ends)
      rw [List.append_nil, now] at opened
      rw [List.append_nil] at later
      have begins := erasing_openGroup settings root.client root.slot free unheard rfl
      rw [history_concat] at begins
      obtain ⟨last, gives⟩ := Erasing.steps later opened
        (fun id le => (nextOperation_le_ready _ move).trans le) (frame_ready _ move) now.ge (Frame.refl _)
        begins
      rw [← history_concat] at last
      have counts : c.Due w (history w p (ms ++ [move])) c.cacheOnly.length := by
        refine Erasure.due_of_quiet ?_
        rintro index ⟨time, operation, server, heard⟩
        exact unheard index time operation _ heard
      rw [play_concat]
      refine ⟨erases_of_erasing last counts ?_ ?_, ?_⟩
      · exact fun old stems =>
          absurd stems (not_stems_of_now (sessions.play ms) asked start (operations' ▸ old))
      · intro id g hg own there
        rw [readied]
        refine new_group trailed hg own there sessions balanced of.slot (last.next.trans ?_)
        rw [← readied]
        rfl
      · have told := gives.imp fun value same => (⟨_, counts, same⟩ : c.Result w _ value)
        exact .trans (.of_mute mute) (.trans (.of_mute (.of_alike still.toAlike))
          (.trans (.of_mute (.of_outbox rfl rfl)) told))

end Run

section Course

variable {w : World} {p : Proxy} {events : List Event} {ms : List Move} {settings : Settings}
  {command : Command} {root : Root}

theorem Erasure.accounts (c : Erasure) (sessions : Sessions w [] p) (trailed : Trailed w [] p)
    (balanced : Balanced p []) (plan : root.plan = c.plan settings) :
    Accounts w p events c.start command root
      (fun past q => Erases w past q c root.client root.slot) (c.Result w) where
  begins front here start := by
    have made := here.made
    rw [← start, List.take_left] at made
    exact erases_request sessions trailed balanced plan here.asked made start.symm rfl
  aside := Erases.aside
  told here kept told ho stems := by
    have gt := stems.start_lt
    rw [length_history] at gt
    have before := here.of_prefix (List.prefix_append _ _) gt
    exact kept.told sessions trailed balanced plan here.asked before.planned told ho stems

theorem plan_del (q : Proxy) {keys : List Bytes} {addresses : List Address}
    (parsed : keys.mapM Address.parse = .ok addresses) (start : Nat) :
    q.plan (.del keys) = .ok (Erasure.plan
      ⟨start, addresses.filter (!·.hasBucket), addresses.filter (·.hasBucket)⟩ q.settings) := by
  have mapped := mapM_delete q.settings (addresses.filter (·.hasBucket))
    fun a hm => (List.mem_filter.mp hm).2
  simp only [plan, planDelete, Store.Deletion.ofKeys, parsed]
  exact congrArg (Except.bind · fun stored =>
    .ok (Plan.delete (addresses.filter (!·.hasBucket)) stored)) mapped

end Course

theorem decode_delete_iff {code : UInt8} {payload : Bytes} :
    Store.Response.decode code payload .delete = .ok .deleteAck ↔
      code = Store.Code.delResp.byte ∨ code = 0 ∧ payload = [] := by
  have of : ∀ {received}, Store.Code.ofByte? code = some received → received.byte = code :=
    Store.Code.byte_of_ofByte?
  constructor
  · intro acknowledged
    unfold Store.Response.decode at acknowledged
    split at acknowledged
    · cases acknowledged
    · next received known =>
        rw [← of known]
        split at acknowledged
        · next bare =>
            subst bare
            split at acknowledged
            · next empty =>
                exact Or.inr ⟨rfl, List.isEmpty_iff.mp (Bool.and_eq_true_iff.mp empty).1⟩
            · obtain ⟨_, -, other⟩ := map_eq_ok acknowledged
              cases other
        · split at acknowledged
          · cases acknowledged
          · next awaited => exact Or.inl (congrArg _ (Decidable.not_not.mp awaited))
  · rintro (rfl | ⟨rfl, rfl⟩)
    · simp only [Store.Response.decode, Store.Code.ofByte?_byte]
      rfl
    · rfl

structure Erased (w : World) (p : Proxy) (events : List Event) : Prop
    extends Unrolled w p events where
  once : ∀ ms, ms <+: course w p events → ∀ client,
    (tape w (history w p ms) (play w p ms) client).map Prod.fst =
      List.range (session w client (history w p ms)).asked.length
  refused : ∀ ms, ms <+: course w p events → ∀ (client slot start : Nat) keys why,
    (session w client (history w p ms)).asked[slot]? = some start →
    ms[start]? = some (.request client (.ok (.del keys))) →
    keys.mapM Address.parse = .error why →
    (∀ value, (slot, some value) ∈ tape w (history w p ms) (play w p ms) client ↔
      value = Reply.failure why) ∧
    ∀ time move, ms[time]? = some move → Works w (history w p ms) start time →
      ∀ action ∈ move.emits w (play w p (ms.take time)),
        ∃ client slot value, action = .reply client slot value
  asks : ∀ ms, ms <+: course w p events → ∀ (client slot start : Nat) keys addresses,
    (session w client (history w p ms)).asked[slot]? = some start →
    ms[start]? = some (.request client (.ok (.del keys))) →
    keys.mapM Address.parse = .ok addresses →
    ∀ id operation, (play w p ms).operations.get? id = some operation →
      Stems w (history w p ms) start id → ∃ group index address,
        operation.target = .fragment group index ∧
        (addresses.filter (·.hasBucket))[index]? = some address ∧
        operation.request = some ⟨address.key, p.settings.quorum, .delete⟩
  answered : ∀ ms, ms <+: course w p events → ∀ (client slot start : Nat) keys addresses value,
    (session w client (history w p ms)).asked[slot]? = some start →
    ms[start]? = some (.request client (.ok (.del keys))) →
    keys.mapM Address.parse = .ok addresses →
    ((slot, some value) ∈ tape w (history w p ms) (play w p ms) client ↔
      Idle w p ms start ∧ Erasure.Result w (history w p ms)
        ⟨start, addresses.filter (!·.hasBucket), addresses.filter (·.hasBucket)⟩ value)
  acknowledges : ∀ code payload,
    Store.Response.decode code payload .delete = .ok .deleteAck ↔
      code = Store.Code.delResp.byte ∨ code = 0 ∧ payload = []

theorem erased_run (w : World) (settings : Settings) (policy : BucketPolicy)
    (events : List Event) : Erased w (start settings policy) events where
  toUnrolled := unrolled_of_tidy w (Tidy.start settings policy) events
  once ms _ client := ((Sessions.start w settings policy).play ms).keys client
  acknowledges _ _ := decode_delete_iff
  refused := by
    intro ms run client slot start keys why asked request unread
    have sessions := Sessions.start w settings policy
    have trailed := Trailed.start w settings policy
    have refuses : ∀ q : Proxy, q.plan (.del keys) = .error why := by
      intro q
      simp only [plan, planDelete, Store.Deletion.ofKeys, unread]
      rfl
    refine ⟨fun value => ⟨refusal_of_given sessions request asked refuses trailed, ?_⟩,
      fun time move made works => emits_of_refusal request refuses trailed made works⟩
    rintro rfl
    exact given_of_refusal sessions request asked refuses
  asks := by
    intro ms run client slot start keys addresses asked request parsed id operation ho stems
    have sessions := Sessions.start w settings policy
    have trailed := Trailed.start w settings policy
    have planned := plan_del (play w (Proxy.start settings policy) (ms.take start)) parsed start
    rw [settings_play] at planned
    obtain ⟨numbers, here⟩ := attended_of_plan sessions request asked run planned
    have stands := stands_of_stems trailed here.planned ho stems
    obtain ⟨group, index, address, target, part, -, request⟩ :=
      Stands.deletes (c := ⟨start, _, _⟩) stands rfl
    exact ⟨group, index, address, target, part, request⟩
  answered := by
    intro ms run client slot start keys addresses value asked request parsed
    have sessions := Sessions.start w settings policy
    have trailed := Trailed.start w settings policy
    have balanced := Balanced.start settings policy
    have planned := plan_del (play w (Proxy.start settings policy) (ms.take start)) parsed start
    rw [settings_play] at planned
    obtain ⟨numbers, here⟩ := attended_of_plan sessions request asked run planned
    let c : Erasure := ⟨start, addresses.filter (!·.hasBucket), addresses.filter (·.hasBucket)⟩
    let root : Root := ⟨client, slot, c.plan (Proxy.start settings policy).settings, numbers⟩
    have accounts : Accounts w (Proxy.start settings policy) events start (.del keys) root _ _ :=
      c.accounts sessions trailed balanced rfl
    have kept := accounts.kept here sessions
    have result : ∀ {value}, (slot, some value) ∈ tape w (history w (Proxy.start settings policy) ms)
        (play w (Proxy.start settings policy) ms) client → c.Result w _ value := fun given =>
      accounts.allowed_of_given here sessions trailed balanced
        (fun result same => Erasure.Result.of_same same result) given
    constructor
    · intro given
      exact ⟨here.idle_of_given sessions trailed balanced given, result given⟩
    · rintro ⟨idle, due, counts, rfl⟩
      obtain ⟨value', given⟩ := here.given_of_idle sessions trailed balanced
        (fun _ _ hg own there => kept.unfinished hg own there) idle
      obtain ⟨due', counts', rfl⟩ := result given
      rw [counts.unique counts']
      exact given

end ReadThrough.Proxy
