import ReadThrough.Proofs.Ledger
import ReadThrough.Proofs.Reckoning

namespace ReadThrough.Proxy

structure Kept (w : World) (past : History) (p : Proxy) (c : Combination) (client slot : Nat) :
    Prop where
  single : ∀ {index address set set'}, Counts w past c.start index address set →
    Counts w past c.start index address set' → set = set'
  table : ∀ {id operation}, p.operations.get? id = some operation → Stems w past c.start id →
    operation.Fair w past c
  unfinished : ∀ {id g}, p.groups.table.get? id = some g → g.client = client →
    g.context.slot = slot → 0 < c.sources.length → g.done < g.total
  tally : ∀ {id g}, p.groups.table.get? id = some g → g.client = client → g.context.slot = slot →
    ∃ slots, Tally w past c (p.partsUnderWay id) g slots

theorem Kept.aside {w : World} {past : History} {p : Proxy} {c : Combination} {client slot : Nat}
    {move : Move} (h : Kept w past p c client slot)
    (aside : Aside w past p move client slot c.start) :
    Kept w (past ++ [(p, move)]) (move.apply w p) c client slot := by
  have same : ∀ index time operation news,
      Hears w (past ++ [(p, move)]) c.start index time operation news ↔
        Hears w past c.start index time operation news :=
    fun index time operation news => hears_of_other fun _ _ _ _ told ho _ => aside.deaf told ho
  refine ⟨?_, ?_, ?_, ?_⟩
  · intro index address set set' counts counts'
    exact h.single ((counts_congr (same index)).mp counts) ((counts_congr (same index)).mp counts')
  · intro id operation ho stems
    obtain ⟨before, stems⟩ := aside.operations ho stems
    exact (h.table before stems).of_same same
  · intro id g hg own there
    exact h.unfinished (aside.groups hg own there).1 own there
  · intro id g hg own there
    obtain ⟨before, still⟩ := aside.groups hg own there
    obtain ⟨slots, tally⟩ := h.tally before own there
    exact ⟨slots, (tally.of_same same).forward fun hm _ _ => still _ hm⟩

theorem kept_of_ledger {w : World} {past : History} {p q : Proxy} {c : Combination}
    {client slot group : Nat} (last : Ledger w past c group p q [])
    (single : ∀ {index address set set'}, Counts w past c.start index address set →
      Counts w past c.start index address set' → set = set')
    (old : ∀ {id operation}, p.operations.get? id = some operation → Stems w past c.start id →
      operation.Fair w past c)
    (sole : ∀ {id g}, q.groups.table.get? id = some g → g.client = client →
      g.context.slot = slot → id = group) : Kept w past q c client slot where
  single := single
  table ho stems := (last.table ho).elim (fun before => old before stems) id
  unfinished hg own there := by
    obtain rfl := sole hg own there
    exact last.unfinished hg
  tally hg own there := by
    obtain rfl := sole hg own there
    obtain ⟨slots, tally⟩ := last.tally hg
    exact ⟨slots, by simpa only [pending, List.filterMap_nil, List.nil_append] using tally⟩

section News

variable {w : World} {past : History} {p : Proxy} {move : Move} {c : Combination} {root : Root}
  {id index group start : Nat} {operation : Operation} {news : News}

theorem only_of_told (unheard : Unheard w past start index)
    (told : move.news? p = some (id, news)) (ho : p.operations.get? id = some operation) :
    Only w (past ++ [(p, move)]) start index operation news := by
  intro time other heard hears
  rcases hears_concat.mp hears with before | ⟨-, k, group, told', hk, -⟩
  · exact Or.inl (unheard time other heard before)
  · cases told.symm.trans told'
    cases ho.symm.trans hk
    exact Or.inr ⟨rfl, rfl⟩

theorem ledger_of_whole {slot : Nat} (fair : operation.Fair w past c)
    (told : move.news? p = some (id, news)) (ho : p.operations.get? id = some operation)
    (target : operation.target = .client slot) (none : p.groups.table.get? group = none) :
    Ledger w (past ++ [(p, move)]) c group (move.ready p) (move.ready p)
      [.news id operation news] := by
  have unused : ∀ {g}, (move.ready p).groups.table.get? group ≠ some g := by
    rw [groups_ready told, none]
    exact nofun
  refine ⟨⟨rfl, fun hg => absurd hg unused, fun hg => absurd hg unused⟩,
    List.forall_mem_singleton.mpr ?_, Or.inl, fun hg => absurd hg unused⟩
  simp only [Task.Fair, target]
  refine fair.of_same fun index => hears_of_told told ho fun group other => ?_
  cases target.symm.trans other

variable (h : Kept w past p c root.client root.slot) (balanced : Balanced p [])
  (told : move.news? p = some (id, news)) (ho : p.operations.get? id = some operation)
  (stems : Stems w past c.start id)

include h balanced told ho stems

theorem Kept.ledger_of_part
    (stands : Stands w past c.start root p id operation (sendings w past id))
    (target : operation.target = .fragment group index)
    (owns : (Owner.group group).Owns p root.client root.slot)
    (cached : news = .missed ∨ (∃ value, news = .value value) ∨ sendings w past id ≠ []) :
    Ledger w (past ++ [(p, move)]) c group (move.ready p) (move.ready p)
      [.news id operation news] := by
  have groups := groups_ready told
  obtain ⟨g, hg, own, there⟩ := owns
  obtain ⟨slots, tally⟩ := h.tally hg own there
  have erased := partsUnderWay_erase (operations_ready told ho) ho group
  rw [target, part?_fragment, Option.toList_some, List.singleton_append] at erased
  have free : slots[index]? = some none := by
    obtain ⟨g', hg', -, awaits⟩ := balanced.awaited_of_target ho target
    cases hg.symm.trans hg'
    simp only [Fragment.Group.Awaits, tally.gathered] at awaits
    exact awaits.2
  have unheard : Unheard w past c.start index := by
    simpa only [Operation.Fair, target] using h.table ho stems
  have same : ∀ {g'}, p.groups.table.get? group = some g' → g' = g := fun hg' =>
    Option.some.inj (hg'.symm.trans hg)
  refine ⟨lacks_of_part balanced ho (by rw [target, part?_fragment]) (operations_ready told ho)
    groups (fun hg' => same hg' ▸ tally.total) (fun hg' => h.unfinished hg' (same hg' ▸ own)
      (same hg' ▸ there)), List.forall_mem_singleton.mpr ?_, Or.inl, ?_⟩
  · refine fair_news target (only_of_told unheard told ho) ?_ ?_
    · intro members _
      exact ⟨past.length, hears_concat.mpr (Or.inr ⟨rfl, id, group, told, ho, target, stems⟩)⟩
    · intro read stage
      rcases cached with missed | value | sent
      · exact Or.inl missed
      · exact Or.inr value
      · obtain ⟨place, -, trail⟩ := stands.trail
        rw [stage] at trail
        exact absurd trail.of_cacheRead sent
  · intro g' hg'
    obtain rfl := same (groups ▸ hg')
    refine ⟨slots, tally.told free ?_ ?_ ?_⟩
    · exact List.mem_append_left _ (by simp [part?_news target])
    · intro j ne time other heard
      refine hears_of_told told ho (fun group' other => ne ?_) time _ _
      cases target.symm.trans other
      rfl
    · intro j hm
      exact (List.mem_cons.mp (erased.mem_iff.mp hm)).imp_right (List.mem_append_right _)

theorem Kept.ledger (tidy : Tidy p [])
    (stands : Stands w past c.start root p id operation (sendings w past id))
    (cached : news = .missed ∨ (∃ value, news = .value value) ∨ sendings w past id ≠ []) :
    ∃ group, Ledger w (past ++ [(p, move)]) c group (move.ready p) (move.ready p)
        [.news id operation news] ∧
      ∀ {k g}, p.groups.table.get? k = some g → g.client = root.client →
        g.context.slot = root.slot → k = group := by
  have contiguous := tidy.contiguous root.client
  rcases owner_of_stands balanced ho stands with ⟨target, owns⟩ | ⟨group, index, target, owns⟩
  · refine ⟨p.groups.next, ledger_of_whole (h.table ho stems) told ho target tidy.group_fresh, ?_⟩
    intro k g hg own there
    have owns' : (Owner.group k).Owns p root.client root.slot := ⟨g, hg, own, there⟩
    cases owner_unique balanced contiguous owns owns'
  · refine ⟨group, h.ledger_of_part balanced told ho stems stands target owns cached, ?_⟩
    intro k g hg own there
    have owns' : (Owner.group k).Owns p root.client root.slot := ⟨g, hg, own, there⟩
    cases owner_unique balanced contiguous owns owns'
    rfl

omit balanced in
theorem Kept.single_of_told {address : Address} {set set' : List Bytes}
    (counts : Counts w (past ++ [(p, move)]) c.start index address set)
    (counts' : Counts w (past ++ [(p, move)]) c.start index address set') : set = set' := by
  by_cases here : ∃ group, operation.target = .fragment group index
  · obtain ⟨group, target⟩ := here
    have unheard : Unheard w past c.start index := by
      simpa only [Operation.Fair, target] using h.table ho stems
    exact (only_of_told unheard told ho).unique counts counts'
  · have same : ∀ time other heard, Hears w (past ++ [(p, move)]) c.start index time other heard ↔
        Hears w past c.start index time other heard :=
      hears_of_told told ho fun group target => here ⟨group, target⟩
    exact h.single ((counts_congr same).mp counts) ((counts_congr same).mp counts')

omit stems in
theorem Kept.fair_of_told {k : Nat} {other : Operation}
    (contiguous : (p.client root.client).replies.Contiguous)
    (hk : p.operations.get? k = some other) (stems' : Stems w past c.start k) (ne : id ≠ k)
    (stands : Stands w past c.start root p id operation (sendings w past id))
    (stands' : Stands w past c.start root p k other (sendings w past k)) :
    other.Fair w (past ++ [(p, move)]) c := by
  obtain ⟨g, index, index', target, target', apart⟩ :=
    parts_apart balanced contiguous ho hk stands stands' ne
  have unheard : Unheard w past c.start index' := by
    simpa only [Operation.Fair, target'] using h.table hk stems'
  simp only [Operation.Fair, target']
  refine unheard.of_same fun time other heard => hears_of_told told ho ?_ time _ _
  intro g' here
  cases target.symm.trans here
  exact apart rfl

end News

section Run

variable {w : World} {p : Proxy} {ms : List Move} {move : Move} {c : Combination}
  {command : Command} {root : Root} {id : Nat} {operation : Operation} {news : News}

def Combination.Tells (w : World) (c : Combination) (past : History) (value : Reply) : Prop :=
  c.dest = none → c.Result w past value

variable (sessions : Sessions w [] p) (trailed : Trailed w [] p) (balanced : Balanced p [])
  (planned : Planned w (history w p ms) c.start command root) (plan : root.plan = c.plan)
  (asked : (session w root.client (history w p (ms ++ [move]))).asked[root.slot]? = some c.start)

include sessions trailed balanced planned plan asked

theorem Kept.told (kept : Kept w (history w p ms) (play w p ms) c root.client root.slot)
    (told : move.news? (play w p ms) = some (id, news))
    (ho : (play w p ms).operations.get? id = some operation)
    (stems : Stems w (history w p ms) c.start id)
    (cached : news = .missed ∨ (∃ value, news = .value value) ∨
      sendings w (history w p ms) id ≠ []) :
    Kept w (history w p (ms ++ [move])) (play w p (ms ++ [move])) c root.client root.slot ∧
      Allows w p ms move (c.Tells w) := by
  have tidy := trailed.tidy.play w ms
  have balanced' := balanced.play trailed.tidy w ms
  have stands := stands_of_stems trailed planned ho stems
  have tasks := tasks_of_told told ho
  obtain ⟨group, ledger, sole⟩ := kept.ledger balanced' told ho stems tidy stands cached
  rw [← tasks] at ledger
  obtain ⟨last, gives⟩ := ledger.steps (steps_apply w _ move) plan
    ((trailed.play ms).underway_news told ho tasks stands)
    (fun k le => Or.inr ((nextOperation_le_ready _ move).trans le)) (frame_ready _ move)
    stems.start_lt.le (Frame.refl _)
  rw [← history_concat] at last gives
  rw [play_concat]
  refine ⟨kept_of_ledger last ?_ ?_ ?_, gives⟩
  · intro index address set set' counts counts'
    rw [history_concat] at counts counts'
    exact kept.single_of_told told ho stems counts counts'
  · intro k other hk stems'
    obtain ⟨hk, before, ne⟩ := other_of_told (sessions.play ms) asked told hk stems'
    rw [history_concat]
    exact kept.fair_of_told balanced' told ho (tidy.contiguous _) hk before ne stands
      (stands_of_stems trailed planned hk before)
  · intro k g hg own there
    obtain ⟨g', hg', own', there'⟩ :=
      old_group trailed hg own there (last.next.trans (by rw [groups_ready told]))
    exact sole hg' own' there'

omit planned in
theorem Kept.request (of : root.Of w (play w p ms) command) (start : c.start = ms.length)
    (asks : move = .request root.client (.ok command)) :
    Kept w (history w p (ms ++ [move])) (play w p (ms ++ [move])) c root.client root.slot ∧
      Allows w p ms move (c.Tells w) := by
  have tidy := trailed.tidy.play w ms
  have balanced' := balanced.play trailed.tidy w ms
  have now : (history w p ms).length = c.start := by rw [length_history, start]
  have tasks : move.tasks (play w p ms) = root.plan.tasks root.client root.slot := by
    simp only [asks, Move.tasks, of.plan, of.slot]
  have underway := (trailed.play ms).underway_request asks of tasks
  have run := steps_apply w (play w p ms) move
  have unheard : ∀ index, Unheard w (history w p (ms ++ [move])) c.start index := fun index =>
    unheard_of_le (by rw [length_history, start, List.length_append, List.length_singleton])
  rw [tasks, plan] at run underway
  obtain ⟨r, r', more, still, does, later⟩ := steps_cons run
  rw [List.append_nil] at later
  have readied : r.groups = (play w p ms).groups :=
    still.groups.trans (groups_ready_of_asks asks)
  have operations : r.operations = (play w p ms).operations :=
    still.operations.trans (operations_ready_of_asks asks)
  have free : r.partsUnderWay r.groups.next = [] := by
    rw [partsUnderWay, operations, readied]
    exact partsUnderWay_next tidy balanced'
  cases does with
  | combine =>
      obtain ⟨added, opened⟩ := Underway.steps (.head (.still still) (.head (.task .combine) .refl))
        underway (fun id le => (nextOperation_le_ready _ move).trans le) (frame_ready _ move) le_rfl
        (Frame.steps later)
      rw [List.append_nil, now] at opened
      obtain ⟨last, gives⟩ := Ledger.steps later plan opened
        (fun id le => (nextOperation_le_ready _ move).trans le) (frame_ready _ move) now.ge (Frame.refl _)
        (ledger_openGroup root.client root.slot free (by rwa [← history_concat]) rfl)
      rw [← history_concat] at last gives
      rw [play_concat]
      refine ⟨kept_of_ledger last ?_ ?_ ?_, ?_⟩
      · intro index address set set' counts counts'
        rw [((counts_of_unheard (unheard index)).mp counts).2,
          ((counts_of_unheard (unheard index)).mp counts').2]
      · exact fun old stems =>
          absurd stems (not_stems_of_now (sessions.play ms) asked start (operations ▸ old))
      · intro id g hg own there
        rw [readied]
        refine new_group trailed hg own there sessions balanced of.slot (last.next.trans ?_)
        rw [← readied]
        rfl
      · exact .trans (.of_mute (.of_alike still.toAlike))
          (.trans (.of_mute (.of_outbox rfl rfl)) gives)

end Run

structure Listens (w : World) (p : Proxy) (events : List Event) (ms : List Move) (c : Combination)
    (command : Command) (root : Root) : Prop
    extends Attended w p events ms c.start command root where
  plan : root.plan = c.plan

section Course

variable {w : World} {p : Proxy} {events : List Event} {ms : List Move} {c : Combination}
  {command : Command} {root : Root}

variable (sessions : Sessions w [] p) (trailed : Trailed w [] p) (balanced : Balanced p [])
  (empty : ∀ server, p.queued server = [])

include sessions trailed balanced empty

theorem Combination.accounts (plan : root.plan = c.plan) :
    Accounts w p events c.start command root
      (fun past q => Kept w past q c root.client root.slot) (c.Tells w) where
  begins front here start := by
    have made := here.made
    rw [← start, List.take_left] at made
    exact Kept.request sessions trailed balanced plan here.asked made start.symm rfl
  aside := Kept.aside
  told here kept told ho stems := by
    have gt := stems.start_lt
    rw [length_history] at gt
    have before := here.of_prefix (List.prefix_append _ _) gt
    exact kept.told sessions trailed balanced before.planned plan here.asked told ho stems
      (sent_of_told trailed.tidy empty here.run told)

end Course

theorem kept_of_run {w : World} {p : Proxy} {events : List Event} {ms : List Move}
    {c : Combination} {command : Command} {root : Root} (h : Listens w p events ms c command root)
    (sessions : Sessions w [] p) (trailed : Trailed w [] p) (balanced : Balanced p [])
    (empty : ∀ server, p.queued server = []) :
    Kept w (history w p ms) (play w p ms) c root.client root.slot :=
  (c.accounts sessions trailed balanced empty h.plan).kept h.toAttended sessions

end ReadThrough.Proxy
