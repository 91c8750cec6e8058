import ReadThrough.Proofs.Aside
import ReadThrough.Proofs.Honesty
import ReadThrough.Proofs.Losses
import ReadThrough.Proofs.Parts
import ReadThrough.Proofs.Sources

namespace ReadThrough.Proxy

section Owners

variable {w : World} {past : History} {p : Proxy} {start id k : Nat} {root : Root}
  {operation other : Operation} {sent sent' : List Sending}

theorem owner_of_stands (balanced : Balanced p []) (ho : p.operations.get? id = some operation)
    (stands : Stands w past start root p id operation sent) :
    (operation.target = .client root.slot ∧
      (Owner.operation id).Owns p root.client root.slot) ∨
    ∃ group index, operation.target = .fragment group index ∧
      (Owner.group group).Owns p root.client root.slot := by
  obtain ⟨place, at', -⟩ := stands.trail
  cases target : operation.target with
  | client slot =>
      rw [target] at at'
      obtain ⟨rfl, -⟩ := at'
      exact Or.inl ⟨rfl, operation, ho, stands.client, target⟩
  | fragment group index =>
      rw [target] at at'
      obtain ⟨g, hg, -, -⟩ := balanced.awaited_of_target ho target
      obtain ⟨own, gathers⟩ := at'.1.gathers hg
      exact Or.inr ⟨group, index, rfl, g, hg, own, gathers.slot⟩

theorem partsUnderWay_next (tidy : Tidy p []) (balanced : Balanced p []) :
    p.partsUnderWay p.groups.next = [] := by
  refine List.eq_nil_iff_forall_not_mem.mpr ?_
  intro index hm
  obtain ⟨k, operation, hk, target⟩ := mem_partsUnderWay.mp hm
  obtain ⟨g, hg, -⟩ := balanced.awaited_of_target hk target
  exact absurd (tidy.group_lt hg) (Nat.lt_irrefl _)

theorem parts_apart (balanced : Balanced p [])
    (contiguous : (p.client root.client).replies.Contiguous)
    (ho : p.operations.get? id = some operation) (hk : p.operations.get? k = some other)
    (stands : Stands w past start root p id operation sent)
    (stands' : Stands w past start root p k other sent') (ne : id ≠ k) :
    ∃ group index index', operation.target = .fragment group index ∧
      other.target = .fragment group index' ∧ index ≠ index' := by
  rcases owner_of_stands balanced ho stands with ⟨-, owns⟩ | ⟨group, index, target, owns⟩
  · rcases owner_of_stands balanced hk stands' with ⟨-, owns'⟩ | ⟨group, index, -, owns'⟩
    · cases owner_unique balanced contiguous owns owns'
      exact absurd rfl ne
    · cases owner_unique balanced contiguous owns owns'
  · rcases owner_of_stands balanced hk stands' with ⟨-, owns'⟩ | ⟨group', index', target', owns'⟩
    · cases owner_unique balanced contiguous owns owns'
    · cases owner_unique balanced contiguous owns owns'
      refine ⟨group, index, index', target, target', ?_⟩
      rintro rfl
      exact ne (part_unique balanced ho hk target target')

end Owners

section News

variable {w : World} {past : History} {p : Proxy} {move : Move} {id index start : Nat}
  {operation : Operation} {news : News}

theorem hears_of_told (told : move.news? p = some (id, news))
    (ho : p.operations.get? id = some operation)
    (other : ∀ group, operation.target ≠ .fragment group index) (time : Nat)
    (operation' : Operation) (news' : News) :
    Hears w (past ++ [(p, move)]) start index time operation' news' ↔
      Hears w past start index time operation' news' := by
  refine hears_of_other ?_
  intro k taken group heard told' hk target
  cases told.symm.trans told'
  cases ho.symm.trans hk
  exact absurd target (other group)

theorem groups_ready (told : move.news? p = some (id, news)) :
    (move.ready p).groups = p.groups := by
  rw [(akin_ready p move).groups, groups_opening (stays_of_told told)]

theorem operations_ready (told : move.news? p = some (id, news))
    (ho : p.operations.get? id = some operation) :
    (move.ready p).operations = p.operations.erase id := by
  rw [(akin_ready p move).operations, opening_of_subject (subject?_of_news? told) ho]

variable {client : Nat} {content : Except Failure Command}

theorem groups_ready_of_asks (asks : move = .request client content) :
    (move.ready p).groups = p.groups := by
  rw [(akin_ready p move).groups, groups_opening]
  rintro client rfl
  cases asks

theorem operations_ready_of_asks (asks : move = .request client content) :
    (move.ready p).operations = p.operations := by
  rw [(akin_ready p move).operations, asks]
  rfl

end News

section Table

variable {w : World} {p : Proxy} {ms : List Move} {move : Move} {start client slot id k : Nat}
  {operation : Operation} {news : News}
  (sessions : Sessions w (history w p ms) (play w p ms))
  (asked : (session w client (history w p (ms ++ [move]))).asked[slot]? = some start)

include sessions asked

theorem not_stems_of_now (now : start = ms.length)
    (ho : (play w p ms).operations.get? id = some operation) :
    ¬ Stems w (history w p (ms ++ [move])) start id := by
  intro stems
  have lt := (stems_of_table sessions ho stems asked).start_lt
  rw [length_history] at lt
  exact absurd lt (Nat.not_lt.mpr now.ge)

theorem other_of_told (told : move.news? (play w p ms) = some (id, news))
    (hk : (move.ready (play w p ms)).operations.get? k = some operation)
    (stems : Stems w (history w p (ms ++ [move])) start k) :
    (play w p ms).operations.get? k = some operation ∧ Stems w (history w p ms) start k ∧
      id ≠ k := by
  obtain ⟨hk, apart⟩ := get?_operations_ready hk
  refine ⟨hk, stems_of_table sessions hk stems asked, ?_⟩
  rintro rfl
  exact apart (subject?_of_news? told)

end Table

section Roots

variable {w : World} {p : Proxy} {ms : List Move} {start id : Nat} {command : Command} {root : Root}
  {operation : Operation}

theorem stands_of_stems (trailed : Trailed w [] p)
    (planned : Planned w (history w p ms) start command root)
    (ho : (play w p ms).operations.get? id = some operation)
    (stems : Stems w (history w p ms) start id) :
    Stands w (history w p ms) start root (play w p ms) id operation
      (sendings w (history w p ms) id) := by
  obtain ⟨start, command', root', planned', stems', stands⟩ := (trailed.play ms).table ho
  obtain ⟨rfl, rfl, rfl⟩ := root_unique planned planned' stems stems'
  exact stands

theorem slot_lt_of_owns (sessions : Sessions w [] p) (balanced : Balanced p []) {client slot : Nat}
    {owner : Owner} (owns : owner.Owns (play w p ms) client slot) :
    slot < ((play w p ms).client client).replies.next := by
  have waits := (balanced.play sessions.tidy w ms).waits_of_owns owns
  have key : slot ∈ (tape w (history w p ms) (play w p ms) client).map Prod.fst :=
    List.mem_map.mpr ⟨_, List.mem_append_right _ waits, rfl⟩
  rw [(sessions.play ms).keys, List.mem_range] at key
  rwa [(sessions.play ms).next]

end Roots

section Move

variable {w : World} {p : Proxy} {ms : List Move} {move : Move} {client slot id : Nat}
  {g : Fragment.Group GroupContext} (trailed : Trailed w [] p)
  (hg : (move.apply w (play w p ms)).groups.table.get? id = some g) (own : g.client = client)
  (there : g.context.slot = slot)

include trailed hg own there

theorem old_group
    (next : (move.apply w (play w p ms)).groups.next = (play w p ms).groups.next) :
    (Owner.group id).Owns (play w p ms) client slot := by
  rcases (frame_apply w (play w p ms) move).groups hg with ⟨old, before, client, context⟩ | le
  · exact ⟨old, before, client.trans own, by rw [context, there]⟩
  · have lt := ((trailed.tidy.play w ms).apply w move).group_lt hg
    exact absurd (next ▸ lt) (Nat.not_lt.mpr le)

theorem new_group (sessions : Sessions w [] p) (balanced : Balanced p [])
    (free : slot = ((play w p ms).client client).replies.next)
    (next : (move.apply w (play w p ms)).groups.next = (play w p ms).groups.next + 1) :
    id = (play w p ms).groups.next := by
  rcases (frame_apply w (play w p ms) move).groups hg with ⟨old, before, client, context⟩ | le
  · have owns : (Owner.group id).Owns (play w p ms) _ slot :=
      ⟨old, before, client.trans own, by rw [context, there]⟩
    exact absurd (slot_lt_of_owns sessions balanced owns) (free ▸ Nat.lt_irrefl _)
  · have lt := ((trailed.tidy.play w ms).apply w move).group_lt hg
    rw [next] at lt
    exact Nat.le_antisymm (Nat.le_of_lt_succ lt) le

end Move

section Quiet

variable {w : World} {p : Proxy} {ms : List Move} {start n index : Nat}

theorem take_history (w : World) (p : Proxy) (ms : List Move) (time : Nat) :
    (history w p ms).take time = history w p (ms.take time) := by
  rcases Nat.lt_or_ge time ms.length with lt | ge
  · obtain ⟨later, split⟩ := history_take w p ms time
    have length : (history w p (ms.take time)).length = time := by
      rw [length_history, List.length_take_of_le lt.le]
    rw [split, List.take_left' length]
  · rw [List.take_of_length_le ge, List.take_of_length_le (by rwa [length_history])]

theorem hears_of_quiet (le : n ≤ ms.length)
    (quiet : ∀ t, n ≤ t → t < ms.length → ∀ id operation group,
      (play w p (ms.take t)).operations.get? id = some operation →
      operation.target = .fragment group index →
      ¬ Stems w (history w p (ms.take t)) start id)
    (time : Nat) (operation : Operation) (news : News) :
    Hears w (history w p ms) start index time operation news ↔
      Hears w (history w p (ms.take n)) start index time operation news := by
  have length : (history w p (ms.take n)).length = n := by
    rw [length_history, List.length_take_of_le le]
  obtain ⟨later, split⟩ := history_take w p ms n
  rcases Nat.lt_or_ge time n with lt | ge
  · rw [split, hears_append later (length.symm ▸ lt)]
  · refine iff_of_false ?_ fun heard => absurd heard.lt (by omega)
    rintro ⟨q, move, id, group, at', -, ho, target, stems⟩
    obtain ⟨made, rfl⟩ := getElem?_history.mp at'
    rw [take_history] at stems
    exact quiet time ge (List.getElem?_eq_some_iff.mp made).1 id operation group ho target stems

end Quiet

def Idle (w : World) (p : Proxy) (ms : List Move) (start : Nat) : Prop :=
  ∀ id operation, (play w p ms).operations.get? id = some operation →
    ¬ Stems w (history w p ms) start id

section Fills

variable {w : World} {p : Proxy} {move : Move} {client slot : Nat} {value : Reply}

theorem mem_tape_of_fills (past : History) (stays : ∀ client, move ≠ .hangUp client)
    (given : (slot, some value) ∈ (move.apply w p).slots client ∨
      Action.reply client slot value ∈ move.emits w p) :
    (slot, some value) ∈ tape w (past ++ [(p, move)]) (move.apply w p) client := by
  rcases given with held | sent
  · exact List.mem_append_right _ held
  · refine List.mem_append_left _ ?_
    rw [session_made stays w past, List.map_append]
    exact List.mem_append_right _ (mem_repliesTo.mpr sent)

theorem stays_of_works {ms : List Move} {start time : Nat} {content : Except Failure Command}
    (request : ms[start]? = some (.request client content)) (made : ms[time]? = some move)
    (works : Works w (history w p ms) start time) : ∀ client, move ≠ .hangUp client := by
  rintro other rfl
  rcases works with rfl | ⟨q, move', id, at', subject, -⟩
  · cases made.symm.trans request
  · cases made.symm.trans (getElem?_history.mp at').1
    cases subject

end Fills

structure Attended (w : World) (p : Proxy) (events : List Event) (ms : List Move) (start : Nat)
    (command : Command) (root : Root) : Prop where
  run : ms <+: course w p events
  request : ms[start]? = some (.request root.client (.ok command))
  made : root.Of w (play w p (ms.take start)) command
  asked : (session w root.client (history w p ms)).asked[root.slot]? = some start

def Allows (w : World) (p : Proxy) (ms : List Move) (move : Move)
    (allowed : History → Reply → Prop) : Prop :=
  Gives (allowed (history w p (ms ++ [move]))) (move.ready (play w p ms))
    (move.apply w (play w p ms))

structure Accounts (w : World) (p : Proxy) (events : List Event) (start : Nat) (command : Command)
    (root : Root) (holds : History → Proxy → Prop) (allowed : History → Reply → Prop) : Prop where
  begins : ∀ front, Attended w p events (front ++ [.request root.client (.ok command)]) start
      command root → front.length = start →
    holds (history w p (front ++ [.request root.client (.ok command)]))
        (play w p (front ++ [.request root.client (.ok command)])) ∧
      Allows w p front (.request root.client (.ok command)) allowed
  aside : ∀ {past q move}, holds past q → Aside w past q move root.client root.slot start →
    holds (past ++ [(q, move)]) (move.apply w q)
  told : ∀ {front move id news operation},
    Attended w p events (front ++ [move]) start command root →
    holds (history w p front) (play w p front) → move.news? (play w p front) = some (id, news) →
    (play w p front).operations.get? id = some operation → Stems w (history w p front) start id →
    holds (history w p (front ++ [move])) (play w p (front ++ [move])) ∧
      Allows w p front move allowed

namespace Attended

variable {w : World} {p : Proxy} {events : List Event} {ms front : List Move} {move : Move}
  {start : Nat} {command : Command} {root : Root} {value : Reply}

theorem lt (h : Attended w p events ms start command root) : start < ms.length :=
  (List.getElem?_eq_some_iff.mp h.request).1

theorem planned (h : Attended w p events ms start command root) :
    Planned w (history w p ms) start command root :=
  ⟨_, getElem?_history.mpr ⟨h.request, rfl⟩, h.made⟩

theorem of_prefix (h : Attended w p events ms start command root) (within : front <+: ms)
    (lt : start < front.length) : Attended w p events front start command root := by
  obtain ⟨more, rfl⟩ := within
  refine ⟨(List.prefix_append _ _).trans h.run, ?_, ?_, ?_⟩
  · rw [← List.getElem?_append_left lt]
    exact h.request
  · have made := h.made
    rwa [List.take_append_of_le_length lt.le] at made
  · have asked := asked_before lt (List.prefix_append _ more).length_le h.asked
    rwa [List.take_left] at asked

theorem begun (h : Attended w p events ms start command root) :
    Attended w p events (ms.take start ++ [.request root.client (.ok command)]) start command
      root := by
  rw [← take_succ h.request]
  refine h.of_prefix (List.take_prefix _ _) ?_
  rw [List.length_take_of_le h.lt]
  exact Nat.lt_succ_self start

theorem lasts {P : List Move → Prop} (h : Attended w p events ms start command root)
    (begins : P (ms.take start ++ [.request root.client (.ok command)]))
    (goes : ∀ front move, Attended w p events front start command root →
      Attended w p events (front ++ [move]) start command root → move ≠ .hangUp root.client →
      P front → P (front ++ [move])) : P ms := by
  refine Proxy.lasts (P := fun front => front <+: ms → P front) (Nat.lt_succ_self start) h.lt
    h.asked ?_ ?_ List.prefix_rfl
  · intro within
    rwa [take_succ h.request]
  · intro front move asked listens kept within
    have before := (List.prefix_append front [move]).trans within
    have lt : start < front.length := by simpa only [length_history] using asked_lt asked
    have here := h.of_prefix within (by rw [List.length_append]; omega)
    exact goes front move (h.of_prefix before lt) here listens (kept before)

variable (h : Attended w p events ms start command root) (sessions : Sessions w [] p)
  (trailed : Trailed w [] p) (balanced : Balanced p [])

include h sessions trailed balanced

theorem idle_of_given
    (given : (root.slot, some value) ∈ tape w (history w p ms) (play w p ms) root.client) :
    Idle w p ms start := by
  intro id operation ho stems
  have balanced' := balanced.play trailed.tidy w ms
  have stands := stands_of_stems trailed h.planned ho stems
  obtain ⟨owner, owns⟩ : ∃ owner : Owner, owner.Owns (play w p ms) root.client root.slot := by
    rcases owner_of_stands balanced' ho stands with ⟨-, owns⟩ | ⟨group, index, -, owns⟩ <;>
      exact ⟨_, owns⟩
  have waits : (root.slot, none) ∈ tape w (history w p ms) (play w p ms) root.client :=
    List.mem_append_right _ (balanced'.waits_of_owns owns)
  have nodup : ((tape w (history w p ms) (play w p ms) root.client).map Prod.fst).Nodup := by
    rw [(sessions.play ms).keys]
    exact List.nodup_range
  cases List.inj_on_of_nodup_map nodup given waits rfl

theorem hears_of_given {n : Nat} (gt : start < n) (le : n ≤ ms.length)
    (given : (root.slot, some value) ∈
      tape w (history w p (ms.take n)) (play w p (ms.take n)) root.client)
    (index time : Nat) (operation : Operation) (news : News) :
    Hears w (history w p ms) start index time operation news ↔
      Hears w (history w p (ms.take n)) start index time operation news := by
  refine hears_of_quiet le ?_ time operation news
  intro t ge lt id operation group ho _ stems
  have here := h.of_prefix (List.take_prefix t ms)
    (by rw [List.length_take_of_le lt.le]; omega)
  have taken : (ms.take t).take n = ms.take n := by rw [List.take_take, Nat.min_eq_left ge]
  rw [← taken] at given
  have still := tape_after sessions gt (by rwa [List.length_take_of_le lt.le]) here.asked given
  exact idle_of_given here sessions trailed balanced still id operation ho stems

theorem given_of_idle
    (lacks : ∀ id g, (play w p ms).groups.table.get? id = some g → g.client = root.client →
      g.context.slot = root.slot → g.done < g.total) (idle : Idle w p ms start) :
    ∃ value, (root.slot, some value) ∈ tape w (history w p ms) (play w p ms) root.client := by
  have here := sessions.play ms
  have balanced' := balanced.play trailed.tidy w ms
  have stem : ∀ {id operation}, (play w p ms).operations.get? id = some operation →
      operation.client = root.client →
      ¬ ∀ slot, operation.duty.IsFor (play w p ms) operation.client slot → slot = root.slot := by
    intro id operation ho own only
    obtain ⟨slot, start', isFor, asked, stems⟩ := here.stems ho
    obtain rfl := only slot isFor
    rw [own] at asked
    cases asked.symm.trans h.asked
    exact idle id operation ho stems
  have key : root.slot ∈ (tape w (history w p ms) (play w p ms) root.client).map Prod.fst := by
    rw [here.keys]
    exact List.mem_range.mpr (List.getElem?_eq_some_iff.mp h.asked).1
  obtain ⟨⟨slot, held⟩, hm, rfl⟩ := List.mem_map.mp key
  cases held with
  | some value => exact ⟨value, hm⟩
  | none =>
      have waits : (root.slot, none) ∈ (play w p ms).slots root.client := by
        refine (List.mem_append.mp hm).resolve_left fun sent => ?_
        obtain ⟨_, -, same⟩ := List.mem_map.mp sent
        cases congrArg Prod.snd same
      obtain ⟨owner, owns, -⟩ := balanced'.existsUnique_owner (here.tidy.contiguous _) waits
      cases owner with
      | operation id =>
          obtain ⟨operation, ho, own, target⟩ := owns
          refine absurd ?_ (stem ho own)
          intro slot isFor
          simp only [Operation.duty, target, Duty.IsFor] at isFor
          exact isFor.2.symm
      | group id =>
          obtain ⟨g, hg, own, there⟩ := owns
          have lacks := lacks id g hg own there
          have parts := balanced'.length_partsUnderWay hg
          obtain ⟨index, hm⟩ := List.exists_mem_of_length_pos (l := (play w p ms).partsUnderWay id)
            (by omega)
          obtain ⟨k, operation, hk, target⟩ := mem_partsUnderWay.mp hm
          obtain ⟨g', hg', same, -⟩ := balanced'.awaited_of_target hk target
          cases hg.symm.trans hg'
          refine absurd ?_ (stem hk (same.symm.trans own))
          intro slot isFor
          simp only [Operation.duty, target, Duty.IsFor] at isFor
          exact (isFor.2.2 g hg).2.symm.trans there

end Attended

namespace Accounts

variable {w : World} {p : Proxy} {events : List Event} {ms : List Move} {start : Nat}
  {command : Command} {root : Root} {holds : History → Proxy → Prop}
  {allowed : History → Reply → Prop} {value : Reply}
  (accounts : Accounts w p events start command root holds allowed)
  (h : Attended w p events ms start command root) (sessions : Sessions w [] p)

include accounts h sessions

theorem kept : holds (history w p ms) (play w p ms) := by
  refine h.lasts (P := fun front => holds (history w p front) (play w p front)) ?_ ?_
  · exact (accounts.begins _ h.begun (List.length_take_of_le h.lt.le)).1
  · intro front move before here listens kept
    rcases aside_or_news (sessions.play front) before.asked listens with
      aside | ⟨id, news, operation, told, ho, stems⟩
    · rw [history_concat, play_concat]
      exact accounts.aside kept aside
    · exact (accounts.told here kept told ho stems).1

variable (trailed : Trailed w [] p)

include trailed

theorem allows {time : Nat} {move : Move} (made : ms[time]? = some move)
    (works : Works w (history w p ms) start time) : Allows w p (ms.take time) move allowed := by
  have lt : time < ms.length := (List.getElem?_eq_some_iff.mp made).1
  rcases works with rfl | ⟨q, move', id, at', subject, stems⟩
  · cases Option.some.inj (made.symm.trans h.request)
    exact (accounts.begins _ h.begun (List.length_take_of_le lt.le)).2
  · obtain ⟨made', rfl⟩ := getElem?_history.mp at'
    cases Option.some.inj (made.symm.trans made')
    have asks : ∀ client content, move ≠ .request client content := by
      rintro client content rfl
      cases subject
    rcases tasks_of_news (p := play w p (ms.take time)) asks with
      none | ⟨k, operation, news, told, ho, tasks⟩
    · refine gives_of_replies (steps_apply w _ move) ?_
      rw [none]
      exact List.forall_mem_nil _
    · obtain rfl : k = id := Option.some.inj ((subject?_of_news? told).symm.trans subject)
      obtain ⟨start', command', root', planned, stems', -⟩ :=
        (trailed.play (ms.take time)).table ho
      obtain ⟨rfl, -, -⟩ := root_of_request h.request stems planned stems'
      have gt := stems'.lt_of_take
      have before := h.of_prefix (List.take_prefix time ms)
        (by rwa [List.length_take_of_le lt.le])
      have here := h.of_prefix (List.take_prefix (time + 1) ms)
        (by rw [List.length_take_of_le lt]; omega)
      rw [take_succ made] at here
      exact (accounts.told here (accounts.kept before sessions) told ho stems').2

theorem allowed_of_given (balanced : Balanced p [])
    (same : ∀ {past past' value}, (∀ index time operation news,
        Hears w past' start index time operation news ↔
          Hears w past start index time operation news) → allowed past value → allowed past' value)
    (given : (root.slot, some value) ∈ tape w (history w p ms) (play w p ms) root.client) :
    allowed (history w p ms) value := by
  obtain ⟨start', time, asked, le, works, fills⟩ := (sessions.play ms).produced given
  obtain rfl := Option.some.inj (asked.symm.trans h.asked)
  obtain ⟨q, move, at', free, given'⟩ := fills
  obtain ⟨made, rfl⟩ := getElem?_history.mp at'
  have lt := (List.getElem?_eq_some_iff.mp made).1
  have stays := stays_of_works h.request made works
  have result : allowed (history w p (ms.take time ++ [move])) value :=
    allowed_of_fills stays (accounts.allows h sessions trailed made works) free given'
  rw [← take_succ made] at result
  have now : (root.slot, some value) ∈ tape w (history w p (ms.take (time + 1)))
      (play w p (ms.take (time + 1))) root.client := by
    rw [take_succ made, history_concat, play_concat]
    exact mem_tape_of_fills _ stays given'
  exact same (h.hears_of_given sessions trailed balanced (Nat.lt_succ_of_le le) lt now) result

end Accounts

section Request

variable {w : World} {p : Proxy} {ms : List Move} {client slot start : Nat} {command : Command}
  {value : Reply} {why : Failure} (sessions : Sessions w [] p)
  (request : ms[start]? = some (.request client (.ok command)))
  (asked : (session w client (history w p ms)).asked[slot]? = some start)

include sessions request asked

theorem slot_of_asked : slot = ((play w p (ms.take start)).client client).replies.next := by
  have le := (List.getElem?_eq_some_iff.mp request).1
  have length : (history w p (ms.take start)).length = start := by
    rw [length_history, List.length_take_of_le le.le]
  have now := asked_before (Nat.lt_succ_self _) le asked
  rw [take_succ request, history_concat, session_made (by simp), Move.asks] at now
  simp only [decide_true, if_true, List.getElem?_append] at now
  rw [(sessions.play (ms.take start)).next]
  split at now
  · have lt := asked_lt now
    omega
  · have lt := (List.getElem?_eq_some_iff.mp now).1
    rw [List.length_singleton] at lt
    omega

theorem attended_of_plan {events : List Event} {plan : Plan} (run : ms <+: course w p events)
    (planned : (play w p (ms.take start)).plan command = .ok plan) :
    ∃ numbers, Attended w p events ms start command ⟨client, slot, plan, numbers⟩ := by
  let q := play w p (ms.take start)
  refine ⟨Finset.Ico q.nextOperation (q.clientCommand w client command).nextOperation, ?_⟩
  exact ⟨run, request, ⟨planned, slot_of_asked sessions request asked, rfl⟩, asked⟩

variable (refused : ∀ q : Proxy, q.plan command = .error why)

include refused

theorem given_of_refusal :
    (slot, some (Reply.failure why)) ∈ tape w (history w p ms) (play w p ms) client := by
  let q := play w p (ms.take start)
  let move : Move := .request client (.ok command)
  have stays : ∀ c, move ≠ .hangUp c := by simp [move]
  have own := slot_of_asked sessions request asked
  have tasks : move.tasks q = [] ++ [.reply client slot (Reply.failure why)] := by
    simp only [move, q, Move.tasks, refused, own, List.nil_append]
  have replies : ((move.ready q).client client).replies = (q.client client).replies.reserve.2 := by
    rw [Proxy.client, (akin_ready q move).clients, ← Proxy.client, replies_opening stays,
      Move.asks, if_pos (by simp)]
  have contiguous : ((move.ready q).client client).replies.Contiguous := by
    rw [replies]
    exact ((sessions.play (ms.take start)).tidy.contiguous client).reserve
  have waits : (slot, none) ∈ (move.ready q).slots client := by
    rw [Proxy.slots, replies, own]
    exact List.mem_append_right _ List.mem_cons_self
  obtain ⟨actions, outbox, given⟩ := gave_of_steps (steps_apply w q move) rfl
    (List.forall_mem_nil _) tasks contiguous waits
  rw [(akin_ready q move).outbox] at outbox
  refine tape_after sessions (Nat.lt_succ_self start)
    (List.getElem?_eq_some_iff.mp request).1 asked ?_
  rw [take_succ request, history_concat, play_concat, Sessions.tape_made _ stays outbox]
  exact List.mem_append_right _ given

omit sessions asked in
theorem tasks_of_refusal (trailed : Trailed w [] p) {time : Nat} {move : Move}
    (made : ms[time]? = some move) (works : Works w (history w p ms) start time) :
    ∀ task ∈ move.tasks (play w p (ms.take time)),
      ∃ client slot, task = .reply client slot (Reply.failure why) := by
  rcases works with rfl | ⟨q, move', id, at', subject, stems⟩
  · cases Option.some.inj (made.symm.trans request)
    simp only [Move.tasks, refused]
    exact List.forall_mem_singleton.mpr ⟨client, _, rfl⟩
  · obtain ⟨made', rfl⟩ := getElem?_history.mp at'
    cases Option.some.inj (made.symm.trans made')
    have asks : ∀ client content, move ≠ .request client content := by
      rintro c content rfl
      cases subject
    rcases tasks_of_news (p := play w p (ms.take time)) asks with
      none | ⟨k, operation, news, told, ho, -⟩
    · rw [none]
      exact List.forall_mem_nil _
    · obtain rfl : k = id := Option.some.inj ((subject?_of_news? told).symm.trans subject)
      obtain ⟨start', command', root, planned, stems', -⟩ :=
        (trailed.play (ms.take time)).table ho
      obtain ⟨rfl, rfl, of⟩ := root_of_request request stems planned stems'
      cases (refused _).symm.trans of.plan

theorem refusal_of_given (trailed : Trailed w [] p)
    (given : (slot, some value) ∈ tape w (history w p ms) (play w p ms) client) :
    value = Reply.failure why := by
  obtain ⟨start', time, asked', -, works, q, move, at', free, given'⟩ :=
    (sessions.play ms).produced given
  obtain rfl : start = start' := Option.some.inj (asked.symm.trans asked')
  obtain ⟨made, rfl⟩ := getElem?_history.mp at'
  have stays := stays_of_works request made works
  suffices gives : Gives (fun value => value = Reply.failure why)
      (move.ready (play w p (ms.take time))) (move.apply w (play w p (ms.take time))) from
    (allowed_of_fills stays gives free given' :)
  refine gives_of_replies (steps_apply w _ move) fun task hm => ?_
  obtain ⟨client', slot', rfl⟩ :=
    tasks_of_refusal request refused trailed made works task hm
  exact ⟨client', slot', _, rfl, rfl⟩

omit sessions asked in
theorem emits_of_refusal (trailed : Trailed w [] p) {time : Nat} {move : Move}
    (made : ms[time]? = some move) (works : Works w (history w p ms) start time) :
    ∀ action ∈ move.emits w (play w p (ms.take time)),
      ∃ client slot value, action = .reply client slot value := by
  have calm : move.notice = [] := by
    rcases works with rfl | ⟨q, move', id, at', subject, stems⟩
    · cases Option.some.inj (made.symm.trans request)
      rfl
    · cases Option.some.inj (made.symm.trans (getElem?_history.mp at').1)
      cases move <;> first | rfl | cases subject
  obtain ⟨actions, outbox, only, -⟩ := outbox_of_replies (steps_apply w _ move) fun task hm => by
    obtain ⟨client', slot', rfl⟩ :=
      tasks_of_refusal request refused trailed made works task hm
    exact ⟨client', slot', _, rfl⟩
  rw [emits_of_outbox move w (outbox.trans (by rw [(akin_ready _ move).outbox])), calm]
  exact only

end Request

end ReadThrough.Proxy
