import ReadThrough.Proofs.Contribution

namespace ReadThrough.Proxy

structure Tally (w : World) (past : History) (c : Combination) (pending : List Nat)
    (group : Fragment.Group GroupContext) (slots : List (Option (List Bytes))) : Prop where
  context : ∃ slot, group.context = .algebra slot c.op c.dest
  gathered : group.gathered = .sets slots
  length : slots.length = c.sources.length
  total : group.total = c.sources.length
  done : group.done = group.failures + slots.countP Option.isSome
  filled : ∀ {index address set}, c.sources[index]? = some address →
    slots[index]? = some (some set) → Counts w past c.start index address set
  owed : ∀ {index address set}, c.sources[index]? = some address →
    Counts w past c.start index address set →
    slots[index]? = some (some set) ∨ index ∈ pending

section Tally

variable {w : World} {past : History} {c : Combination} {pending pending' : List Nat}
  {group grown : Fragment.Group GroupContext} {slots : List (Option (List Bytes))} {index : Nat}
  {address : Address} {members : List Bytes}

theorem Tally.forward (h : Tally w past c pending group slots)
    (still : ∀ {index address set}, index ∈ pending → c.sources[index]? = some address →
      Counts w past c.start index address set → index ∈ pending') :
    Tally w past c pending' group slots :=
  { h with owed := fun at' counts => (h.owed at' counts).imp_right fun hm => still hm at' counts }

theorem Tally.of_same {past' : History} (h : Tally w past c pending group slots)
    (same : ∀ index time operation news, Hears w past' c.start index time operation news ↔
      Hears w past c.start index time operation news) : Tally w past' c pending group slots :=
  { h with
    filled := fun at' held => (h.filled at' held).of_same (same _)
    owed := fun at' counts => h.owed at' ((counts_congr (same _)).mp counts) }

theorem Tally.told {past' : History} (h : Tally w past c pending group slots)
    (free : slots[index]? = some none) (hm : index ∈ pending')
    (same : ∀ j, j ≠ index → ∀ time operation news,
      Hears w past' c.start j time operation news ↔ Hears w past c.start j time operation news)
    (still : ∀ j ∈ pending, j = index ∨ j ∈ pending') : Tally w past' c pending' group slots := by
  refine { h with filled := ?_, owed := ?_ }
  · intro j address set at' held
    have ne : j ≠ index := by
      rintro rfl
      cases free.symm.trans held
    exact (h.filled at' held).of_same (same j ne)
  · intro j address set at' counts
    by_cases here : j = index
    · exact Or.inr (here ▸ hm)
    · exact (h.owed at' ((counts_congr (same j here)).mp counts)).imp_right fun hj =>
        (still j hj).resolve_left here

theorem Tally.set (h : Tally w past c pending group slots)
    (at' : c.sources[index]? = some address)
    (counts : ∀ set, Counts w past c.start index address set ↔ set = members)
    (accepted : group.accept? (.set index members) = some grown)
    (still : ∀ j ∈ pending, j = index ∨ j ∈ pending') :
    Tally w past c pending' grown (slots.set index (some members)) := by
  simp only [Fragment.Group.accept?, h.gathered, Option.ite_none_right_eq_some] at accepted
  obtain ⟨free, same⟩ := accepted
  obtain ⟨lt, none⟩ := List.getElem?_eq_some_iff.mp free
  cases same
  refine ⟨h.context, rfl, by rw [List.length_set, h.length], h.total, ?_, ?_, ?_⟩
  · have count := List.countP_set (p := Option.isSome) (l := slots) (a := some members) lt
    rw [none] at count
    simp only [Option.isSome_none, Option.isSome_some, Bool.false_eq_true, if_false, if_true,
      Nat.sub_zero] at count
    dsimp only
    rw [count, h.done, Nat.add_assoc]
  · intro j address' set at'' held
    rw [List.getElem?_set] at held
    split at held
    · next same =>
        subst same
        cases at'.symm.trans at''
        exact (counts set).mpr (Option.some.inj (Option.some.inj held)).symm
    · exact h.filled at'' held
  · intro j address' set at'' counts'
    rw [List.getElem?_set]
    split
    · next same =>
        subst same
        cases at'.symm.trans at''
        rw [(counts set).mp counts']
        exact Or.inl rfl
    · next other =>
        exact (h.owed at'' counts').imp_right fun hm => (still j hm).resolve_left (Ne.symm other)

theorem Tally.fail (h : Tally w past c pending group slots)
    (accepted : group.accept? .failed = some grown) : Tally w past c pending grown slots := by
  simp only [Fragment.Group.accept?, Option.some.injEq] at accepted
  cases accepted
  refine ⟨h.context, h.gathered, h.length, h.total, ?_, h.filled, h.owed⟩
  dsimp only
  rw [h.done, Nat.add_right_comm]

theorem Tally.held (h : Tally w past c pending group slots)
    (at' : c.sources[index]? = some address)
    (counts : ∀ set, Counts w past c.start index address set ↔ set = members)
    (refused : group.accept? (.set index members) = none) :
    slots[index]? = some (some members) := by
  simp only [Fragment.Group.accept?, h.gathered, ite_eq_right_iff, reduceCtorEq, imp_false]
    at refused
  have lt : index < slots.length := h.length ▸ (List.getElem?_eq_some_iff.mp at').1
  cases held : slots[index]? with
  | none => exact absurd lt (Nat.not_lt.mpr (List.getElem?_eq_none_iff.mp held))
  | some slot =>
      cases slot with
      | none => exact absurd held refused
      | some set => rw [(counts set).mp (h.filled at' held)]

theorem countP_range {α : Type} (f : Option α → Bool) (xs : List α) :
    (List.range xs.length).countP (fun i => f xs[i]?) = xs.countP fun x => f (some x) := by
  have same : (List.range xs.length).map (fun i => xs[i]?) = xs.map some := by
    refine List.ext_getElem (by simp) fun i lt _ => ?_
    rw [List.length_map, List.length_range] at lt
    simp [lt]
  calc (List.range xs.length).countP (fun i => f xs[i]?)
      = ((List.range xs.length).map fun i => xs[i]?).countP f := by
        rw [List.countP_map, Function.comp_def]
    _ = xs.countP fun x => f (some x) := by rw [same, List.countP_map, Function.comp_def]

section Complete

variable (h : Tally w past c [] group slots)

include h

theorem Tally.computed (none : group.failures = 0) (complete : c.sources.length ≤ group.done) :
    c.Computed w past (Members.combine c.op group.gathered.toSets) := by
  have full : ∀ slot ∈ slots, slot.isSome = true := by
    have le := List.countP_le_length (p := Option.isSome) (l := slots)
    refine List.countP_eq_length.mp ?_
    have done := h.done
    have length := h.length
    omega
  refine ⟨_, ⟨?_, ?_⟩, rfl⟩
  · simp only [h.gathered, Fragment.Gathered.toSets, List.length_map, h.length]
  · intro index address set at' held
    simp only [h.gathered, Fragment.Gathered.toSets, List.getElem?_map,
      Option.map_eq_some_iff] at held
    obtain ⟨slot, held, rfl⟩ := held
    obtain ⟨set, rfl⟩ := Option.isSome_iff_exists.mp (full slot (List.mem_of_getElem? held))
    exact h.filled at' held

theorem Tally.missing (lack : 0 < group.failures) (complete : group.done = c.sources.length) :
    c.Result w past (missingSources c.op group.failures) := by
  let lost := (Finset.range slots.length).filter fun index => slots[index]? = some none
  -- As many slots are empty as parts have failed, since all parts are done.
  have card : lost.card = group.failures := by
    have count : lost.card = slots.countP fun slot => decide (some slot = some none) := by
      rw [← countP_range (fun slot => decide (slot = some none)) slots,
        List.countP_eq_length_filter]
      rfl
    have empty : (fun slot : Option (List Bytes) => decide (some slot = some none)) =
        fun slot => decide (¬ slot.isSome = true) := by
      funext slot
      cases slot <;> rfl
    have total := List.length_eq_countP_add_countP Option.isSome (l := slots)
    have done := h.done
    have length := h.length
    rw [count, empty]
    omega
  rw [← card]
  refine .missing (Finset.card_pos.mp (card.symm ▸ lack)) fun index => ?_
  rw [Finset.mem_filter, Finset.mem_range, h.length]
  constructor
  · rintro ⟨lt, none⟩
    refine ⟨c.sources[index], List.getElem?_eq_getElem lt, ?_⟩
    intro set counts
    rcases h.owed (List.getElem?_eq_getElem lt) counts with held | hm
    · cases none.symm.trans held
    · cases hm
  · rintro ⟨address, at', none⟩
    have lt := (List.getElem?_eq_some_iff.mp at').1
    refine ⟨lt, ?_⟩
    cases held : slots[index]? with
    | none => exact absurd lt (Nat.not_lt.mpr (h.length ▸ List.getElem?_eq_none_iff.mp held))
    | some slot =>
        cases slot with
        | none => rfl
        | some set => exact absurd (h.filled at' held) (none set)

end Complete

end Tally

def pending (group : Nat) (p : Proxy) (tasks : List Task) : List Nat :=
  tasks.filterMap (Task.part? group) ++ p.partsUnderWay group

structure Ledger (w : World) (past : History) (c : Combination) (group : Nat) (origin p : Proxy)
    (tasks : List Task) : Prop extends Lacks group c.sources.length origin p tasks where
  fair : ∀ t ∈ tasks, t.Fair w past c group
  table : ∀ {id operation}, p.operations.get? id = some operation →
    origin.operations.get? id = some operation ∨ operation.Fair w past c
  tally : ∀ {g}, p.groups.table.get? group = some g →
    ∃ slots, Tally w past c (pending group p tasks) g slots

section Ledger

variable {w : World} {past : History} {c : Combination} {group id : Nat} {origin p q : Proxy}
  {task : Task} {rest more : List Task} {operation : Operation} {part : Fragment.Part}

theorem pending_eq_nil (none : rest.countP (Task.isPart group) = 0)
    (done : (p.partsUnderWay group).length = 0) : pending group p rest = [] := by
  rw [pending, List.length_eq_zero_iff.mp done, List.append_nil, List.filterMap_eq_nil_iff]
  intro t ht
  cases part : t.part? group with
  | none => rfl
  | some index =>
      exact absurd (isPart_of_part? (by rw [part]; rfl)) (List.countP_eq_zero.mp none t ht)

theorem Ledger.turn (h : Ledger w past c group origin p (task :: rest))
    (operations : q.operations = p.operations) (groups : q.groups = p.groups)
    (turns : Turns w past c group task more) : Ledger w past c group origin q (more ++ rest) where
  fair := List.forall_mem_append.mpr ⟨turns.fair, (List.forall_mem_cons.mp h.fair).2⟩
  table ho := h.table (operations ▸ ho)
  next := groups ▸ h.next
  few hg := by
    have few := h.few (groups ▸ hg)
    have less := turns.few
    rw [List.countP_cons] at few
    rw [List.countP_singleton] at less
    rw [List.countP_append]
    simp only [partsUnderWay, operations] at few ⊢
    omega
  unfinished hg := h.unfinished (groups ▸ hg)
  tally hg := by
    obtain ⟨slots, tally⟩ := h.tally (groups ▸ hg)
    refine ⟨slots, tally.forward ?_⟩
    intro index address set hm at' counts
    simp only [pending, List.filterMap_append, List.mem_append, partsUnderWay,
      operations] at hm ⊢
    rcases hm with waits | under
    · rcases List.mem_filterMap.mp waits with ⟨t, ht, part⟩
      rcases List.mem_cons.mp ht with rfl | ht
      · exact Or.inl (Or.inl (turns.owed part at' counts))
      · exact Or.inl (Or.inr (List.mem_filterMap.mpr ⟨t, ht, part⟩))
    · exact Or.inr under

theorem Ledger.settle (h : Ledger w past c group origin p (task :: rest))
    (fresh : p.operations.get? id = none)
    (operations : q.operations = p.operations.insert id operation) (groups : q.groups = p.groups)
    (fair : operation.Fair w past c)
    (part : task.part? group = operation.target.part? group)
    (one : task.isPart group = (operation.target.part? group).isSome) :
    Ledger w past c group origin q rest where
  toLacks := h.toLacks.settle fresh operations groups one
  fair := (List.forall_mem_cons.mp h.fair).2
  table := by
    intro k other ho
    rw [operations] at ho
    rcases Table.get?_insert_eq_some_iff.mp ho with ⟨-, rfl⟩ | ⟨-, ho⟩
    · exact Or.inr fair
    · exact h.table ho
  tally hg := by
    obtain ⟨slots, tally⟩ := h.tally (groups ▸ hg)
    refine ⟨slots, tally.forward ?_⟩
    intro index address set hm _ _
    have perm := partsUnderWay_insert operations fresh group
    simp only [pending, List.mem_append, perm.mem_iff, ← part] at hm ⊢
    rcases hm with waits | under
    · rcases List.mem_filterMap.mp waits with ⟨t, ht, same⟩
      rcases List.mem_cons.mp ht with rfl | ht
      · exact Or.inr (Or.inl (Option.mem_toList.mpr same))
      · exact Or.inl (List.mem_filterMap.mpr ⟨t, ht, same⟩)
    · exact Or.inr (Or.inr under)

theorem fair_completion {g : Fragment.Group GroupContext} {slots : List (Option (List Bytes))}
    (tally : Tally w past c [] g slots) (complete : g.done = c.sources.length)
    (settings : Settings) : (completion settings g).Fair w past c group := by
  obtain ⟨slot, context⟩ := tally.context
  simp only [completion, context]
  split
  · next lack => exact fun _ => tally.missing lack complete
  · next full =>
      have computed := tally.computed (Nat.eq_zero_of_not_pos full) complete.ge
      cases dest : c.dest with
      | none =>
          obtain ⟨sets, all, same⟩ := computed
          rw [same]
          exact fun _ => .members all
      | some address =>
          dsimp only
          split
          · intro none
            cases dest.symm.trans none
          · refine ⟨⟨slot, rfl⟩, by simp [dest], ?_⟩
            intro members same
            cases same
            exact computed

theorem mem_pending_set {index j : Nat} {members : List Bytes}
    (hm : j ∈ pending group p (.part group (.set index members) :: rest)) :
    j = index ∨ j ∈ pending group p rest := by
  simp only [pending, List.filterMap_cons, Task.part?, if_true, List.mem_append,
    List.mem_cons] at hm ⊢
  tauto

theorem Ledger.grown (h : Ledger w past c group origin p (.part id part :: rest))
    {g grown : Fragment.Group GroupContext} (hg : p.groups.table.get? id = some g)
    (accepted : g.accept? part = some grown) : id = group ∧
      ∃ slots, Tally w past c (pending group p rest) grown slots := by
  have fair := (List.forall_mem_cons.mp h.fair).1
  have own : id = group := by
    cases part with
    | set index members => exact fair.1
    | failed => exact fair
    | count n => exact fair.elim
  subst own
  obtain ⟨slots, tally⟩ := h.tally hg
  refine ⟨rfl, ?_⟩
  cases part with
  | set index members =>
      obtain ⟨-, address, at', counts⟩ := fair
      exact ⟨_, tally.set at' counts accepted fun j => mem_pending_set⟩
  | failed => exact ⟨slots, tally.fail accepted⟩
  | count n => exact fair.elim

theorem Ledger.bring (h : Ledger w past c group origin p (.part id part :: rest))
    (accepts : p.groups.accepts id part = true) :
    Ledger w past c group origin { p with groups := (p.groups.contribute id part).2 }
      (closing p.settings (p.groups.contribute id part).1 ++ rest) := by
  obtain ⟨g, grown, hg, accepted, result⟩ := Fragment.Groups.contribute_of_accepts accepts
  obtain ⟨rfl, slots, tally⟩ := h.grown hg accepted
  have few := h.toLacks.taken hg accepted
  have fair := (List.forall_mem_cons.mp h.fair).2
  rcases result with ⟨incomplete, same⟩ | ⟨complete, same⟩
  · rw [same]
    refine ⟨h.toLacks.insert few (by simpa using incomplete), fair, h.table, ?_⟩
    intro g' hg'
    simp only [Table.get?_insert_self, Option.some.injEq] at hg'
    subst hg'
    exact ⟨slots, tally⟩
  · rw [same]
    have total := tally.total
    simp only [Fragment.Group.isComplete, decide_eq_true_eq] at complete
    rw [pending_eq_nil (by omega) (by omega)] at tally
    have done : grown.done = c.sources.length := by omega
    refine ⟨h.toLacks.erase _, List.forall_mem_cons.mpr ⟨fair_completion tally done _, fair⟩,
      h.table, ?_⟩
    intro g' hg'
    simp only [Table.get?_erase_self, reduceCtorEq] at hg'

theorem Ledger.refuse (h : Ledger w past c group origin p (.part id part :: rest))
    (refuses : p.groups.accepts id part = false) : Ledger w past c group origin p rest := by
  obtain ⟨fair, others⟩ := List.forall_mem_cons.mp h.fair
  refine ⟨h.toLacks.tail, others, h.table, ?_⟩
  intro g hg
  obtain ⟨slots, tally⟩ := h.tally hg
  have refused : id = group → g.accept? part = none := by
    rintro rfl
    simpa [Fragment.Groups.accepts, hg] using refuses
  cases part with
  | set index members =>
      obtain ⟨rfl, address, at', counts⟩ := fair
      have held := tally.held at' counts (refused rfl)
      refine ⟨slots, { tally with owed := ?_ }⟩
      intro j address' set at'' counts'
      rcases tally.owed at'' counts' with full | hm
      · exact Or.inl full
      · rcases mem_pending_set hm with rfl | hm
        · cases at'.symm.trans at''
          rw [(counts set).mp counts']
          exact Or.inl held
        · exact Or.inr hm
  | failed =>
      simp only [Fragment.Group.accept?, reduceCtorEq, imp_false] at refused
      exact absurd fair refused
  | count n => exact fair.elim

theorem ledger_openGroup (client slot : Nat) (free : p.partsUnderWay p.groups.next = [])
    (unheard : ∀ index, Unheard w past c.start index)
    (opened : q = (p.openGroup client c.sources.length (.emptySets c.sources.length)
      (.algebra slot c.op c.dest)).2) :
    Ledger w past c p.groups.next q q (lookUps client p.groups.next c.sources) := by
  subst opened
  have looked : ∀ {index address}, c.sources[index]? = some address →
      index ∈ (lookUps client p.groups.next c.sources).filterMap (Task.part? p.groups.next) := by
    intro index address at'
    refine List.mem_filterMap.mpr ⟨.lookUp client (.fragment p.groups.next index)
      (.set address .slot), ?_, part?_fragment⟩
    exact List.mem_map.mpr ⟨(address, index), List.mk_mem_zipIdx_iff_getElem?.mpr at', rfl⟩
  refine ⟨lacks_openGroup free ?_ rfl, ?_, Or.inl, ?_⟩
  · have few := List.countP_le_length (p := Task.isPart p.groups.next)
      (l := lookUps client p.groups.next c.sources)
    rwa [lookUps, List.length_map, List.length_zipIdx] at few
  · intro t ht
    obtain ⟨⟨address, index⟩, hm, rfl⟩ := List.mem_map.mp ht
    exact ⟨index, address, rfl, rfl, List.mk_mem_zipIdx_iff_getElem?.mp hm, unheard index⟩
  · intro g hg
    simp only [openGroup, Fragment.Groups.openGroup, Table.get?_insert_self,
      Option.some.injEq] at hg
    subst hg
    refine ⟨List.replicate c.sources.length none, ⟨slot, rfl⟩, rfl, List.length_replicate, rfl,
      by simp [List.countP_replicate], ?_,
      fun at' _ => Or.inr (List.mem_append_left _ (looked at'))⟩
    intro index address set _ held
    rw [List.getElem?_replicate] at held
    split at held <;> cases held

end Ledger

section Move

variable {w : World} {past : History} {move : Proxy × Move} {c : Combination} {group : Nat}
  {root : Root} {mine : Nat → Prop} {ready origin p q : Proxy} {actions : List Action}
  {task : Task} {rest more : List Task}

theorem turns_of_unsent {id : Nat} {operation : Operation} {request : Store.Request}
    (fair : (Task.send id operation request).Fair w past c group) (why : Failure) :
    Turns w past c group (.send id operation request) [operation.failing why] := by
  obtain ⟨fair, own⟩ := fair
  cases target : operation.target with
  | fragment group' index =>
      obtain ⟨rfl, address, at', bucket⟩ := own group' index target
      simp only [Operation.Fair, target] at fair
      have part : (Task.send id operation request).part? group' = some index := by
        simp only [Task.part?, target, part?_fragment]
      rw [Operation.failing, conclude_fragment target]
      exact .failed part (isPart_of_part? (by rw [part]; rfl)) at' (fair.lost bucket)
  | client slot =>
      simp only [Operation.Fair, target] at fair
      simp only [Operation.failing, Operation.conclude, target]
      refine .apart (by simp only [Task.part?, target, part?_client])
        (List.forall_mem_singleton.mpr ?_) (List.forall_mem_singleton.mpr rfl)
      intro none
      exact absurd none fair.1

theorem Ledger.does (plan : root.plan = c.plan)
    (u : Underway w past move c.start root mine ready p actions (task :: rest))
    (h : Ledger w (past ++ [move]) c group origin p (task :: rest)) (done : Does w p task q more) :
    Ledger w (past ++ [move]) c group origin q (more ++ rest) := by
  have fair := (List.forall_mem_cons.mp h.fair).1
  have belongs := u.belongs task List.mem_cons_self
  have silent : ∀ {t : Task}, t.part? group = none → Turns w (past ++ [move]) c group t [] :=
    fun none => .apart none (List.forall_mem_nil _) (List.forall_mem_nil _)
  cases done with
  | reply => exact h.turn (operations_reply _ _ _ _) (groups_reply _ _ _ _) (silent rfl)
  | bring accepts => exact h.bring accepts
  | refuse refuses => exact h.refuse refuses
  | copy | drop => exact h.turn rfl rfl (silent rfl)
  | learn =>
      exact h.turn (Alike.rememberVclock p _ _).operations (Alike.rememberVclock p _ _).groups
        (silent rfl)
  | news => exact h.turn rfl rfl (turns_of_news belongs.1 plan fair)
  | @send id operation request server =>
      exact h.settle (u.apart.apart (by simp)) rfl rfl fair.1 rfl rfl
  | oversize => exact h.turn rfl rfl (turns_of_unsent fair _)
  | unreached => exact h.turn rfl rfl (turns_of_unsent fair _)
  | again | exhausted | delete | combine | poll => exact fair.elim
  | launch =>
      obtain ⟨⟨slot, target⟩, fair⟩ := fair
      refine h.turn rfl rfl (.apart ?_ (List.forall_mem_singleton.mpr ⟨fair, ?_⟩)
        (List.forall_mem_singleton.mpr ?_))
      · simp only [Task.part?, target, part?_client]
      · intro id index other
        cases target.symm.trans other
      · simp only [Task.isPart, Task.part?, target, part?_client, Option.isSome_none]
  | @lookUp client target read server =>
      obtain ⟨index, address, rfl, rfl, at', unheard⟩ := fair
      have free : p.operations.get? p.nextOperation = none := by
        cases ho : p.operations.get? p.nextOperation with
        | none => rfl
        | some operation => exact absurd (u.apart.table ho) (Nat.lt_irrefl _)
      exact h.settle free rfl rfl unheard rfl rfl
  | pass =>
      obtain ⟨index, address, rfl, rfl, at', unheard⟩ := fair
      have part : ∀ client, (Task.lookUp client (.fragment group index)
          (.set address .slot)).part? group = some index := fun _ => part?_fragment
      refine h.turn rfl rfl
        (.later (part _) (isPart_of_part? (by rw [part]; rfl)) (part?_news rfl) ?_)
      refine fair_news rfl unheard.only ?_ fun _ _ => Or.inl rfl
      intro members some
      cases some

theorem Ledger.still (h : Ledger w past c group origin p rest) (same : Still p q) :
    Ledger w past c group origin q rest where
  toLacks := h.toLacks.still same.operations same.groups
  fair := h.fair
  table ho := h.table (same.operations ▸ ho)
  tally hg := by
    have tally := h.tally (same.groups ▸ hg)
    simpa only [pending, partsUnderWay, same.operations] using tally

theorem Ledger.steps {a b : Proxy × List Task} (done : Steps w a b) (plan : root.plan = c.plan)
    (u : Underway w past move c.start root mine ready a.1 actions a.2)
    (newer : ∀ id, ready.nextOperation ≤ id → mine id) (begins : Frame move.1 ready)
    (le : c.start ≤ past.length) (ends : Frame b.1 (move.2.apply w move.1))
    (h : Ledger w (past ++ [move]) c group origin a.1 a.2) :
    Ledger w (past ++ [move]) c group origin b.1 b.2 ∧
      Gives (fun value => c.dest = none → c.Result w (past ++ [move]) value) a.1 b.1 :=
  gives_of_kept _ (Ledger w (past ++ [move]) c group origin) (fun same kept => kept.still same)
    (fun u kept does => kept.does plan u does) (fun kept => (List.forall_mem_cons.mp kept.fair).1)
    done u newer begins le ends h

end Move

end ReadThrough.Proxy
