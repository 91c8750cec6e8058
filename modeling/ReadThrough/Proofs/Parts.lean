import ReadThrough.Proofs.Tenure
import ReadThrough.Proofs.Trailed

namespace ReadThrough.Proxy

section Balanced

variable {p : Proxy} {client slot id k : Nat} {operation other : Operation}

theorem eq_of_nodup_filterMap {α β : Type} {f : α → Option β} {xs : List α}
    (nodup : (xs.filterMap f).Nodup) {a b : α} (ha : a ∈ xs) (hb : b ∈ xs) {x : β}
    (fa : f a = some x) (fb : f b = some x) : a = b := by
  by_contra ne
  rw [List.Nodup, List.pairwise_filterMap] at nodup
  have : Std.Symm fun a a' => ∀ b ∈ f a, ∀ b' ∈ f a', b ≠ b' :=
    ⟨fun a a' apart b hb b' hb' => (apart b' hb' b hb).symm⟩
  exact nodup.forall ha hb ne x fa x fb rfl

theorem owner_unique (balanced : Balanced p []) (contiguous : (p.client client).replies.Contiguous)
    {owner owner' : Owner} (h : owner.Owns p client slot) (h' : owner'.Owns p client slot) :
    owner = owner' := by
  have few : (Balanced.owners p client slot).length ≤ 1 := by
    rw [balanced.length_owners]
    exact List.nodup_iff_count_le_one.mp contiguous.nodup_unfilled slot
  have listed := Balanced.mem_owners.mpr h
  have listed' := Balanced.mem_owners.mpr h'
  rcases Nat.le_one_iff_eq_zero_or_eq_one.mp few with none | one
  · rw [List.length_eq_zero_iff.mp none] at listed
    cases listed
  · obtain ⟨single, all⟩ := List.length_eq_one_iff.mp one
    rw [all, List.mem_singleton] at listed listed'
    exact listed.trans listed'.symm

theorem sole_of_target (balanced : Balanced p [])
    (contiguous : (p.client operation.client).replies.Contiguous)
    (ho : p.operations.get? id = some operation) (target : operation.target = .client slot) :
    Sole id operation.client slot (p, []) := by
  have owns : (Owner.operation id).Owns p operation.client slot := ⟨operation, ho, rfl, target⟩
  refine ⟨nofun, ?_, ?_⟩
  · intro k other hk owes
    have own : other.client = operation.client ∧ other.target = .client slot :=
      Operation.slot?_duty_eq_some.mp (by rw [owes]; rfl)
    have owns' : (Owner.operation k).Owns p operation.client slot := ⟨other, hk, own⟩
    cases owner_unique balanced contiguous owns owns'
    rfl
  · rintro k group hg same rfl
    have owns' : (Owner.group k).Owns p operation.client group.context.slot :=
      ⟨group, hg, same, rfl⟩
    cases owner_unique balanced contiguous owns owns'

theorem part_unique (balanced : Balanced p []) {group index : Nat}
    (ho : p.operations.get? id = some operation) (hk : p.operations.get? k = some other)
    (target : operation.target = .fragment group index)
    (target' : other.target = .fragment group index) : id = k := by
  have nodup := balanced.nodup
  rw [duties_nil, List.filterMap_map] at nodup
  have same := eq_of_nodup_filterMap nodup (Table.get?_eq_some_iff.mp ho)
    (Table.get?_eq_some_iff.mp hk) (Operation.place?_duty_eq_some.mpr target)
    (Operation.place?_duty_eq_some.mpr target')
  exact congrArg Prod.fst same

end Balanced

section Run

variable {w : World} {p : Proxy} {ms : List Move} {start id k m n : Nat} {command : Command}
  {root : Root} {operation other : Operation} {sent sent' : List Sending}

theorem asked_of_target (sessions : Sessions w [] p)
    (planned : Planned w (history w p ms) start command root)
    (stems : Stems w (history w p ms) start id)
    (ho : (play w p ms).operations.get? id = some operation) {slot : Nat}
    (target : operation.target = .client slot) :
    (session w operation.client (history w p ms)).asked[slot]? = some start := by
  obtain ⟨slot', start', isFor, asked, stems'⟩ := (sessions.play ms).stems ho
  obtain ⟨q, content, came⟩ := asked_request asked
  obtain rfl := stems_unique stems stems' planned.asks ⟨q, _, content, came⟩
  simp only [Operation.duty, target] at isFor
  rwa [isFor.2]

theorem eq_of_slot (sessions : Sessions w [] p) (balanced : Balanced p []) (le : m ≤ n)
    (len : n ≤ ms.length) (ho : (play w p (ms.take m)).operations.get? id = some operation)
    (hk : (play w p (ms.take n)).operations.get? k = some other)
    (planned : Planned w (history w p (ms.take n)) start command root)
    (stems : Stems w (history w p (ms.take m)) start id)
    (stems' : Stems w (history w p (ms.take n)) start k) {slot : Nat}
    (client : operation.client = other.client) (target : operation.target = .client slot)
    (target' : other.target = .client slot) : k = id := by
  have tidy := sessions.tidy.play w (ms.take m)
  have sole := sole_of_target (balanced.play sessions.tidy w (ms.take m)) (tidy.contiguous _) ho
    target
  have taken : (ms.take n).take m = ms.take m := by rw [List.take_take, Nat.min_eq_left le]
  rw [← taken, client] at sole
  have later := sole_after sessions stems.lt_of_take (by rwa [List.length_take_of_le len])
    (asked_of_target sessions planned stems' hk target') sole
  refine later.table hk ?_
  simp only [Operation.duty, target']

theorem Root.Gathers.slot {context : GroupContext} (h : root.Gathers context) :
    context.slot = root.slot := by
  cases context with
  | del slot | algebra slot op dest => exact h.1

theorem begun_with_request (tidy : Tidy p [])
    (planned : Planned w (history w p ms) start command root) (lt : start < n)
    (ho : (play w p (ms.take n)).operations.get? id = some operation) (begun : id ∈ root.numbers) :
    ∃ old, (play w p (ms.take (start + 1))).operations.get? id = some old ∧
      old.duty = operation.duty := by
  obtain ⟨q, at', of⟩ := planned
  obtain ⟨request, rfl⟩ := getElem?_history.mp at'
  obtain ⟨more, split⟩ : ms.take (start + 1) <+: ms.take n :=
    List.take_prefix_take_left (Nat.succ_le_of_lt lt)
  rw [← split, play_append] at ho
  refine owed_before (tidy.play w _) ho ?_
  rw [of.numbers, Finset.mem_Ico] at begun
  rw [play_take_succ w p request]
  exact begun.2

theorem eq_of_part (trailed : Trailed w [] p) (balanced : Balanced p [])
    (planned : Planned w (history w p ms) start command root) (lt : start < m) (lt' : start < n)
    (ho : (play w p (ms.take m)).operations.get? id = some operation)
    (hk : (play w p (ms.take n)).operations.get? k = some other)
    (stems : Stems w (history w p ms) start id) (stems' : Stems w (history w p ms) start k)
    (begun : id ∈ root.numbers) (begun' : k ∈ root.numbers) {group group' index : Nat}
    (target : operation.target = .fragment group index)
    (target' : other.target = .fragment group' index) : id = k := by
  have tidy := trailed.tidy.play w (ms.take (start + 1))
  have balanced := balanced.play trailed.tidy w (ms.take (start + 1))
  have bears : ∀ {id n operation group}, start < n → id ∈ root.numbers →
      (play w p (ms.take n)).operations.get? id = some operation →
      Stems w (history w p ms) start id → operation.target = .fragment group index →
      (∃ old, (play w p (ms.take (start + 1))).operations.get? id = some old ∧
        old.target = .fragment group index) ∧
      (Owner.group group).Owns (play w p (ms.take (start + 1))) root.client root.slot := by
    intro id n operation group lt begun ho stems target
    obtain ⟨old, held, same⟩ := begun_with_request trailed.tidy planned lt ho begun
    have was : old.target = .fragment group index := by
      rw [← Operation.place?_duty_eq_some, same]
      exact Operation.place?_duty_eq_some.mpr target
    obtain ⟨open', hg, -, -⟩ := Balanced.awaited_of_target balanced held was
    obtain ⟨start', command', root', planned', stems', stands⟩ :=
      (trailed.play (ms.take (start + 1))).table held
    obtain ⟨rfl, rfl, rfl⟩ := root_unique planned planned'.of_take stems stems'.of_take
    obtain ⟨place, at', -⟩ := stands.trail
    rw [was] at at'
    obtain ⟨own, gathers⟩ := at'.1.gathers hg
    exact ⟨⟨old, held, was⟩, open', hg, own, gathers.slot⟩
  obtain ⟨⟨old, held, was⟩, owns⟩ := bears lt begun ho stems target
  obtain ⟨⟨old', held', was'⟩, owns'⟩ := bears lt' begun' hk stems' target'
  cases owner_unique balanced (tidy.contiguous _) owns owns'
  exact part_unique balanced held held' was was'

theorem waits_after_last (trailed : Trailed w [] p) (sent : sendings w (history w p ms) id ≠ []) :
    ∃ n operation, n ≤ ms.length ∧
      (play w p (ms.take n)).operations.get? id = some operation ∧
      sendings w (history w p (ms.take n)) id = sendings w (history w p ms) id := by
  induction ms using List.reverseRecOn with
  | nil => exact absurd rfl sent
  | append_singleton ms move ih =>
      obtain ⟨actions, outbox, asks⟩ :=
        asks_of_deeds (deeds_of_apply w (trailed.tidy.play w ms).sound move)
      rw [← (akin_ready _ move).outbox] at outbox
      have all : sendings w (history w p (ms ++ [move])) id =
          soFar w (history w p ms) actions id := by
        rw [history_concat]
        exact sendings_of_outbox outbox
      cases new : newly (history w p ms) actions id with
      | nil =>
          rw [all, soFar, new, List.append_nil] at sent ⊢
          obtain ⟨n, operation, le, ho, same⟩ := ih sent
          refine ⟨n, operation, ?_, ?_⟩
          · rw [List.length_append]
            exact Nat.le_add_right_of_le le
          · rw [List.take_append_of_le_length le]
            exact ⟨ho, same⟩
      | cons sending more =>
          have hm : sending ∈ newly (history w p ms) actions id := new ▸ List.mem_cons_self
          obtain ⟨action, ha, hs⟩ := List.mem_filterMap.mp hm
          obtain ⟨server, request, rfl⟩ : ∃ server request, action = .store server id request := by
            cases action with
            | store s k request =>
                simp only [Action.sending?, Option.ite_none_right_eq_some] at hs
                exact ⟨s, request, by rw [hs.1]⟩
            | _ => cases hs
          obtain ⟨operation, ho⟩ := asks ha
          refine ⟨(ms ++ [move]).length, operation, le_rfl, ?_, ?_⟩
          · rw [List.take_length, play_concat]
            exact ho
          · rw [List.take_length]

def Stood (w : World) (p : Proxy) (ms : List Move) (start : Nat) (command : Command) (root : Root)
    (id : Nat) (place : Option Nat) : Prop :=
  ∃ n operation sent, n ≤ ms.length ∧
    (play w p (ms.take n)).operations.get? id = some operation ∧
    Planned w (history w p (ms.take n)) start command root ∧
    Stems w (history w p (ms.take n)) start id ∧
    Stands w (history w p (ms.take n)) start root (play w p (ms.take n)) id operation sent ∧
    root.At (play w p (ms.take n)) operation.target place

theorem stood_of_sent (trailed : Trailed w [] p)
    (planned : Planned w (history w p ms) start command root)
    (stems : Stems w (history w p ms) start id) (sent : sendings w (history w p ms) id ≠ []) :
    ∃ place, Stood w p ms start command root id place ∧ ∃ stage request,
      Trail w (history w p ms) p.settings start id root.plan place stage request
        (sendings w (history w p ms) id) := by
  obtain ⟨n, operation, le, ho, last⟩ := waits_after_last trailed sent
  obtain ⟨start', command', root', planned', stems', stands⟩ := (trailed.play (ms.take n)).table ho
  obtain ⟨rfl, rfl, rfl⟩ := root_unique planned planned'.of_take stems stems'.of_take
  obtain ⟨place, at', trail⟩ := stands.trail
  obtain ⟨later, split⟩ := history_take w p ms n
  rw [last, settings_play] at trail
  exact ⟨place, ⟨n, operation, _, le, ho, planned', stems', stands, at'⟩, operation.stage,
    operation.request, split ▸ trail.concat later⟩

theorem stood_unique (trailed : Trailed w [] p) (sessions : Sessions w [] p)
    (balanced : Balanced p []) {place : Option Nat}
    (h : Stood w p ms start command root id place)
    (h' : Stood w p ms start command root k place) : id = k := by
  obtain ⟨m, operation, sent, lem, ho, planned, stems, stands, at'⟩ := h
  obtain ⟨n, other, sent', len, hk, planned', stems', stands', at''⟩ := h'
  have client := stands.client.trans stands'.client.symm
  cases place with
  | none =>
      have answers : ∀ {q : Proxy} {target : Target}, root.At q target none →
          target = .client root.slot := by
        intro q target at'
        cases target with
        | client slot => exact congrArg Target.client at'.1
        | fragment group index => cases at'.2
      rcases Nat.le_total m n with le | le
      · exact (eq_of_slot sessions balanced le len ho hk planned' stems stems' client (answers at')
          (answers at'')).symm
      · exact eq_of_slot sessions balanced le lem hk ho planned stems' stems client.symm
          (answers at'') (answers at')
  | some index =>
      have part : ∀ {q : Proxy} {target : Target}, root.At q target (some index) →
          ∃ group, target = .fragment group index := by
        intro q target at'
        cases target with
        | client slot => cases at'.2
        | fragment group i =>
            cases at'.2
            exact ⟨group, rfl⟩
      obtain ⟨group, target⟩ := part at'
      obtain ⟨group', target'⟩ := part at''
      -- Only the operation for a destination is begun later than the request, and it is no part.
      have begun : ∀ {q past id operation sent group}, Stands w past start root q id operation sent →
          operation.target = .fragment group index → id ∈ root.numbers := by
        intro q past id operation sent group stands target
        refine stands.begun.resolve_left ?_
        rintro ⟨slot, op, dest, sources, answers, -⟩
        rw [target] at answers
        cases answers
      exact eq_of_part trailed balanced planned.of_take stems.lt_of_take stems'.lt_of_take ho hk
        stems.of_take stems'.of_take (begun stands target) (begun stands' target') target target'

end Run

def asking (w : World) (past : History) (start : Nat) : Set Nat :=
  fun id => Stems w past start id ∧ sendings w past id ≠ []

theorem parts_of_root {w : World} {p : Proxy} {ms : List Move} {start : Nat} {command : Command}
    {root : Root} (trailed : Trailed w [] p) (sessions : Sessions w [] p)
    (balanced : Balanced p []) (planned : Planned w (history w p ms) start command root) :
    ∃ part : Nat → Option Nat, Set.InjOn part (asking w (history w p ms) start) ∧
      ∀ id ∈ asking w (history w p ms) start, ∃ stage request,
        Trail w (history w p ms) p.settings start id root.plan (part id) stage request
          (sendings w (history w p ms) id) := by
  have stood : ∀ id ∈ asking w (history w p ms) start, ∃ place,
      Stood w p ms start command root id place ∧ ∃ stage request,
        Trail w (history w p ms) p.settings start id root.plan place stage request
          (sendings w (history w p ms) id) :=
    fun id asks => stood_of_sent trailed planned asks.1 asks.2
  choose! part stood trails using stood
  refine ⟨part, ?_, trails⟩
  intro id asks k asks' same
  exact stood_unique trailed sessions balanced (stood id asks) (same ▸ stood k asks')

end ReadThrough.Proxy
