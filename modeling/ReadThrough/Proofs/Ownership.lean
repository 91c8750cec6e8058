import ReadThrough.Proofs.Balanced

namespace ReadThrough

def Command.Received (command : Command) : Prop :=
  (∃ args, ofArgs args = .ok command) ∨ ∃ value, ofValue value = .ok command

theorem Command.keys_of_ofOperands {word : CommandWord} {operands : List Bytes} {op : SetOperator}
    {dest : Option Bytes} {keys : List Bytes}
    (h : ofOperands word operands = .ok (.algebra op dest keys)) : 0 < keys.length := by
  unfold ofOperands at h
  split at h
  all_goals
    first
    | cases h
      exact Nat.succ_pos _
    | cases h
    | obtain ⟨amount, -, h⟩ := map_eq_ok h
      cases h

theorem Command.keys_of_ofArgs {args : List Bytes} {op : SetOperator} {dest : Option Bytes}
    {keys : List Bytes} (h : ofArgs args = .ok (.algebra op dest keys)) : 0 < keys.length := by
  unfold ofArgs at h
  split at h
  · cases h
  · split at h
    · exact keys_of_ofOperands h
    · cases h

theorem Command.keys_of_received {op : SetOperator} {dest : Option Bytes} {keys : List Bytes}
    (h : (algebra op dest keys).Received) : 0 < keys.length := by
  rcases h with ⟨args, h⟩ | ⟨value, h⟩
  · exact keys_of_ofArgs h
  · unfold ofValue at h
    split at h
    · obtain ⟨args, -, h⟩ := bind_eq_ok h
      exact keys_of_ofArgs h
    · cases h

namespace Proxy

inductive Owner where
  | operation (id : Nat)
  | group (id : Nat)
  deriving DecidableEq

def Owner.Owns (p : Proxy) (client slot : Nat) : Owner → Prop
  | .operation id => ∃ operation, p.operations.get? id = some operation ∧
      operation.client = client ∧ operation.target = .client slot
  | .group id => ∃ group, p.groups.table.get? id = some group ∧
      group.client = client ∧ group.context.slot = slot

def Target.part? (group : Nat) : Target → Option Nat
  | .client _ => none
  | .fragment id index => if id = group then some index else none

def partsUnderWay (p : Proxy) (group : Nat) : List Nat :=
  p.operations.entries.filterMap fun e => e.2.target.part? group

structure Accounted (p : Proxy) : Prop where
  owner : ∀ client slot, (slot, none) ∈ (p.client client).replies.slots →
    ∃! owner : Owner, owner.Owns p client slot
  lacking : ∀ id group, p.groups.table.get? id = some group →
    group.done < group.total ∧ (p.partsUnderWay id).length = group.total - group.done
  apart : ∀ id, (p.partsUnderWay id).Nodup
  free : ∀ id group slots, p.groups.table.get? id = some group → group.gathered = .sets slots →
    ∀ index ∈ p.partsUnderWay id, slots[index]? = some none
  targets : ∀ id operation group index, p.operations.get? id = some operation →
    operation.target = .fragment group index →
    ∃ g, p.groups.table.get? group = some g ∧ g.client = operation.client
  idle : p.pendingOperations = 0 →
    p.openGroups = 0 ∧ ∀ client, p.outstandingReplies client = 0

section Accounts

variable {p : Proxy}

theorem duties_nil (p : Proxy) : p.duties [] = p.operations.entries.map fun e => e.2.duty :=
  List.map_eq_flatMap.symm

theorem promises_eq (groups : OpenGroups) :
    promises groups = groups.entries.map fun e => (e.2.client, e.2.context.slot) :=
  List.map_eq_flatMap.symm

theorem partsUnderWay_eq (p : Proxy) (group : Nat) : p.partsUnderWay group =
    ((p.duties []).filterMap Duty.place?).filterMap
      fun place => if place.1 = group then some place.2 else none := by
  rw [partsUnderWay, duties_nil, List.filterMap_map, List.filterMap_filterMap]
  refine List.filterMap_congr ?_
  intro e _
  cases h : e.2.target <;> simp [Operation.duty, Duty.place?, Target.part?, h]

theorem mem_partsUnderWay {group index : Nat} : index ∈ p.partsUnderWay group ↔
    ∃ id operation, p.operations.get? id = some operation ∧
      operation.target = .fragment group index := by
  simp only [partsUnderWay, List.mem_filterMap, Table.get?_eq_some_iff]
  constructor
  · rintro ⟨⟨id, operation⟩, hm, ht⟩
    refine ⟨id, operation, hm, ?_⟩
    cases h : operation.target with
    | client slot => simp [Target.part?, h] at ht
    | fragment g i =>
        obtain ⟨rfl, rfl⟩ : g = group ∧ i = index := by simpa [Target.part?, h] using ht
        rfl
  · rintro ⟨id, operation, hm, ht⟩
    exact ⟨(id, operation), hm, by simp [Target.part?, ht]⟩

namespace Balanced

theorem length_partsUnderWay (b : Balanced p []) {id : Nat}
    {group : Fragment.Group GroupContext} (h : p.groups.table.get? id = some group) :
    (p.partsUnderWay id).length + group.done = group.total := by
  have parts := b.done id group h
  have counts : (p.partsUnderWay id).length =
      ((p.duties []).filterMap Duty.place?).countP (·.1 = id) := by
    rw [partsUnderWay_eq, List.length_filterMap_eq_countP]
    refine List.countP_congr ?_
    intro place _
    by_cases hp : place.1 = id <;> simp [hp]
  omega

theorem nodup_partsUnderWay (b : Balanced p []) (id : Nat) : (p.partsUnderWay id).Nodup := by
  rw [partsUnderWay_eq]
  refine b.nodup.filterMap ?_
  rintro ⟨g, i⟩ ⟨g', i'⟩ index h h'
  simp only [Option.mem_def, Option.ite_none_right_eq_some, Option.some.injEq] at h h'
  obtain ⟨rfl, rfl⟩ := h
  obtain ⟨rfl, rfl⟩ := h'
  rfl

theorem awaited_of_target (b : Balanced p []) {id group index : Nat} {operation : Operation}
    (h : p.operations.get? id = some operation)
    (target : operation.target = .fragment group index) :
    ∃ g, p.groups.table.get? group = some g ∧ g.client = operation.client ∧
      g.Awaits index operation.stage.yield := by
  refine b.awaited operation.client group index operation.stage.yield ?_
  rw [duties_nil, List.mem_map]
  refine ⟨(id, operation), Table.get?_eq_some_iff.mp h, ?_⟩
  simp only [Operation.duty, target]

def owners (p : Proxy) (client slot : Nat) : List Owner :=
  (p.operations.entries.filter fun e => e.2.duty.slot? = some (client, slot)).map
      (fun e => Owner.operation e.1) ++
    (p.groups.table.entries.filter fun e => (e.2.client, e.2.context.slot) = (client, slot)).map
      (fun e => Owner.group e.1)

theorem mem_owners {client slot : Nat} {owner : Owner} :
    owner ∈ owners p client slot ↔ owner.Owns p client slot := by
  cases owner with
  | operation id =>
      simp only [owners, Owner.Owns, Table.get?_eq_some_iff, List.mem_append, List.mem_map,
        List.mem_filter, Operation.slot?_duty_eq_some, decide_eq_true_eq, Owner.operation.injEq,
        reduceCtorEq, and_false, exists_false, or_false]
      constructor
      · rintro ⟨⟨k, operation⟩, ⟨hm, hs⟩, rfl⟩
        exact ⟨operation, hm, hs⟩
      · rintro ⟨operation, hm, hs⟩
        exact ⟨(id, operation), ⟨hm, hs⟩, rfl⟩
  | group id =>
      simp only [owners, Owner.Owns, Table.get?_eq_some_iff, List.mem_append, List.mem_map,
        List.mem_filter, decide_eq_true_eq, Owner.group.injEq, Prod.mk.injEq,
        reduceCtorEq, and_false, exists_false, false_or]
      constructor
      · rintro ⟨⟨k, group⟩, ⟨hm, hs⟩, rfl⟩
        exact ⟨group, hm, hs⟩
      · rintro ⟨group, hm, hs⟩
        exact ⟨(id, group), ⟨hm, hs⟩, rfl⟩

theorem length_owners (b : Balanced p []) (client slot : Nat) :
    (owners p client slot).length = (p.unfilled client).count slot := by
  have owed : ((p.duties []).filterMap Duty.slot?).count (client, slot) =
      (p.operations.entries.filter fun e => e.2.duty.slot? = some (client, slot)).length := by
    rw [duties_nil, List.filterMap_map, List.count_eq_countP, List.countP_filterMap,
      List.countP_eq_length_filter]
    congr 1
    refine List.filter_congr ?_
    intro e _
    cases h : e.2.duty.slot? <;> simp [h, Bool.beq_eq_decide_eq]
  have promised : (promises p.groups.table).count (client, slot) =
      (p.groups.table.entries.filter
        fun e => (e.2.client, e.2.context.slot) = (client, slot)).length := by
    rw [promises_eq, List.count_eq_countP, List.countP_map, List.countP_eq_length_filter]
    simp only [Function.comp_def, Bool.beq_eq_decide_eq]
  rw [← b.slots client slot, List.count_append, owed, promised, owners, List.length_append,
    List.length_map, List.length_map]

theorem waits_of_owns (b : Balanced p []) {client slot : Nat} {owner : Owner}
    (owns : owner.Owns p client slot) : (slot, none) ∈ (p.client client).replies.slots := by
  have some : 0 < (p.unfilled client).count slot := by
    rw [← b.length_owners]
    exact List.length_pos_of_mem (mem_owners.mpr owns)
  exact ReplyQueue.mem_unfilled.mp (List.count_pos_iff.mp some)

theorem existsUnique_owner (b : Balanced p []) {client slot : Nat}
    (contiguous : (p.client client).replies.Contiguous)
    (waits : (slot, none) ∈ (p.client client).replies.slots) :
    ∃! owner : Owner, owner.Owns p client slot := by
  have one : (owners p client slot).length = 1 := by
    rw [b.length_owners]
    exact List.count_eq_one_of_mem contiguous.nodup_unfilled (ReplyQueue.mem_unfilled.mpr waits)
  obtain ⟨owner, h⟩ := List.length_eq_one_iff.mp one
  refine ⟨owner, mem_owners.mp (by simp [h]), ?_⟩
  intro other ho
  have listed := mem_owners.mpr ho
  rwa [h, List.mem_singleton] at listed

end Balanced

theorem accounted_of_balanced (t : Tidy p []) (b : Balanced p []) (unfinished : Unfinished p) :
    Accounted p := by
  have owner : ∀ client slot, (slot, none) ∈ (p.client client).replies.slots →
      ∃! owner : Owner, owner.Owns p client slot := by
    intro client slot waits
    exact b.existsUnique_owner (t.contiguous client) waits
  have lacking : ∀ id group, p.groups.table.get? id = some group →
      group.done < group.total ∧ (p.partsUnderWay id).length = group.total - group.done := by
    intro id group h
    have incomplete := (unfinished id (t.group_lt h)).2 group h
    have parts := b.length_partsUnderWay h
    simp only [Fragment.Group.isComplete, decide_eq_false_iff_not] at incomplete
    omega
  refine ⟨owner, lacking, b.nodup_partsUnderWay, ?_, ?_, ?_⟩
  · intro id group slots h gathered index hm
    obtain ⟨number, operation, ho, target⟩ := mem_partsUnderWay.mp hm
    obtain ⟨g, hg, -, awaits⟩ := b.awaited_of_target ho target
    obtain rfl : g = group := Option.some.inj (hg.symm.trans h)
    simp only [Fragment.Group.Awaits, gathered] at awaits
    exact awaits.2
  · intro id operation group index ho target
    obtain ⟨g, hg, same, -⟩ := b.awaited_of_target ho target
    exact ⟨g, hg, same⟩
  -- Every group lacks a part that is under way: without operations there are no groups, and nobody
  -- owns a slot.
  · intro none
    have operations : p.operations.entries = [] := List.length_eq_zero_iff.mp none
    have groups : p.groups.table.entries = [] := by
      refine List.eq_nil_iff_forall_not_mem.mpr ?_
      rintro ⟨id, group⟩ hm
      have h := lacking id group (Table.get?_eq_some_iff.mpr hm)
      rw [partsUnderWay, operations, List.filterMap_nil, List.length_nil] at h
      omega
    refine ⟨by simp [openGroups, Fragment.Groups.size, Table.size, groups], ?_⟩
    intro client
    rw [outstandingReplies, ReplyQueue.outstanding, List.length_eq_zero_iff]
    cases hs : (p.client client).replies.slots with
    | nil => rfl
    | cons s rest =>
        obtain ⟨slot, held⟩ := s
        obtain rfl : held = Option.none := t.drained client (slot, held) (by simp [hs])
        obtain ⟨o, owns, -⟩ := owner client slot (by simp [hs])
        cases o with
        | operation id =>
            obtain ⟨operation, ho, -⟩ := owns
            simp [Table.get?_eq_some_iff, operations] at ho
        | group id =>
            obtain ⟨group, hg, -⟩ := owns
            simp [Table.get?_eq_some_iff, groups] at hg

end Accounts

theorem fits_request (client : Nat) {content : Except Failure Command}
    (received : ∀ command, content = .ok command → command.Received) :
    (Move.request client content).Fits (0 < ·) := by
  unfold Move.Fits
  split
  · next heq =>
      cases heq
      exact Command.keys_of_received (received _ rfl)
  · trivial

theorem fits_course {w : World} {p : Proxy} {events : List Event}
    (received : ∀ client command, Event.command client command ∈ events → command.Received) :
    ∀ move ∈ course w p events, move.Fits (0 < ·) := by
  intro move hm
  obtain ⟨event, he, ha⟩ := arises_of_mem_course hm
  cases ha with
  | value client data value => exact fits_request client fun command h => Or.inr ⟨value, h⟩
  | command client command =>
      refine fits_request client ?_
      intro c h
      cases h
      exact received client command he
  | _ => trivial

theorem accounted_run (w : World) (settings : Settings) (policy : BucketPolicy)
    {events : List Event}
    (received : ∀ client command, Event.command client command ∈ events → command.Received) :
    Accounted ((start settings policy).run w events) := by
  have t := Tidy.start settings policy
  have none : Unfinished (start settings policy) := by
    intro group h
    exact ⟨h, fun g hg => by cases hg⟩
  have fits : ∀ move ∈ course w (start settings policy) events, move.Fits (0 < ·) :=
    fits_course received
  have unfinished := unfinished_play w fits t none
  have balanced :=
    (Balanced.start settings policy).play t w (course w (start settings policy) events)
  have tidy := t.play w (course w (start settings policy) events)
  rw [play_course] at unfinished balanced tidy
  exact accounted_of_balanced tidy balanced unfinished

theorem accounted_run_union :
    let w : World :=
      { pool := fun _ => { pick := fun _ _ => some 0, live := fun _ => [0] }, draw := fun _ => 0 }
    let events : List Event :=
      [.command 7 (.algebra .union none [ascii "a", ascii "b"]),
        .cacheData 0 (ascii "*1\r\n$1\r\nx\r\n")]
    let p := (start {} {}).run w events
    p.pendingOperations = 1 ∧ p.openGroups = 1 ∧ p.outstandingReplies 7 = 1 ∧ Accounted p := by
  intro w events p
  refine ⟨by decide +kernel, by decide +kernel, by decide +kernel, accounted_run w {} {} ?_⟩
  intro client command h
  obtain rfl : command = .algebra .union none [ascii "a", ascii "b"] := by
    simp only [events, List.mem_cons, Event.command.injEq, List.not_mem_nil, reduceCtorEq,
      or_false] at h
    exact h.2
  exact Or.inl ⟨[ascii "SUNION", ascii "a", ascii "b"], rfl⟩

end Proxy

end ReadThrough
