import ReadThrough.Proofs.Tidy

namespace ReadThrough

def Action.toClient? (client : Nat) : Action → Option (Nat × Reply)
  | .reply c slot value => if c = client then some (slot, value) else none
  | _ => none

def repliesTo (client : Nat) (actions : List Action) : List (Nat × Option Reply) :=
  (actions.filterMap (Action.toClient? client)).map fun sent => (sent.1, some sent.2)

theorem repliesTo_append (client : Nat) (before after : List Action) :
    repliesTo client (before ++ after) = repliesTo client before ++ repliesTo client after := by
  simp [repliesTo]

theorem repliesTo_map (client c : Nat) (ready : List (Nat × Reply)) :
    repliesTo c (ready.map fun s => .reply client s.1 s.2) =
      if c = client then ready.map fun s => (s.1, some s.2) else [] := by
  by_cases h : c = client
  · subst h
    simp [repliesTo, List.filterMap_map, Action.toClient?, Function.comp_def]
  · simp [repliesTo, List.filterMap_map, Action.toClient?, Function.comp_def, h, Ne.symm h]

namespace Proxy

def slots (p : Proxy) (client : Nat) : List (Nat × Option Reply) :=
  (p.client client).replies.slots

structure Refills (mine : Nat → Prop) (old new : List (Nat × Option Reply)) : Prop where
  keys : new.map Prod.fst = old.map Prod.fst
  filled : ∀ {slot value}, (slot, some value) ∈ new →
    (slot, some value) ∈ old ∨ ((slot, none) ∈ old ∧ mine slot)
  unfilled : ∀ {slot}, (slot, none) ∈ new → (slot, none) ∈ old

namespace Refills

variable {mine : Nat → Prop} {old mid new sent : List (Nat × Option Reply)}

theorem refl : Refills mine old old := ⟨rfl, Or.inl, id⟩

theorem trans (h : Refills mine old (sent ++ mid)) (h' : Refills mine mid new) :
    Refills mine old (sent ++ new) where
  keys := by rw [← h.keys, List.map_append, List.map_append, h'.keys]
  filled hm := by
    rcases List.mem_append.mp hm with hm | hm
    · exact h.filled (List.mem_append_left _ hm)
    · rcases h'.filled hm with hm | ⟨hm, own⟩
      · exact h.filled (List.mem_append_right _ hm)
      · exact Or.inr ⟨h.unfilled (List.mem_append_right _ hm), own⟩
  unfilled hm := by
    rcases List.mem_append.mp hm with hm | hm
    · exact h.unfilled (List.mem_append_left _ hm)
    · exact h.unfilled (List.mem_append_right _ (h'.unfilled hm))

theorem of_fill? {queue filled : ReplyQueue Reply} {slot : Nat} {value : Reply}
    (h : queue.fill? slot value = some filled) (own : mine slot) :
    Refills mine queue.slots filled.slots := by
  obtain ⟨before, after, hs, -, rfl⟩ := ReplyQueue.fill?_eq_some_iff.mp h
  rw [hs]
  refine ⟨by simp, ?_, ?_⟩
  · intro s v hm
    rcases List.mem_append.mp hm with hm | hm
    · exact Or.inl (List.mem_append_left _ hm)
    · rcases List.mem_cons.mp hm with he | hm
      · cases he
        exact Or.inr ⟨by simp, own⟩
      · exact Or.inl (List.mem_append_right _ (List.mem_cons_of_mem _ hm))
  · intro s hm
    rcases List.mem_append.mp hm with hm | hm
    · exact List.mem_append_left _ hm
    · rcases List.mem_cons.mp hm with he | hm
      · cases he
      · exact List.mem_append_right _ (List.mem_cons_of_mem _ hm)

end Refills

def Duty.IsFor (p : Proxy) (client slot : Nat) : Duty → Prop
  | .reply c s => c = client ∧ s = slot
  | .part c id _ _ => c = client ∧ id < p.groups.next ∧
      ∀ group, p.groups.table.get? id = some group →
        group.client = client ∧ group.context.slot = slot

def Duty.OwedTo (mine : Nat → Nat → Prop) (p : Proxy) (duty : Duty) : Prop :=
  ∃ client slot, mine client slot ∧ duty.IsFor p client slot

structure Serves (mine : Nat → Nat → Prop) (p : Proxy) (hand : Hand) (q : Proxy) (left : Hand) :
    Prop where
  next_le : p.nextOperation ≤ q.nextOperation
  groups_le : p.groups.next ≤ q.groups.next
  numbers : ∀ {id}, id ∈ left.numbers → id ∈ hand.numbers ∨ p.nextOperation ≤ id
  owed : ∀ entry ∈ left, entry.2.OwedTo mine q
  operations : ∀ {id operation}, q.operations.get? id = some operation →
    p.operations.get? id = some operation ∨
      ((id ∈ hand.numbers ∨ p.nextOperation ≤ id) ∧ operation.duty.OwedTo mine q)
  groups : ∀ {id group}, q.groups.table.get? id = some group →
    (∃ old, p.groups.table.get? id = some old ∧ old.client = group.client ∧
        old.context = group.context) ∨
      (p.groups.next ≤ id ∧ mine group.client group.context.slot)
  next : ∀ client, (q.client client).replies.next = (p.client client).replies.next
  replies : ∃ actions, q.outbox = p.outbox ++ actions ∧ ∀ client,
    Refills (mine client) (p.slots client) (repliesTo client actions ++ q.slots client)

section Serves

variable {mine : Nat → Nat → Prop} {p q r : Proxy} {hand left rest : Hand} {duty : Duty}
  {client slot : Nat}

theorem Duty.IsFor.client_eq (h : duty.IsFor p client slot) : duty.client = client := by
  cases duty with
  | reply c s => exact h.1
  | part c id index yield => exact h.1

theorem Duty.owedTo_congr (same : q.groups = p.groups) :
    duty.OwedTo mine q ↔ duty.OwedTo mine p := by
  cases duty with
  | reply c s => exact Iff.rfl
  | part c id index yield => simp only [OwedTo, IsFor, same]

theorem Duty.IsFor.mono (h : duty.IsFor p client slot)
    (groups_le : p.groups.next ≤ q.groups.next)
    (groups : ∀ {id group}, q.groups.table.get? id = some group →
      (∃ old, p.groups.table.get? id = some old ∧ old.client = group.client ∧
          old.context = group.context) ∨
        p.groups.next ≤ id) : duty.IsFor q client slot := by
  cases duty with
  | reply c s => exact h
  | part c id index yield =>
      obtain ⟨hc, lt, owner⟩ := h
      refine ⟨hc, Nat.lt_of_lt_of_le lt groups_le, ?_⟩
      intro group hg
      rcases groups hg with ⟨old, ho, same, context⟩ | le
      · rw [← same, ← context]
        exact owner old ho
      · exact absurd lt (Nat.not_lt.mpr le)

namespace Serves

theorem mono (h : Serves mine p hand q left) {other : Nat → Nat → Prop}
    (owed : duty.OwedTo other p) : duty.OwedTo other q := by
  obtain ⟨client, slot, own, isFor⟩ := owed
  refine ⟨client, slot, own, isFor.mono h.groups_le ?_⟩
  intro id group hg
  exact (h.groups hg).imp_right And.left

theorem refl (serves : ∀ entry ∈ hand, entry.2.OwedTo mine p) : Serves mine p hand p hand where
  next_le := Nat.le_refl _
  groups_le := Nat.le_refl _
  numbers := Or.inl
  owed := serves
  operations := Or.inl
  groups hg := Or.inl ⟨_, hg, rfl, rfl⟩
  next _ := rfl
  replies := ⟨[], (List.append_nil _).symm, fun _ => .refl⟩

theorem trans (h : Serves mine p hand q left) (h' : Serves mine q left r rest) :
    Serves mine p hand r rest where
  next_le := Nat.le_trans h.next_le h'.next_le
  groups_le := Nat.le_trans h.groups_le h'.groups_le
  numbers hm := by
    rcases h'.numbers hm with hm | le
    · exact h.numbers hm
    · exact Or.inr (Nat.le_trans h.next_le le)
  owed := h'.owed
  operations := by
    intro id operation ho
    rcases h'.operations ho with ho | ⟨hm | le, serves⟩
    · rcases h.operations ho with ho | ⟨new, serves⟩
      · exact Or.inl ho
      · exact Or.inr ⟨new, h'.mono serves⟩
    · exact Or.inr ⟨h.numbers hm, serves⟩
    · exact Or.inr ⟨Or.inr (Nat.le_trans h.next_le le), serves⟩
  groups := by
    intro id group hg
    rcases h'.groups hg with ⟨mid, hm, client, context⟩ | ⟨le, own⟩
    · rcases h.groups hm with ⟨old, ho, client', context'⟩ | ⟨le, own⟩
      · exact Or.inl ⟨old, ho, client'.trans client, context'.trans context⟩
      · exact Or.inr ⟨le, client ▸ context ▸ own⟩
    · exact Or.inr ⟨Nat.le_trans h.groups_le le, own⟩
  next client := (h'.next client).trans (h.next client)
  replies := by
    obtain ⟨actions, outbox, refills⟩ := h.replies
    obtain ⟨more, outbox', refills'⟩ := h'.replies
    refine ⟨actions ++ more, by rw [outbox', outbox, List.append_assoc], ?_⟩
    intro client
    rw [repliesTo_append, List.append_assoc]
    exact (refills client).trans (refills' client)

theorem withGroups {groups : Fragment.Groups GroupContext} (le : p.groups.next ≤ groups.next)
    (same : ∀ {id group}, groups.table.get? id = some group →
      (∃ old, p.groups.table.get? id = some old ∧ old.client = group.client ∧
          old.context = group.context) ∨
        (p.groups.next ≤ id ∧ mine group.client group.context.slot))
    (numbers : ∀ {id}, id ∈ left.numbers → id ∈ hand.numbers)
    (owed : ∀ entry ∈ left, entry.2.OwedTo mine p ∨ entry.2.OwedTo mine { p with groups }) :
    Serves mine p hand { p with groups } left where
  next_le := Nat.le_refl _
  groups_le := le
  numbers hm := Or.inl (numbers hm)
  owed := by
    intro entry hm
    rcases owed entry hm with ⟨client, slot, own, isFor⟩ | owed
    · exact ⟨client, slot, own, isFor.mono le fun hg => (same hg).imp_right And.left⟩
    · exact owed
  operations := Or.inl
  groups := same
  next _ := rfl
  replies := ⟨[], (List.append_nil _).symm, fun _ => .refl⟩

theorem of_eq (serves : ∀ entry ∈ left, entry.2.OwedTo mine q)
    (numbers : ∀ {id}, id ∈ left.numbers → id ∈ hand.numbers ∨ p.nextOperation ≤ id)
    (next : p.nextOperation ≤ q.nextOperation)
    (operations : ∀ {id operation}, q.operations.get? id = some operation →
      p.operations.get? id = some operation ∨
        ((id ∈ hand.numbers ∨ p.nextOperation ≤ id) ∧ operation.duty.OwedTo mine q))
    (clients : q.clients = p.clients) (groups : q.groups = p.groups)
    {actions : List Action} (outbox : q.outbox = p.outbox ++ actions)
    (silent : ∀ client, repliesTo client actions = []) : Serves mine p hand q left where
  next_le := next
  groups_le := Nat.le_of_eq (by rw [groups])
  numbers := numbers
  owed := serves
  operations := operations
  groups hg := Or.inl ⟨_, groups ▸ hg, rfl, rfl⟩
  next client := by simp only [Proxy.client, clients]
  replies := by
    refine ⟨actions, outbox, ?_⟩
    intro client
    have same : q.slots client = p.slots client := by simp only [slots, Proxy.client, clients]
    rw [silent, same]
    exact .refl

theorem reply {number : Option Nat} (value : Reply)
    (serves : ∀ entry ∈ (number, Duty.reply client slot) :: hand, entry.2.OwedTo mine p) :
    Serves mine p ((number, .reply client slot) :: hand) (p.reply client slot value) hand := by
  have rest : ∀ entry ∈ hand, entry.2.OwedTo mine p :=
    fun entry hm => serves entry (List.mem_cons_of_mem _ hm)
  have numbers := (numbers_cons_sublist number (.reply client slot) hand).subset
  obtain ⟨c, s, own, rfl, rfl⟩ := serves _ List.mem_cons_self
  rcases reply_cases p client slot value with ⟨-, what, h⟩ | ⟨filled, hf, h⟩
  · rw [h]
    exact of_eq rest (fun hm => Or.inl (numbers hm)) (Nat.le_refl _) Or.inl rfl rfl
      (List.append_nil _).symm fun _ => rfl
  · rw [h]
    refine ⟨Nat.le_refl _, Nat.le_refl _, fun hm => Or.inl (numbers hm), rest, Or.inl,
      fun hg => Or.inl ⟨_, hg, rfl, rfl⟩, ?_, _, rfl, ?_⟩
    · intro c
      rw [client_insert]
      split
      · next hc =>
          subst hc
          obtain ⟨before, after, -, -, rfl⟩ := ReplyQueue.fill?_eq_some_iff.mp hf
          rfl
      · rfl
    · intro c
      rw [repliesTo_map, slots, slots, client_insert]
      split
      · next hc =>
          subst hc
          rw [ReplyQueue.drain_append]
          exact .of_fill? hf own
      · exact .refl

theorem enter {id : Nat} {operation : Operation} {actions : List Action}
    (serves : ∀ entry ∈ (some id, operation.duty) :: hand, entry.2.OwedTo mine p)
    (next : q.nextOperation = p.nextOperation)
    (operations : q.operations = p.operations.insert id operation)
    (clients : q.clients = p.clients) (groups : q.groups = p.groups)
    (outbox : q.outbox = p.outbox ++ actions)
    (silent : ∀ client, repliesTo client actions = []) :
    Serves mine p ((some id, operation.duty) :: hand) q hand := by
  have serves : ∀ entry ∈ (some id, operation.duty) :: hand, entry.2.OwedTo mine q :=
    fun entry hm => (Duty.owedTo_congr groups).mpr (serves entry hm)
  refine of_eq (fun entry hm => serves entry (List.mem_cons_of_mem _ hm))
    (fun hm => Or.inl (List.mem_cons_of_mem _ hm)) (Nat.le_of_eq next.symm) ?_ clients groups
    outbox silent
  intro k found hf
  rw [operations] at hf
  rcases Table.get?_insert_eq_some_iff.mp hf with ⟨rfl, rfl⟩ | ⟨-, hf⟩
  · exact Or.inr ⟨Or.inl List.mem_cons_self, serves _ List.mem_cons_self⟩
  · exact Or.inl hf

theorem bring {number : Option Nat} {id index : Nat} {yield : Yield} {part : Fragment.Part}
    (accepts : p.groups.accepts id part = true)
    (serves : ∀ entry ∈ (number, Duty.part client id index yield) :: hand,
      entry.2.OwedTo mine p) :
    Serves mine p ((number, .part client id index yield) :: hand)
      { p with groups := (p.groups.contribute id part).2 }
      (Proxy.owed (p.groups.contribute id part).1 ++ hand) := by
  obtain ⟨c, s, own, rfl, -, isFor⟩ := serves _ List.mem_cons_self
  refine withGroups (Nat.le_of_eq (p.groups.next_contribute id part).symm)
    (fun hg => Or.inl (Fragment.Groups.origin_of_contribute accepts hg)) ?_ ?_
  · intro k hm
    rw [numbers_owed] at hm
    exact (numbers_cons_sublist number _ hand).subset hm
  · intro entry hm
    rcases List.mem_append.mp hm with new | hm
    · obtain ⟨done, hd, rfl⟩ := done_of_owed new
      obtain ⟨old, ho, -, same, context⟩ := Fragment.Groups.origin_of_completed accepts hd
      obtain ⟨rfl, rfl⟩ := isFor old ho
      exact Or.inl ⟨old.client, old.context.slot, own, same.symm, congrArg _ context.symm⟩
    · exact Or.inl (serves entry (List.mem_cons_of_mem _ hm))

theorem gather {total : Nat} {gathered : Fragment.Gathered} {context : GroupContext}
    {yield : Yield}
    (serves : ∀ entry ∈ (none, Duty.reply client context.slot) :: hand,
      entry.2.OwedTo mine p) :
    Serves mine p ((none, .reply client context.slot) :: hand)
      (p.openGroup client total gathered context).2
      (parts client p.groups.next total yield ++ hand) := by
  obtain ⟨c, s, own, rfl, rfl⟩ := serves _ List.mem_cons_self
  refine withGroups (Nat.le_succ _) ?_ ?_ ?_
  · intro k group hg
    rcases Fragment.Groups.get?_openGroup hg with ⟨rfl, rfl⟩ | hg
    · exact Or.inr ⟨Nat.le_refl _, own⟩
    · exact Or.inl ⟨group, hg, rfl, rfl⟩
  · intro k hm
    rwa [numbers_parts] at hm
  · intro entry hm
    rcases List.mem_append.mp hm with hm | hm
    · obtain ⟨index, -, rfl⟩ := List.mem_map.mp hm
      refine Or.inr ⟨client, context.slot, own, rfl, Nat.lt_succ_self _, ?_⟩
      intro group hg
      cases (Table.get?_insert_self p.groups.table p.groups.next _).symm.trans hg
      exact ⟨rfl, rfl⟩
    · exact Or.inl (serves entry (List.mem_cons_of_mem _ hm))

theorem deed {fan : Nat → Prop} {a b : Proxy × Hand} (h : Deed fan a b)
    (owed : ∀ entry ∈ a.2, entry.2.OwedTo mine a.1) : Serves mine a.1 a.2 b.1 b.2 := by
  cases h with
  | @quiet p q hand same =>
      refine of_eq ?_ Or.inl (Nat.le_of_eq same.nextOperation.symm) ?_ same.clients same.groups
        (same.outbox.trans (List.append_nil _).symm) fun _ => rfl
      · exact fun entry hm => (Duty.owedTo_congr same.groups).mpr (owed entry hm)
      · exact fun ho => Or.inl (same.operations ▸ ho)
  | @number p hand duty =>
      refine of_eq ?_ ?_ (Nat.le_succ _) Or.inl rfl rfl (List.append_nil _).symm fun _ => rfl
      · intro entry hm
        rcases List.mem_cons.mp hm with rfl | hm
        · exact owed (none, duty) List.mem_cons_self
        · exact owed entry (List.mem_cons_of_mem _ hm)
      · intro id hm
        rcases List.mem_cons.mp hm with rfl | hm
        · exact Or.inr (Nat.le_refl _)
        · exact Or.inl hm
  | sideEffect server command =>
      exact of_eq owed Or.inl (Nat.le_refl _) Or.inl rfl rfl rfl fun _ => rfl
  | lookUp | request => exact enter owed rfl rfl rfl rfl rfl fun _ => rfl
  | reply value => exact .reply value owed
  | bring brings accepts => exact bring accepts owed
  | refuse brings accepts =>
      refine of_eq ?_ ?_ (Nat.le_refl _) Or.inl rfl rfl (List.append_nil _).symm fun _ => rfl
      · exact fun entry hm => owed entry (List.mem_cons_of_mem _ hm)
      · exact fun hm => Or.inl ((numbers_cons_sublist _ _ _).subset hm)
  | gather => exact gather owed
  | gatherNothing =>
      exact withGroups (Nat.le_succ _)
        (fun hg => Or.inl ⟨_, (Table.get?_erase_eq_some_iff.mp hg).2, rfl, rfl⟩) id
        fun entry hm => Or.inl (owed entry hm)

theorem deeds {fan : Nat → Prop} {a b : Proxy × Hand}
    (h : Relation.ReflTransGen (Deed fan) a b)
    (owed : ∀ entry ∈ a.2, entry.2.OwedTo mine a.1) : Serves mine a.1 a.2 b.1 b.2 := by
  induction h with
  | refl => exact .refl owed
  | tail _ step ih => exact ih.trans (.deed step ih.owed)

end Serves

end Serves

end Proxy

end ReadThrough
