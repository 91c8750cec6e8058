import ReadThrough.Proofs.Opening

namespace ReadThrough.Proxy

def Hand.numbers (hand : Hand) : List Nat :=
  hand.filterMap Prod.fst

@[simp] theorem numbers_nil : Hand.numbers [] = [] := rfl

@[simp] theorem numbers_none (duty : Duty) (hand : Hand) :
    Hand.numbers ((none, duty) :: hand) = hand.numbers := rfl

@[simp] theorem numbers_some (id : Nat) (duty : Duty) (hand : Hand) :
    Hand.numbers ((some id, duty) :: hand) = id :: hand.numbers := rfl

theorem numbers_cons_sublist (number : Option Nat) (duty : Duty) (hand : Hand) :
    hand.numbers.Sublist (Hand.numbers ((number, duty) :: hand)) := by
  cases number with
  | none => exact .refl _
  | some id => exact List.sublist_cons_self id _

@[simp] theorem numbers_owed (done : Option (Fragment.Group GroupContext)) (hand : Hand) :
    Hand.numbers (owed done ++ hand) = hand.numbers := by
  cases done <;> rfl

@[simp] theorem numbers_parts (client group total : Nat) (yield : Yield) (hand : Hand) :
    Hand.numbers (parts client group total yield ++ hand) = hand.numbers := by
  simp [Hand.numbers, parts, List.filterMap_append, List.filterMap_map]

theorem client_insert (p : Proxy) (c client : Nat) (link : ClientLink) (outbox : List Action) :
    ({ p with clients := p.clients.insert c link, outbox : Proxy }).client client =
      if client = c then link else p.client client := by
  simp only [Proxy.client, Table.get?_insert]
  split <;> rfl

theorem client_setClient (p : Proxy) (c client : Nat) (link : ClientLink) :
    (p.setClient c link).client client = if client = c then link else p.client client :=
  client_insert p c client link p.outbox

section ClientClosed

variable {p : Proxy} {client id : Nat}

theorem get?_operations_clientClosed {operation : Operation} :
    (p.clientClosed client).operations.get? id = some operation ↔
      p.operations.get? id = some operation ∧ operation.client ≠ client := by
  simp only [clientClosed, Table.get?_filter, Option.filter_eq_some_iff, decide_eq_true_eq]

theorem get?_groups_clientClosed {group : Fragment.Group GroupContext} :
    (p.clientClosed client).groups.table.get? id = some group ↔
      p.groups.table.get? id = some group ∧ group.client ≠ client := by
  simp only [clientClosed, Fragment.Groups.abandon, Table.get?_filter, Option.filter_eq_some_iff,
    decide_eq_true_eq]

theorem client_clientClosed (p : Proxy) (client c : Nat) :
    (p.clientClosed client).client c = if c = client then {} else p.client c := by
  simp only [clientClosed, Proxy.client, Table.get?_erase]
  split <;> rfl

end ClientClosed

structure Tidy (p : Proxy) (hand : Hand) : Prop where
  sound : SoundOperations p
  operation_lt : ∀ {id operation}, p.operations.get? id = some operation → id < p.nextOperation
  group_lt : ∀ {id group}, p.groups.table.get? id = some group → id < p.groups.next
  number_lt : ∀ {id}, id ∈ hand.numbers → id < p.nextOperation
  numbers_nodup : hand.numbers.Nodup
  numbers_apart : ∀ {id}, id ∈ hand.numbers → p.operations.get? id = none
  contiguous : ∀ client, (p.client client).replies.Contiguous
  drained : ∀ client, (p.client client).replies.Drained

namespace Tidy

variable {fan : Nat → Prop} {p q : Proxy} {hand left : Hand}

theorem of_eq (t : Tidy p hand) (operations : q.operations = p.operations)
    (next : q.nextOperation = p.nextOperation) (clients : q.clients = p.clients)
    (groups : q.groups = p.groups) : Tidy q hand := by
  have client : q.client = p.client := by
    funext c
    simp only [Proxy.client, clients]
  refine ⟨?_, ?_, ?_, ?_, t.numbers_nodup, ?_, ?_, ?_⟩
  · intro id operation h
    exact t.sound id operation (operations ▸ h)
  · intro id operation h
    rw [operations] at h
    exact next ▸ t.operation_lt h
  · intro id group h
    rw [groups] at h ⊢
    exact t.group_lt h
  · intro id hm
    exact next ▸ t.number_lt hm
  · intro id hm
    exact operations ▸ t.numbers_apart hm
  · intro c
    exact client ▸ t.contiguous c
  · intro c
    exact client ▸ t.drained c

theorem of_sublist (t : Tidy p hand) (h : left.numbers.Sublist hand.numbers) : Tidy p left where
  sound := t.sound
  operation_lt := t.operation_lt
  group_lt := t.group_lt
  number_lt hm := t.number_lt (h.subset hm)
  numbers_nodup := h.nodup t.numbers_nodup
  numbers_apart hm := t.numbers_apart (h.subset hm)
  contiguous := t.contiguous
  drained := t.drained

theorem tail {number : Option Nat} {duty : Duty} (t : Tidy p ((number, duty) :: hand)) :
    Tidy p hand :=
  t.of_sublist (numbers_cons_sublist number duty hand)

theorem operation_fresh (t : Tidy p hand) : p.operations.get? p.nextOperation = none :=
  Option.eq_none_iff_forall_ne_some.mpr fun _ ho => Nat.lt_irrefl _ (t.operation_lt ho)

theorem group_fresh (t : Tidy p hand) : p.groups.table.get? p.groups.next = none :=
  Option.eq_none_iff_forall_ne_some.mpr fun _ hg => Nat.lt_irrefl _ (t.group_lt hg)

theorem newOperation {duty : Duty} (t : Tidy p ((none, duty) :: hand)) :
    Tidy p.newOperation.2 ((some p.nextOperation, duty) :: hand) where
  sound := t.sound
  operation_lt h := Nat.lt_succ_of_lt (t.operation_lt h)
  group_lt := t.group_lt
  number_lt hm := by
    rcases List.mem_cons.mp hm with rfl | hm
    · exact Nat.lt_succ_self _
    · exact Nat.lt_succ_of_lt (t.number_lt hm)
  numbers_nodup := by
    refine List.nodup_cons.mpr ⟨fun hm => ?_, t.numbers_nodup⟩
    exact Nat.lt_irrefl _ (t.number_lt hm)
  numbers_apart hm := by
    rcases List.mem_cons.mp hm with rfl | hm
    · exact t.operation_fresh
    · exact t.numbers_apart hm
  contiguous := t.contiguous
  drained := t.drained

theorem addOperation {id : Nat} {duty : Duty} {operation : Operation}
    (t : Tidy p ((some id, duty) :: hand)) (sound : operation.Sound) :
    Tidy (p.addOperation id operation) hand where
  sound := by
    intro k o h
    rcases Table.get?_insert_eq_some_iff.mp h with ⟨-, rfl⟩ | ⟨-, h⟩
    · exact sound
    · exact t.sound k o h
  operation_lt := by
    intro k o h
    rcases Table.get?_insert_eq_some_iff.mp h with ⟨rfl, -⟩ | ⟨-, h⟩
    · exact t.number_lt List.mem_cons_self
    · exact t.operation_lt h
  group_lt := t.group_lt
  number_lt hm := t.tail.number_lt hm
  numbers_nodup := t.tail.numbers_nodup
  numbers_apart := by
    intro k hm
    have ne : k ≠ id := by
      rintro rfl
      exact (List.nodup_cons.mp t.numbers_nodup).1 hm
    exact (Table.get?_insert_of_ne _ _ ne).trans (t.tail.numbers_apart hm)
  contiguous := t.contiguous
  drained := t.drained

theorem reply (t : Tidy p hand) (client slot : Nat) (value : Reply) :
    Tidy (p.reply client slot value) hand := by
  rcases reply_cases p client slot value with ⟨-, what, h⟩ | ⟨filled, hf, h⟩
  · rw [h]
    exact t.of_eq rfl rfl rfl rfl
  · rw [h]
    refine ⟨t.sound, t.operation_lt, t.group_lt, t.number_lt, t.numbers_nodup, t.numbers_apart,
      ?_, ?_⟩
    · intro c
      rw [client_insert]
      split
      · exact ((t.contiguous client).fill? hf).drain
      · exact t.contiguous c
    · intro c
      rw [client_insert]
      split
      · exact ReplyQueue.drained_drain
      · exact t.drained c

theorem withGroups (t : Tidy p hand) {groups : Fragment.Groups GroupContext}
    (lt : ∀ {id group}, groups.table.get? id = some group → id < groups.next) :
    Tidy { p with groups } hand :=
  ⟨t.sound, t.operation_lt, lt, t.number_lt, t.numbers_nodup, t.numbers_apart, t.contiguous,
    t.drained⟩

theorem deed {a b : Proxy × Hand} (h : Deed fan a b) (t : Tidy a.1 a.2) : Tidy b.1 b.2 := by
  cases h with
  | quiet same => exact t.of_eq same.operations same.nextOperation same.clients same.groups
  | number => exact t.newOperation
  | sideEffect server command => exact t.of_eq rfl rfl rfl rfl
  | @lookUp p hand id operation read server stage sound =>
      have asked : Tidy (p.ask server (.operation id) read.lookup)
          ((some id, operation.duty) :: hand) := t.of_eq rfl rfl rfl rfl
      exact asked.addOperation sound
  | @request p hand id operation request server sent sound =>
      exact (t.addOperation sound).of_eq rfl rfl rfl rfl
  | reply value => exact t.tail.reply _ _ value
  | @bring p hand number client id index yield part brings accepts =>
      have same : Tidy p (owed (p.groups.contribute id part).1 ++ hand) :=
        t.tail.of_sublist (by rw [numbers_owed])
      refine same.withGroups ?_
      intro k g hk
      obtain ⟨old, ho, -⟩ := Fragment.Groups.origin_of_contribute accepts hk
      rw [Fragment.Groups.next_contribute]
      exact t.group_lt ho
  | refuse brings accepts => exact t.tail.of_eq rfl rfl rfl rfl
  | @gather p hand client total gathered context yield fits begins =>
      have same : Tidy p (parts client p.groups.next total yield ++ hand) :=
        t.tail.of_sublist (by rw [numbers_parts])
      refine same.withGroups ?_
      intro k g hk
      rcases Fragment.Groups.get?_openGroup hk with ⟨rfl, -⟩ | hk
      · exact Nat.lt_succ_self _
      · exact Nat.lt_succ_of_lt (t.group_lt hk)
  | gatherNothing =>
      refine t.withGroups ?_
      intro k g hk
      exact Nat.lt_succ_of_lt (t.group_lt (Table.get?_erase_eq_some_iff.mp hk).2)

theorem deeds {a b : Proxy × Hand} (h : Relation.ReflTransGen (Deed fan) a b)
    (t : Tidy a.1 a.2) : Tidy b.1 b.2 := by
  induction h with
  | refl => exact t
  | tail _ deed ih => exact ih.deed deed

theorem setClient (t : Tidy p hand) {client : Nat} {link : ClientLink}
    (contiguous : link.replies.Contiguous) (drained : link.replies.Drained) :
    Tidy (p.setClient client link) hand := by
  refine ⟨t.sound, t.operation_lt, t.group_lt, t.number_lt, t.numbers_nodup, t.numbers_apart,
    ?_, ?_⟩
  · intro c
    rw [client_setClient]
    split
    · exact contiguous
    · exact t.contiguous c
  · intro c
    rw [client_setClient]
    split
    · exact drained
    · exact t.drained c

theorem resumed (t : Tidy p []) (id : Nat) : Tidy (p.resumed id).1 (p.resumed id).2 := by
  rcases p.resumed_cases id with ⟨-, h⟩ | ⟨operation, ho, h⟩
  · rw [h]
    exact t
  · rw [h]
    refine ⟨?_, ?_, t.group_lt, ?_, List.pairwise_singleton _ id, ?_, t.contiguous, t.drained⟩
    · intro k o hk
      exact t.sound k o (Table.get?_erase_eq_some_iff.mp hk).2
    · intro k o hk
      exact t.operation_lt (Table.get?_erase_eq_some_iff.mp hk).2
    · intro k hk
      rw [List.mem_singleton.mp hk]
      exact t.operation_lt ho
    · intro k hk
      rw [List.mem_singleton.mp hk]
      exact Table.get?_erase_self _ _

theorem clientClosed (t : Tidy p hand) (client : Nat) : Tidy (p.clientClosed client) hand := by
  refine ⟨?_, ?_, ?_, t.number_lt, t.numbers_nodup, ?_, ?_, ?_⟩
  · intro id operation h
    obtain ⟨ho, -⟩ := get?_operations_clientClosed.mp h
    exact t.sound id operation ho
  · intro id operation h
    obtain ⟨ho, -⟩ := get?_operations_clientClosed.mp h
    exact t.operation_lt ho
  · intro id group h
    obtain ⟨hg, -⟩ := get?_groups_clientClosed.mp h
    exact t.group_lt hg
  · intro id hm
    cases h : (p.clientClosed client).operations.get? id with
    | none => rfl
    | some operation =>
        obtain ⟨ho, -⟩ := get?_operations_clientClosed.mp h
        rw [t.numbers_apart hm] at ho
        cases ho
  · intro c
    rw [client_clientClosed]
    split
    · exact ReplyQueue.contiguous_empty
    · exact t.contiguous c
  · intro c
    rw [client_clientClosed]
    split
    · simp [ReplyQueue.Drained]
    · exact t.drained c

theorem prepare (t : Tidy p []) (move : Move) : Tidy (move.prepare p) (move.incoming p) := by
  cases move with
  | hold client rest => exact t.setClient (t.contiguous client) (t.drained client)
  | request client content =>
      exact (t.setClient (t.contiguous client).reserve (t.drained client).reserve).of_sublist
        (.refl _)
  | hangUp client => exact t.clientClosed client
  | cacheAnswer server value =>
      simp only [Move.prepare]
      split <;> exact t.of_eq rfl rfl rfl rfl
  | storeAnswer server frame =>
      simp only [Move.prepare]
      split <;> exact t.of_eq rfl rfl rfl rfl
  | _ => exact t.of_eq rfl rfl rfl rfl

theorem opening (t : Tidy p []) (move : Move) :
    Tidy (move.opening p).1 (move.opening p).2 := by
  have prepared := t.prepare move
  rcases Move.opening_cases p move with h | ⟨id, -, none, h⟩
  · rw [h]
    exact prepared
  · rw [none] at prepared
    rw [h]
    exact prepared.resumed id

theorem apply (t : Tidy p []) (w : World) (move : Move) : Tidy (move.apply w p) [] := by
  exact (t.opening move).deeds (deeds_of_apply w t.sound move)

theorem play (t : Tidy p []) (w : World) (moves : List Move) : Tidy (play w p moves) [] := by
  induction moves generalizing p with
  | nil => exact t
  | cons move moves ih => exact ih (t.apply w move)

theorem start (settings : Settings) (policy : BucketPolicy) : Tidy (start settings policy) [] where
  sound _ _ h := by cases h
  operation_lt h := by cases h
  group_lt h := by cases h
  number_lt h := by cases h
  numbers_nodup := List.nodup_nil
  numbers_apart _ := rfl
  contiguous _ := ReplyQueue.contiguous_empty
  drained _ := by simp [ReplyQueue.Drained, Proxy.start, Proxy.client]

end Tidy

end ReadThrough.Proxy
