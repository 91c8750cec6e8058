import ReadThrough.Proofs.Ownership
import ReadThrough.Proofs.Standing

namespace ReadThrough.Proxy

def Owes (id : Nat) (duty : Duty) (a : Proxy × Hand) : Prop :=
  (some id, duty) ∈ a.2 ∨
    ∃ operation, a.1.operations.get? id = some operation ∧ operation.duty = duty

structure Sole (id client slot : Nat) (a : Proxy × Hand) : Prop where
  hand : ∀ {number}, (number, Duty.reply client slot) ∈ a.2 → number = some id
  table : ∀ {k operation}, a.1.operations.get? k = some operation →
    operation.duty = .reply client slot → k = id
  groups : ∀ {k group}, a.1.groups.table.get? k = some group → group.client = client →
    group.context.slot ≠ slot

section Deeds

variable {fan : Nat → Prop} {a b : Proxy × Hand} {p : Proxy} {hand : Hand} {id k client slot : Nat}
  {duty : Duty} {operation : Operation} {number : Option Nat}

theorem none_of_parts {group total : Nat} {yield : Yield}
    (h : (number, duty) ∈ parts client group total yield) :
    number = none ∧ ∃ index, duty = .part client group index yield := by
  obtain ⟨index, -, same⟩ := List.mem_map.mp h
  cases same
  exact ⟨rfl, index, rfl⟩

theorem owes_of_insert {q : Proxy} (operations : q.operations = p.operations.insert k operation)
    (h : Owes id duty (q, hand)) : Owes id duty (p, (some k, operation.duty) :: hand) := by
  rcases h with held | ⟨old, ho, owes⟩
  · exact Or.inl (List.mem_cons_of_mem _ held)
  · rw [operations] at ho
    rcases Table.get?_insert_eq_some_iff.mp ho with ⟨rfl, rfl⟩ | ⟨-, ho⟩
    · exact owes ▸ Or.inl List.mem_cons_self
    · exact Or.inr ⟨old, ho, owes⟩

theorem Owes.of_eq {q : Proxy} {left : Hand} (operations : q.operations = p.operations)
    (held : (some id, duty) ∈ left → (some id, duty) ∈ hand) (h : Owes id duty (q, left)) :
    Owes id duty (p, hand) :=
  h.imp held fun own => operations ▸ own

theorem owes_of_deed (h : Deed fan a b) (owes : Owes id duty b) :
    Owes id duty a ∨ a.1.nextOperation ≤ id := by
  cases h with
  | quiet same => exact Or.inl (owes.of_eq same.operations fun held => held)
  | number =>
      rcases owes with held | own
      · rcases List.mem_cons.mp held with new | held
        · cases new
          exact Or.inr (Nat.le_refl _)
        · exact Or.inl (Or.inl (List.mem_cons_of_mem _ held))
      · exact Or.inl (Or.inr own)
  | sideEffect => exact Or.inl (owes.of_eq rfl fun held => held)
  | lookUp | request => exact Or.inl (owes_of_insert rfl owes)
  | reply value =>
      exact Or.inl (owes.of_eq (operations_reply _ _ _ value) fun held =>
        List.mem_cons_of_mem _ held)
  | refuse => exact Or.inl (owes.of_eq rfl fun held => List.mem_cons_of_mem _ held)
  | bring =>
      refine Or.inl (owes.of_eq rfl fun held => ?_)
      rcases List.mem_append.mp held with new | held
      · obtain ⟨group, -, same⟩ := done_of_owed new
        cases same
      · exact List.mem_cons_of_mem _ held
  | gather =>
      refine Or.inl (owes.of_eq rfl fun held => ?_)
      rcases List.mem_append.mp held with new | held
      · cases (none_of_parts new).1
      · exact List.mem_cons_of_mem _ held
  | gatherNothing => exact Or.inl (owes.of_eq rfl fun held => held)

theorem nextOperation_le_of_deed (h : Deed fan a b) : a.1.nextOperation ≤ b.1.nextOperation := by
  cases h with
  | quiet same => exact Nat.le_of_eq same.nextOperation.symm
  | number => exact Nat.le_succ _
  | reply value =>
      rcases reply_cases _ _ _ value with ⟨-, what, h⟩ | ⟨filled, -, h⟩
      · exact Nat.le_of_eq (by rw [h]; rfl)
      · exact Nat.le_of_eq (by rw [h])
  | sideEffect | lookUp | request | bring | refuse | gather | gatherNothing =>
      exact Nat.le_refl _

theorem owes_of_deeds (h : Relation.ReflTransGen (Deed fan) a b) (owes : Owes id duty b) :
    Owes id duty a ∨ a.1.nextOperation ≤ id := by
  induction h using Relation.ReflTransGen.head_induction_on with
  | refl => exact Or.inl owes
  | head first _ ih =>
      rcases ih with before | le
      · exact owes_of_deed first before
      · exact Or.inr (Nat.le_trans (nextOperation_le_of_deed first) le)

theorem present_of_deed (h : Deed fan a b)
    (present : ∃ operation, a.1.operations.get? id = some operation) :
    ∃ operation, b.1.operations.get? id = some operation := by
  obtain ⟨old, ho⟩ := present
  have kept : ∀ {q r : Proxy} {k : Nat} {operation : Operation},
      r.operations = q.operations.insert k operation → q.operations.get? id = some old →
      ∃ operation, r.operations.get? id = some operation := by
    intro q r k operation operations ho
    rw [operations, Table.get?_insert]
    split
    · exact ⟨_, rfl⟩
    · exact ⟨old, ho⟩
  cases h with
  | quiet same => exact ⟨old, same.operations ▸ ho⟩
  | lookUp | request => exact kept rfl ho
  | reply value => exact ⟨old, by rwa [operations_reply]⟩
  | number | sideEffect | bring | refuse | gather | gatherNothing => exact ⟨old, ho⟩

theorem asks_of_deed (h : Deed fan a b) : ∃ actions, b.1.outbox = a.1.outbox ++ actions ∧
    ∀ {server id request}, Action.store server id request ∈ actions →
      ∃ operation, b.1.operations.get? id = some operation := by
  have quiet : ∀ {q r : Proxy}, r.outbox = q.outbox → ∃ actions, r.outbox = q.outbox ++ actions ∧
      ∀ {server id request}, Action.store server id request ∈ actions →
        ∃ operation, r.operations.get? id = some operation := by
    intro q r outbox
    exact ⟨[], by rw [outbox, List.append_nil], nofun⟩
  cases h with
  | quiet same => exact quiet same.outbox
  | number | bring | refuse | gather | gatherNothing => exact quiet rfl
  | sideEffect | lookUp =>
      refine ⟨_, rfl, ?_⟩
      intro server id request hm
      cases List.mem_singleton.mp hm
  | request =>
      refine ⟨_, rfl, ?_⟩
      intro server id request hm
      cases List.mem_singleton.mp hm
      exact ⟨_, Table.get?_insert_self _ _ _⟩
  | reply value =>
      rcases reply_cases _ _ _ value with ⟨-, what, h⟩ | ⟨filled, -, h⟩
      · rw [h]
        exact quiet rfl
      · rw [h]
        refine ⟨_, rfl, ?_⟩
        intro server id request hm
        obtain ⟨sent, -, same⟩ := List.mem_map.mp hm
        cases same

theorem asks_of_deeds (h : Relation.ReflTransGen (Deed fan) a b) :
    ∃ actions, b.1.outbox = a.1.outbox ++ actions ∧
      ∀ {server id request}, Action.store server id request ∈ actions →
        ∃ operation, b.1.operations.get? id = some operation := by
  induction h with
  | refl => exact ⟨[], (List.append_nil _).symm, nofun⟩
  | tail _ last ih =>
      obtain ⟨actions, outbox, asks⟩ := ih
      obtain ⟨more, outbox', asks'⟩ := asks_of_deed last
      refine ⟨actions ++ more, by rw [outbox', outbox, List.append_assoc], ?_⟩
      intro server id request hm
      rcases List.mem_append.mp hm with early | late
      · exact present_of_deed last (asks early)
      · exact asks' late

theorem Sole.insert {q : Proxy} (h : Sole id client slot (p, (some k, operation.duty) :: hand))
    (operations : q.operations = p.operations.insert k operation) (groups : q.groups = p.groups) :
    Sole id client slot (q, hand) where
  hand held := h.hand (List.mem_cons_of_mem _ held)
  table := by
    intro j other ho owes
    rw [operations] at ho
    rcases Table.get?_insert_eq_some_iff.mp ho with ⟨rfl, rfl⟩ | ⟨-, ho⟩
    · exact Option.some.inj (h.hand (owes ▸ List.mem_cons_self))
    · exact h.table ho owes
  groups hg := h.groups (groups ▸ hg)

theorem Sole.of_eq {q : Proxy} {left : Hand} (h : Sole id client slot (p, hand))
    (operations : q.operations = p.operations) (groups : q.groups = p.groups)
    (held : ∀ {number}, (number, Duty.reply client slot) ∈ left →
      (number, Duty.reply client slot) ∈ hand) : Sole id client slot (q, left) where
  hand hm := h.hand (held hm)
  table ho := h.table (operations ▸ ho)
  groups hg := h.groups (groups ▸ hg)

theorem Sole.deed (h : Deed fan a b) (sole : Sole id client slot a) : Sole id client slot b := by
  cases h with
  | quiet same => exact sole.of_eq same.operations same.groups fun held => held
  | number =>
      refine ⟨?_, sole.table, sole.groups⟩
      intro number held
      rcases List.mem_cons.mp held with new | held
      · cases new
        cases sole.hand List.mem_cons_self
      · exact sole.hand (List.mem_cons_of_mem _ held)
  | sideEffect => exact sole.of_eq rfl rfl fun held => held
  | lookUp | request => exact sole.insert rfl rfl
  | reply value =>
      exact sole.of_eq (operations_reply _ _ _ value) (groups_reply _ _ _ value) fun held =>
        List.mem_cons_of_mem _ held
  | refuse => exact sole.of_eq rfl rfl fun held => List.mem_cons_of_mem _ held
  | @bring p hand number owner group index yield part brings accepts =>
      refine ⟨?_, sole.table, ?_⟩
      · intro number held
        rcases List.mem_append.mp held with new | held
        · obtain ⟨done, hd, same⟩ := done_of_owed new
          cases same
          obtain ⟨old, ho, -, client, context⟩ :=
            Fragment.Groups.origin_of_completed accepts hd
          exact absurd (congrArg GroupContext.slot context) (sole.groups ho client)
        · exact sole.hand (List.mem_cons_of_mem _ held)
      · intro k found hf
        obtain ⟨old, ho, client, context⟩ := Fragment.Groups.origin_of_contribute accepts hf
        rw [← client, ← context]
        exact sole.groups ho
  | @gather p hand owner total gathered context yield fits begins =>
      refine ⟨?_, sole.table, ?_⟩
      · intro number held
        rcases List.mem_append.mp held with new | held
        · obtain ⟨-, index, part⟩ := none_of_parts new
          cases part
        · exact sole.hand (List.mem_cons_of_mem _ held)
      · intro k found hf
        rcases Fragment.Groups.get?_openGroup hf with ⟨-, rfl⟩ | hf
        · rintro rfl rfl
          cases sole.hand List.mem_cons_self
        · exact sole.groups hf
  | gatherNothing =>
      refine ⟨sole.hand, sole.table, ?_⟩
      exact fun hf => sole.groups (Table.get?_erase_eq_some_iff.mp hf).2

theorem Sole.deeds (h : Relation.ReflTransGen (Deed fan) a b) (sole : Sole id client slot a) :
    Sole id client slot b := by
  induction h with
  | refl => exact sole
  | tail _ last ih => exact ih.deed last

end Deeds

section Moves

variable {w : World} {p : Proxy} {move : Move} {moves : List Move} {id client slot : Nat}
  {duty : Duty} {operation : Operation}

theorem operations_prepare_of (ho : (move.prepare p).operations.get? id = some operation) :
    p.operations.get? id = some operation := by
  by_cases hangsUp : ∃ client, move = .hangUp client
  · obtain ⟨client, rfl⟩ := hangsUp
    exact (get?_operations_clientClosed.mp ho).1
  · rwa [operations_prepare fun client he => hangsUp ⟨client, he⟩] at ho

theorem owes_opening (h : Owes id duty (move.opening p)) :
    ∃ old, p.operations.get? id = some old ∧ old.duty = duty := by
  rcases Move.opening_cases p move with same | ⟨k, -, -, same⟩
  · rw [same] at h
    rcases h with held | ⟨old, ho, owes⟩
    · cases move with
      | request c content => cases List.mem_singleton.mp held
      | _ => cases held
    · exact ⟨old, operations_prepare_of ho, owes⟩
  · rw [same] at h
    rcases (move.prepare p).resumed_cases k with ⟨-, hr⟩ | ⟨taken, ht, hr⟩
    · rw [hr] at h
      rcases h with held | ⟨old, ho, owes⟩
      · cases held
      · exact ⟨old, operations_prepare_of ho, owes⟩
    · rw [hr] at h
      rcases h with held | ⟨old, ho, owes⟩
      · cases List.mem_singleton.mp held
        exact ⟨taken, operations_prepare_of ht, rfl⟩
      · exact ⟨old, operations_prepare_of (Table.get?_erase_eq_some_iff.mp ho).2, owes⟩

theorem owed_before (tidy : Tidy p []) (ho : (play w p moves).operations.get? id = some operation)
    (lt : id < p.nextOperation) :
    ∃ old, p.operations.get? id = some old ∧ old.duty = operation.duty := by
  induction moves generalizing p with
  | nil => exact ⟨operation, ho, rfl⟩
  | cons move moves ih =>
      have newer := Nat.lt_of_lt_of_le lt (frame_apply w p move).nextOperation
      obtain ⟨old, ho, owes⟩ := ih (tidy.apply w move) ho newer
      rcases owes_of_deeds (deeds_of_apply w tidy.sound move) (Or.inr ⟨old, ho, owes⟩) with
        before | le
      · exact owes_opening before
      · rw [nextOperation_opening] at le
        exact absurd lt (Nat.not_lt.mpr le)

theorem Sole.opening (h : Sole id client slot (p, [])) (lt : slot < (p.client client).replies.next) :
    Sole id client slot (move.opening p) := by
  have groups : ∀ {k group}, (move.prepare p).groups.table.get? k = some group →
      group.client = client → group.context.slot ≠ slot := by
    intro k group hg
    by_cases hangsUp : ∃ client, move = .hangUp client
    · obtain ⟨client, rfl⟩ := hangsUp
      exact h.groups (get?_groups_clientClosed.mp hg).1
    · obtain ⟨operations, opened⟩ := Move.opening_fst p move
      have same := groups_opening (p := p) fun client he => hangsUp ⟨client, he⟩
      rw [opened] at same
      exact h.groups (same ▸ hg)
  have prepared : Sole id client slot (move.prepare p, move.incoming p) := by
    refine ⟨?_, fun ho => h.table (operations_prepare_of ho), groups⟩
    intro number held
    cases move with
    | request c content =>
        cases List.mem_singleton.mp held
        exact absurd lt (Nat.lt_irrefl _)
    | _ => cases held
  rcases Move.opening_cases p move with same | ⟨k, -, none, same⟩
  · rw [same]
    exact prepared
  · rw [same]
    rcases (move.prepare p).resumed_cases k with ⟨-, hr⟩ | ⟨taken, ht, hr⟩
    · rw [hr]
      rwa [none] at prepared
    · rw [hr]
      refine ⟨?_, ?_, groups⟩
      · intro number held
        obtain ⟨rfl, owes⟩ := Prod.mk.inj (List.mem_singleton.mp held)
        exact congrArg some (prepared.table ht owes.symm)
      · exact fun ho => prepared.table (Table.get?_erase_eq_some_iff.mp ho).2

theorem sole_after (sessions : Sessions w [] p) {start n : Nat} (gt : start < n)
    (le : n ≤ moves.length)
    (asked : (session w client (history w p moves)).asked[slot]? = some start)
    (sole : Sole id client slot (play w p (moves.take n), [])) :
    Sole id client slot (play w p moves, []) := by
  refine lasts (P := fun ms => Sole id client slot (play w p ms, [])) gt le asked sole ?_
  intro ms move before _ sole
  have sessions' := sessions.play ms
  have lt : slot < ((play w p ms).client client).replies.next := by
    rw [sessions'.next]
    exact (List.getElem?_eq_some_iff.mp before).1
  rw [play_concat]
  exact (sole.opening lt).deeds (deeds_of_apply w sessions'.tidy.sound move)

end Moves

end ReadThrough.Proxy
