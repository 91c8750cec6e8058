import ReadThrough.Proofs.Balance
import ReadThrough.Proofs.Tidy

namespace ReadThrough.Proxy

def duties (p : Proxy) (hand : Hand) : List Duty :=
  hand.map Prod.snd ++ p.operations.collect fun operation => [operation.duty]

def unfilled (p : Proxy) (client : Nat) : List Nat :=
  (p.client client).replies.unfilled

abbrev Balanced (p : Proxy) (hand : Hand) : Prop :=
  Balance (p.duties hand) p.groups.table p.unfilled

namespace Balanced

variable {fan : Nat → Prop} {p q : Proxy} {hand left : Hand}

theorem of_eq (b : Balanced p hand) (operations : q.operations = p.operations)
    (clients : q.clients = p.clients) (groups : q.groups = p.groups) : Balanced q hand := by
  have h : q.unfilled = p.unfilled := by
    funext c
    simp only [unfilled, Proxy.client, clients]
  unfold Balanced duties
  rw [operations, groups, h]
  exact b

theorem addOperation {id : Nat} {operation : Operation} {number : Option Nat}
    (b : Balanced p ((number, operation.duty) :: hand)) (fresh : p.operations.get? id = none) :
    Balanced (p.addOperation id operation) hand := by
  have h : ((p.addOperation id operation).operations.collect fun o => [o.duty]).Perm
      (operation.duty :: p.operations.collect fun o => [o.duty]) :=
    Table.collect_perm_insert_new _ fresh
  exact Balance.perm b (List.perm_middle.symm.trans (h.append_left _).symm)

theorem reply {number : Option Nat} {client slot : Nat} (value : Reply)
    (b : Balanced p ((number, .reply client slot) :: hand))
    (contiguous : (p.client client).replies.Contiguous) :
    Balanced (p.reply client slot value) hand := by
  have waits : slot ∈ p.unfilled client := Balance.mem_of_reply b
  rcases reply_cases p client slot value with ⟨full, -⟩ | ⟨filled, hf, h⟩
  · have some : ((p.client client).replies.fill? slot value).isSome :=
      ReplyQueue.fill?_isSome contiguous waits
    rw [full] at some
    cases some
  · have taken : (p.unfilled client).Perm (slot :: filled.drain.2.unfilled) := by
      rw [ReplyQueue.unfilled_drain]
      exact ReplyQueue.perm_unfilled_of_fill? hf
    have balance := Balance.reply b taken
    rw [h]
    refine balance.congr ?_
    intro c
    refine List.Perm.of_eq ?_
    simp only [unfilled, client_insert]
    split <;> rfl

theorem bring {number : Option Nat} {client id index : Nat} {yield : Yield}
    {part : Fragment.Part} (b : Balanced p ((number, .part client id index yield) :: hand))
    (brings : yield.Brings index part) (accepts : p.groups.accepts id part = true) :
    Balanced { p with groups := (p.groups.contribute id part).2 }
      (owed (p.groups.contribute id part).1 ++ hand) := by
  obtain ⟨group, grown, hg, ha, ⟨-, h⟩ | ⟨complete, h⟩⟩ :=
    Fragment.Groups.contribute_of_accepts accepts
  · rw [h]
    exact Balance.bring b hg ha brings
  · rw [h]
    have closed := (Balance.bring b hg ha brings).close (Table.get?_insert_self _ _ _) complete
    rwa [Table.erase_insert_self] at closed

theorem not_refused {number : Option Nat} {client id index : Nat} {yield : Yield}
    {part : Fragment.Part} (b : Balanced p ((number, .part client id index yield) :: hand))
    (brings : yield.Brings index part) : p.groups.accepts id part = true := by
  obtain ⟨group, hg, -, awaits⟩ := b.awaited client id index yield List.mem_cons_self
  rw [Fragment.Groups.accepts, hg]
  exact Fragment.Group.accept?_isSome awaits brings

theorem deed {a b : Proxy × Hand} (h : Deed fan a b) (t : Tidy a.1 a.2)
    (balanced : Balanced a.1 a.2) : Balanced b.1 b.2 := by
  cases h with
  | quiet same => exact balanced.of_eq same.operations same.clients same.groups
  | number => exact balanced
  | sideEffect server command => exact balanced
  | @lookUp p hand id operation read server stage sound =>
      have asked : Balanced (p.ask server (.operation id) read.lookup)
          ((some id, operation.duty) :: hand) := balanced
      exact asked.addOperation (t.numbers_apart List.mem_cons_self)
  | @request p hand id operation request server sent sound =>
      exact (balanced.addOperation (t.numbers_apart List.mem_cons_self)).of_eq rfl rfl rfl
  | reply value => exact balanced.reply value (t.contiguous _)
  | bring brings accepts => exact balanced.bring brings accepts
  | refuse brings refuses =>
      rw [balanced.not_refused brings] at refuses
      cases refuses
  | @gather p hand client total gathered context yield fits begins =>
      have gathered := Balance.gather balanced t.group_fresh begins
      unfold Balanced duties
      rw [List.map_append, List.append_assoc]
      exact gathered
  | @gatherNothing p hand client slot =>
      unfold Balanced
      dsimp only
      rw [Table.erase_of_get?_eq_none t.group_fresh]
      exact balanced

theorem deeds {a b : Proxy × Hand} (h : Relation.ReflTransGen (Deed fan) a b)
    (t : Tidy a.1 a.2) (balanced : Balanced a.1 a.2) : Balanced b.1 b.2 := by
  induction h with
  | refl => exact balanced
  | tail before deed ih => exact ih.deed deed (t.deeds before)

theorem resumed (b : Balanced p []) (id : Nat) : Balanced (p.resumed id).1 (p.resumed id).2 := by
  rcases p.resumed_cases id with ⟨-, h⟩ | ⟨operation, ho, h⟩
  · rw [h]
    exact b
  · rw [h]
    exact Balance.perm b (Table.collect_perm_erase (fun o : Operation => [o.duty]) ho)

theorem setClient {client : Nat} {link : ClientLink} (b : Balanced p hand)
    (same : link.replies = (p.client client).replies) :
    Balanced (p.setClient client link) hand := by
  refine Balance.congr b ?_
  intro c
  refine List.Perm.of_eq ?_
  simp only [unfilled, client_setClient]
  split
  · next h => rw [h, same]
  · rfl

theorem reserve (b : Balanced p []) (client : Nat) :
    Balanced (p.reserve client).2 [(none, .reply client (p.reserve client).1)] := by
  refine Balance.congr (Balance.reserve b client (p.client client).replies.next) ?_
  intro c
  refine List.Perm.of_eq ?_
  simp only [unfilled, Proxy.reserve, client_setClient]
  split
  · next h => rw [h, ReplyQueue.unfilled_reserve]
  · rfl

theorem clientClosed (b : Balanced p []) (client : Nat) : Balanced (p.clientClosed client) [] := by
  have same : ∀ c, (if c = client then [] else p.unfilled c).Perm
      ((p.clientClosed client).unfilled c) := by
    intro c
    refine List.Perm.of_eq ?_
    simp only [unfilled, client_clientClosed]
    split <;> rfl
  refine ((Balance.clientClosed b client).congr same).perm (List.Perm.of_eq ?_)
  simp only [duties, List.map_nil, List.nil_append, Table.collect, Proxy.clientClosed, Table.filter]
  induction p.operations.entries with
  | nil => rfl
  | cons e rest ih =>
      rw [List.flatMap_cons, List.filter_append, ih]
      by_cases h : e.2.client = client <;> simp [h]

theorem prepare (b : Balanced p []) (move : Move) :
    Balanced (move.prepare p) (move.incoming p) := by
  cases move with
  | hold client rest => exact b.setClient rfl
  | request client content => exact b.reserve client
  | hangUp client => exact b.clientClosed client
  | cacheAnswer server value =>
      simp only [Move.prepare]
      split <;> exact b.of_eq rfl rfl rfl
  | storeAnswer server frame =>
      simp only [Move.prepare]
      split <;> exact b.of_eq rfl rfl rfl
  | _ => exact b.of_eq rfl rfl rfl

theorem opening (b : Balanced p []) (move : Move) :
    Balanced (move.opening p).1 (move.opening p).2 := by
  have prepared := b.prepare move
  rcases Move.opening_cases p move with h | ⟨id, -, none, h⟩
  · rw [h]
    exact prepared
  · rw [none] at prepared
    rw [h]
    exact prepared.resumed id

theorem apply (b : Balanced p []) (t : Tidy p []) (w : World) (move : Move) :
    Balanced (move.apply w p) [] := by
  exact (b.opening move).deeds (deeds_of_apply w t.sound move) (t.opening move)

theorem play (b : Balanced p []) (t : Tidy p []) (w : World) (moves : List Move) :
    Balanced (play w p moves) [] := by
  induction moves generalizing p with
  | nil => exact b
  | cons move moves ih => exact ih (b.apply t w move) (t.apply w move)

theorem start (settings : Settings) (policy : BucketPolicy) :
    Balanced (start settings policy) [] where
  slots _ _ := rfl
  awaited _ _ _ _ h := by cases h
  nodup := List.nodup_nil
  done _ _ h := by cases h

end Balanced

section Unfinished

variable {p : Proxy}

def Unfinished (p : Proxy) : Prop :=
  ∀ group < p.groups.next, Incomplete group p

theorem Unfinished.of_groups {q : Proxy} (unfinished : Unfinished p) (h : q.groups = p.groups) :
    Unfinished q := by
  simpa only [Unfinished, Incomplete, h] using unfinished

theorem unfinished_of_deed {a b : Proxy × Hand} (h : Deed (0 < ·) a b)
    (unfinished : Unfinished a.1) : Unfinished b.1 := by
  intro group hb
  by_cases ha : group < a.1.groups.next
  · exact incomplete_of_deed h (unfinished group ha)
  · cases h with
    | quiet same => exact absurd (same.groups ▸ hb) ha
    | number => exact absurd hb ha
    | sideEffect server command => exact absurd hb ha
    | lookUp server stage sound => exact absurd hb ha
    | request server sent sound => exact absurd hb ha
    | reply value => exact absurd (by simpa only [groups_reply] using hb) ha
    | bring brings accepts => exact absurd (by rwa [Fragment.Groups.next_contribute] at hb) ha
    | refuse brings accepts => exact absurd hb ha
    | @gather p hand client total gathered context yield fits begins =>
        have new : group = p.groups.next :=
          Nat.le_antisymm (Nat.le_of_lt_succ hb) (Nat.not_lt.mp ha)
        rw [new]
        exact incomplete_openGroup p fits gathered context
    | @gatherNothing p hand client slot =>
        have new : group = p.groups.next :=
          Nat.le_antisymm (Nat.le_of_lt_succ hb) (Nat.not_lt.mp ha)
        refine ⟨hb, ?_⟩
        intro g hg
        rw [new] at hg
        cases (Table.get?_erase_self p.groups.table p.groups.next).symm.trans hg

theorem unfinished_of_deeds {a b : Proxy × Hand} (h : Relation.ReflTransGen (Deed (0 < ·)) a b)
    (unfinished : Unfinished a.1) : Unfinished b.1 := by
  induction h with
  | refl => exact unfinished
  | tail _ deed ih => exact unfinished_of_deed deed ih

theorem unfinished_opening (unfinished : Unfinished p) (move : Move) :
    Unfinished (move.opening p).1 := by
  obtain ⟨operations, h⟩ := Move.opening_fst p move
  refine Unfinished.of_groups (p := move.prepare p) ?_ (by rw [h])
  cases move with
  | hangUp client =>
      intro group lt
      refine ⟨lt, ?_⟩
      intro g hg
      exact (unfinished group lt).2 g (get?_groups_clientClosed.mp hg).1
  | cacheAnswer server value =>
      simp only [Move.prepare]
      split <;> exact unfinished
  | storeAnswer server frame =>
      simp only [Move.prepare]
      split <;> exact unfinished
  | _ => exact unfinished

theorem unfinished_play (w : World) {moves : List Move}
    (fits : ∀ move ∈ moves, move.Fits (0 < ·)) (t : Tidy p []) (unfinished : Unfinished p) :
    Unfinished (play w p moves) := by
  induction moves generalizing p with
  | nil => exact unfinished
  | cons move moves ih =>
      refine ih (fun m hm => fits m (List.mem_cons_of_mem _ hm)) (t.apply w move) ?_
      have done := deeds_apply w (fun _ h => h) t.sound (fits move List.mem_cons_self)
      exact unfinished_of_deeds done (unfinished_opening unfinished move)

end Unfinished

end ReadThrough.Proxy
