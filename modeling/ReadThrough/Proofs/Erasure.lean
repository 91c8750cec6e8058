import ReadThrough.Proofs.Given
import ReadThrough.Proofs.Shares
import ReadThrough.Proofs.Sources

namespace ReadThrough.Proxy

structure Erasure where
  start : Nat
  cacheOnly : List Address
  stored : List Address

def Acked (w : World) (past : History) (start index : Nat) : Prop :=
  ∃ time operation server, Hears w past start index time operation (.response server .deleteAck)

namespace Erasure

variable (w : World) (past : History) (c : Erasure)

def requests (settings : Settings) : List (Address × Store.Request) :=
  c.stored.map fun address =>
    (address, { key := address.key, quorum := settings.quorum, body := .delete })

def plan (settings : Settings) : Plan :=
  .delete c.cacheOnly (c.requests settings)

/-- How many keys count as deleted. -/
def Due (due : Nat) : Prop :=
  ∃ acked : Finset Nat,
    (∀ index, index ∈ acked ↔ index < c.stored.length ∧ Acked w past c.start index) ∧
      due = c.cacheOnly.length + acked.card

def Result (value : Reply) : Prop :=
  ∃ due, c.Due w past due ∧ value = Reply.count due

variable {w past c} {due due' index : Nat}

theorem Due.unique (h : c.Due w past due) (h' : c.Due w past due') : due = due' := by
  obtain ⟨acked, iff, rfl⟩ := h
  obtain ⟨acked', iff', rfl⟩ := h'
  rw [Finset.ext fun index => (iff index).trans (iff' index).symm]

theorem Due.succ {past' : History} (h : c.Due w past due) (lt : index < c.stored.length)
    (fresh : ¬ Acked w past c.start index)
    (acked : ∀ j, Acked w past' c.start j ↔ j = index ∨ Acked w past c.start j) :
    c.Due w past' (due + 1) := by
  obtain ⟨before, iff, rfl⟩ := h
  have new : index ∉ before := fun hm => fresh ((iff index).mp hm).2
  refine ⟨insert index before, ?_, by rw [Finset.card_insert_of_notMem new, Nat.add_assoc]⟩
  intro j
  rw [Finset.mem_insert, iff, acked]
  constructor
  · rintro (rfl | ⟨lt, acked⟩)
    · exact ⟨lt, Or.inl rfl⟩
    · exact ⟨lt, Or.inr acked⟩
  · rintro ⟨lt, rfl | acked⟩
    · exact Or.inl rfl
    · exact Or.inr ⟨lt, acked⟩

theorem Due.congr {past' : History} (h : c.Due w past due)
    (acked : ∀ j, Acked w past' c.start j ↔ Acked w past c.start j) : c.Due w past' due := by
  obtain ⟨before, iff, rfl⟩ := h
  exact ⟨before, fun j => by rw [iff, acked], rfl⟩

theorem due_of_quiet (quiet : ∀ index, ¬ Acked w past c.start index) :
    c.Due w past c.cacheOnly.length :=
  ⟨∅, fun index => iff_of_false (Finset.notMem_empty index) fun h => quiet index h.2, rfl⟩

theorem Result.of_same {past' : History} {value : Reply} (h : c.Result w past value)
    (same : ∀ index time operation news, Hears w past' c.start index time operation news ↔
      Hears w past c.start index time operation news) : c.Result w past' value := by
  obtain ⟨due, counts, rfl⟩ := h
  exact ⟨due, counts.congr fun j => by simp only [Acked, same], rfl⟩

end Erasure

def Operation.Unanswered (w : World) (past : History) (start : Nat) (operation : Operation) :
    Prop :=
  ∀ group index, operation.target = .fragment group index → ∀ time other news,
    ¬ Hears w past start index time other news

namespace Task

def Erases (w : World) (past : History) (start group due : Nat) : Task → Prop
  | .reply _ _ value => value = Reply.count due
  | .part id brought => id = group ∧ (brought = .count 1 ∨ brought = .failed)
  | .copy .. | .learn .. => True
  | .news _ operation _ => (∃ index, operation.target = .fragment group index) ∧
      ∃ address, operation.stage = .storeWrite (.delete address)
  | .send _ operation _ | .launch operation _ =>
      (∃ index, operation.target = .fragment group index) ∧ operation.Unanswered w past start
  | .poll id => id = group
  | .elsewhere .. | .lookUp .. | .delete .. | .combine .. => False

def pays (group : Nat) : Task → Bool
  | .part id (.count _) => id = group
  | .news _ operation (.response _ .deleteAck) => (operation.target.part? group).isSome
  | _ => false

theorem isPart_of_pays {group : Nat} {task : Task} (h : task.pays group = true) :
    task.isPart group = true := by
  unfold pays at h
  split at h
  · exact h
  · exact h
  · cases h

end Task

theorem decide_of_delete {w : World} {p : Proxy} {id group index : Nat} {operation : Operation}
    {address : Address} (target : operation.target = .fragment group index)
    (stage : operation.stage = .storeWrite (.delete address)) (news : News) :
    ((∃ server, news = .response server .deleteAck) ∧ operation.decide w p id news =
        [.copy address.raw (Cache.invalidate address.raw), .part group (.count 1)]) ∨
      (∀ server, news ≠ .response server .deleteAck) ∧
        operation.decide w p id news = [.part group .failed] := by
  have ends : ∀ value, operation.conclude value = .part group .failed := conclude_fragment target
  have once := isResendable_fragment target
  cases news with
  | response server response =>
      cases response with
      | deleteAck =>
          refine Or.inl ⟨⟨server, rfl⟩, ?_⟩
          simp only [Operation.decide, Operation.onResponse, stage, Operation.onWritten, target]
      | error message code =>
          refine Or.inr ⟨by simp, ?_⟩
          simp only [Operation.decide, Operation.onResponse, once, Bool.and_false, ends,
            Bool.false_eq_true, if_false]
      | _ =>
          refine Or.inr ⟨by simp, ?_⟩
          simp only [Operation.decide, Operation.onResponse, stage, Operation.onWritten, ends]
  | value value =>
      refine Or.inr ⟨by simp, ?_⟩
      simp only [Operation.decide, Operation.onValue, stage, Operation.failing, ends]
  | missed =>
      refine Or.inr ⟨by simp, ?_⟩
      simp only [Operation.decide, Operation.onMiss, stage, Operation.failing, ends]
  | failed why =>
      refine Or.inr ⟨by simp, ?_⟩
      simp only [Operation.decide, Operation.failing, ends]
  | lost server reason =>
      refine Or.inr ⟨by simp, ?_⟩
      simp only [Operation.decide, Operation.retry, once, ends, Bool.false_eq_true, if_false]

structure Toll (total due coming : Nat) (g : Fragment.Group GroupContext) : Prop where
  context : ∃ slot, g.context = .del slot
  total : g.total = total
  sum : ∃ counted, g.gathered = .count (Int64.ofNat counted) ∧ counted + coming = due

section Toll

variable {total due coming : Nat} {g grown : Fragment.Group GroupContext}

theorem Toll.count (h : Toll total due (coming + 1) g)
    (accepted : g.accept? (.count 1) = some grown) : Toll total due coming grown := by
  obtain ⟨counted, gathered, sum⟩ := h.sum
  simp only [Fragment.Group.accept?, gathered, Option.some.injEq] at accepted
  cases accepted
  exact ⟨h.context, h.total, counted + 1, by rw [Int64.ofNat_add]; rfl, by omega⟩

theorem Toll.fail (h : Toll total due coming g) (accepted : g.accept? .failed = some grown) :
    Toll total due coming grown := by
  simp only [Fragment.Group.accept?, Option.some.injEq] at accepted
  cases accepted
  exact ⟨h.context, h.total, h.sum⟩

theorem Toll.accepts (h : Toll total due coming g) {part : Fragment.Part}
    (fits : part = .count 1 ∨ part = .failed) : ∃ grown, g.accept? part = some grown := by
  obtain ⟨counted, gathered, -⟩ := h.sum
  rcases fits with rfl | rfl <;> simp [Fragment.Group.accept?, gathered]

theorem Toll.erases {w : World} {past : History} {start group : Nat} (h : Toll total due 0 g)
    (settings : Settings) : (completion settings g).Erases w past start group due := by
  obtain ⟨slot, context⟩ := h.context
  obtain ⟨counted, gathered, rfl⟩ := h.sum
  simp only [completion, context, gathered, Task.Erases]
  rfl

end Toll

structure Erasing (w : World) (past : History) (c : Erasure) (group due : Nat) (origin p : Proxy)
    (tasks : List Task) : Prop extends Lacks group c.stored.length origin p tasks where
  erases : ∀ t ∈ tasks, t.Erases w past c.start group due
  table : ∀ {id operation}, p.operations.get? id = some operation →
    origin.operations.get? id = some operation ∨ operation.Unanswered w past c.start
  toll : ∀ {g}, p.groups.table.get? group = some g →
    Toll c.stored.length due (tasks.countP (Task.pays group)) g
  polled : ∀ {g}, p.groups.table.get? group = some g → c.stored.length = 0 → .poll group ∈ tasks

section Erasing

variable {w : World} {past : History} {c : Erasure} {group due id : Nat} {origin p q : Proxy}
  {task : Task} {rest more : List Task} {operation : Operation} {part : Fragment.Part}

theorem pays_eq_zero (none : rest.countP (Task.isPart group) = 0) :
    rest.countP (Task.pays group) = 0 :=
  Nat.le_zero.mp (none ▸ List.countP_mono_left fun _ _ => Task.isPart_of_pays)

theorem Erasing.still (h : Erasing w past c group due origin p rest) (same : Still p q) :
    Erasing w past c group due origin q rest where
  toLacks := h.toLacks.still same.operations same.groups
  erases := h.erases
  table ho := h.table (same.operations ▸ ho)
  toll hg := h.toll (same.groups ▸ hg)
  polled hg := h.polled (same.groups ▸ hg)

theorem Erasing.turn (h : Erasing w past c group due origin p (task :: rest))
    (operations : q.operations = p.operations) (groups : q.groups = p.groups)
    (other : task ≠ .poll group) (erases : ∀ t ∈ more, t.Erases w past c.start group due)
    (less : more.countP (Task.isPart group) ≤ [task].countP (Task.isPart group))
    (even : more.countP (Task.pays group) = [task].countP (Task.pays group)) :
    Erasing w past c group due origin q (more ++ rest) where
  toLacks := h.toLacks.turn operations groups less
  erases := List.forall_mem_append.mpr ⟨erases, (List.forall_mem_cons.mp h.erases).2⟩
  table ho := h.table (operations ▸ ho)
  toll hg := by
    have toll := h.toll (groups ▸ hg)
    rwa [← List.singleton_append, List.countP_append, ← even, ← List.countP_append] at toll
  polled hg none := by
    have polled := h.polled (groups ▸ hg) none
    exact List.mem_append_right _ (List.mem_of_ne_of_mem (Ne.symm other) polled)

theorem Erasing.settle {request : Store.Request}
    (h : Erasing w past c group due origin p (.send id operation request :: rest))
    (fresh : p.operations.get? id = none) {sent : Operation}
    (operations : q.operations = p.operations.insert id sent) (groups : q.groups = p.groups)
    (target : sent.target = operation.target) :
    Erasing w past c group due origin q rest where
  toLacks := h.toLacks.settle fresh operations groups (by rw [target]; rfl)
  erases := (List.forall_mem_cons.mp h.erases).2
  table := by
    intro k other ho
    rw [operations] at ho
    rcases Table.get?_insert_eq_some_iff.mp ho with ⟨-, rfl⟩ | ⟨-, ho⟩
    · have unanswered := (List.forall_mem_cons.mp h.erases).1.2
      exact Or.inr fun group index target' => unanswered group index (target ▸ target')
    · exact h.table ho
  toll hg := h.toll (groups ▸ hg)
  polled hg none := by
    have polled := h.polled (groups ▸ hg) none
    exact List.mem_of_ne_of_mem (by simp) polled

theorem Erasing.bring (h : Erasing w past c group due origin p (.part id part :: rest))
    (accepts : p.groups.accepts id part = true) :
    Erasing w past c group due origin { p with groups := (p.groups.contribute id part).2 }
      (closing p.settings (p.groups.contribute id part).1 ++ rest) := by
  obtain ⟨g, grown, hg, accepted, result⟩ := Fragment.Groups.contribute_of_accepts accepts
  obtain ⟨⟨rfl, fits⟩, erases⟩ := List.forall_mem_cons.mp h.erases
  have few := h.toLacks.taken hg accepted
  have toll : Toll c.stored.length due (rest.countP (Task.pays id)) grown := by
    have toll := h.toll hg
    rw [List.countP_cons] at toll
    rcases fits with rfl | rfl
    · rw [if_pos (by simp [Task.pays])] at toll
      exact toll.count accepted
    · rw [if_neg (by simp [Task.pays])] at toll
      exact toll.fail accepted
  rcases result with ⟨incomplete, same⟩ | ⟨complete, same⟩
  · rw [same]
    have total := toll.total
    refine ⟨h.toLacks.insert few (by simpa using incomplete), erases, h.table, ?_, ?_⟩
    · intro g' hg'
      simp only [Table.get?_insert_self, Option.some.injEq] at hg'
      subst hg'
      exact toll
    · simp only [Fragment.Group.isComplete, decide_eq_false_iff_not] at incomplete
      omega
  · rw [same]
    have total := toll.total
    simp only [Fragment.Group.isComplete, decide_eq_true_eq] at complete
    rw [pays_eq_zero (by omega)] at toll
    refine ⟨h.toLacks.erase _, List.forall_mem_cons.mpr ⟨toll.erases _, erases⟩, h.table, ?_, ?_⟩
    · intro g' hg'
      simp only [Table.get?_erase_self, reduceCtorEq] at hg'
    · intro g' hg'
      simp only [Table.get?_erase_self, reduceCtorEq] at hg'

theorem Erasing.refuse (h : Erasing w past c group due origin p (.part id part :: rest))
    (refuses : p.groups.accepts id part = false) : Erasing w past c group due origin p rest := by
  obtain ⟨⟨rfl, fits⟩, erases⟩ := List.forall_mem_cons.mp h.erases
  have closed : ∀ {g}, p.groups.table.get? id ≠ some g := by
    intro g hg
    obtain ⟨grown, accepted⟩ := (h.toll hg).accepts fits
    simp only [Fragment.Groups.accepts, hg, Option.bind_some, accepted, Option.isSome_some,
      Bool.true_eq_false] at refuses
  exact ⟨h.toLacks.tail, erases, h.table, fun hg => absurd hg closed, fun hg => absurd hg closed⟩

theorem Erasing.poll (h : Erasing w past c group due origin p (.poll id :: rest)) :
    Erasing w past c group due origin { p with groups := (p.groups.poll id).2 }
      (closing p.settings (p.groups.poll id).1 ++ rest) := by
  obtain ⟨rfl, erases⟩ := List.forall_mem_cons.mp h.erases
  have kept : (∀ {g}, p.groups.table.get? id = some g → c.stored.length ≠ 0) →
      Erasing w past c id due origin p rest := fun some =>
    ⟨h.toLacks.tail, erases, h.table, h.toll, fun hg none => absurd none (some hg)⟩
  unfold Fragment.Groups.poll
  cases hg : p.groups.table.get? id with
  | none => exact kept fun hg' => by cases hg.symm.trans hg'
  | some g =>
      have toll : Toll c.stored.length due (rest.countP (Task.pays id)) g := h.toll hg
      have few := h.toLacks.tail.few hg
      have total := toll.total
      dsimp only
      split
      · next complete =>
          simp only [Fragment.Group.isComplete, decide_eq_true_eq] at complete
          rw [pays_eq_zero (by omega)] at toll
          refine ⟨h.toLacks.erase _, List.forall_mem_cons.mpr ⟨toll.erases _, erases⟩, h.table, ?_,
            ?_⟩
          · intro g' hg'
            simp only [Table.get?_erase_self, reduceCtorEq] at hg'
          · intro g' hg'
            simp only [Table.get?_erase_self, reduceCtorEq] at hg'
      · next incomplete =>
          simp only [Fragment.Group.isComplete, decide_eq_true_eq] at incomplete
          exact kept fun _ none => by omega

theorem Erasing.end (h : Erasing w past c group due origin p (task :: rest))
    (operations : q.operations = p.operations) (groups : q.groups = p.groups)
    (other : task ≠ .poll group) (one : task.isPart group = true)
    (unpaid : task.pays group = false) :
    Erasing w past c group due origin q (.part group .failed :: rest) := by
  have failed : (Task.part group .failed).Erases w past c.start group due := ⟨rfl, Or.inr rfl⟩
  refine h.turn operations groups other (List.forall_mem_singleton.mpr failed) ?_ ?_
  · rw [List.countP_singleton, List.countP_singleton, if_pos one]
    split <;> omega
  · rw [List.countP_singleton, List.countP_singleton, unpaid]
    rfl

theorem Erasing.news {news : News}
    (h : Erasing w past c group due origin p (.news id operation news :: rest)) :
    Erasing w past c group due origin p (operation.decide w p id news ++ rest) := by
  obtain ⟨⟨⟨index, target⟩, address, stage⟩, -⟩ := List.forall_mem_cons.mp h.erases
  have one : (Task.news id operation news).isPart group = true := isPart_news target
  rcases decide_of_delete target stage news with ⟨⟨server, rfl⟩, decides⟩ | ⟨other, decides⟩
  · rw [decides]
    refine h.turn rfl rfl (by simp) ?_ ?_ ?_
    · exact List.forall_mem_cons.mpr ⟨trivial, List.forall_mem_singleton.mpr ⟨rfl, Or.inl rfl⟩⟩
    · rw [List.countP_singleton, if_pos one]
      simp [Task.isPart, Task.part?]
    · simp [Task.pays, target, part?_fragment]
  · rw [decides]
    refine h.end rfl rfl (by simp) one ?_
    cases news with
    | response server response =>
        cases response with
        | deleteAck => exact absurd rfl (other server)
        | _ => rfl
    | _ => rfl

theorem erasing_openGroup (settings : Settings) (client slot : Nat)
    (free : p.partsUnderWay p.groups.next = [])
    (unheard : ∀ index time operation news, ¬ Hears w past c.start index time operation news)
    (opened : q = (p.openGroup client (c.requests settings).length
      (.count (Int64.ofNat c.cacheOnly.length)) (.del slot)).2) :
    Erasing w past c p.groups.next c.cacheOnly.length q q
      (deletions client p.groups.next (c.requests settings) ++ [.poll p.groups.next]) := by
  have size : (c.requests settings).length = c.stored.length := List.length_map _
  rw [size] at opened
  have launched : ∀ t ∈ deletions client p.groups.next (c.requests settings),
      ∃ operation request index, t = .launch operation request ∧
        operation.target = .fragment p.groups.next index := by
    intro t ht
    obtain ⟨part, -, rfl⟩ := List.mem_map.mp ht
    exact ⟨_, _, _, rfl, rfl⟩
  refine ⟨lacks_openGroup free ?_ opened, ?_, Or.inl, ?_,
    fun _ _ => List.mem_append_right _ List.mem_cons_self⟩
  · have few := List.countP_le_length (p := Task.isPart p.groups.next)
      (l := deletions client p.groups.next (c.requests settings))
    have length : (deletions client p.groups.next (c.requests settings)).length =
        c.stored.length := by rw [deletions, List.length_map, List.length_zipIdx, size]
    rw [List.countP_append, ← length]
    exact few
  · refine List.forall_mem_append.mpr ⟨?_, List.forall_mem_singleton.mpr rfl⟩
    intro t ht
    obtain ⟨operation, request, index, rfl, target⟩ := launched t ht
    exact ⟨⟨index, target⟩, fun _ index _ time other news => unheard index time other news⟩
  · intro g hg
    subst opened
    simp only [openGroup, Fragment.Groups.openGroup, Table.get?_insert_self,
      Option.some.injEq] at hg
    subst hg
    refine ⟨⟨slot, rfl⟩, rfl, _, rfl, ?_⟩
    have unpaid : (deletions client p.groups.next (c.requests settings)).countP
        (Task.pays p.groups.next) = 0 := by
      refine List.countP_eq_zero.mpr fun t ht => ?_
      obtain ⟨operation, request, index, rfl, -⟩ := launched t ht
      exact Bool.false_ne_true
    simp [List.countP_append, unpaid, Task.pays]

end Erasing

section Move

variable {w : World} {past : History} {move : Proxy × Move} {c : Erasure} {group due : Nat}
  {root : Root} {mine : Nat → Prop} {ready origin p q : Proxy} {actions : List Action}
  {task : Task} {rest more : List Task}

theorem Erasing.does
    (u : Underway w past move c.start root mine ready p actions (task :: rest))
    (h : Erasing w (past ++ [move]) c group due origin p (task :: rest))
    (done : Does w p task q more) :
    Erasing w (past ++ [move]) c group due origin q (more ++ rest) := by
  have fair := (List.forall_mem_cons.mp h.erases).1
  have fails : ∀ {operation : Operation} (why : Failure),
      (∃ index, operation.target = .fragment group index) →
      operation.failing why = .part group .failed := by
    rintro operation why ⟨index, target⟩
    exact conclude_fragment target _
  have sends : ∀ {id operation request}, task = .send id operation request →
      task.isPart group = true ∧ task.pays group = false := by
    rintro id operation request rfl
    obtain ⟨⟨index, target⟩, -⟩ := fair
    exact ⟨by simp [Task.isPart, Task.part?, target, part?_fragment], rfl⟩
  cases done with
  | reply =>
      exact h.turn (operations_reply _ _ _ _) (groups_reply _ _ _ _) (by simp)
        (List.forall_mem_nil _) (Nat.zero_le _) rfl
  | bring accepts => exact h.bring accepts
  | refuse refuses => exact h.refuse refuses
  | copy | drop => exact h.turn rfl rfl (by simp) (List.forall_mem_nil _) (Nat.zero_le _) rfl
  | learn =>
      exact h.turn (Alike.rememberVclock p _ _).operations (Alike.rememberVclock p _ _).groups
        (by simp) (List.forall_mem_nil _) (Nat.zero_le _) rfl
  | news => exact h.news
  | send => exact h.settle (u.apart.apart (by simp)) rfl rfl rfl
  | oversize =>
      rw [fails _ fair.1]
      exact h.end rfl rfl (by simp) (sends rfl).1 (sends rfl).2
  | unreached =>
      rw [fails _ fair.1]
      exact h.end rfl rfl (by simp) (sends rfl).1 (sends rfl).2
  | launch =>
      refine h.turn rfl rfl (by simp) (List.forall_mem_singleton.mpr fair) ?_ rfl
      exact Nat.le_refl _
  | poll => exact h.poll
  | again | exhausted | delete | combine | lookUp | pass => exact fair.elim

theorem Erasing.steps {a b : Proxy × List Task} (done : Steps w a b)
    (u : Underway w past move c.start root mine ready a.1 actions a.2)
    (newer : ∀ id, ready.nextOperation ≤ id → mine id) (begins : Frame move.1 ready)
    (le : c.start ≤ past.length) (ends : Frame b.1 (move.2.apply w move.1))
    (h : Erasing w (past ++ [move]) c group due origin a.1 a.2) :
    Erasing w (past ++ [move]) c group due origin b.1 b.2 ∧
      Gives (fun value => value = Reply.count due) a.1 b.1 :=
  gives_of_kept _ (Erasing w (past ++ [move]) c group due origin)
    (fun same kept => kept.still same) (fun u kept does => kept.does u does)
    (fun kept => (List.forall_mem_cons.mp kept.erases).1) done u newer begins le ends h

end Move

end ReadThrough.Proxy
