import ReadThrough.Proofs.Ownership
import ReadThrough.Proofs.Task

namespace ReadThrough.Proxy

namespace Task

def part? (group : Nat) : Task → Option Nat
  | .part id (.set index _) => if id = group then some index else none
  | .news _ operation _ | .send _ operation _ | .elsewhere _ operation _ _ | .launch operation _ =>
      operation.target.part? group
  | .lookUp _ target _ => target.part? group
  | _ => none

def isPart (group : Nat) : Task → Bool
  | .part id _ => id = group
  | task => (task.part? group).isSome

end Task

section Part

variable {group id index : Nat} {operation : Operation} {task : Task} {news : News}

theorem part?_fragment : (Target.fragment group index).part? group = some index := by
  simp [Target.part?]

theorem part?_client (slot : Nat) : (Target.client slot).part? group = none := rfl

theorem isPart_copies (route : Bytes) (commands : List Cache.Command) :
    (copies route commands).countP (Task.isPart group) = 0 := by
  refine List.countP_eq_zero.mpr ?_
  intro task hm
  obtain ⟨command, -, rfl⟩ := List.mem_map.mp hm
  simp [Task.isPart, Task.part?]

theorem isPart_of_part? (h : (task.part? group).isSome = true) : task.isPart group = true := by
  cases task with
  | part id part =>
      cases part with
      | set index members =>
          simp only [Task.part?] at h
          split at h
          · next same => exact decide_eq_true same
          · cases h
      | _ => cases h
  | _ => exact h

section Fragment

variable (target : operation.target = .fragment group index)

include target

theorem part?_news : (Task.news id operation news).part? group = some index := by
  simp only [Task.part?, target, part?_fragment]

theorem isPart_news : (Task.news id operation news).isPart group = true := by
  simp only [Task.isPart, part?_news target, Option.isSome_some]

theorem conclude_fragment (value : Reply) : operation.conclude value = .part group .failed := by
  simp only [Operation.conclude, target]

theorem deliver_fragment (members : List Bytes) :
    operation.deliver .slot members = .part group (.set index members) := by
  simp only [Operation.deliver, target]

theorem isResendable_fragment : operation.isResendable = false := by
  simp only [Operation.isResendable, target, Bool.and_false]

end Fragment

end Part

section Parts

variable {p q : Proxy} {id group : Nat} {operation : Operation}

theorem partsUnderWay_cons (entries : List (Nat × Operation)) :
    ((id, operation) :: entries).filterMap (fun e => e.2.target.part? group) =
      (operation.target.part? group).toList ++
        entries.filterMap fun e => e.2.target.part? group := by
  rw [List.filterMap_cons]
  cases operation.target.part? group <;> rfl

theorem partsUnderWay_insert (operations : q.operations = p.operations.insert id operation)
    (fresh : p.operations.get? id = none) (group : Nat) : (q.partsUnderWay group).Perm
      ((operation.target.part? group).toList ++ p.partsUnderWay group) := by
  rw [partsUnderWay, partsUnderWay, operations, ← partsUnderWay_cons]
  exact (Table.perm_insert_new fresh).filterMap _

theorem partsUnderWay_erase (operations : q.operations = p.operations.erase id)
    (ho : p.operations.get? id = some operation) (group : Nat) : (p.partsUnderWay group).Perm
      ((operation.target.part? group).toList ++ q.partsUnderWay group) := by
  rw [partsUnderWay, partsUnderWay, operations, ← partsUnderWay_cons]
  exact (Table.perm_cons_erase ho).filterMap _

end Parts

structure Lacks (group total : Nat) (origin p : Proxy) (tasks : List Task) : Prop where
  next : p.groups.next = origin.groups.next
  few : ∀ {g}, p.groups.table.get? group = some g →
    g.done + tasks.countP (Task.isPart group) + (p.partsUnderWay group).length ≤ total
  unfinished : ∀ {g}, p.groups.table.get? group = some g → 0 < total → g.done < g.total

section Lacks

variable {group total id index : Nat} {origin p q : Proxy} {task : Task} {tasks rest more : List Task}
  {operation : Operation} {part : Fragment.Part} {g grown : Fragment.Group GroupContext}

theorem Lacks.turn (h : Lacks group total origin p (task :: rest))
    (operations : q.operations = p.operations) (groups : q.groups = p.groups)
    (less : more.countP (Task.isPart group) ≤ [task].countP (Task.isPart group)) :
    Lacks group total origin q (more ++ rest) where
  next := groups ▸ h.next
  few hg := by
    have few := h.few (groups ▸ hg)
    rw [List.countP_cons] at few
    rw [List.countP_singleton] at less
    rw [List.countP_append]
    simp only [partsUnderWay, operations] at few ⊢
    omega
  unfinished hg := h.unfinished (groups ▸ hg)

theorem Lacks.settle (h : Lacks group total origin p (task :: rest))
    (fresh : p.operations.get? id = none)
    (operations : q.operations = p.operations.insert id operation) (groups : q.groups = p.groups)
    (one : task.isPart group = (operation.target.part? group).isSome) :
    Lacks group total origin q rest where
  next := groups ▸ h.next
  few hg := by
    have few := h.few (groups ▸ hg)
    have perm := (partsUnderWay_insert operations fresh group).length_eq
    rw [List.countP_cons, one] at few
    rw [List.length_append] at perm
    cases target : operation.target.part? group <;>
      simp only [target, Option.isSome_none, Option.isSome_some, Option.toList_none,
        Option.toList_some, List.length_nil, List.length_singleton, Bool.false_eq_true, if_false,
        if_true] at few perm <;>
      omega
  unfinished hg := h.unfinished (groups ▸ hg)

theorem Lacks.taken (h : Lacks group total origin p (.part group part :: rest))
    (hg : p.groups.table.get? group = some g) (accepted : g.accept? part = some grown) :
    grown.done + rest.countP (Task.isPart group) + (p.partsUnderWay group).length ≤ total := by
  have few := h.few hg
  have done := Fragment.Group.done_of_accept? accepted
  rw [List.countP_cons_of_pos (by simp [Task.isPart])] at few
  omega

theorem Lacks.insert (h : Lacks group total origin p tasks)
    (few : grown.done + rest.countP (Task.isPart group) + (p.partsUnderWay group).length ≤ total)
    (incomplete : grown.isComplete = false) :
    Lacks group total origin
      { p with groups := { p.groups with table := p.groups.table.insert group grown } } rest where
  next := h.next
  few hg := by
    simp only [Table.get?_insert_self, Option.some.injEq] at hg
    subst hg
    exact few
  unfinished hg _ := by
    simp only [Table.get?_insert_self, Option.some.injEq] at hg
    subst hg
    simpa [Fragment.Group.isComplete] using incomplete

theorem Lacks.erase (h : Lacks group total origin p tasks) (rest : List Task) :
    Lacks group total origin
      { p with groups := { p.groups with table := p.groups.table.erase group } } rest where
  next := h.next
  few hg := by simp only [Table.get?_erase_self, reduceCtorEq] at hg
  unfinished hg := by simp only [Table.get?_erase_self, reduceCtorEq] at hg

theorem Lacks.tail (h : Lacks group total origin p (task :: rest)) :
    Lacks group total origin p rest where
  next := h.next
  few hg := by
    have few := h.few hg
    rw [List.countP_cons] at few
    omega
  unfinished := h.unfinished

theorem Lacks.still (h : Lacks group total origin p tasks) (operations : q.operations = p.operations)
    (groups : q.groups = p.groups) : Lacks group total origin q tasks where
  next := groups ▸ h.next
  few hg := by
    have few := h.few (groups ▸ hg)
    simpa only [partsUnderWay, operations] using few
  unfinished hg := h.unfinished (groups ▸ hg)

theorem lacks_of_part (balanced : Balanced p []) (ho : p.operations.get? id = some operation)
    (part : operation.target.part? group = some index)
    (operations : q.operations = p.operations.erase id) (groups : q.groups = p.groups)
    (sizes : ∀ {g}, p.groups.table.get? group = some g → g.total = total)
    (unfinished : ∀ {g}, p.groups.table.get? group = some g → 0 < total → g.done < g.total) :
    Lacks group total q q [task] where
  next := rfl
  few hg := by
    rw [groups] at hg
    have parts := balanced.length_partsUnderWay hg
    have size := sizes hg
    have length := (partsUnderWay_erase operations ho group).length_eq
    rw [part, Option.toList_some, List.length_append, List.length_singleton] at length
    have one := List.countP_le_length (p := Task.isPart group) (l := [task])
    rw [List.length_singleton] at one
    omega
  unfinished hg := unfinished (groups ▸ hg)

theorem lacks_openGroup {client : Nat} {gathered : Fragment.Gathered} {context : GroupContext}
    (free : p.partsUnderWay p.groups.next = [])
    (few : tasks.countP (Task.isPart p.groups.next) ≤ total)
    (opened : q = (p.openGroup client total gathered context).2) :
    Lacks p.groups.next total q q tasks := by
  subst opened
  refine ⟨rfl, ?_, ?_⟩
  · intro g hg
    simp only [openGroup, Fragment.Groups.openGroup, Table.get?_insert_self,
      Option.some.injEq] at hg
    subst hg
    have none : ((p.openGroup client total gathered context).2.partsUnderWay
        p.groups.next).length = 0 := List.length_eq_zero_iff.mpr free
    rw [none, Nat.zero_add, Nat.add_zero]
    exact few
  · intro g hg positive
    simp only [openGroup, Fragment.Groups.openGroup, Table.get?_insert_self,
      Option.some.injEq] at hg
    subst hg
    exact positive

end Lacks

end ReadThrough.Proxy
