import Mathlib.Logic.Relation
import ReadThrough.Proofs.Duty
import ReadThrough.Proofs.Plans

/-!
Everything that a handler does to the proxy is made of a few deeds. A deed says what becomes of the
work in hand: it is given a number, put into the table, answered, or brought into a group.
-/

namespace ReadThrough.Proxy

abbrev Hand := List (Option Nat × Duty)

structure Akin (p q : Proxy) : Prop where
  settings : q.settings = p.settings
  operations : q.operations = p.operations
  clients : q.clients = p.clients
  caches : q.caches = p.caches
  stores : q.stores = p.stores
  groups : q.groups = p.groups
  outbox : q.outbox = p.outbox

structure Alike (p q : Proxy) : Prop extends Akin p q where
  nextOperation : q.nextOperation = p.nextOperation

theorem Akin.trans {p q r : Proxy} (h : Akin p q) (h' : Akin q r) : Akin p r where
  settings := h'.settings.trans h.settings
  operations := h'.operations.trans h.operations
  clients := h'.clients.trans h.clients
  caches := h'.caches.trans h.caches
  stores := h'.stores.trans h.stores
  groups := h'.groups.trans h.groups
  outbox := h'.outbox.trans h.outbox

def owed : Option (Fragment.Group GroupContext) → Hand
  | none => []
  | some group => [(none, .reply group.client group.context.slot)]

theorem done_of_owed {done : Option (Fragment.Group GroupContext)} {entry : Option Nat × Duty}
    (h : entry ∈ owed done) : ∃ group, done = some group ∧
      entry = (none, .reply group.client group.context.slot) := by
  cases done with
  | none => cases h
  | some group => exact ⟨group, rfl, List.mem_singleton.mp h⟩

def parts (client group total : Nat) (yield : Yield) : Hand :=
  (List.range total).map fun index => (none, .part client group index yield)

def Yield.Begins (yield : Yield) (total : Nat) : Fragment.Gathered → Prop
  | .count _ => yield = .deletion
  | .sets slots => yield = .members ∧ slots = List.replicate total none

/-- `fan` restricts the number of parts of the groups that are opened. -/
inductive Deed (fan : Nat → Prop) : Proxy × Hand → Proxy × Hand → Prop where
  | quiet {p q : Proxy} {hand : Hand} : Alike p q → Deed fan (p, hand) (q, hand)
  | number {p : Proxy} {hand : Hand} {duty : Duty} :
      Deed fan (p, (none, duty) :: hand)
        (p.newOperation.2, (some p.nextOperation, duty) :: hand)
  | sideEffect {p : Proxy} {hand : Hand} (server : Nat) (command : Cache.Command) :
      Deed fan (p, hand) (p.ask server .sideEffect command, hand)
  | lookUp {p : Proxy} {hand : Hand} {id : Nat} {operation : Operation} {read : Read}
      (server : Nat) : operation.stage = .cacheRead read → operation.Sound →
      Deed fan (p, (some id, operation.duty) :: hand)
        ((p.ask server (.operation id) read.lookup).addOperation id operation, hand)
  | request {p : Proxy} {hand : Hand} {id : Nat} {operation : Operation}
      {request : Store.Request} (server : Nat) : operation.request = some request →
      operation.Sound →
      Deed fan (p, (some id, operation.duty) :: hand)
        (p.dispatch id operation request server, hand)
  | reply {p : Proxy} {hand : Hand} {number : Option Nat} {client slot : Nat} (value : Reply) :
      Deed fan (p, (number, .reply client slot) :: hand) (p.reply client slot value, hand)
  | bring {p : Proxy} {hand : Hand} {number : Option Nat} {client group index : Nat}
      {yield : Yield} {part : Fragment.Part} : yield.Brings index part →
      p.groups.accepts group part = true →
      Deed fan (p, (number, .part client group index yield) :: hand)
        ({ p with groups := (p.groups.contribute group part).2 },
          owed (p.groups.contribute group part).1 ++ hand)
  | refuse {p : Proxy} {hand : Hand} {number : Option Nat} {client group index : Nat}
      {yield : Yield} {part : Fragment.Part} : yield.Brings index part →
      p.groups.accepts group part = false →
      Deed fan (p, (number, .part client group index yield) :: hand)
        (p.breach (.partRefused group), hand)
  | gather {p : Proxy} {hand : Hand} {client total : Nat} {gathered : Fragment.Gathered}
      {context : GroupContext} {yield : Yield} : fan total → yield.Begins total gathered →
      Deed fan (p, (none, .reply client context.slot) :: hand)
        ((p.openGroup client total gathered context).2,
          parts client p.groups.next total yield ++ hand)
  | gatherNothing {p : Proxy} {hand : Hand} {client slot : Nat} :
      Deed fan (p, (none, .reply client slot) :: hand)
        ({ p with groups := ⟨p.groups.table.erase p.groups.next, p.groups.next + 1⟩ },
          (none, .reply client slot) :: hand)

abbrev Deeds (fan : Nat → Prop) (p : Proxy) (hand : Hand) (q : Proxy) (left : Hand) : Prop :=
  Relation.ReflTransGen (Deed fan) (p, hand) (q, left)

namespace Alike

variable {p q r : Proxy}

theorem trans (h : Alike p q) (h' : Alike q r) : Alike p r where
  toAkin := h.toAkin.trans h'.toAkin
  nextOperation := h'.nextOperation.trans h.nextOperation

theorem look (w : World) (p : Proxy) : Alike p (p.look w).2 :=
  ⟨⟨rfl, rfl, rfl, rfl, rfl, rfl, rfl⟩, rfl⟩

theorem toss (w : World) (p : Proxy) : Alike p (p.toss w).2 :=
  ⟨⟨rfl, rfl, rfl, rfl, rfl, rfl, rfl⟩, rfl⟩

theorem pick (w : World) (p : Proxy) (tier : Pool.Tier) (key : Bytes) :
    Alike p (p.pick w tier key).2 := ⟨⟨rfl, rfl, rfl, rfl, rfl, rfl, rfl⟩, rfl⟩

theorem breach (p : Proxy) (what : Breach) : Alike p (p.breach what) :=
  ⟨⟨rfl, rfl, rfl, rfl, rfl, rfl, rfl⟩, rfl⟩

theorem rememberVclock (p : Proxy) (address : Address) (vclock : Option Bytes) :
    Alike p (p.rememberVclock address vclock) := by
  unfold Proxy.rememberVclock
  split <;> exact ⟨⟨rfl, rfl, rfl, rfl, rfl, rfl, rfl⟩, rfl⟩

theorem touchVclock (p : Proxy) (command : Command) : Alike p (p.touchVclock command) := by
  unfold Proxy.touchVclock
  split
  · split <;> exact ⟨⟨rfl, rfl, rfl, rfl, rfl, rfl, rfl⟩, rfl⟩
  · exact ⟨⟨rfl, rfl, rfl, rfl, rfl, rfl, rfl⟩, rfl⟩

theorem deeds {fan : Nat → Prop} {hand : Hand} (h : Alike p q) : Deeds fan p hand q hand :=
  .single (.quiet h)

end Alike

end ReadThrough.Proxy
