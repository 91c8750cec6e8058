import ReadThrough.Proofs.Given
import ReadThrough.Proofs.Tasks.Moves

namespace ReadThrough.Proxy

variable {limit : Nat}

def Operation.Measured (limit : Nat) (operation : Operation) : Prop :=
  ∀ request, operation.request = some request → request.checkSize limit = .ok ()

theorem Operation.measured_none {operation : Operation} (h : operation.request = none) :
    operation.Measured limit := by
  intro request held
  rw [h] at held
  cases held

def Task.Measured (limit : Nat) : Task → Prop
  | .news _ operation _ | .send _ operation _ | .elsewhere _ operation _ _ | .launch operation _ =>
      operation.Measured limit
  | _ => True

section Decide

variable {w : World} {p : Proxy} {id : Nat} {operation : Operation}

theorem measured_conclude (value : Reply) : (operation.conclude value).Measured limit := by
  unfold Operation.conclude
  split <;> trivial

theorem measured_ends (value : Reply) : ∀ t ∈ [operation.conclude value], t.Measured limit :=
  List.forall_mem_singleton.mpr (measured_conclude value)

theorem measured_deliver (read : SetRead) (members : List Bytes) :
    (operation.deliver read members).Measured limit := by
  unfold Operation.deliver
  split
  · exact measured_conclude _
  · trivial
  · exact measured_conclude _

theorem measured_copies (route : Bytes) (commands : List Cache.Command) :
    ∀ t ∈ copies route commands, t.Measured limit :=
  List.forall_mem_map.mpr fun _ _ => trivial

theorem measured_replaced (dest : Address) (members : List Bytes) :
    ∀ t ∈ operation.replaced p dest members, t.Measured limit :=
  List.forall_mem_append.mpr ⟨measured_copies _ _, measured_ends _⟩

theorem measured_onWritten (write : Write) (response : Store.Response) :
    ∀ t ∈ operation.onWritten p write response, t.Measured limit := by
  unfold Operation.onWritten
  split
  · exact List.forall_mem_cons.mpr ⟨trivial, List.forall_mem_cons.mpr ⟨trivial, measured_ends _⟩⟩
  · exact List.forall_mem_cons.mpr ⟨trivial, measured_ends _⟩
  · exact List.forall_mem_cons.mpr ⟨trivial, measured_ends _⟩
  · refine List.forall_mem_cons.mpr ⟨trivial, List.forall_mem_singleton.mpr ?_⟩
    split
    · trivial
    · exact measured_conclude _
  · exact measured_replaced _ _
  · exact measured_ends _

theorem measured_onVclock (address : Address) (value : Bytes) (deferred : Store.Request)
    (response : Store.Response) :
    ∀ t ∈ operation.onVclock id address value deferred response, t.Measured limit := by
  unfold Operation.onVclock
  split
  · exact List.forall_mem_cons.mpr
      ⟨trivial, List.forall_mem_singleton.mpr (Operation.measured_none rfl)⟩
  · exact measured_ends _

theorem measured_onFetched (dest : Address) (members : List Bytes) (response : Store.Response) :
    ∀ t ∈ operation.onFetched p id dest members response, t.Measured limit := by
  unfold Operation.onFetched
  split
  · split
    · exact List.forall_mem_singleton.mpr (Operation.measured_none rfl)
    · exact measured_replaced dest members
    · exact measured_ends _
  · exact measured_ends _

variable (h : operation.Measured limit)

include h

theorem measured_retry (primary : Option Nat) (value : Reply) :
    (operation.retry id primary value).Measured limit := by
  unfold Operation.retry
  split
  · split
    · exact h
    · exact measured_conclude _
  · exact measured_conclude _

theorem measured_onValue (answer : Resp.Value) :
    ∀ t ∈ operation.onValue id answer, t.Measured limit := by
  have missed : ∀ t ∈ [Task.news id operation .missed], t.Measured limit :=
    List.forall_mem_singleton.mpr h
  unfold Operation.onValue
  split
  · split
    · exact missed
    · split
      · split
        · exact missed
        · exact measured_ends _
      · split
        · exact missed
        · exact measured_ends _
      · split
        · exact List.forall_mem_singleton.mpr trivial
        · exact missed
  · exact measured_ends _

theorem measured_onMiss (settings : Settings) :
    ∀ t ∈ operation.onMiss settings id, t.Measured limit := by
  unfold Operation.onMiss
  split
  · split
    · split
      · exact measured_ends _
      · exact List.forall_mem_singleton.mpr (measured_deliver _ _)
    · split
      · exact List.forall_mem_singleton.mpr h
      · exact measured_ends _
  · exact measured_ends _

theorem measured_onValueRead (address : Address) (response : Store.Response) :
    ∀ t ∈ operation.onValueRead w p id address response, t.Measured limit := by
  unfold Operation.onValueRead
  split
  · refine List.forall_mem_cons.mpr ⟨trivial, ?_⟩
    split
    · exact List.forall_mem_cons.mpr ⟨trivial, measured_ends _⟩
    · exact List.forall_mem_singleton.mpr (measured_retry h _ _)
  · exact measured_ends _

theorem measured_onSetRead (address : Address) (read : SetRead) (response : Store.Response) :
    ∀ t ∈ operation.onSetRead p id address read response, t.Measured limit := by
  unfold Operation.onSetRead
  split
  · split
    · exact List.forall_mem_singleton.mpr (measured_retry h _ _)
    · exact List.forall_mem_append.mpr
        ⟨measured_copies _ _, List.forall_mem_singleton.mpr (measured_deliver _ _)⟩
  · exact measured_ends _

theorem measured_decide (news : News) :
    ∀ t ∈ operation.decide w p id news, t.Measured limit := by
  cases news with
  | value answer => exact measured_onValue h answer
  | missed => exact measured_onMiss h p.settings
  | failed why => exact measured_ends _
  | lost server reason => exact List.forall_mem_singleton.mpr (measured_retry h _ _)
  | response server response =>
      change ∀ t ∈ operation.onResponse w p id server response, t.Measured limit
      unfold Operation.onResponse
      split
      · split
        · exact List.forall_mem_singleton.mpr h
        · exact measured_ends _
      · split
        · exact measured_onValueRead h _ _
        · exact measured_onSetRead h _ _ _
        · exact measured_onVclock _ _ _ _
        · exact measured_onFetched _ _ _
        · exact measured_onWritten _ _
        · exact measured_ends _

end Decide

theorem measured_closing (settings : Settings) (done : Option (Fragment.Group GroupContext)) :
    ∀ t ∈ closing settings done, t.Measured limit := by
  cases done with
  | none => exact List.forall_mem_nil _
  | some group =>
      refine List.forall_mem_singleton.mpr ?_
      unfold completion
      split
      · trivial
      · split
        · trivial
        · dsimp only
          split
          · trivial
          · split
            · trivial
            · exact Operation.measured_none rfl

def Measured (limit : Nat) (p : Proxy) : Prop :=
  ∀ id operation, p.operations.get? id = some operation → operation.Measured limit

structure Ships (limit : Nat) (p q : Proxy) : Prop where
  measured : Measured limit q
  outbox : ∃ actions, q.outbox = p.outbox ++ actions ∧
    ∀ server id request, Action.store server id request ∈ actions →
      request.checkSize limit = .ok ()

section Steps

variable {w : World} {p q r : Proxy} {task : Task} {tasks more : List Task}

namespace Ships

theorem trans (h : Ships limit p q) (h' : Ships limit q r) : Ships limit p r where
  measured := h'.measured
  outbox := by
    obtain ⟨actions, outbox, sent⟩ := h.outbox
    obtain ⟨later, outbox', sent'⟩ := h'.outbox
    refine ⟨actions ++ later, by rw [outbox', outbox, List.append_assoc], ?_⟩
    intro server id request hm
    rcases List.mem_append.mp hm with early | late
    · exact sent server id request early
    · exact sent' server id request late

theorem of_outbox (h : Measured limit p) (operations : q.operations = p.operations)
    {actions : List Action} (outbox : q.outbox = p.outbox ++ actions)
    (silent : ∀ server id request, Action.store server id request ∉ actions) :
    Ships limit p q where
  measured id operation ho := h id operation (operations ▸ ho)
  outbox := ⟨actions, outbox, fun server id request hm => absurd hm (silent server id request)⟩

theorem of_eq (h : Measured limit p) (operations : q.operations = p.operations)
    (outbox : q.outbox = p.outbox) : Ships limit p q :=
  of_outbox h operations (outbox.trans (List.append_nil _).symm) fun _ _ _ => List.not_mem_nil

theorem dispatch (h : Measured limit p) {id server : Nat} {operation : Operation}
    {request : Store.Request} (fits : request.checkSize limit = .ok ())
    (held : operation.Measured limit) :
    Ships limit p (p.dispatch id operation request server) where
  measured k other ho := by
    rcases Table.get?_insert_eq_some_iff.mp ho with ⟨-, rfl⟩ | ⟨-, ho⟩
    · exact held
    · exact h k other ho
  outbox := by
    refine ⟨[.store server id request], rfl, ?_⟩
    intro s k sent hm
    cases List.mem_singleton.mp hm
    exact fits

end Ships

theorem measured_of_does (done : Does w p task q more) (h : task.Measured limit) :
    ∀ t ∈ more, t.Measured limit := by
  cases done with
  | reply | refuse | copy | drop | learn | send | again | lookUp => exact List.forall_mem_nil _
  | bring | poll => exact measured_closing _ _
  | news => exact measured_decide h _
  | oversize | unreached | exhausted => exact measured_ends _
  | launch => exact List.forall_mem_singleton.mpr h
  | pass => exact List.forall_mem_singleton.mpr (Operation.measured_none rfl)
  | delete =>
      refine List.forall_mem_append.mpr ⟨?_, List.forall_mem_singleton.mpr trivial⟩
      exact List.forall_mem_map.mpr fun _ _ => Operation.measured_none rfl
  | combine => exact List.forall_mem_map.mpr fun _ _ => trivial

theorem ships_of_does (done : Does w p task q more) (table : Measured p.settings.maxFrameSize p)
    (h : task.Measured p.settings.maxFrameSize) : Ships p.settings.maxFrameSize p q := by
  cases done with
  | @reply client slot value =>
      obtain ⟨actions, outbox, replies⟩ := outbox_reply p client slot value
      refine .of_outbox table (operations_reply p client slot value) outbox ?_
      intro server id request hm
      obtain ⟨_, _, _, other⟩ := replies _ hm
      cases other
  | bring | refuse | drop | news | oversize | unreached | exhausted | launch | pass | delete
  | combine | poll => exact .of_eq table rfl rfl
  | learn =>
      have same := Alike.rememberVclock p
      exact .of_eq table (same _ _).operations (same _ _).outbox
  | copy => exact .of_outbox table rfl rfl (by simp)
  | send fits =>
      have looked : Ships p.settings.maxFrameSize p (p.look w).2 := .of_eq table rfl rfl
      refine looked.trans (.dispatch looked.measured fits ?_)
      intro request held
      exact Option.some.inj held ▸ fits
  | again _ held =>
      have looked : Ships p.settings.maxFrameSize p (p.look w).2 := .of_eq table rfl rfl
      exact looked.trans (.dispatch looked.measured (h _ held) h)
  | @lookUp client target read server picked =>
      refine ⟨?_, [.cache server (.operation p.nextOperation) read.lookup], rfl, by simp⟩
      intro k other ho
      rcases Table.get?_insert_eq_some_iff.mp ho with ⟨-, rfl⟩ | ⟨-, ho⟩
      · exact Operation.measured_none rfl
      · exact table k other ho

theorem ships_of_steps {a b : Proxy × List Task} (done : Steps w a b)
    (settings : a.1.settings.maxFrameSize = limit) (table : Measured limit a.1)
    (h : ∀ t ∈ a.2, t.Measured limit) : Ships limit a.1 b.1 := by
  induction done using Relation.ReflTransGen.head_induction_on with
  | refl => exact .of_eq table rfl rfl
  | head first _ ih =>
      cases first with
      | @still p q tasks same =>
          have ships : Ships limit p q := .of_eq table same.operations same.outbox
          exact ships.trans (ih (same.settings ▸ settings) ships.measured h)
      | @task p q task more rest does =>
          subst settings
          obtain ⟨head, others⟩ := List.forall_mem_cons.mp h
          have ships := ships_of_does does table head
          refine ships.trans (ih ?_ ships.measured ?_)
          · exact congrArg _ (Frame.does does).settings
          · exact List.forall_mem_append.mpr ⟨measured_of_does does head, others⟩

end Steps

end ReadThrough.Proxy
