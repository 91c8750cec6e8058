import ReadThrough.Proofs.Trailed

namespace ReadThrough.Proxy

structure Mute (p q : Proxy) : Prop where
  clients : q.clients = p.clients
  outbox : ∃ actions, q.outbox = p.outbox ++ actions ∧ ∀ client, repliesTo client actions = []

def Gives (allowed : Reply → Prop) (p q : Proxy) : Prop :=
  ∃ actions, q.outbox = p.outbox ++ actions ∧ ∀ client slot value,
    (slot, some value) ∈ repliesTo client actions ++ q.slots client →
    (slot, some value) ∈ p.slots client ∨ allowed value

def Gave (client slot : Nat) (value : Reply) (p q : Proxy) : Prop :=
  ∃ actions, q.outbox = p.outbox ++ actions ∧
    (slot, some value) ∈ repliesTo client actions ++ q.slots client

section Given

variable {w : World} {p q r : Proxy} {task : Task} {more : List Task} {allowed : Reply → Prop}
  {client slot : Nat} {value : Reply}

theorem Mute.of_outbox (clients : q.clients = p.clients) (outbox : q.outbox = p.outbox) :
    Mute p q where
  clients := clients
  outbox := ⟨[], by rw [outbox, List.append_nil], fun _ => rfl⟩

theorem Mute.of_alike (same : Alike p q) : Mute p q := of_outbox same.clients same.outbox

theorem Mute.trans (h : Mute p q) (h' : Mute q r) : Mute p r where
  clients := h'.clients.trans h.clients
  outbox := by
    obtain ⟨actions, outbox, silent⟩ := h.outbox
    obtain ⟨more, outbox', silent'⟩ := h'.outbox
    refine ⟨actions ++ more, by rw [outbox', outbox, List.append_assoc], fun client => ?_⟩
    rw [repliesTo_append, silent, silent', List.append_nil]

theorem Does.mute (done : Does w p task q more)
    (silent : ∀ client slot value, task ≠ .reply client slot value) : Mute p q := by
  cases done with
  | reply => exact absurd rfl (silent _ _ _)
  | copy | send | again | lookUp => exact ⟨rfl, _, rfl, fun _ => rfl⟩
  | learn => exact .of_alike (Alike.rememberVclock p _ _)
  | bring | refuse | drop | news | oversize | unreached | exhausted | launch | pass | delete
  | combine | poll => exact .of_outbox rfl rfl

theorem Mute.slots (h : Mute p q) (client : Nat) : q.slots client = p.slots client := by
  simp only [Proxy.slots, Proxy.client, h.clients]

theorem Gives.trans (h : Gives allowed p q) (h' : Gives allowed q r) : Gives allowed p r := by
  obtain ⟨actions, outbox, given⟩ := h
  obtain ⟨more, outbox', given'⟩ := h'
  refine ⟨actions ++ more, by rw [outbox', outbox, List.append_assoc], ?_⟩
  intro client slot value hm
  rw [repliesTo_append, List.append_assoc] at hm
  rcases List.mem_append.mp hm with early | late
  · exact given client slot value (List.mem_append_left _ early)
  · rcases given' client slot value late with held | new
    · exact given client slot value (List.mem_append_right _ held)
    · exact Or.inr new

theorem Gives.of_mute (h : Mute p q) : Gives allowed p q := by
  obtain ⟨actions, outbox, silent⟩ := h.outbox
  refine ⟨actions, outbox, ?_⟩
  intro client slot value hm
  rw [silent, List.nil_append, h.slots] at hm
  exact Or.inl hm

theorem Gives.imp {allowed' : Reply → Prop} (h : Gives allowed p q)
    (weaker : ∀ value, allowed value → allowed' value) : Gives allowed' p q := by
  obtain ⟨actions, outbox, given⟩ := h
  exact ⟨actions, outbox, fun client slot value hm =>
    (given client slot value hm).imp_right (weaker value)⟩

theorem Gives.refl (p : Proxy) : Gives allowed p p := .of_mute (.of_outbox rfl rfl)

theorem Gives.reply (p : Proxy) (client slot : Nat) (good : allowed value) :
    Gives allowed p (p.reply client slot value) := by
  rcases reply_cases p client slot value with ⟨-, what, h⟩ | ⟨filled, full, h⟩
  · rw [h]
    exact .of_mute (.of_outbox rfl rfl)
  · rw [h]
    refine ⟨_, rfl, ?_⟩
    intro c s v hm
    obtain ⟨before, after, old, -, rfl⟩ := ReplyQueue.fill?_eq_some_iff.mp full
    rw [repliesTo_map, slots, client_insert] at hm
    by_cases same : c = client
    · subst same
      rw [if_pos rfl, if_pos rfl, ReplyQueue.drain_append] at hm
      rw [slots, old]
      rcases List.mem_append.mp hm with front | back
      · exact Or.inl (List.mem_append_left _ front)
      · rcases List.mem_cons.mp back with new | back
        · cases new
          exact Or.inr good
        · exact Or.inl (List.mem_append_right _ (List.mem_cons_of_mem _ back))
    · rw [if_neg same, if_neg same, List.nil_append] at hm
      exact Or.inl hm

theorem Gave.of_mute (h : Mute p q) (h' : Gave client slot value q r) :
    Gave client slot value p r := by
  obtain ⟨actions, outbox, -⟩ := h.outbox
  obtain ⟨more, outbox', hm⟩ := h'
  refine ⟨actions ++ more, by rw [outbox', outbox, List.append_assoc], ?_⟩
  rw [repliesTo_append, List.append_assoc]
  exact List.mem_append_right _ hm

theorem Gave.of_still (h : Gave client slot value p q) (h' : Mute q r) :
    Gave client slot value p r := by
  obtain ⟨actions, outbox, hm⟩ := h
  obtain ⟨more, outbox', silent⟩ := h'.outbox
  refine ⟨actions ++ more, by rw [outbox', outbox, List.append_assoc], ?_⟩
  rwa [repliesTo_append, silent, List.append_nil, h'.slots]

theorem Gave.reply (contiguous : (p.client client).replies.Contiguous)
    (waits : (slot, none) ∈ p.slots client) (value : Reply) :
    Gave client slot value p (p.reply client slot value) := by
  have room : ((p.client client).replies.fill? slot value).isSome :=
    ReplyQueue.fill?_isSome contiguous (ReplyQueue.mem_unfilled.mpr waits)
  rcases reply_cases p client slot value with ⟨full, -⟩ | ⟨filled, full, h⟩
  · rw [full] at room
    cases room
  · rw [h]
    refine ⟨_, rfl, ?_⟩
    obtain ⟨before, after, -, -, rfl⟩ := ReplyQueue.fill?_eq_some_iff.mp full
    rw [repliesTo_map, slots, client_insert, if_pos rfl, if_pos rfl, ReplyQueue.drain_append]
    exact List.mem_append_right _ List.mem_cons_self

end Given

section Steps

variable {w : World} {p q : Proxy} {tasks quiet : List Task} {allowed : Reply → Prop}
  {client slot : Nat} {value : Reply}

theorem gives_of_replies {a b : Proxy × List Task} (done : Steps w a b)
    (replies : ∀ task ∈ a.2, ∃ client slot value, task = .reply client slot value ∧ allowed value) :
    Gives allowed a.1 b.1 := by
  induction done using Relation.ReflTransGen.head_induction_on with
  | refl => exact .refl _
  | head first _ ih =>
      cases first with
      | still same => exact .trans (.of_mute (.of_alike same.toAlike)) (ih replies)
      | task does =>
          obtain ⟨⟨client, slot, value, rfl, good⟩, others⟩ := List.forall_mem_cons.mp replies
          cases does
          exact .trans (.reply _ client slot good) (ih others)

theorem outbox_reply (p : Proxy) (client slot : Nat) (value : Reply) :
    ∃ actions, (p.reply client slot value).outbox = p.outbox ++ actions ∧
      ∀ action ∈ actions, ∃ client slot value, action = .reply client slot value := by
  rcases reply_cases p client slot value with ⟨-, what, h⟩ | ⟨filled, -, h⟩
  · exact ⟨[], by rw [h, List.append_nil]; rfl, List.forall_mem_nil _⟩
  · refine ⟨_, by rw [h], ?_⟩
    intro action hm
    obtain ⟨s, -, rfl⟩ := List.mem_map.mp hm
    exact ⟨client, _, _, rfl⟩

theorem outbox_of_replies {a b : Proxy × List Task} (done : Steps w a b)
    (replies : ∀ task ∈ a.2, ∃ client slot value, task = .reply client slot value) :
    ∃ actions, b.1.outbox = a.1.outbox ++ actions ∧
      (∀ action ∈ actions, ∃ client slot value, action = .reply client slot value) ∧
      b.1.operations = a.1.operations ∧ b.1.groups = a.1.groups := by
  induction done using Relation.ReflTransGen.head_induction_on with
  | refl => exact ⟨[], by rw [List.append_nil], List.forall_mem_nil _, rfl, rfl⟩
  | head first _ ih =>
      cases first with
      | still same =>
          obtain ⟨actions, outbox, only, operations, groups⟩ := ih replies
          exact ⟨actions, by rw [outbox, same.outbox], only, operations.trans same.operations,
            groups.trans same.groups⟩
      | @task p q task more rest does =>
          obtain ⟨⟨client, slot, value, rfl⟩, others⟩ := List.forall_mem_cons.mp replies
          cases does
          obtain ⟨actions, outbox, only, operations, groups⟩ := ih others
          obtain ⟨sent, left, replies⟩ := outbox_reply p client slot value
          refine ⟨sent ++ actions, by rw [outbox, left, List.append_assoc], ?_, ?_, ?_⟩
          · exact List.forall_mem_append.mpr ⟨replies, only⟩
          · exact operations.trans (operations_reply p client slot value)
          · exact groups.trans (groups_reply p client slot value)

theorem gives_of_kept {past : History} {move : Proxy × Move} {start : Nat} {root : Root}
    {mine : Nat → Prop} {ready : Proxy} {actions : List Action} (allowed : Reply → Prop)
    (kept : Proxy → List Task → Prop)
    (still : ∀ {p q tasks}, Still p q → kept p tasks → kept q tasks)
    (does : ∀ {p q task rest more actions},
      Underway w past move start root mine ready p actions (task :: rest) →
      kept p (task :: rest) → Does w p task q more → kept q (more ++ rest))
    (replies : ∀ {p client slot value rest}, kept p (.reply client slot value :: rest) →
      allowed value)
    {a b : Proxy × List Task} (done : Steps w a b)
    (u : Underway w past move start root mine ready a.1 actions a.2)
    (newer : ∀ id, ready.nextOperation ≤ id → mine id) (begins : Frame move.1 ready)
    (le : start ≤ past.length) (ends : Frame b.1 (move.2.apply w move.1)) (h : kept a.1 a.2) :
    kept b.1 b.2 ∧ Gives allowed a.1 b.1 := by
  induction done using Relation.ReflTransGen.head_induction_on generalizing actions with
  | refl => exact ⟨h, .refl _⟩
  | head first others ih =>
      obtain ⟨added, later⟩ := u.step newer begins le first ((Frame.steps others).trans ends)
      cases first with
      | still same =>
          obtain ⟨last, gives⟩ := ih later (still same h)
          exact ⟨last, .trans (.of_mute (.of_alike same.toAlike)) gives⟩
      | @task p q task more rest done =>
          obtain ⟨last, gives⟩ := ih later (does u h done)
          refine ⟨last, .trans ?_ gives⟩
          by_cases told : ∃ client slot value, task = .reply client slot value
          · obtain ⟨client, slot, value, rfl⟩ := told
            cases done
            exact .reply p client slot (replies h)
          · exact .of_mute (done.mute fun client slot value he => told ⟨client, slot, value, he⟩)

def Task.Quiet : Task → Prop
  | .copy .. | .learn .. => True
  | _ => False

theorem quiet_copies (route : Bytes) (commands : List Cache.Command) :
    ∀ task ∈ copies route commands, task.Quiet := by
  intro task hm
  obtain ⟨command, -, rfl⟩ := List.mem_map.mp hm
  trivial

theorem steps_quiet (done : Steps w (p, quiet ++ tasks) (q, []))
    (calm : ∀ task ∈ quiet, task.Quiet) : ∃ r, Steps w (p, quiet ++ tasks) (r, tasks) ∧
      Steps w (r, tasks) (q, []) ∧ r.operations = p.operations ∧ r.groups = p.groups ∧
      Mute p r := by
  induction quiet generalizing p with
  | nil => exact ⟨p, .refl, done, rfl, rfl, .of_outbox rfl rfl⟩
  | cons task quiet ih =>
      obtain ⟨head, calm⟩ := List.forall_mem_cons.mp calm
      obtain ⟨r, r', more, still, does, later⟩ := steps_cons done
      have mute := does.mute (by rintro _ _ _ rfl; exact head)
      have kept : more = [] ∧ r'.operations = r.operations ∧ r'.groups = r.groups := by
        cases does with
        | copy | drop => exact ⟨rfl, rfl, rfl⟩
        | learn =>
            have same := Alike.rememberVclock r
            exact ⟨rfl, (same _ _).operations, (same _ _).groups⟩
        | _ => exact head.elim
      obtain ⟨rfl, operations, groups⟩ := kept
      obtain ⟨last, before, after, operations', groups', mute'⟩ := ih later calm
      refine ⟨last, .head (.still still) (.head (.task does) before), after, ?_, ?_, ?_⟩
      · rw [operations', operations, still.operations]
      · rw [groups', groups, still.groups]
      · exact (Mute.of_alike still.toAlike).trans (mute.trans mute')

theorem gave_of_steps {a b : Proxy × List Task} (done : Steps w a b) (all : b.2 = [])
    (calm : ∀ task ∈ quiet, task.Quiet) (tasks : a.2 = quiet ++ [.reply client slot value])
    (contiguous : (a.1.client client).replies.Contiguous)
    (waits : (slot, none) ∈ a.1.slots client) : Gave client slot value a.1 b.1 := by
  have kept : ∀ {p q : Proxy}, Mute p q → (p.client client).replies.Contiguous →
      (q.client client).replies.Contiguous := by
    intro p q same contiguous
    rwa [Proxy.client, same.clients]
  induction done using Relation.ReflTransGen.head_induction_on generalizing quiet with
  | refl =>
      rw [all] at tasks
      cases quiet <;> cases tasks
  | head first others ih =>
      cases first with
      | still same =>
          have mute := Mute.of_alike same.toAlike
          exact .of_mute mute
            (ih calm tasks (kept mute contiguous) (by rwa [mute.slots]))
      | @task p q task more rest does =>
          cases quiet with
          | nil =>
              cases tasks
              cases does
              exact (Gave.reply contiguous waits value).of_still
                (.of_alike (steps_nil others rfl).toAlike)
          | cons first quiet =>
              obtain ⟨head, later⟩ := List.forall_mem_cons.mp calm
              cases tasks
              have mute := does.mute (by rintro _ _ _ rfl; exact head)
              have none : more = [] := by
                cases does with
                | copy | drop | learn => rfl
                | _ => exact head.elim
              refine .of_mute mute (ih later ?_ (kept mute contiguous) (by rwa [mute.slots]))
              rw [none]
              rfl

theorem gave_of_news {a b : Proxy × List Task} (done : Steps w a b) (all : b.2 = []) {id : Nat}
    {operation : Operation} {news : News} (tasks : a.2 = [.news id operation news])
    (decides : ∀ q, ∃ quiet, (∀ task ∈ quiet, task.Quiet) ∧
      operation.decide w q id news = quiet ++ [.reply client slot value])
    (contiguous : (a.1.client client).replies.Contiguous)
    (waits : (slot, none) ∈ a.1.slots client) : Gave client slot value a.1 b.1 := by
  induction done using Relation.ReflTransGen.head_induction_on with
  | refl =>
      rw [all] at tasks
      cases tasks
  | head first others ih =>
      cases first with
      | still same =>
          have mute := Mute.of_alike same.toAlike
          refine .of_mute mute (ih tasks ?_ (by rwa [mute.slots]))
          rwa [Proxy.client, same.clients]
      | @task p q task more rest does =>
          cases tasks
          cases does
          obtain ⟨quiet, calm, decided⟩ := decides p
          rw [decided, List.append_nil] at others
          have given := gave_of_steps others all calm rfl contiguous waits
          exact given

end Steps

end ReadThrough.Proxy
