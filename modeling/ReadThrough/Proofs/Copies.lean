import ReadThrough.Proofs.Given
import ReadThrough.Proofs.Lines

namespace ReadThrough

def Cache.Command.mutates : Cache.Command → Bool
  | .set .. | .sadd .. | .pexpire .. | .del _ => true
  | .get _ | .smembers _ | .sismember .. | .scard _ => false

def Action.mutation? : Action → Option (Nat × Cache.Command)
  | .cache server _ command => if command.mutates then some (server, command) else none
  | _ => none

def Action.asks : Action → Bool
  | .cache _ _ command => !command.mutates
  | _ => false

namespace Proxy

def mutations (actions : List Action) : List (Nat × Cache.Command) :=
  actions.filterMap Action.mutation?

/-- A command with the key that chooses its server. -/
abbrev Routed := Bytes × Cache.Command

inductive Posted (w : World) (looked : Nat → Prop) : List Routed → List (Nat × Cache.Command) → Prop
    where
  | nil : Posted w looked [] []
  | sent {look server : Nat} {route : Bytes} {command : Cache.Command} {rest : List Routed}
      {sent : List (Nat × Cache.Command)} : looked look →
      (w.pool look).pick .cache route = some server → Posted w looked rest sent →
      Posted w looked ((route, command) :: rest) ((server, command) :: sent)
  | dropped {look : Nat} {route : Bytes} {command : Cache.Command} {rest : List Routed}
      {sent : List (Nat × Cache.Command)} : looked look →
      (w.pool look).pick .cache route = none → Posted w looked rest sent →
      Posted w looked ((route, command) :: rest) sent

def Between (p q : Proxy) (look : Nat) : Prop :=
  p.looks ≤ look ∧ look < q.looks

def Task.copy? : Task → Option Routed
  | .copy route command => some (route, command)
  | _ => none

def copied (tasks : List Task) : List Routed :=
  tasks.filterMap Task.copy?

def Task.asks : Task → Bool
  | .lookUp .. | .combine .. => true
  | _ => false

def Task.Plain : Task → Prop
  | .copy _ command => command.mutates = true
  | .news _ _ heard => heard = .missed
  | .lookUp .. | .combine .. => False
  | _ => True

section Posted

variable {w : World} {looked looked' : Nat → Prop} {commands : List Routed}
  {sent : List (Nat × Cache.Command)} {pool : Pool.View}

theorem Posted.mono (h : Posted w looked commands sent) (le : ∀ look, looked look → looked' look) :
    Posted w looked' commands sent := by
  induction h with
  | nil => exact .nil
  | sent look picked _ ih => exact .sent (le _ look) picked ih
  | dropped look picked _ ih => exact .dropped (le _ look) picked ih

theorem Posted.eq_of_steady (h : Posted w looked commands sent)
    (steady : ∀ look, looked look → w.pool look = pool) :
    sent = commands.filterMap fun c => (pool.pick .cache c.1).map (·, c.2) := by
  induction h with
  | nil => rfl
  | sent look picked _ ih =>
      rw [steady _ look] at picked
      rw [List.filterMap_cons, picked, ih]
      rfl
  | dropped look picked _ ih =>
      rw [steady _ look] at picked
      rw [List.filterMap_cons, picked, ih]
      rfl

theorem Posted.eq_nil (h : Posted w looked [] sent) : sent = [] := by
  cases h
  rfl

end Posted

section Plain

variable {w : World} {p q : Proxy} {id : Nat} {operation : Operation} {task : Task}
  {more : List Task} {route : Bytes} {commands : List Cache.Command} {value : Reply}

theorem mutations_append (actions more : List Action) :
    mutations (actions ++ more) = mutations actions ++ mutations more :=
  List.filterMap_append

theorem mutations_replies (client : Nat) (filled : List (Nat × Reply)) :
    mutations (filled.map fun s => .reply client s.1 s.2) = [] := by
  simp [mutations, Action.mutation?]

theorem copied_append (tasks more : List Task) :
    copied (tasks ++ more) = copied tasks ++ copied more :=
  List.filterMap_append

theorem mutates_lookup (read : Read) : read.lookup.mutates = false := by
  unfold Read.lookup
  split <;> rfl

def Task.Still (task : Task) : Prop :=
  task.Plain ∧ task.copy? = none

theorem copied_of_still {tasks : List Task} (still : ∀ t ∈ tasks, t.Still) : copied tasks = [] :=
  List.filterMap_eq_nil_iff.mpr fun t ht => (still t ht).2

theorem still_conclude (value : Reply) : (operation.conclude value).Still := by
  unfold Operation.conclude
  split <;> exact ⟨trivial, rfl⟩

theorem still_deliver (read : SetRead) (members : List Bytes) :
    (operation.deliver read members).Still := by
  unfold Operation.deliver
  split
  · exact still_conclude _
  · exact ⟨trivial, rfl⟩
  · exact still_conclude _

theorem still_retry (primary : Option Nat) : (operation.retry id primary value).Still := by
  unfold Operation.retry
  split
  · split
    · exact ⟨trivial, rfl⟩
    · exact still_conclude value
  · exact still_conclude value

theorem still_onMiss (settings : Settings) : ∀ t ∈ operation.onMiss settings id, t.Still := by
  unfold Operation.onMiss
  split
  · split
    · split
      · exact List.forall_mem_singleton.mpr (still_conclude _)
      · exact List.forall_mem_singleton.mpr (still_deliver _ _)
    · split
      · exact List.forall_mem_singleton.mpr ⟨trivial, rfl⟩
      · exact List.forall_mem_singleton.mpr (still_conclude _)
  · exact List.forall_mem_singleton.mpr (still_conclude _)

theorem still_closing (settings : Settings) (done : Option (Fragment.Group GroupContext)) :
    ∀ t ∈ closing settings done, t.Still := by
  cases done with
  | none => exact List.forall_mem_nil _
  | some group =>
      refine List.forall_mem_singleton.mpr ?_
      unfold completion
      split
      · exact ⟨trivial, rfl⟩
      · split
        · exact ⟨trivial, rfl⟩
        · split
          · exact ⟨trivial, rfl⟩
          · split <;> exact ⟨trivial, rfl⟩

theorem Does.posts (done : Does w p task q more) (plain : task.Plain) :
    ∃ actions, q.outbox = p.outbox ++ actions ∧
      Posted w (Between p q) (copied [task]) (mutations actions) ∧
      (∀ action ∈ actions, action.asks = false) ∧ ∀ t ∈ more, t.Still := by
  have silent : ∀ {t : Task}, t.copy? = none → Posted w (Between p q) (copied [t]) [] := by
    intro t no
    simp only [copied, List.filterMap_cons, no]
    exact .nil
  have quiet : q.outbox = p.outbox → task.copy? = none → (∀ t ∈ more, t.Still) →
      ∃ actions, q.outbox = p.outbox ++ actions ∧
        Posted w (Between p q) (copied [task]) (mutations actions) ∧
        (∀ action ∈ actions, action.asks = false) ∧ ∀ t ∈ more, t.Still :=
    fun outbox no still =>
      ⟨[], by rw [outbox, List.append_nil], silent no, List.forall_mem_nil _, still⟩
  cases done with
  | @reply client slot value =>
      rcases reply_cases p client slot value with ⟨-, what, hr⟩ | ⟨filled, -, hr⟩
      · exact quiet (by rw [hr]; rfl) rfl (List.forall_mem_nil _)
      · refine ⟨_, congrArg Proxy.outbox hr, ?_, ?_, List.forall_mem_nil _⟩
        · rw [mutations_replies]
          exact silent rfl
        · intro action hm
          obtain ⟨s, -, rfl⟩ := List.mem_map.mp hm
          rfl
  | bring | poll => exact quiet rfl rfl (still_closing _ _)
  | refuse => exact quiet rfl rfl (List.forall_mem_nil _)
  | @copy route command server picked =>
      have changes : command.mutates = true := plain
      refine ⟨_, rfl, ?_, List.forall_mem_singleton.mpr ?_, List.forall_mem_nil _⟩
      · simp only [mutations, Action.mutation?, changes, if_true, List.filterMap_cons,
          List.filterMap_nil]
        exact .sent ⟨le_rfl, Nat.lt_succ_self _⟩ picked .nil
      · simp only [Action.asks, changes, Bool.not_true]
  | drop picked =>
      exact ⟨[], (List.append_nil _).symm, .dropped ⟨le_rfl, Nat.lt_succ_self _⟩ picked .nil,
        List.forall_mem_nil _, List.forall_mem_nil _⟩
  | learn => exact quiet (Alike.rememberVclock p _ _).outbox rfl (List.forall_mem_nil _)
  | news =>
      cases plain
      exact quiet rfl rfl (still_onMiss _)
  | send | again =>
      exact ⟨_, rfl, silent rfl, List.forall_mem_singleton.mpr rfl, List.forall_mem_nil _⟩
  | oversize | unreached | exhausted =>
      exact quiet rfl rfl (List.forall_mem_singleton.mpr (still_conclude _))
  | launch => exact quiet rfl rfl (List.forall_mem_singleton.mpr ⟨trivial, rfl⟩)
  | lookUp | pass | combine => exact plain.elim
  | delete =>
      refine quiet rfl rfl (List.forall_mem_append.mpr
        ⟨?_, List.forall_mem_singleton.mpr ⟨trivial, rfl⟩⟩)
      intro t ht
      obtain ⟨part, -, rfl⟩ := List.mem_map.mp ht
      exact ⟨trivial, rfl⟩

theorem Does.silent (done : Does w p task q more) (asks : task.asks = true) :
    ∃ actions, q.outbox = p.outbox ++ actions ∧ mutations actions = [] ∧
      ∀ t ∈ more, t.Still ∨ t.asks = true := by
  cases done with
  | @lookUp client target read server picked =>
      refine ⟨_, rfl, ?_, List.forall_mem_nil _⟩
      simp only [mutations, Action.mutation?, mutates_lookup, Bool.false_eq_true, if_false,
        List.filterMap_cons, List.filterMap_nil]
  | pass =>
      exact ⟨[], (List.append_nil _).symm, rfl,
        List.forall_mem_singleton.mpr (Or.inl ⟨rfl, rfl⟩)⟩
  | combine =>
      refine ⟨[], (List.append_nil _).symm, rfl, fun t ht => ?_⟩
      obtain ⟨source, -, rfl⟩ := List.mem_map.mp ht
      exact Or.inr rfl
  | _ => cases asks

theorem Posted.append {looked : Nat → Prop} {commands rest : List Routed}
    {sent later : List (Nat × Cache.Command)} (h : Posted w looked commands sent)
    (h' : Posted w looked rest later) : Posted w looked (commands ++ rest) (sent ++ later) := by
  induction h with
  | nil => exact h'
  | sent look picked _ ih => exact .sent look picked ih
  | dropped look picked _ ih => exact .dropped look picked ih

theorem posted_of_steps {a b : Proxy × List Task} (done : Steps w a b) (all : b.2 = [])
    (plain : ∀ t ∈ a.2, t.Plain) :
    ∃ actions, b.1.outbox = a.1.outbox ++ actions ∧
      Posted w (Between a.1 b.1) (copied a.2) (mutations actions) ∧
      ∀ action ∈ actions, action.asks = false := by
  induction done using Relation.ReflTransGen.head_induction_on with
  | refl =>
      rw [all]
      exact ⟨[], (List.append_nil _).symm, .nil, List.forall_mem_nil _⟩
  | head first others ih =>
      have later := (Frame.steps others).looks
      cases first with
      | still same =>
          obtain ⟨actions, outbox, posted, only⟩ := ih plain
          refine ⟨actions, by rw [outbox, same.outbox], posted.mono ?_, only⟩
          exact fun look between => ⟨same.looks.trans between.1, between.2⟩
      | @task p q task more rest does =>
          obtain ⟨head, tail⟩ := List.forall_mem_cons.mp plain
          obtain ⟨actions, outbox, posted, only, still⟩ := does.posts head
          obtain ⟨others, outbox', posted', only'⟩ := ih (List.forall_mem_append.mpr
            ⟨fun t ht => (still t ht).1, tail⟩)
          have none : copied (more ++ rest) = copied rest := by
            rw [copied_append, copied_of_still still, List.nil_append]
          have posted' : Posted w (Between q b.1) (copied rest) (mutations others) := none ▸ posted'
          refine ⟨actions ++ others, by rw [outbox', outbox, List.append_assoc], ?_,
            List.forall_mem_append.mpr ⟨only, only'⟩⟩
          rw [mutations_append]
          change Posted w (Between p b.1) (copied ([task] ++ rest)) _
          rw [copied_append]
          refine .append (posted.mono ?_) (posted'.mono ?_)
          · exact fun look between => ⟨between.1, Nat.lt_of_lt_of_le between.2 later⟩
          · exact fun look between =>
              ⟨(Frame.does does).looks.trans between.1, between.2⟩

theorem silent_of_steps {a b : Proxy × List Task} (done : Steps w a b)
    (asks : ∀ t ∈ a.2, t.Still ∨ t.asks = true) :
    ∃ actions, b.1.outbox = a.1.outbox ++ actions ∧ mutations actions = [] := by
  induction done using Relation.ReflTransGen.head_induction_on with
  | refl => exact ⟨[], (List.append_nil _).symm, rfl⟩
  | head first others ih =>
      cases first with
      | still same =>
          obtain ⟨actions, outbox, silent⟩ := ih asks
          exact ⟨actions, by rw [outbox, same.outbox], silent⟩
      | @task p q task more rest does =>
          obtain ⟨head, tail⟩ := List.forall_mem_cons.mp asks
          obtain ⟨actions, outbox, silent, left⟩ : ∃ actions, q.outbox = p.outbox ++ actions ∧
              mutations actions = [] ∧ ∀ t ∈ more, t.Still ∨ t.asks = true := by
            rcases head with ⟨plain, none⟩ | asks
            · obtain ⟨actions, outbox, posted, -, still⟩ := does.posts plain
              rw [copied, List.filterMap_cons, none, List.filterMap_nil] at posted
              exact ⟨actions, outbox, posted.eq_nil, fun t ht => Or.inl (still t ht)⟩
            · exact does.silent asks
          obtain ⟨others, outbox', silent'⟩ := ih (List.forall_mem_append.mpr ⟨left, tail⟩)
          refine ⟨actions ++ others, by rw [outbox', outbox, List.append_assoc], ?_⟩
          rw [mutations_append, silent, silent', List.nil_append]

end Plain

section Move

variable {w : World} {p q : Proxy} {move : Move} {client slot : Nat} {value : Reply}
  {route : Bytes} {commands : List Cache.Command} {actions : List Action}

theorem mutations_emits (outbox : (move.apply w p).outbox = (move.ready p).outbox ++ actions) :
    mutations (move.emits w p) = mutations actions := by
  have silent : mutations move.notice = [] := by cases move <;> rfl
  rw [(akin_ready p move).outbox] at outbox
  rw [emits_of_outbox move w outbox, mutations_append, silent, List.nil_append]

def posts (sent : List (Nat × Cache.Command)) : List Action :=
  sent.map fun s => .cache s.1 .sideEffect s.2

theorem posts_before_reply
    (done : Steps w (p, copies route commands ++ [.reply client slot value]) (q, [])) :
    q.operations = p.operations ∧ ∃ sent replies, q.outbox = p.outbox ++ (posts sent ++ replies) ∧
      Posted w (Between p q) (commands.map (route, ·)) sent ∧
      ∀ action ∈ replies, ∃ client slot value, action = .reply client slot value := by
  induction commands generalizing p with
  | nil =>
      obtain ⟨r, r', more, same, does, others⟩ := steps_cons done
      cases does
      have rest := steps_nil others rfl
      rcases reply_cases r client slot value with ⟨-, what, hr⟩ | ⟨filled, -, hr⟩
      · refine ⟨by rw [rest.operations, hr, ← same.operations]; rfl, [], [], ?_, .nil,
          List.forall_mem_nil _⟩
        rw [rest.outbox, hr, ← same.outbox]
        exact (List.append_nil _).symm
      · refine ⟨by rw [rest.operations, hr, ← same.operations], [],
          filled.drain.1.map fun s => .reply client s.1 s.2, ?_, .nil, ?_⟩
        · rw [rest.outbox, hr, ← same.outbox]
          rfl
        · intro action hm
          obtain ⟨s, -, rfl⟩ := List.mem_map.mp hm
          exact ⟨client, s.1, s.2, rfl⟩
  | cons command commands ih =>
      obtain ⟨r, r', more, same, does, others⟩ := steps_cons done
      have looks := (Frame.steps others).looks
      have begins : ∀ {look}, Between r' q look → Between p q look := fun between =>
        ⟨(same.looks.trans (Frame.does does).looks).trans between.1, between.2⟩
      cases does with
      | copy picked =>
          obtain ⟨operations, sent, replies, outbox, posted, only⟩ := ih others
          refine ⟨operations.trans same.operations, _ :: sent, replies, ?_,
            .sent ⟨same.looks, looks⟩ picked (posted.mono fun _ => begins), only⟩
          rw [outbox, ← same.outbox]
          simp [posts, ask, emit, look, setCache]
      | drop picked =>
          obtain ⟨operations, sent, replies, outbox, posted, only⟩ := ih others
          refine ⟨operations.trans same.operations, sent, replies, ?_,
            .dropped ⟨same.looks, looks⟩ picked (posted.mono fun _ => begins), only⟩
          rw [outbox, ← same.outbox]
          rfl

section Told

variable {id : Nat} {operation : Operation} {news : News}
  (told : move.news? p = some (id, news))

include told

theorem notice_of_told : move.notice = [] := by
  cases move with
  | cacheProtest | storeProtest => cases told
  | _ => rfl

theorem ttl_ready (address : Address) : (move.ready p).ttl address = p.ttl address := by
  have ready : move.ready p = (move.opening p).1 := by
    cases move with
    | request => cases told
    | _ => rfl
  have policy : (move.ready p).policy = p.policy := by
    obtain ⟨operations, opening⟩ := Move.opening_fst p move
    rw [ready, opening]
    cases move with
    | cacheAnswer | storeAnswer =>
        simp only [Move.prepare]
        split <;> rfl
    | policy | drain => cases told
    | _ => rfl
  rw [ttl, ttl, policy, ready, settings_opening]

theorem decided_of_told (w : World) (ho : p.operations.get? id = some operation) :
    ∃ r, Still (move.ready p) r ∧ (∀ address, r.ttl address = p.ttl address) ∧
      Steps w (r, operation.decide w r id news) (move.apply w p, []) := by
  have run := steps_apply w p move
  rw [tasks_of_told told ho] at run
  obtain ⟨r, r', more, same, does, later⟩ := steps_cons run
  cases does
  rw [List.append_nil] at later
  refine ⟨r, same, fun address => ?_, later⟩
  rw [← ttl_ready told, ttl, ttl, same.policy, same.settings]

end Told

def Concludes (w : World) (p : Proxy) (move : Move) (route : Bytes) (commands : List Cache.Command)
    (client slot : Nat) (value : Reply) : Prop :=
  ∃ r, Still (move.ready p) r ∧
    Steps w (r, copies route commands ++ [.reply client slot value]) (move.apply w p, [])

theorem Concludes.operations (h : Concludes w p move route commands client slot value) :
    (move.apply w p).operations = (move.ready p).operations := by
  obtain ⟨r, same, done⟩ := h
  exact (posts_before_reply done).1.trans same.operations

theorem Concludes.emits (h : Concludes w p move route commands client slot value) :
    ∃ sent replies, move.emits w p = move.notice ++ (posts sent ++ replies) ∧
      Posted w (Between p (move.apply w p)) (commands.map (route, ·)) sent ∧
      ∀ action ∈ replies, ∃ client slot value, action = .reply client slot value := by
  obtain ⟨r, same, done⟩ := h
  obtain ⟨-, sent, replies, outbox, posted, only⟩ := posts_before_reply done
  rw [same.outbox, (akin_ready p move).outbox] at outbox
  refine ⟨sent, replies, emits_of_outbox move w outbox, posted.mono ?_, only⟩
  exact fun look between => ⟨looks_ready p move ▸ same.looks.trans between.1, between.2⟩

theorem Concludes.gave (h : Concludes w p move route commands client slot value)
    (contiguous : ((move.ready p).client client).replies.Contiguous)
    (waits : (slot, none) ∈ (move.ready p).slots client) :
    Gave client slot value (move.ready p) (move.apply w p) := by
  obtain ⟨r, same, done⟩ := h
  exact gave_of_steps (.head (.still same) done) rfl (quiet_copies route commands) rfl contiguous
    waits

end Move

end Proxy

end ReadThrough
