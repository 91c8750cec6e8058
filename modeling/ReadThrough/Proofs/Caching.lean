import ReadThrough.Proofs.Replacement
import ReadThrough.Proofs.Responses

namespace ReadThrough.Proxy

inductive Grounds (operation : Operation) (lifetime : Option Nat) :
    Store.Response → List Cache.Command → Prop where
  | found {address : Address} {siblings : List Store.Sibling} {vclock : Option Bytes}
      {sibling : Store.Sibling} {draw : Nat} : operation.stage = .storeRead (.value address) →
      Store.Sibling.pick draw siblings = some sibling → sibling ∈ siblings →
      sibling.deleted = false →
      Grounds operation lifetime (.found siblings vclock)
        [.set address.raw (Store.stripQuotes sibling.value) lifetime]
  | put {address : Address} {value : Bytes} {vclock : Option Bytes} :
      operation.stage = .storeWrite (.put address value) →
      Grounds operation lifetime (.putAck vclock) [.set address.raw value lifetime]
  | members {address : Address} {read : SetRead} {members : List Bytes} {context : Option Bytes} :
      operation.stage = .storeRead (.set address read) → members ≠ [] →
      Grounds operation lifetime (.set members context)
        (.sadd address.raw members :: (lifetime.map (.pexpire address.raw)).toList)
  | unchanged {dest : Address} {members current : List Bytes} {context : Option Bytes} :
      operation.stage = .storeFetch dest members → (∀ m, m ∈ members ↔ m ∈ current) →
      Grounds operation lifetime (.set current context)
        (.del dest.raw :: if members = [] then []
          else .sadd dest.raw members :: (lifetime.map (.pexpire dest.raw)).toList)
  | replaced {dest : Address} {members : List Bytes} :
      operation.stage = .storeWrite (.store dest members) →
      Grounds operation lifetime .updateAck
        (.del dest.raw :: if members = [] then []
          else .sadd dest.raw members :: (lifetime.map (.pexpire dest.raw)).toList)
  | updated {address : Address} {count : Nat} :
      operation.stage = .storeWrite (.setUpdate address count) →
      Grounds operation lifetime .updateAck [.pexpire address.raw 0]
  | counted {address : Address} {value : Int64} :
      operation.stage = .storeWrite (.counter address) →
      Grounds operation lifetime (.counter value) [.pexpire address.raw 0]
  | deleted {address : Address} : operation.stage = .storeWrite (.delete address) →
      Grounds operation lifetime .deleteAck [.pexpire address.raw 0]

inductive Entitles (p : Proxy) : Move → List Routed → Prop where
  | nothing {move : Move} : Entitles p move []
  | answer {move : Move} {id server : Nat} {operation : Operation} {response : Store.Response}
      {commands : List Cache.Command} : move.news? p = some (id, .response server response) →
      p.operations.get? id = some operation →
      Grounds operation (p.ttl operation.stage.address) response commands →
      Entitles p move (commands.map (operation.stage.address.raw, ·))
  | deletion {client : Nat} {keys : List Bytes} {addresses : List Address} :
      keys.mapM Address.parse = .ok addresses →
      Entitles p (.request client (.ok (.del keys)))
        ((addresses.filter fun a => !a.hasBucket).map fun a => (a.raw, .pexpire a.raw 0))

section Decide

variable {w : World} {p : Proxy} {id : Nat} {operation : Operation} {lifetime : Option Nat}
  {address dest : Address} {response : Store.Response} {front tasks more : List Task}
  {members : List Bytes} {commands : List Cache.Command}

theorem copied_copies (route : Bytes) (commands : List Cache.Command) :
    copied (copies route commands) = commands.map (route, ·) := by
  induction commands with
  | nil => rfl
  | cons command commands ih => exact congrArg _ ih

theorem mutates_populateSet (key : Bytes) (members : List Bytes) (ttl : Option Nat) :
    ∀ command ∈ Cache.populateSet key members ttl, command.mutates = true := by
  unfold Cache.populateSet
  split
  · exact List.forall_mem_nil _
  · cases ttl with
    | none => exact List.forall_mem_singleton.mpr rfl
    | some ttl => exact List.forall_mem_cons.mpr ⟨rfl, List.forall_mem_singleton.mpr rfl⟩

theorem Grounds.mutates (h : Grounds operation lifetime response commands) :
    ∀ command ∈ commands, command.mutates = true := by
  cases h with
  | @members address read members context stage some =>
      have all := mutates_populateSet address.raw members lifetime
      rwa [Cache.populateSet, if_neg some] at all
  | unchanged | replaced =>
      exact List.forall_mem_cons.mpr ⟨rfl, mutates_populateSet _ _ lifetime⟩
  | _ => exact List.forall_mem_singleton.mpr rfl

def Warranted (operation : Operation) (lifetime : Option Nat) (response : Store.Response)
    (tasks : List Task) : Prop :=
  (∀ t ∈ tasks, t.Plain) ∧ (copied tasks = [] ∨ ∃ commands,
    Grounds operation lifetime response commands ∧
      copied tasks = commands.map (operation.stage.address.raw, ·))

theorem warranted_of_still (still : ∀ t ∈ tasks, t.Still) :
    Warranted operation lifetime response tasks :=
  ⟨fun t ht => (still t ht).1, Or.inl (copied_of_still still)⟩

theorem Grounds.warranted (h : Grounds operation lifetime response commands)
    (front more : List Task) (own : operation.stage.address = address)
    (split : tasks = front ++ copies address.raw commands ++ more)
    (still : ∀ t ∈ front, t.Still) (still' : ∀ t ∈ more, t.Still) :
    Warranted operation lifetime response tasks := by
  subst own split
  constructor
  · refine List.forall_mem_append.mpr ⟨List.forall_mem_append.mpr ⟨?_, ?_⟩, ?_⟩
    · exact fun t ht => (still t ht).1
    · intro t ht
      obtain ⟨command, hm, rfl⟩ := List.mem_map.mp ht
      exact h.mutates command hm
    · exact fun t ht => (still' t ht).1
  · refine Or.inr ⟨commands, h, ?_⟩
    rw [copied_append, copied_append, copied_of_still still, copied_of_still still',
      copied_copies, List.nil_append, List.append_nil]

theorem still_learn (address : Address) (vclock : Option Bytes) :
    ∀ t ∈ [Task.learn address vclock], t.Still :=
  List.forall_mem_singleton.mpr ⟨trivial, rfl⟩

theorem still_ends (value : Reply) : ∀ t ∈ [operation.conclude value], t.Still :=
  List.forall_mem_singleton.mpr (still_conclude value)

theorem live_of_pick {draw : Nat} {siblings : List Store.Sibling} {sibling : Store.Sibling}
    (picked : Store.Sibling.pick draw siblings = some sibling) :
    sibling ∈ siblings ∧ sibling.deleted = false := by
  obtain ⟨among, wins⟩ := List.mem_filter.mp (List.mem_of_getElem? picked)
  refine ⟨among, ?_⟩
  unfold Store.Sibling.mayWin at wins
  simpa using (Bool.and_eq_true_iff.mp wins).1

theorem warranted_onValueRead (stage : operation.stage = .storeRead (.value address))
    (response : Store.Response) :
    Warranted operation (p.ttl address) response
      (operation.onValueRead w p id address response) := by
  cases response with
  | found siblings vclock =>
      simp only [Operation.onValueRead, Store.Outcome.ofSiblings]
      cases picked : Store.Sibling.pick (w.draw p.looks) siblings with
      | none =>
          refine warranted_of_still (List.forall_mem_cons.mpr ⟨⟨trivial, rfl⟩, ?_⟩)
          exact List.forall_mem_singleton.mpr (still_retry _)
      | some sibling =>
          let value := Store.stripQuotes sibling.value
          obtain ⟨among, live⟩ := live_of_pick picked
          exact Grounds.warranted (.found stage picked among live) [.learn address vclock]
            [operation.conclude (Reply.bulk value)] (congrArg Stage.address stage) rfl
            (still_learn _ _) (still_ends _)
  | _ => exact warranted_of_still (still_ends _)

theorem warranted_onSetRead {read : SetRead}
    (stage : operation.stage = .storeRead (.set address read)) (response : Store.Response) :
    Warranted operation (p.ttl address) response
      (operation.onSetRead p id address read response) := by
  cases response with
  | set members context =>
      cases members with
      | nil =>
          cases read with
          | query query => exact warranted_of_still (List.forall_mem_singleton.mpr (still_retry _))
          | slot => exact warranted_of_still (List.forall_mem_singleton.mpr (still_deliver _ _))
      | cons member members =>
          refine Grounds.warranted (.members stage (List.cons_ne_nil member members)) []
            [operation.deliver read (member :: members)] (congrArg Stage.address stage) ?_
            (List.forall_mem_nil _) (List.forall_mem_singleton.mpr (still_deliver read _))
          cases read <;> rfl
  | _ => exact warranted_of_still (still_ends _)

theorem warranted_onVclock {value : Bytes} {deferred : Store.Request}
    (response : Store.Response) : Warranted operation lifetime response
      (operation.onVclock id address value deferred response) := by
  cases response with
  | found siblings vclock =>
      refine warranted_of_still (List.forall_mem_cons.mpr ⟨⟨trivial, rfl⟩, ?_⟩)
      exact List.forall_mem_singleton.mpr ⟨trivial, rfl⟩
  | _ => exact warranted_of_still (still_ends _)

theorem warranted_onFetched (stage : operation.stage = .storeFetch dest members)
    (response : Store.Response) :
    Warranted operation (p.ttl dest) response
      (operation.onFetched p id dest members response) := by
  cases response with
  | set current context =>
      simp only [Operation.onFetched, Store.Request.setReplace]
      by_cases same : Members.without members current = [] ∧ Members.without current members = []
      · rw [if_pos same]
        rw [Members.without_eq_nil_iff, Members.without_eq_nil_iff] at same
        have unchanged : ∀ m, m ∈ members ↔ m ∈ current := fun m => ⟨same.1 m, same.2 m⟩
        exact Grounds.warranted (.unchanged stage unchanged) []
          [operation.conclude (Reply.count members.length)] (congrArg Stage.address stage) rfl
          (List.forall_mem_nil _) (still_ends _)
      · rw [if_neg same]
        cases Store.Request.compose p.settings dest.key _ with
        | error why => exact warranted_of_still (still_ends _)
        | ok request => exact warranted_of_still (List.forall_mem_singleton.mpr ⟨trivial, rfl⟩)
  | _ => exact warranted_of_still (still_ends _)

theorem warranted_onWritten {write : Write} (stage : operation.stage = .storeWrite write)
    (response : Store.Response) :
    Warranted operation (p.ttl write.address) response
      (operation.onWritten p write response) := by
  have own := congrArg Stage.address stage
  unfold Operation.onWritten
  split
  · next address value vclock =>
      exact Grounds.warranted (.put stage) [.learn address vclock] [operation.conclude Reply.ok] own
        rfl (still_learn _ _) (still_ends _)
  · next address count =>
      exact Grounds.warranted (.updated stage) [] [operation.conclude (Reply.count count)] own rfl
        (List.forall_mem_nil _) (still_ends _)
  · next address value =>
      exact Grounds.warranted (.counted stage) [] [operation.conclude (Reply.integer value)] own rfl
        (List.forall_mem_nil _) (still_ends _)
  · next address =>
      refine Grounds.warranted (.deleted stage) [] [_] own rfl (List.forall_mem_nil _)
        (List.forall_mem_singleton.mpr ?_)
      split
      · exact ⟨trivial, rfl⟩
      · exact still_conclude _
  · next dest members =>
      exact Grounds.warranted (.replaced stage) []
        [operation.conclude (Reply.count members.length)] own rfl (List.forall_mem_nil _)
        (still_ends _)
  · exact warranted_of_still (still_ends _)

theorem warranted_onResponse (server : Nat) (response : Store.Response) :
    Warranted operation (p.ttl operation.stage.address) response
      (operation.onResponse w p id server response) := by
  cases response with
  | error message code =>
      simp only [Operation.onResponse]
      split
      · exact warranted_of_still (List.forall_mem_singleton.mpr ⟨trivial, rfl⟩)
      · exact warranted_of_still (still_ends _)
  | _ =>
      simp only [Operation.onResponse]
      cases stage : operation.stage with
      | storeRead read =>
          cases read with
          | value address => exact warranted_onValueRead stage _
          | set address read => exact warranted_onSetRead stage _
      | awaitingVclock address value deferred => exact warranted_onVclock _
      | storeFetch dest members => exact warranted_onFetched stage _
      | storeWrite write => exact warranted_onWritten stage _
      | cacheRead read => exact warranted_of_still (still_ends _)

theorem still_onValue (value : Resp.Value) : ∀ t ∈ operation.onValue id value, t.Still := by
  have missed : ∀ t ∈ [Task.news id operation .missed], t.Still :=
    List.forall_mem_singleton.mpr ⟨rfl, rfl⟩
  unfold Operation.onValue
  split
  · split
    · exact missed
    · split
      · split
        · exact missed
        · exact still_ends _
      · split
        · exact missed
        · exact still_ends _
      · split
        · exact List.forall_mem_singleton.mpr ⟨trivial, rfl⟩
        · exact missed
  · exact still_ends _

theorem warranted_decide (w : World) (p : Proxy) (id : Nat) (operation : Operation)
    (news : News) :
    (∃ server response, news = .response server response ∧
      Warranted operation (p.ttl operation.stage.address) response
        (operation.decide w p id news)) ∨
    ∀ t ∈ operation.decide w p id news, t.Still := by
  cases news with
  | response server response => exact Or.inl ⟨server, response, rfl, warranted_onResponse server _⟩
  | value value => exact Or.inr (still_onValue value)
  | missed => exact Or.inr (still_onMiss p.settings)
  | failed why => exact Or.inr (still_ends _)
  | lost server reason => exact Or.inr (List.forall_mem_singleton.mpr (still_retry _))

end Decide

def Changes (w : World) (p : Proxy) (move : Move) (commands : List Routed) : Prop :=
  Posted w (Between p (move.apply w p)) commands (mutations (move.emits w p)) ∧
    (commands = [] ∨ ∀ action ∈ move.emits w p, action.asks = false)

section Move

variable {w : World} {p r : Proxy} {move : Move} {tasks : List Task}

theorem changes_of_plain (same : Still (move.ready p) r)
    (done : Steps w (r, tasks) (move.apply w p, [])) (plain : ∀ t ∈ tasks, t.Plain) :
    Changes w p move (copied tasks) := by
  obtain ⟨actions, outbox, posted, only⟩ := posted_of_steps done rfl plain
  rw [same.outbox] at outbox
  constructor
  · rw [mutations_emits outbox]
    exact posted.mono fun look between =>
      ⟨looks_ready p move ▸ same.looks.trans between.1, between.2⟩
  · rw [(akin_ready p move).outbox] at outbox
    rw [emits_of_outbox move w outbox]
    refine Or.inr (List.forall_mem_append.mpr ⟨?_, only⟩)
    cases move with
    | cacheProtest | storeProtest => exact List.forall_mem_singleton.mpr rfl
    | _ => exact List.forall_mem_nil _

theorem changes_of_calm (calm : ∀ t ∈ move.tasks p, t.Still ∨ t.asks = true) :
    Changes w p move [] := by
  obtain ⟨actions, outbox, silent⟩ := silent_of_steps (steps_apply w p move) calm
  refine ⟨?_, Or.inl rfl⟩
  rw [mutations_emits outbox, silent]
  exact .nil

theorem copied_expiring (addresses : List Address) :
    copied (addresses.map fun a => .copy a.raw (Cache.invalidate a.raw)) =
      addresses.map fun a => (a.raw, .pexpire a.raw 0) := by
  induction addresses with
  | nil => rfl
  | cons address addresses ih => exact congrArg _ ih

theorem entitled_of_apply (w : World) (p : Proxy) (move : Move) :
    ∃ commands, Entitles p move commands ∧ Changes w p move commands := by
  rcases tasks_cases w p move with replies | ⟨command, root, rfl, of, tasks⟩ |
    ⟨id, operation, news, told, ho, -⟩
  · refine ⟨[], .nothing, changes_of_calm fun t ht => ?_⟩
    obtain ⟨client, slot, value, rfl⟩ := replies t ht
    exact Or.inl ⟨trivial, rfl⟩
  · obtain ⟨client, slot, plan, numbers⟩ := root
    cases plan with
    | delete cacheOnly stored =>
        have plans := plans_of_plan of.plan
        cases plans with
        | @del keys deletion _ read composed =>
            obtain ⟨addresses, parsed, rfl⟩ := map_eq_ok read
            have run := steps_apply w p (.request client (.ok (.del keys)))
            rw [tasks] at run
            have changes := changes_of_plain (.refl _) run (by
              refine List.forall_mem_append.mpr ⟨fun t ht => ?_,
                List.forall_mem_singleton.mpr trivial⟩
              obtain ⟨address, -, rfl⟩ := List.mem_map.mp ht
              rfl)
            refine ⟨_, .deletion parsed, ?_⟩
            rw [Plan.tasks, copied_append, copied_expiring] at changes
            simpa only [copied, List.filterMap_cons, Task.copy?, List.filterMap_nil,
              List.append_nil] using changes
    | read | combine =>
        refine ⟨[], .nothing, changes_of_calm ?_⟩
        rw [tasks]
        exact List.forall_mem_singleton.mpr (Or.inr rfl)
    | write | readThenPut =>
        refine ⟨[], .nothing, changes_of_calm ?_⟩
        rw [tasks]
        exact List.forall_mem_singleton.mpr (Or.inl ⟨trivial, rfl⟩)
  · obtain ⟨r, same, ttl, done⟩ := decided_of_told told w ho
    rcases warranted_decide w r id operation news with
      ⟨server, response, rfl, plain, none | ⟨commands, grounds, copied⟩⟩ | still
    · exact ⟨[], .nothing, none ▸ changes_of_plain same done plain⟩
    · rw [ttl] at grounds
      exact ⟨_, .answer told ho grounds, copied ▸ changes_of_plain same done plain⟩
    · have changes := changes_of_plain same done fun t ht => (still t ht).1
      exact ⟨[], .nothing, copied_of_still still ▸ changes⟩

end Move

section Run

variable {w : World} {p : Proxy} {events : List Event} {ms : List Move} {move : Move}
  {id server : Nat} {operation : Operation} {address dest : Address} {value : Bytes}
  {members : List Bytes} {context : Option Bytes}

theorem nodup_of_told
    (told : move.news? p = some (id, .response server (.set members context))) :
    members.Nodup := by
  obtain ⟨frame, kind, rest, rfl, -, decoded⟩ := storeAnswer_of_told told
  exact Store.Response.nodup_of_decode decoded

theorem put_of_stage (trailed : Trailed w [] p)
    (ho : (play w p ms).operations.get? id = some operation)
    (stage : operation.stage = .storeWrite (.put address value)) :
    ∃ sending contentType vclock, sending ∈ sendings w (history w p ms) id ∧
      operation.request = some sending.request ∧ sending.request.key = address.key ∧
      sending.request.body = .put value contentType vclock := by
  obtain ⟨start, command, root, ⟨q, -, of⟩, -, stands⟩ := (trailed.play ms).table ho
  obtain ⟨place, -, trail⟩ := stands.trail
  have plans := plans_of_plan of.plan
  rw [stage] at trail
  generalize sendings w (history w p ms) id = sent, operation.request = request at trail ⊢
  generalize root.plan = plan at trail plans
  cases trail with
  | write =>
      cases plans with
      | put _ _ puts =>
          obtain ⟨-, rfl⟩ := compose_eq_ok puts
          exact ⟨_, _, _, List.mem_singleton.mpr rfl, rfl, rfl, rfl⟩
  | put =>
      cases plans with
      | readThenPut _ _ puts _ =>
          obtain ⟨-, rfl⟩ := compose_eq_ok puts
          exact ⟨_, _, _, List.mem_cons_of_mem _ (List.mem_singleton.mpr rfl), rfl, rfl, rfl⟩

theorem result_of_stage (sessions : Sessions w [] p) (trailed : Trailed w [] p)
    (balanced : Balanced p []) (empty : ∀ server, p.queued server = [])
    (run : ms <+: course w p events) (ho : (play w p ms).operations.get? id = some operation)
    (stage : operation.stage = .storeFetch dest members ∨
      operation.stage = .storeWrite (.store dest members)) :
    members.Nodup ∧ ∃ c client, Storing w p events ms c client dest ∧
      Stems w (history w p ms) c.start id ∧ c.Computed w (history w p ms) members := by
  obtain ⟨start, command, root, ⟨q, at', of⟩, stems, stands⟩ := (trailed.play ms).table ho
  obtain ⟨request, -⟩ := getElem?_history.mp at'
  obtain ⟨place, there, trail⟩ := stands.trail
  have plans := plans_of_plan of.plan
  obtain ⟨op, sources, plan, rfl⟩ : ∃ op sources, root.plan = .combine op (some dest) sources ∧
      place = none := by
    generalize operation.stage = now, operation.request = request, root.plan = plan,
      sendings w (history w p ms) id = sent at trail stage plans
    rcases stage with rfl | rfl
    · cases trail
      exact ⟨_, _, rfl, rfl⟩
    · cases trail with
      | write => cases plans
      | replace => exact ⟨_, _, rfl, rfl⟩
  obtain ⟨slot, target⟩ : ∃ slot, operation.target = .client slot := by
    cases target : operation.target with
    | client slot => exact ⟨slot, rfl⟩
    | fragment group index =>
        rw [target] at there
        cases there.2
  obtain ⟨raw, keys, rfl, parsed, planned⟩ : ∃ raw keys,
      command = .algebra op (some raw) keys ∧ keys.mapM Address.parse = .ok sources ∧
        planDest (some raw) = .ok (some dest) := by
    rw [plan] at plans
    cases plans with
    | @algebra _ raw keys _ _ parsed planned =>
        cases raw with
        | none => cases planned
        | some raw => exact ⟨raw, keys, rfl, parsed, planned⟩
  let c : Combination := ⟨start, op, some dest, sources⟩
  have storing : Storing w p events ms c root.client dest :=
    ⟨run, ⟨raw, keys, request, parsed, planned⟩, rfl⟩
  obtain ⟨members', stage', computed⟩ := computed_of_held (n := ms.length) storing sessions trailed
    balanced empty (by rwa [List.take_length]) stems target
  obtain rfl : members = members' := by
    rcases stage with stage | stage <;> rcases stage' with stage' | stage' <;>
      cases stage.symm.trans stage' <;> rfl
  rw [List.take_length] at computed
  obtain ⟨sets, all, same⟩ := computed
  refine ⟨?_, c, root.client, storing, stems, sets, all, same⟩
  rw [same]
  exact Members.nodup_combine op sets

end Run

structure Faithful (w : World) (p : Proxy) (events : List Event) : Prop
    extends Unrolled w p events where
  changes : ∀ ms move, ms ++ [move] <+: course w p events → ∃ commands,
    Entitles (play w p ms) move commands ∧
    Posted w (Looked w (history w p (ms ++ [move])) ms.length) commands
      (mutations (move.emits w (play w p ms))) ∧
    (commands = [] ∨ ∀ action ∈ move.emits w (play w p ms), action.asks = false) ∧
    ∀ pool, (∀ look, Looked w (history w p (ms ++ [move])) ms.length look → w.pool look = pool) →
      mutations (move.emits w (play w p ms)) =
        commands.filterMap fun c => (pool.pick .cache c.1).map (·, c.2)
  distinct : ∀ ms move, ms ++ [move] <+: course w p events → ∀ id server members context,
    move.news? (play w p ms) = some (id, .response server (.set members context)) → members.Nodup
  put : ∀ ms, ms <+: course w p events → ∀ id operation address value,
    (play w p ms).operations.get? id = some operation →
    operation.stage = .storeWrite (.put address value) →
    ∃ sending contentType vclock, sending ∈ sendings w (history w p ms) id ∧
      operation.request = some sending.request ∧ sending.request.key = address.key ∧
      sending.request.body = .put value contentType vclock
  result : ∀ ms, ms <+: course w p events → ∀ id operation dest members,
    (play w p ms).operations.get? id = some operation →
    (operation.stage = .storeFetch dest members ∨
      operation.stage = .storeWrite (.store dest members)) →
    members.Nodup ∧ ∃ c client, Storing w p events ms c client dest ∧
      Stems w (history w p ms) c.start id ∧ c.Computed w (history w p ms) members

theorem faithful_run (w : World) (settings : Settings) (policy : BucketPolicy)
    (events : List Event) : Faithful w (start settings policy) events where
  toUnrolled := unrolled_of_tidy w (Tidy.start settings policy) events
  changes := by
    intro ms move _
    obtain ⟨commands, entitled, posted, only⟩ :=
      entitled_of_apply w (play w (start settings policy) ms) move
    have posted' : Posted w (Looked w (history w (start settings policy) (ms ++ [move])) ms.length)
        commands (mutations (move.emits w (play w (start settings policy) ms))) := by
      refine posted.mono fun look between => ⟨_, move, ?_, between⟩
      rw [history_concat, List.getElem?_append_right length_history.le, length_history,
        Nat.sub_self]
      rfl
    exact ⟨commands, entitled, posted', only, fun pool steady => posted'.eq_of_steady steady⟩
  distinct _ _ _ _ _ _ _ told := nodup_of_told told
  put _ _ _ _ _ _ ho stage := put_of_stage (Trailed.start w settings policy) ho stage
  result _ run _ _ _ _ ho stage := result_of_stage (Sessions.start w settings policy)
    (Trailed.start w settings policy) (Balanced.start settings policy) (fun _ => rfl) run ho stage

theorem populated_without_lifetime :
    let w : World :=
      { pool := fun _ => { pick := fun _ _ => some 0, live := fun _ => [0] }, draw := fun _ => 0 }
    let policy : BucketPolicy := BucketPolicy.setTtl {} (ascii "default") (ascii "b") .never
    let p := start { serverTtl := 5000 } policy
    let events : List Event :=
      [.command 7 (.get (ascii "b:k")), .cacheData 0 (ascii "$-1\r\n"),
        .storeData 0 [0, 0, 0, 6, 10, 10, 3, 10, 1, 118]]
    mutations (p.run w events).outbox = [(0, .set (ascii "b:k") (ascii "v") none)] := by
  decide +kernel

end ReadThrough.Proxy
