import ReadThrough.Proofs.Recency
import ReadThrough.Proofs.Trailed

namespace ReadThrough.Proxy

def Operation.lesson? (operation : Operation) : News → Option (Address × Option Bytes)
  | .response _ (.found _ vclock) =>
      match operation.stage with
      | .storeRead (.value address) | .awaitingVclock address _ _ => some (address, vclock)
      | _ => none
  | .response _ (.putAck vclock) =>
      match operation.stage with
      | .storeWrite (.put address _) => some (address, vclock)
      | _ => none
  | _ => none

def Task.lesson? : Task → Option (Address × Option Bytes)
  | .learn address vclock => some (address, vclock)
  | .news _ operation heard => operation.lesson? heard
  | _ => none

def lessons (tasks : List Task) : List (Address × Option Bytes) :=
  tasks.filterMap Task.lesson?

section Lessons

variable {w : World} {p q : Proxy} {task : Task} {tasks more : List Task} {operation : Operation}
  {id : Nat} {key v : Bytes} {address : Address}

@[simp] theorem lessons_nil : lessons [] = [] := rfl

@[simp] theorem lessons_append : lessons (tasks ++ more) = lessons tasks ++ lessons more :=
  List.filterMap_append

@[simp] theorem lessons_cons : lessons (task :: tasks) = task.lesson?.toList ++ lessons tasks := by
  rw [lessons, List.filterMap_cons]
  cases task.lesson? <;> rfl

@[simp] theorem lessons_copies (route : Bytes) (commands : List Cache.Command) :
    lessons (copies route commands) = [] := by
  simp [lessons, copies, List.filterMap_map, Function.comp_def, Task.lesson?]

@[simp] theorem lesson?_conclude (value : Reply) : (operation.conclude value).lesson? = none := by
  unfold Operation.conclude
  split <;> rfl

@[simp] theorem lesson?_failing (why : Failure) : (operation.failing why).lesson? = none :=
  lesson?_conclude _

@[simp] theorem lesson?_deliver (read : SetRead) (members : List Bytes) :
    (operation.deliver read members).lesson? = none := by
  unfold Operation.deliver
  split
  · exact lesson?_conclude _
  · rfl
  · exact lesson?_conclude _

@[simp] theorem lesson?_retry (primary : Option Nat) (value : Reply) :
    (operation.retry id primary value).lesson? = none := by
  unfold Operation.retry
  split
  · split
    · rfl
    · exact lesson?_conclude _
  · exact lesson?_conclude _

@[simp] theorem lesson?_learn (vclock : Option Bytes) :
    (Task.learn address vclock).lesson? = some (address, vclock) := rfl

@[simp] theorem lesson?_missed : (Task.news id operation .missed).lesson? = none := rfl

@[simp] theorem lesson?_copy (route : Bytes) (command : Cache.Command) :
    (Task.copy route command).lesson? = none := rfl

@[simp] theorem lesson?_part (group : Nat) (part : Fragment.Part) :
    (Task.part group part).lesson? = none := rfl

@[simp] theorem lesson?_send (request : Store.Request) :
    (Task.send id operation request).lesson? = none := rfl

@[simp] theorem lesson?_elsewhere (primary : Nat) (value : Reply) :
    (Task.elsewhere id operation primary value).lesson? = none := rfl

theorem lessons_onValue (value : Resp.Value) : lessons (operation.onValue id value) = [] := by
  fun_cases Operation.onValue <;> simp

theorem lessons_onMiss (settings : Settings) : lessons (operation.onMiss settings id) = [] := by
  fun_cases Operation.onMiss <;> simp

theorem lessons_onValueRead (address : Address) (response : Store.Response) :
    lessons (operation.onValueRead w p id address response) =
      match response with
      | .found _ vclock => [(address, vclock)]
      | _ => [] := by
  cases response with
  | found siblings vclock =>
      simp only [Operation.onValueRead]
      cases Store.Outcome.ofSiblings (w.draw p.looks) siblings vclock <;> simp
  | _ => simp [Operation.onValueRead]

theorem lessons_onSetRead (address : Address) (read : SetRead) (response : Store.Response) :
    lessons (operation.onSetRead p id address read response) = [] := by
  fun_cases Operation.onSetRead <;> simp

theorem lessons_onVclock (address : Address) (value : Bytes) (deferred : Store.Request)
    (response : Store.Response) :
    lessons (operation.onVclock id address value deferred response) =
      match response with
      | .found _ vclock => [(address, vclock)]
      | _ => [] := by
  cases response <;> simp [Operation.onVclock]

theorem lessons_onFetched (dest : Address) (members : List Bytes) (response : Store.Response) :
    lessons (operation.onFetched p id dest members response) = [] := by
  fun_cases Operation.onFetched <;> simp [Operation.replaced]

theorem lessons_onWritten (write : Write) (response : Store.Response) :
    lessons (operation.onWritten p write response) =
      match write, response with
      | .put address _, .putAck vclock => [(address, vclock)]
      | _, _ => [] := by
  cases write with
  | delete address =>
      cases response with
      | deleteAck =>
          simp only [Operation.onWritten]
          cases operation.target <;> simp
      | _ => simp [Operation.onWritten]
  | _ => cases response <;> simp [Operation.onWritten, Operation.replaced]

theorem lessons_decide (news : News) :
    lessons (operation.decide w p id news) = (operation.lesson? news).toList := by
  cases news with
  | value value => exact lessons_onValue value
  | missed => exact lessons_onMiss p.settings
  | failed why => simp [Operation.decide, Operation.lesson?]
  | lost server reason => simp [Operation.decide, Operation.lesson?]
  | response server response =>
      cases response with
      | error message code =>
          simp only [Operation.decide, Operation.onResponse, Operation.lesson?]
          split <;> simp
      | found | putAck | deleteAck | set | counter | updateAck =>
          simp only [Operation.decide, Operation.onResponse, Operation.lesson?]
          cases stage : operation.stage with
          | cacheRead read => simp
          | storeRead read =>
              cases read with
              | value address => simp [lessons_onValueRead]
              | set address read => simp [lessons_onSetRead]
          | awaitingVclock address value deferred => simp [lessons_onVclock]
          | storeFetch dest members => simp [lessons_onFetched]
          | storeWrite write => cases write <;> simp [lessons_onWritten]

theorem lessons_closing (settings : Settings) (done : Option (Fragment.Group GroupContext)) :
    lessons (closing settings done) = [] := by
  cases done with
  | none => rfl
  | some group =>
      have silent : (completion settings group).lesson? = none := by
        unfold completion
        split
        · rfl
        · split
          · rfl
          · split
            · rfl
            · split <;> rfl
      simp [lessons, closing, silent]

theorem lessons_tasks (client slot : Nat) (plan : Plan) : lessons (plan.tasks client slot) = [] := by
  cases plan with
  | delete cacheOnly stored =>
      simp [Plan.tasks, lessons, List.filterMap_map, Function.comp_def, Task.lesson?]
  | _ => rfl

theorem lessons_of_does (done : Does w p task q more) :
    ∀ lesson ∈ lessons more, task.lesson? = some lesson := by
  have none : lessons more = [] → ∀ lesson ∈ lessons more, task.lesson? = some lesson := by
    intro h lesson hm
    rw [h] at hm
    cases hm
  cases done with
  | news =>
      intro lesson hm
      rw [lessons_decide, Option.mem_toList] at hm
      exact hm
  | bring | poll => exact none (lessons_closing _ _)
  | delete =>
      exact none (by simp [lessons, deletions, List.filterMap_map, Function.comp_def, Task.lesson?])
  | combine =>
      exact none (by simp [lessons, lookUps, List.filterMap_map, Function.comp_def, Task.lesson?])
  | oversize | unreached => exact none (by simp)
  | exhausted => exact none (by simp)
  | _ => exact none rfl

theorem vclocks_of_does (done : Does w p task q more) : q.vclocks = p.vclocks ∨
    ∃ address vclock, task = .learn address (some vclock) ∧ vclock ≠ [] ∧
      q.vclocks = p.vclocks.remember address.key.join vclock := by
  cases done with
  | @learn address vclock =>
      unfold rememberVclock
      split
      · exact Or.inl rfl
      · exact Or.inl rfl
      · next vclock filled =>
          exact Or.inr ⟨address, vclock, rfl, fun none => filled (by rw [none]), rfl⟩
  | reply =>
      rcases reply_cases p _ _ _ with ⟨-, what, hr⟩ | ⟨filled, -, hr⟩
      · rw [hr]
        exact Or.inl rfl
      · rw [hr]
        exact Or.inl rfl
  | _ => exact Or.inl rfl

theorem rememberedVclock_of_does (done : Does w p task q more)
    (h : q.rememberedVclock key = some v) : p.rememberedVclock key = some v ∨
      ∃ address, task.lesson? = some (address, some v) ∧ v ≠ [] ∧ address.key.join = key := by
  unfold rememberedVclock at h
  rcases vclocks_of_does done with same | ⟨address, vclock, rfl, filled, learned⟩
  · rw [same] at h
    exact Or.inl h
  · rw [learned] at h
    rcases Recency.peek?_of_remember h with ⟨rfl, rfl⟩ | old
    · exact Or.inr ⟨address, rfl, filled, rfl⟩
    · exact Or.inl old

theorem rememberedVclock_of_steps {a b : Proxy × List Task} (done : Steps w a b)
    (h : b.1.rememberedVclock key = some v) : a.1.rememberedVclock key = some v ∨
      ∃ address, (address, some v) ∈ lessons a.2 ∧ v ≠ [] ∧ address.key.join = key := by
  induction done using Relation.ReflTransGen.head_induction_on with
  | refl => exact Or.inl h
  | head first _ ih =>
      cases first with
      | still same =>
          rw [rememberedVclock, same.vclocks] at ih
          exact ih
      | @task p q task more rest done =>
          rw [lessons_append] at ih
          rw [lessons_cons]
          rcases ih with before | ⟨address, hm, filled, own⟩
          · rcases rememberedVclock_of_does done before with before | ⟨address, taught, told⟩
            · exact Or.inl before
            · exact Or.inr ⟨address, List.mem_append_left _ (Option.mem_toList.mpr taught), told⟩
          · refine Or.inr ⟨address, ?_, filled, own⟩
            rcases List.mem_append.mp hm with new | old
            · exact List.mem_append_left _ (Option.mem_toList.mpr (lessons_of_does done _ new))
            · exact List.mem_append_right _ old

theorem vclocks_ready (p : Proxy) (move : Move) : (move.ready p).vclocks = p.vclocks ∨
    ∃ key, (move.ready p).vclocks = p.vclocks.touch key := by
  have opened : (move.opening p).1.vclocks = p.vclocks := by
    obtain ⟨operations, ho⟩ := Move.opening_fst p move
    rw [ho]
    change (move.prepare p).vclocks = p.vclocks
    cases move with
    | cacheAnswer server value =>
        simp only [Move.prepare]
        split <;> rfl
    | storeAnswer server frame =>
        simp only [Move.prepare]
        split <;> rfl
    | _ => rfl
  cases move with
  | request client content =>
      cases content with
      | error why => exact Or.inl opened
      | ok command =>
          obtain ⟨vclocks, nextOperation, ready, change, -⟩ := ready_request p client command
          simp only [ready]
          exact change
  | _ => exact Or.inl opened

theorem rememberedVclock_ready (p : Proxy) (move : Move) (key : Bytes) :
    (move.ready p).rememberedVclock key = p.rememberedVclock key := by
  unfold rememberedVclock
  rcases vclocks_ready p move with same | ⟨touched, now⟩
  · rw [same]
  · rw [now, Recency.peek?_touch]

theorem rememberedVclock_of_apply {move : Move}
    (h : (move.apply w p).rememberedVclock key = some v) : p.rememberedVclock key = some v ∨
      ∃ address, (address, some v) ∈ lessons (move.tasks p) ∧ v ≠ [] ∧ address.key.join = key := by
  refine (rememberedVclock_of_steps (steps_apply w p move) h).imp_left fun before => ?_
  rwa [rememberedVclock_ready] at before

theorem distinct_of_does (done : Does w p task q more) (h : p.vclocks.Distinct) :
    q.vclocks.Distinct := by
  rcases vclocks_of_does done with same | ⟨address, vclock, -, -, learned⟩
  · rwa [same]
  · rw [learned]
    exact h.remember

theorem distinct_of_steps {a b : Proxy × List Task} (done : Steps w a b)
    (h : a.1.vclocks.Distinct) : b.1.vclocks.Distinct := by
  induction done with
  | refl => exact h
  | tail _ last ih =>
      cases last with
      | still same => rwa [same.vclocks]
      | task does => exact distinct_of_does does ih

theorem distinct_apply (h : p.vclocks.Distinct) (w : World) (move : Move) :
    (move.apply w p).vclocks.Distinct := by
  refine distinct_of_steps (steps_apply w p move) ?_
  rcases vclocks_ready p move with same | ⟨key, touched⟩
  · rwa [same]
  · rw [touched]
    exact h.touch

theorem distinct_play (h : p.vclocks.Distinct) (w : World) (moves : List Move) :
    (play w p moves).vclocks.Distinct := by
  induction moves generalizing p with
  | nil => exact h
  | cons move moves ih => exact ih (distinct_apply h w move)

end Lessons

end ReadThrough.Proxy
