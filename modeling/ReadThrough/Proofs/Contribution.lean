import ReadThrough.Proofs.Given
import ReadThrough.Proofs.Shares
import ReadThrough.Proofs.Sources
import ReadThrough.Proofs.Vclocks

namespace ReadThrough.Proxy

structure Combination where
  start : Nat
  op : SetOperator
  dest : Option Address
  sources : List Address

namespace Combination

variable (w : World) (past : History) (c : Combination)

def plan : Plan :=
  .combine c.op c.dest c.sources

def Computed (members : List Bytes) : Prop :=
  ∃ sets, AllCount w past c.start c.sources sets ∧ members = Members.combine c.op sets

inductive Result : Reply → Prop where
  | members {sets : List (List Bytes)} : AllCount w past c.start c.sources sets →
      Result (Reply.members (Members.combine c.op sets))
  | missing {lost : Finset Nat} : lost.Nonempty →
      (∀ index, index ∈ lost ↔ ∃ address, c.sources[index]? = some address ∧
        ∀ set, ¬ Counts w past c.start index address set) →
      Result (missingSources c.op lost.card)

end Combination

section Same

variable {w : World} {past past' : History} {c : Combination} {members : List Bytes}
  (same : ∀ index time operation news, Hears w past' c.start index time operation news ↔
    Hears w past c.start index time operation news)

include same

theorem Combination.Computed.of_same (h : c.Computed w past members) :
    c.Computed w past' members := by
  obtain ⟨sets, all, result⟩ := h
  exact ⟨sets, ⟨all.length, fun at' held => (all.counts at' held).of_same (same _)⟩, result⟩

end Same

def Stage.computed? : Stage → Option (List Bytes)
  | .storeFetch _ members | .storeWrite (.store _ members) => some members
  | _ => none

def Operation.Fair (w : World) (past : History) (c : Combination) (operation : Operation) : Prop :=
  match operation.target with
  | .fragment _ index => Unheard w past c.start index
  | .client _ => c.dest ≠ none ∧
      ∀ members, operation.stage.computed? = some members → c.Computed w past members

theorem Operation.Fair.of_same {w : World} {past past' : History} {c : Combination}
    {operation : Operation} (h : operation.Fair w past c)
    (same : ∀ index time operation news, Hears w past' c.start index time operation news ↔
      Hears w past c.start index time operation news) : operation.Fair w past' c := by
  unfold Operation.Fair at h ⊢
  split at h
  · exact h.of_same (same _)
  · exact ⟨h.1, fun members computed => (h.2 members computed).of_same same⟩

namespace Task

def Fair (w : World) (past : History) (c : Combination) (group : Nat) : Task → Prop
  | .reply _ _ value => c.dest = none → c.Result w past value
  | .part id (.set index members) => id = group ∧ ∃ address, c.sources[index]? = some address ∧
      ∀ set, Counts w past c.start index address set ↔ set = members
  | .part id .failed => id = group
  | .copy .. | .learn .. => True
  | .news _ operation heard =>
      match operation.target with
      | .fragment id index => id = group ∧ Only w past c.start index operation heard ∧
          (∀ members, operation.brought? heard = some members →
            ∃ time, Hears w past c.start index time operation heard) ∧
          ∀ read, operation.stage = .cacheRead read →
            heard = .missed ∨ ∃ value, heard = .value value
      | .client _ => operation.Fair w past c
  | .send _ operation _ => operation.Fair w past c ∧ ∀ id index,
      operation.target = .fragment id index → id = group ∧
        ∃ address, c.sources[index]? = some address ∧ address.hasBucket = true
  | .launch operation _ => (∃ slot, operation.target = .client slot) ∧ operation.Fair w past c
  | .lookUp _ target read => ∃ index address, target = .fragment group index ∧
      read = .set address .slot ∧ c.sources[index]? = some address ∧
      Unheard w past c.start index
  | .part _ (.count _) | .elsewhere .. | .delete .. | .combine .. | .poll .. => False

end Task

structure Turns (w : World) (past : History) (c : Combination) (group : Nat) (task : Task)
    (more : List Task) : Prop where
  fair : ∀ t ∈ more, t.Fair w past c group
  owed : ∀ {index address set}, task.part? group = some index →
    c.sources[index]? = some address → Counts w past c.start index address set →
    index ∈ more.filterMap (Task.part? group)
  few : more.countP (Task.isPart group) ≤ [task].countP (Task.isPart group)

section Decide

variable {w : World} {past before : History} {c : Combination} {group id index : Nat} {task : Task}
  {operation : Operation} {news : News} {address : Address} {route : Bytes}
  {commands : List Cache.Command} {members : List Bytes} {root : Root} {p : Proxy}
  {sent : List Sending}

theorem fair_copies : ∀ t ∈ copies route commands, t.Fair w past c group := by
  intro t hm
  obtain ⟨command, -, rfl⟩ := List.mem_map.mp hm
  trivial

theorem Turns.served (part : task.part? group = some index) (one : task.isPart group = true)
    (at' : c.sources[index]? = some address)
    (counts : ∀ set, Counts w past c.start index address set ↔ set = members) :
    Turns w past c group task [.part group (.set index members)] where
  fair := List.forall_mem_singleton.mpr ⟨rfl, address, at', counts⟩
  owed part' _ _ := by
    obtain rfl := Option.some.inj (part.symm.trans part')
    simp [Task.part?]
  few := by
    rw [List.countP_singleton, List.countP_singleton, if_pos one]
    split <;> omega

theorem Turns.copies {more : List Task} (h : Turns w past c group task more) :
    Turns w past c group task (copies route commands ++ more) where
  fair := List.forall_mem_append.mpr ⟨fair_copies, h.fair⟩
  owed part at' counts := by
    rw [List.filterMap_append]
    exact List.mem_append_right _ (h.owed part at' counts)
  few := by
    rw [List.countP_append, isPart_copies, Nat.zero_add]
    exact h.few

theorem Turns.later {later : Task} (part : task.part? group = some index)
    (one : task.isPart group = true) (part' : later.part? group = some index)
    (fair : later.Fair w past c group) : Turns w past c group task [later] where
  fair := List.forall_mem_singleton.mpr fair
  owed other _ _ := by
    obtain rfl := Option.some.inj (part.symm.trans other)
    simp [part']
  few := by
    rw [List.countP_singleton, List.countP_singleton, if_pos one]
    split <;> omega

theorem Turns.failed (part : task.part? group = some index) (one : task.isPart group = true)
    (at' : c.sources[index]? = some address)
    (lost : ∀ set, ¬ Counts w past c.start index address set) :
    Turns w past c group task [.part group .failed] where
  fair := List.forall_mem_singleton.mpr rfl
  owed part' other counts := by
    obtain rfl := Option.some.inj (part.symm.trans part')
    cases at'.symm.trans other
    exact absurd counts (lost _)
  few := by
    rw [List.countP_singleton, List.countP_singleton, if_pos one]
    split <;> omega

theorem Turns.apart {more : List Task} (none : task.part? group = none)
    (fair : ∀ t ∈ more, t.Fair w past c group) (apart : ∀ t ∈ more, t.isPart group = false) :
    Turns w past c group task more where
  fair := fair
  owed part := by cases none.symm.trans part
  few := by
    rw [List.countP_eq_zero.mpr fun t hm => by rw [apart t hm]; exact Bool.false_ne_true]
    exact Nat.zero_le _

theorem Unheard.lost (h : Unheard w past c.start index) (bucket : address.hasBucket = true)
    (set : List Bytes) : ¬ Counts w past c.start index address set := by
  intro counts
  cases bucket.symm.trans ((counts_of_unheard h).mp counts).1

section Stands

variable {settings : Settings} {start : Nat} {op : SetOperator} {dest : Option Address}
  {sources : List Address} {stage : Stage} {request : Option Store.Request}

theorem Trail.of_source
    (h : Trail w past settings start id (.combine op dest sources) (some index) stage request
      sent) :
    ∃ address, sources[index]? = some address ∧ (stage = .cacheRead (.set address .slot) ∨
      stage = .storeRead (.set address .slot) ∧ address.hasBucket = true) := by
  cases h with
  | source part => exact ⟨_, part, Or.inl rfl⟩
  | sourceRead part composed => exact ⟨_, part, Or.inr ⟨rfl, (compose_eq_ok composed).1⟩⟩

theorem Trail.of_dest
    (h : Trail w past settings start id (.combine op dest sources) none stage request sent) :
    ∃ address members, dest = some address ∧
      (stage = .storeFetch address members ∨ stage = .storeWrite (.store address members)) := by
  cases h with
  | dest => exact ⟨_, _, rfl, Or.inl rfl⟩
  | replace => exact ⟨_, _, rfl, Or.inr rfl⟩

variable (stands : Stands w before c.start root p id operation sent) (plan : root.plan = c.plan)

include stands plan

theorem Stands.source (target : operation.target = .fragment group index) :
    ∃ address, c.sources[index]? = some address ∧
      (operation.stage = .cacheRead (.set address .slot) ∨
        operation.stage = .storeRead (.set address .slot) ∧ address.hasBucket = true) := by
  obtain ⟨place, at', trail⟩ := stands.trail
  rw [target] at at'
  obtain ⟨-, rfl⟩ := at'
  rw [plan] at trail
  exact trail.of_source

theorem Stands.replaces {slot : Nat} (target : operation.target = .client slot) :
    ∃ address members, c.dest = some address ∧ (operation.stage = .storeFetch address members ∨
      operation.stage = .storeWrite (.store address members)) := by
  obtain ⟨place, at', trail⟩ := stands.trail
  rw [target] at at'
  obtain ⟨-, rfl⟩ := at'
  rw [plan] at trail
  exact trail.of_dest

end Stands

section Source

variable (target : operation.target = .fragment group index)
  (at' : c.sources[index]? = some address)

include target

theorem fair_news (only : Only w past c.start index operation news)
    (hears : ∀ members, operation.brought? news = some members →
      ∃ time, Hears w past c.start index time operation news)
    (cached : ∀ read, operation.stage = .cacheRead read →
      news = .missed ∨ ∃ value, news = .value value) :
    (Task.news id operation news).Fair w past c group := by
  simp only [Task.Fair, target, true_and]
  exact ⟨only, hears, cached⟩

include at'

theorem turns_onMiss (stage : operation.stage = .cacheRead (.set address .slot))
    (unheard : Unheard w past c.start index) (settings : Settings) :
    Turns w past c group (.news id operation news) (operation.onMiss settings id) := by
  rcases Bool.eq_false_or_eq_true address.hasBucket with bucket | bucket
  · simp only [Operation.onMiss, stage, Read.address, bucket, Bool.not_true, Bool.false_eq_true,
      if_false]
    split
    · refine .later (part?_news target) (isPart_news target) ?_ ⟨?_, ?_⟩
      · simp only [Task.part?, target, part?_fragment]
      · simpa only [Operation.Fair, target] using unheard
      · intro id other same
        cases target.symm.trans same
        exact ⟨rfl, address, at', bucket⟩
    · rw [Operation.failing, conclude_fragment target]
      exact .failed (part?_news target) (isPart_news target) at' (unheard.lost bucket)
  · simp only [Operation.onMiss, stage, Read.address, bucket, Bool.not_false, if_true,
      deliver_fragment target]
    refine .served (part?_news target) (isPart_news target) at' ?_
    intro set
    rw [counts_of_unheard unheard]
    exact and_iff_right bucket

theorem turns_onValue {value : Resp.Value}
    (stage : operation.stage = .cacheRead (.set address .slot))
    (only : Only w past c.start index operation (.value value))
    (hears : ∀ members, operation.brought? (.value value) = some members →
      ∃ time, Hears w past c.start index time operation (.value value)) :
    Turns w past c group (.news id operation (.value value)) (operation.onValue id value) := by
  have brought : operation.brought? (.value value) = Cache.members? value := by
    simp only [Operation.brought?, stage]
  have missed : Cache.members? value = none → Turns w past c group
      (.news id operation (.value value)) [.news id operation .missed] := by
    intro none
    refine .later (part?_news target) (isPart_news target) (part?_news target) ?_
    refine fair_news target (only.unheard (brought.trans none)).only ?_ fun _ _ => Or.inl rfl
    intro members some
    cases some
  simp only [Operation.onValue, stage]
  split
  · next error =>
      refine missed ?_
      cases value <;> first | rfl | cases error
  · split
    · next members found same =>
        cases target.symm.trans same
        obtain ⟨time, heard⟩ := hears _ (brought.trans found)
        refine .served (part?_news target) (isPart_news target) at' ?_
        intro set
        exact counts_of_only only heard (brought.trans found) (Or.inl stage)
    · next none =>
        refine missed ?_
        cases found : Cache.members? value with
        | none => rfl
        | some members => exact absurd target (none members _ _ found)

theorem turns_onResponse {server : Nat} {response : Store.Response}
    (stage : operation.stage = .storeRead (.set address .slot))
    (bucket : address.hasBucket = true)
    (only : Only w past c.start index operation (.response server response))
    (hears : ∀ members, operation.brought? (.response server response) = some members →
      ∃ time, Hears w past c.start index time operation (.response server response)) :
    Turns w past c group (.news id operation (.response server response))
      (operation.onResponse w p id server response) := by
  have failed : operation.brought? (.response server response) = none →
      Turns w past c group (.news id operation (.response server response)) [.part group .failed] :=
    fun none =>
      .failed (part?_news target) (isPart_news target) at' ((only.unheard none).lost bucket)
  cases response with
  | error message code =>
      simp only [Operation.onResponse, isResendable_fragment target, Bool.and_false,
        conclude_fragment target]
      exact failed rfl
  | set members context =>
      have brought :
          operation.brought? (.response server (.set members context)) = some members := by
        simp only [Operation.brought?, stage]
      obtain ⟨time, heard⟩ := hears _ brought
      simp only [Operation.onResponse, stage, Operation.onSetRead, deliver_fragment target]
      refine .copies (.served (part?_news target) (isPart_news target) at' ?_)
      intro set
      exact counts_of_only only heard brought (Or.inr ⟨stage, bucket⟩)
  | _ =>
      simp only [Operation.onResponse, stage, Operation.onSetRead, conclude_fragment target]
      exact failed rfl

theorem turns_of_source (stage : operation.stage = .cacheRead (.set address .slot) ∨
      operation.stage = .storeRead (.set address .slot) ∧ address.hasBucket = true)
    (fair : (Task.news id operation news).Fair w past c group) :
    Turns w past c group (.news id operation news) (operation.decide w p id news) := by
  simp only [Task.Fair, target] at fair
  obtain ⟨-, only, hears, cached⟩ := fair
  rcases stage with stage | ⟨stage, bucket⟩
  · rcases cached _ stage with rfl | ⟨value, rfl⟩
    · exact turns_onMiss target at' stage (only.unheard rfl) p.settings
    · exact turns_onValue target at' stage only hears
  · have failed : operation.brought? news = none →
        Turns w past c group (.news id operation news) [.part group .failed] :=
      fun none => .failed (part?_news target) (isPart_news target) at'
        ((only.unheard none).lost bucket)
    cases news with
    | response server response => exact turns_onResponse target at' stage bucket only hears
    | value value =>
        simp only [Operation.decide, Operation.onValue, stage, Operation.failing,
          conclude_fragment target]
        exact failed (by simp only [Operation.brought?, stage])
    | missed =>
        simp only [Operation.decide, Operation.onMiss, stage, Operation.failing,
          conclude_fragment target]
        exact failed rfl
    | failed why =>
        simp only [Operation.decide, Operation.failing, conclude_fragment target]
        exact failed rfl
    | lost server reason =>
        simp only [Operation.decide, Operation.retry, isResendable_fragment target,
          Bool.false_eq_true, if_false, conclude_fragment target]
        exact failed rfl

end Source

section Dest

def Operation.Leaves (operation : Operation) (id slot : Nat) (dest : Address)
    (members : List Bytes) (t : Task) : Prop :=
  t.Quiet ∨ (∃ value, t = .reply operation.client slot value) ∨ ∃ request, t = .send id
    { client := operation.client, target := .client slot
      stage := .storeWrite (.store dest members) } request

variable {slot : Nat} {dest : Address} (target : operation.target = .client slot)

include target

theorem leaves_conclude (value : Reply) :
    ∀ t ∈ [operation.conclude value], operation.Leaves id slot dest members t := by
  simp only [Operation.conclude, target]
  exact List.forall_mem_singleton.mpr (Or.inr (Or.inl ⟨value, rfl⟩))

theorem leaves_replaced :
    ∀ t ∈ operation.replaced p dest members, operation.Leaves id slot dest members t :=
  List.forall_mem_append.mpr
    ⟨fun t hm => Or.inl (quiet_copies _ _ t hm), leaves_conclude target _⟩

theorem leaves_onFetched (response : Store.Response) :
    ∀ t ∈ operation.onFetched p id dest members response,
      operation.Leaves id slot dest members t := by
  cases response with
  | set current context =>
      simp only [Operation.onFetched]
      split
      · next request _ =>
          rw [target]
          exact List.forall_mem_singleton.mpr (Or.inr (Or.inr ⟨request, rfl⟩))
      · exact leaves_replaced target
      · exact leaves_conclude target _
  | _ => exact leaves_conclude target _

theorem leaves_onWritten (response : Store.Response) :
    ∀ t ∈ operation.onWritten p (.store dest members) response,
      operation.Leaves id slot dest members t := by
  cases response with
  | updateAck => exact leaves_replaced target
  | _ => exact leaves_conclude target _

theorem leaves_decide (stage : operation.stage = .storeFetch dest members ∨
      operation.stage = .storeWrite (.store dest members)) :
    ∀ t ∈ operation.decide w p id news, operation.Leaves id slot dest members t := by
  have early : operation.isResendable = false := by
    rcases stage with stage | stage <;> simp [Operation.isResendable, target, stage]
  cases news with
  | value value =>
      rcases stage with stage | stage <;> simp only [Operation.decide, Operation.onValue, stage] <;>
        exact leaves_conclude target _
  | missed =>
      rcases stage with stage | stage <;> simp only [Operation.decide, Operation.onMiss, stage] <;>
        exact leaves_conclude target _
  | failed why => exact leaves_conclude target _
  | lost server reason =>
      simp only [Operation.decide, Operation.retry, early, Bool.false_eq_true, if_false]
      exact leaves_conclude target _
  | response server response =>
      cases response with
      | error message code =>
          simp only [Operation.decide, Operation.onResponse, early, Bool.and_false,
            Bool.false_eq_true, if_false]
          exact leaves_conclude target _
      | _ =>
          rcases stage with stage | stage <;>
            simp only [Operation.decide, Operation.onResponse, stage]
          · exact leaves_onFetched target _
          · exact leaves_onWritten target _

theorem turns_of_dest (own : c.dest = some dest)
    (stage : operation.stage = .storeFetch dest members ∨
      operation.stage = .storeWrite (.store dest members)) (fair : operation.Fair w past c) :
    Turns w past c group (.news id operation news) (operation.decide w p id news) := by
  have computed : c.Computed w past members := by
    simp only [Operation.Fair, target] at fair
    rcases stage with stage | stage <;> exact fair.2 members (by rw [stage]; rfl)
  refine .apart (by simp only [Task.part?, target, part?_client]) ?_ ?_
  · intro t hm
    rcases leaves_decide target stage t hm with quiet | ⟨value, rfl⟩ | ⟨request, rfl⟩
    · cases t <;> first | exact quiet.elim | trivial
    · intro none
      cases own.symm.trans none
    · refine ⟨⟨by simp [own], ?_⟩, by simp⟩
      intro other same
      cases same
      exact computed
  · intro t hm
    rcases leaves_decide target stage t hm with quiet | ⟨value, rfl⟩ | ⟨request, rfl⟩
    · cases t <;> first | exact quiet.elim | rfl
    · rfl
    · rfl

end Dest

theorem turns_of_news (stands : Stands w before c.start root p id operation sent)
    (plan : root.plan = c.plan) (fair : (Task.news id operation news).Fair w past c group) :
    Turns w past c group (.news id operation news) (operation.decide w p id news) := by
  cases target : operation.target with
  | fragment group' index =>
      obtain rfl : group' = group := by
        simp only [Task.Fair, target] at fair
        exact fair.1
      obtain ⟨address, at', stage⟩ := stands.source plan target
      exact turns_of_source target at' stage fair
  | client slot =>
      obtain ⟨address, members, own, stage⟩ := stands.replaces plan target
      simp only [Task.Fair, target] at fair
      exact turns_of_dest target own stage fair

end Decide

end ReadThrough.Proxy
