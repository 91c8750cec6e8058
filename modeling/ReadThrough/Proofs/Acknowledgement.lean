import ReadThrough.Proofs.Given

namespace ReadThrough.Proxy

def Stage.acknowledgement? : Stage → Store.Response → Option Reply
  | .storeWrite (.put _ _), .putAck _ => some Reply.ok
  | .storeWrite (.setUpdate _ count), .updateAck => some (Reply.count count)
  | .storeWrite (.counter _), .counter value => some (Reply.integer value)
  | .storeWrite (.store _ members), .updateAck => some (Reply.count members.length)
  | .storeFetch _ members, .set current _ =>
      if Members.without members current = [] ∧ Members.without current members = [] then
        some (Reply.count members.length)
      else none
  | _, _ => none

def Plan.Writes : Plan → Prop
  | .write change _ => ∀ address, change ≠ .delete address
  | .readThenPut .. => True
  | .combine _ dest _ => dest ≠ none
  | .read _ | .delete .. => False

def Task.Pledged (acknowledged : Reply → Prop) : Task → Prop
  | .reply _ _ value | .elsewhere _ _ _ value => value.isError = true ∨ acknowledged value
  | .news _ operation (.response _ response) =>
      ∀ value, operation.stage.acknowledgement? response = some value → acknowledged value
  | _ => True

section Pledged

variable {w : World} {past : History} {start id : Nat} {root : Root} {p : Proxy}
  {operation : Operation} {sent : List Sending} {acknowledged : Reply → Prop}

theorem isError_failure (why : Failure) : (Reply.failure why).isError = true := rfl

theorem pledged_conclude {value : Reply} (h : value.isError = true ∨ acknowledged value) :
    (operation.conclude value).Pledged acknowledged := by
  unfold Operation.conclude
  split
  · exact h
  · trivial

theorem pledged_failing (why : Failure) : (operation.failing why).Pledged acknowledged :=
  pledged_conclude (Or.inl (isError_failure why))

theorem pledged_copies {route : Bytes} {commands : List Cache.Command} :
    ∀ task ∈ copies route commands, task.Pledged acknowledged := by
  intro task hm
  obtain ⟨command, -, rfl⟩ := List.mem_map.mp hm
  trivial

theorem pledged_completion {settings : Settings} {group : Fragment.Group GroupContext}
    (writes : root.plan.Writes) (gathers : root.Gathers group.context) :
    (completion settings group).Pledged acknowledged := by
  unfold completion
  cases context : group.context with
  | del slot =>
      rw [context] at gathers
      obtain ⟨-, cacheOnly, stored, plan⟩ := gathers
      rw [plan] at writes
      exact writes.elim
  | algebra slot op dest =>
      rw [context] at gathers
      obtain ⟨-, sources, plan⟩ := gathers
      rw [plan] at writes
      dsimp only
      split
      · exact Or.inl rfl
      · cases dest with
        | none => exact (writes rfl).elim
        | some dest =>
            dsimp only
            split
            · exact Or.inl (isError_failure _)
            · trivial

theorem pledged_closing {settings : Settings} {done : Option (Fragment.Group GroupContext)}
    (writes : root.plan.Writes) (gathers : ∀ group, done = some group →
      root.Gathers group.context) :
    ∀ task ∈ closing settings done, task.Pledged acknowledged := by
  intro task hm
  obtain ⟨group, hg, rfl⟩ := Option.map_eq_some_iff.mp (Option.mem_toList.mp hm)
  exact pledged_completion writes (gathers group hg)

section Stands

variable (writes : root.plan.Writes)
  (stands : Stands w past start root p id operation sent)

include writes stands

theorem source_of_read {read : Read}
    (stage : operation.stage = .cacheRead read ∨ operation.stage = .storeRead read) :
    ∃ address group index, read = .set address .slot ∧
      operation.target = .fragment group index := by
  obtain ⟨place, at', trail⟩ := stands.trail
  generalize operation.request = request at trail
  cases plan : root.plan with
  | read read =>
      rw [plan] at writes
      exact writes.elim
  | write | readThenPut | delete =>
      rw [plan] at trail
      rcases stage with stage | stage <;> rw [stage] at trail <;> cases trail
  | combine op dest sources =>
      rw [plan] at trail
      rcases stage with stage | stage <;> rw [stage] at trail <;> cases trail
      all_goals
        cases target : operation.target with
        | client slot =>
            rw [target] at at'
            cases at'.2
        | fragment group index => exact ⟨_, group, index, rfl, rfl⟩

theorem isResendable_eq_false : operation.isResendable = false := by
  by_contra resendable
  obtain ⟨place, at', trail⟩ := stands.trail
  rw [Bool.not_eq_false] at resendable
  unfold Operation.isResendable at resendable
  split at resendable
  · next slot read target stage =>
      obtain ⟨address, group, index, -, part⟩ := source_of_read writes stands (Or.inr stage)
      rw [target] at part
      cases part
  · simp at resendable

theorem pledged_onValue (value : Resp.Value) :
    ∀ task ∈ operation.onValue id value, task.Pledged acknowledged := by
  unfold Operation.onValue
  cases stage : operation.stage with
  | cacheRead read =>
      obtain ⟨address, group, index, rfl, target⟩ := source_of_read writes stands (Or.inl stage)
      dsimp only
      split
      · exact List.forall_mem_singleton.mpr trivial
      · split <;> exact List.forall_mem_singleton.mpr trivial
  | storeRead | awaitingVclock | storeFetch | storeWrite =>
      exact List.forall_mem_singleton.mpr (pledged_failing _)

theorem pledged_onMiss (settings : Settings) :
    ∀ task ∈ operation.onMiss settings id, task.Pledged acknowledged := by
  unfold Operation.onMiss
  cases stage : operation.stage with
  | cacheRead read =>
      obtain ⟨address, group, index, rfl, target⟩ := source_of_read writes stands (Or.inl stage)
      dsimp only
      split
      · simp only [Operation.deliver, target]
        exact List.forall_mem_singleton.mpr trivial
      · split
        · exact List.forall_mem_singleton.mpr trivial
        · exact List.forall_mem_singleton.mpr (pledged_failing _)
  | storeRead | awaitingVclock | storeFetch | storeWrite =>
      exact List.forall_mem_singleton.mpr (pledged_failing _)

theorem pledged_retry {primary : Option Nat} {value : Reply} (error : value.isError = true) :
    (operation.retry id primary value).Pledged acknowledged := by
  simp only [Operation.retry, isResendable_eq_false writes stands]
  exact pledged_conclude (Or.inl error)

section Response

variable {server : Nat} {response : Store.Response}
  (told : ∀ value, operation.stage.acknowledgement? response = some value → acknowledged value)

omit writes stands in
include told in
theorem pledged_onFetched {dest : Address} {members : List Bytes}
    (stage : operation.stage = .storeFetch dest members) :
    ∀ task ∈ operation.onFetched p id dest members response, task.Pledged acknowledged := by
  cases response with
  | set current context =>
      unfold Operation.onFetched Store.Request.setReplace
      dsimp only
      split
      · next change =>
          split at change
          · cases change
          · exact List.forall_mem_singleton.mpr trivial
      · next change =>
          split at change
          · next same =>
              refine List.forall_mem_append.mpr ⟨pledged_copies, List.forall_mem_singleton.mpr ?_⟩
              refine pledged_conclude (Or.inr (told _ ?_))
              rw [stage]
              exact if_pos same
          · obtain ⟨request, -, none⟩ := map_eq_ok change
            cases none
      · exact List.forall_mem_singleton.mpr (pledged_failing _)
  | _ => exact List.forall_mem_singleton.mpr (pledged_conclude (Or.inl rfl))

include told in
theorem pledged_onWritten {write : Write} (stage : operation.stage = .storeWrite write) :
    ∀ task ∈ operation.onWritten p write response, task.Pledged acknowledged := by
  rw [stage] at told
  unfold Operation.onWritten
  split
  · exact List.forall_mem_cons.mpr ⟨trivial, List.forall_mem_cons.mpr ⟨trivial,
      List.forall_mem_singleton.mpr (pledged_conclude (Or.inr (told _ rfl)))⟩⟩
  · exact List.forall_mem_cons.mpr
      ⟨trivial, List.forall_mem_singleton.mpr (pledged_conclude (Or.inr (told _ rfl)))⟩
  · exact List.forall_mem_cons.mpr
      ⟨trivial, List.forall_mem_singleton.mpr (pledged_conclude (Or.inr (told _ rfl)))⟩
  · obtain ⟨place, at', trail⟩ := stands.trail
    rw [stage] at trail
    generalize operation.request = request at trail
    cases plan : root.plan with
    | write write request =>
        rw [plan] at trail writes
        cases trail
        exact absurd rfl (writes _)
    | delete =>
        rw [plan] at writes
        exact writes.elim
    | read | readThenPut | combine =>
        rw [plan] at trail
        cases trail
  · exact List.forall_mem_append.mpr ⟨pledged_copies,
      List.forall_mem_singleton.mpr (pledged_conclude (Or.inr (told _ rfl)))⟩
  · exact List.forall_mem_singleton.mpr (pledged_conclude (Or.inl rfl))

include told in
theorem pledged_onResponse :
    ∀ task ∈ operation.onResponse w p id server response, task.Pledged acknowledged := by
  unfold Operation.onResponse
  cases response with
  | error message code =>
      simp only [isResendable_eq_false writes stands, Bool.and_false]
      exact List.forall_mem_singleton.mpr (pledged_conclude (Or.inl rfl))
  | found | putAck | deleteAck | set | counter | updateAck =>
      dsimp only
      cases stage : operation.stage with
      | storeRead read =>
          obtain ⟨address, group, index, rfl, target⟩ :=
            source_of_read writes stands (Or.inr stage)
          dsimp only [Operation.onSetRead, Operation.deliver]
          first
            | exact List.forall_mem_singleton.mpr (pledged_conclude (Or.inl rfl))
            | (rw [target]
               exact List.forall_mem_append.mpr
                ⟨pledged_copies, List.forall_mem_singleton.mpr trivial⟩)
      | awaitingVclock address value deferred =>
          dsimp only [Operation.onVclock]
          first
            | exact List.forall_mem_singleton.mpr (pledged_conclude (Or.inl rfl))
            | exact List.forall_mem_cons.mpr ⟨trivial, List.forall_mem_singleton.mpr trivial⟩
      | storeFetch dest members => exact pledged_onFetched told stage
      | storeWrite write => exact pledged_onWritten writes stands told stage
      | cacheRead read => exact List.forall_mem_singleton.mpr (pledged_failing _)

end Response

theorem pledged_decide {news : News} (told : (Task.news id operation news).Pledged acknowledged) :
    ∀ task ∈ operation.decide w p id news, task.Pledged acknowledged := by
  cases news with
  | value value => exact pledged_onValue writes stands value
  | missed => exact pledged_onMiss writes stands p.settings
  | response server response => exact pledged_onResponse writes stands told
  | failed why => exact List.forall_mem_singleton.mpr (pledged_failing why)
  | lost server reason =>
      exact List.forall_mem_singleton.mpr (pledged_retry writes stands (isError_failure _))

end Stands

end Pledged

def Stage.renewal (lifetime : Option Nat) : Stage → List Cache.Command
  | .storeWrite (.put address value) => [Cache.populateValue address.raw value lifetime]
  | .storeWrite (.setUpdate address _) | .storeWrite (.counter address)
  | .storeWrite (.delete address) => [Cache.invalidate address.raw]
  | .storeWrite (.store dest members) | .storeFetch dest members =>
      Cache.replaceSet dest.raw members lifetime
  | .cacheRead _ | .storeRead _ | .awaitingVclock .. => []

section Decide

variable {w : World} {operation : Operation} {response : Store.Response} {slot : Nat} {value : Reply}
  (acknowledged : operation.stage.acknowledgement? response = some value) (id server : Nat) (p : Proxy)

include acknowledged

theorem decide_of_acknowledgement : ∃ learned,
    (∀ task ∈ learned, ∃ address vclock, task = .learn address vclock) ∧
      operation.decide w p id (.response server response) =
        learned ++ copies operation.stage.address.raw
          (operation.stage.renewal (p.ttl operation.stage.address)) ++ [operation.conclude value] := by
  unfold Stage.acknowledgement? at acknowledged
  split at acknowledged
  · next address data vclock stage =>
      cases acknowledged
      refine ⟨[.learn address vclock], List.forall_mem_singleton.mpr ⟨_, _, rfl⟩, ?_⟩
      simp only [Operation.decide, Operation.onResponse, stage, Operation.onWritten]
      rfl
  · next address count stage =>
      cases acknowledged
      refine ⟨[], List.forall_mem_nil _, ?_⟩
      simp only [Operation.decide, Operation.onResponse, stage, Operation.onWritten]
      rfl
  · next address n stage =>
      cases acknowledged
      refine ⟨[], List.forall_mem_nil _, ?_⟩
      simp only [Operation.decide, Operation.onResponse, stage, Operation.onWritten]
      rfl
  · next dest members stage =>
      cases acknowledged
      refine ⟨[], List.forall_mem_nil _, ?_⟩
      simp only [Operation.decide, Operation.onResponse, stage, Operation.onWritten]
      rfl
  · next dest members current context stage =>
      split at acknowledged
      · next same =>
          cases acknowledged
          refine ⟨[], List.forall_mem_nil _, ?_⟩
          have none : Store.Request.setReplace p.settings dest.key current context members =
              .ok none := if_pos same
          simp only [Operation.decide, Operation.onResponse, stage, Operation.onFetched, none]
          rfl
      · cases acknowledged
  · cases acknowledged

theorem quiet_of_acknowledgement (target : operation.target = .client slot) :
    ∃ quiet, (∀ task ∈ quiet, task.Quiet) ∧
      operation.decide w p id (.response server response) =
        quiet ++ [.reply operation.client slot value] := by
  obtain ⟨learned, learns, decided⟩ := decide_of_acknowledgement (w := w) acknowledged id server p
  rw [Operation.conclude, target] at decided
  refine ⟨_, List.forall_mem_append.mpr ⟨fun task hm => ?_, quiet_copies _ _⟩, decided⟩
  obtain ⟨address, vclock, rfl⟩ := learns task hm
  trivial

end Decide

section Move

variable {w : World} {past : History} {move : Proxy × Move} {start : Nat} {root : Root}
  {mine : Nat → Prop} {origin p q : Proxy} {actions : List Action} {task : Task}
  {rest more : List Task} {acknowledged : Reply → Prop}

theorem pledged_of_does (writes : root.plan.Writes)
    (h : Underway w past move start root mine origin p actions (task :: rest))
    (pledged : task.Pledged acknowledged) (done : Does w p task q more) :
    ∀ t ∈ more, t.Pledged acknowledged := by
  have belongs := h.belongs task List.mem_cons_self
  cases done with
  | reply | refuse | copy | drop | learn | send | again | lookUp => exact List.forall_mem_nil _
  | @bring group part accepts =>
      refine pledged_closing writes ?_
      intro done hd
      obtain ⟨old, ho, -, -, context⟩ := Fragment.Groups.origin_of_completed accepts hd
      exact context ▸ (belongs.gathers ho).2
  | @poll group =>
      refine pledged_closing writes ?_
      intro done hd
      rcases Fragment.Groups.poll_cases p.groups group with open' | ⟨closed, ho, taken⟩
      · rw [open'] at hd
        cases hd
      · rw [taken] at hd
        cases hd
        exact (belongs.gathers ho).2
  | news => exact pledged_decide writes belongs.1 pledged
  | oversize | unreached => exact List.forall_mem_singleton.mpr (pledged_failing _)
  | exhausted => exact List.forall_mem_singleton.mpr (pledged_conclude pledged)
  | launch | pass => exact List.forall_mem_singleton.mpr trivial
  | delete =>
      obtain ⟨-, -, -, cacheOnly, plan⟩ := belongs
      rw [plan] at writes
      exact writes.elim
  | combine =>
      intro t hm
      obtain ⟨source, -, rfl⟩ := List.mem_map.mp hm
      trivial

theorem Underway.gives {a b : Proxy × List Task} (done : Steps w a b)
    (writes : root.plan.Writes)
    (h : Underway w past move start root mine origin a.1 actions a.2)
    (newer : ∀ id, origin.nextOperation ≤ id → mine id) (begins : Frame move.1 origin)
    (le : start ≤ past.length) (ends : Frame b.1 (move.2.apply w move.1))
    (pledged : ∀ task ∈ a.2, task.Pledged acknowledged) :
    Gives (fun value => value.isError = true ∨ acknowledged value) a.1 b.1 := by
  induction done using Relation.ReflTransGen.head_induction_on generalizing actions with
  | refl => exact .refl _
  | head first others ih =>
      obtain ⟨added, later⟩ := h.step newer begins le first ((Frame.steps others).trans ends)
      cases first with
      | still same => exact .trans (.of_mute (.of_alike same.toAlike)) (ih later pledged)
      | @task p q task more rest does =>
          obtain ⟨first, others⟩ := List.forall_mem_cons.mp pledged
          have left : ∀ t ∈ more ++ rest, t.Pledged acknowledged :=
            List.forall_mem_append.mpr ⟨pledged_of_does writes h first does, others⟩
          refine .trans ?_ (ih later left)
          by_cases replies : ∃ client slot value, task = .reply client slot value
          · obtain ⟨client, slot, value, rfl⟩ := replies
            cases does
            exact .reply p client slot first
          · exact .of_mute (does.mute fun client slot value he => replies ⟨client, slot, value, he⟩)

end Move

end ReadThrough.Proxy
