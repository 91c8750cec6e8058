import ReadThrough.Proofs.Trails

namespace ReadThrough.Proxy

def Spare (w : World) (move : Proxy × Move) (id : Nat) : Prop :=
  move.1.nextOperation ≤ id ∧ id < (move.2.apply w move.1).nextOperation

structure Root.Begins (w : World) (past : History) (move : Proxy × Move) (start : Nat)
    (root : Root) : Prop where
  now : start = past.length
  numbers : ∀ {id}, Spare w move id → id ∈ root.numbers

def Task.Belongs (w : World) (past : History) (move : Proxy × Move) (start : Nat) (root : Root)
    (p : Proxy) (sent : Nat → List Sending) : Task → Prop
  | .reply client slot _ => client = root.client ∧ slot = root.slot
  | .part group _ | .poll group => root.Bears p group
  | .copy .. | .learn .. => True
  | .news id operation heard => Stands w past start root p id operation (sent id) ∧
      (Told (past ++ [move]) past.length id heard ∨ ∃ read, operation.stage = .cacheRead read)
  | .elsewhere id operation primary _ => Stands w past start root p id operation (sent id) ∧
      (∃ news, Told (past ++ [move]) past.length id news) ∧
      ∃ first rest, sent id = first :: rest ∧ primary = first.server
  | .send id operation request =>
      (operation.client = root.client ∧ ∃ place, root.At p operation.target place) ∧
      ∀ server, Picked w (past ++ [move]) past.length operation.stage.address.raw server →
        Stands w (past ++ [move]) start root p id
          { operation with request := some request, primary := some server }
          (sent id ++ [⟨past.length, server, request⟩])
  | .launch operation request =>
      (operation.client = root.client ∧ ∃ place, root.At p operation.target place) ∧
      ∀ id server, Spare w move id →
        Picked w (past ++ [move]) past.length operation.stage.address.raw server →
        Stands w (past ++ [move]) start root p id
          { operation with request := some request, primary := some server }
          [⟨past.length, server, request⟩]
  | .lookUp client target read => ∀ past id, Spare w move id →
      Stands w past start root p id { client, target, stage := .cacheRead read } []
  | .delete client slot _ stored => client = root.client ∧ slot = root.slot ∧
      root.Begins w past move start ∧ ∃ cacheOnly, root.plan = .delete cacheOnly stored
  | .combine client slot op dest sources => client = root.client ∧ slot = root.slot ∧
      root.Begins w past move start ∧ root.plan = .combine op dest sources

section Mono

variable {w : World} {past : History} {move : Proxy × Move} {start id : Nat} {root : Root}
  {p q : Proxy} {operation : Operation} {trail : List Sending} {task : Task}
  {sent sent' : Nat → List Sending}

theorem Stands.mono (h : Stands w past start root p id operation trail) (frame : Frame p q) :
    Stands w past start root q id operation trail where
  client := h.client
  trail := by
    obtain ⟨place, at', trail⟩ := h.trail
    exact ⟨place, at'.mono frame, frame.settings ▸ trail⟩
  begun := h.begun
  fresh := h.fresh
  left stage target split := frame.settings ▸ h.left stage target split

theorem Task.Belongs.mono (h : task.Belongs w past move start root p sent) (frame : Frame p q)
    (same : ∀ id, task.number? = some id → sent' id = sent id) :
    task.Belongs w past move start root q sent' := by
  cases task with
  | reply | copy | learn | delete | combine => exact h
  | part | poll => exact Root.Bears.mono h frame
  | news id operation news =>
      rw [Task.Belongs, same id rfl]
      exact ⟨h.1.mono frame, h.2⟩
  | elsewhere id operation primary value =>
      rw [Task.Belongs, same id rfl]
      exact ⟨h.1.mono frame, h.2⟩
  | send id operation request =>
      obtain ⟨⟨client, place, at'⟩, stands⟩ := h
      rw [Task.Belongs, same id rfl]
      exact ⟨⟨client, place, at'.mono frame⟩, fun server picked => (stands server picked).mono frame⟩
  | launch operation request =>
      obtain ⟨⟨client, place, at'⟩, stands⟩ := h
      exact ⟨⟨client, place, at'.mono frame⟩,
        fun id server spare picked => (stands id server spare picked).mono frame⟩
  | lookUp client target read => exact fun past id spare => (h past id spare).mono frame

end Mono

section Decide

variable {w : World} {past : History} {move : Proxy × Move} {start id : Nat} {root : Root}
  {p : Proxy} {operation : Operation} {sent : Nat → List Sending}

theorem belongs_conclude (client : operation.client = root.client) {place : Option Nat}
    (at' : root.At p operation.target place) (value : Reply) :
    (operation.conclude value).Belongs w past move start root p sent := by
  unfold Operation.conclude
  cases ht : operation.target with
  | client slot =>
      rw [ht] at at'
      exact ⟨client, at'.1⟩
  | fragment group index =>
      rw [ht] at at'
      exact at'.1

theorem belongs_deliver (client : operation.client = root.client) {place : Option Nat}
    (at' : root.At p operation.target place) (read : SetRead) (members : List Bytes) :
    (operation.deliver read members).Belongs w past move start root p sent := by
  unfold Operation.deliver
  split
  · exact belongs_conclude client at' _
  · next target =>
      rw [target] at at'
      exact at'.1
  · exact belongs_conclude client at' _

theorem belongs_copies {route : Bytes} {commands : List Cache.Command} :
    ∀ task ∈ copies route commands, task.Belongs w past move start root p sent := by
  intro task hm
  obtain ⟨command, -, rfl⟩ := List.mem_map.mp hm
  trivial

theorem Stands.read_of_resendable (h : Stands w past start root p id operation (sent id))
    (resendable : operation.isResendable = true) : ∃ read request first rest,
      root.plan = .read read ∧ operation.stage = .storeRead read ∧
      operation.target = .client root.slot ∧ operation.request = some request ∧
      sent id = first :: rest ∧ read.request p.settings = .ok request ∧
      Tried w past p.settings id read.address.raw request first rest ∧
      Leftover w past p.settings id operation first rest := by
  obtain ⟨place, at', trail⟩ := h.trail
  unfold Operation.isResendable at resendable
  split at resendable
  · next slot read target stage =>
      rw [target] at at'
      obtain ⟨rfl, rfl⟩ := at'
      rw [stage] at trail
      obtain ⟨request, first, rest, plan, asked, split, composed, tried⟩ := trail.of_storeRead
      exact ⟨read, request, first, rest, plan, stage, target, asked, split, composed, tried,
        h.left read _ first rest stage target split⟩
  · simp at resendable

theorem belongs_elsewhere (stands : Stands w past start root p id operation (sent id))
    (told : ∃ news, Told (past ++ [move]) past.length id news)
    (resendable : operation.isResendable = true) {primary : Nat}
    (own : ∀ server, operation.primary = some server → primary = server) (value : Reply) :
    (Task.elsewhere id operation primary value).Belongs w past move start root p sent := by
  obtain ⟨read, request, first, rest, -, -, -, -, split, -, -, left⟩ :=
    stands.read_of_resendable resendable
  exact ⟨stands, told, first, rest, split, own _ left.primary⟩

theorem belongs_retry (stands : Stands w past start root p id operation (sent id))
    (told : ∃ news, Told (past ++ [move]) past.length id news) {primary : Option Nat}
    (own : ∀ server, operation.primary = some server → primary = some server) (value : Reply) :
    (operation.retry id primary value).Belongs w past move start root p sent := by
  obtain ⟨place, at', -⟩ := stands.trail
  unfold Operation.retry
  split
  · next resendable =>
      split
      · next server =>
          refine belongs_elsewhere stands told resendable ?_ value
          intro other h
          exact Option.some.inj (own other h)
      · exact belongs_conclude stands.client at' value
  · exact belongs_conclude stands.client at' value

theorem belongs_send (stands : Stands w past start root p id operation (sent id)) {stage : Stage}
    {request : Store.Request} {resend : Pool.Resend}
    (later : ∀ read, stage ≠ .cacheRead read)
    (first : ∀ read, stage = .storeRead read → resend = {} ∧ sent id = [])
    (sends : ∀ place server,
      Trail w (past ++ [move]) p.settings start id root.plan place operation.stage
        operation.request (sent id) →
      Picked w (past ++ [move]) past.length stage.address.raw server →
      Trail w (past ++ [move]) p.settings start id root.plan place stage (some request)
        (sent id ++ [⟨past.length, server, request⟩])) :
    (Task.send id
      { client := operation.client, target := operation.target, stage, resend }
      request).Belongs w past move start root p sent := by
  obtain ⟨place, at', trail⟩ := stands.trail
  refine ⟨⟨stands.client, place, at'⟩, ?_⟩
  intro server picked
  refine ⟨stands.client, ⟨place, at', sends place server (trail.concat _) picked⟩,
    stands.begun, ?_, ?_⟩
  · intro read h
    exact absurd h (later read)
  · intro read slot begin rest h _ split
    obtain ⟨resends, nothing⟩ := first read h
    rw [nothing, List.nil_append] at split
    cases split
    refine ⟨rfl, Or.inl ⟨by rw [resends], rfl, ?_⟩⟩
    intro t gt news told
    change past.length < t at gt
    have lt := told.lt
    simp only [List.length_append, List.length_cons, List.length_nil] at lt
    omega

section Stands

variable (stands : Stands w past start root p id operation (sent id))

include stands

theorem belongs_ends (value : Reply) :
    (operation.conclude value).Belongs w past move start root p sent := by
  obtain ⟨place, at', -⟩ := stands.trail
  exact belongs_conclude stands.client at' value

theorem belongs_onValue (value : Resp.Value) : ∀ task ∈ operation.onValue id value,
    task.Belongs w past move start root p sent := by
  obtain ⟨place, at', trail⟩ := stands.trail
  unfold Operation.onValue
  cases stage : operation.stage with
  | cacheRead read =>
      have missed : ∀ task ∈ [Task.news id operation .missed],
          task.Belongs w past move start root p sent :=
        List.forall_mem_singleton.mpr ⟨stands, Or.inr ⟨read, stage⟩⟩
      have ends : ∀ task ∈ [operation.conclude value],
          task.Belongs w past move start root p sent :=
        List.forall_mem_singleton.mpr (belongs_ends stands value)
      dsimp only
      split
      · exact missed
      · cases read with
        | value address =>
            dsimp only
            split
            · exact missed
            · exact ends
        | set address read =>
            cases read with
            | query query =>
                dsimp only
                split
                · exact missed
                · exact ends
            | slot =>
                dsimp only
                split
                · next members group index found target =>
                    rw [target] at at'
                    exact List.forall_mem_singleton.mpr at'.1
                · exact missed
  | storeRead | awaitingVclock | storeFetch | storeWrite =>
      exact List.forall_mem_singleton.mpr (belongs_ends stands _)

theorem belongs_onMiss : ∀ task ∈ operation.onMiss p.settings id,
    task.Belongs w past move start root p sent := by
  obtain ⟨place, at', trail⟩ := stands.trail
  unfold Operation.onMiss
  cases stage : operation.stage with
  | cacheRead read =>
      dsimp only
      split
      · cases read with
        | value address => exact List.forall_mem_singleton.mpr (belongs_ends stands _)
        | set address read =>
            exact List.forall_mem_singleton.mpr (belongs_deliver stands.client at' read [])
      · cases composed : read.request p.settings with
        | error why => exact List.forall_mem_singleton.mpr (belongs_ends stands _)
        | ok request =>
            rw [stage] at trail
            refine List.forall_mem_singleton.mpr (belongs_send stands (by simp) ?_ ?_)
            · intro _ _
              exact ⟨stands.fresh read stage, trail.of_cacheRead⟩
            · intro place server trail picked
              rw [stage] at trail
              exact trail.missed composed picked
  | storeRead | awaitingVclock | storeFetch | storeWrite =>
      exact List.forall_mem_singleton.mpr (belongs_ends stands _)

theorem belongs_replaced (dest : Address) (members : List Bytes) :
    ∀ task ∈ operation.replaced p dest members, task.Belongs w past move start root p sent :=
  List.forall_mem_append.mpr
    ⟨belongs_copies, List.forall_mem_singleton.mpr (belongs_ends stands _)⟩

section Told

variable {server : Nat} {response : Store.Response}
  (told : Told (past ++ [move]) past.length id (.response server response))

include told

theorem belongs_onValueRead (address : Address) :
    ∀ task ∈ operation.onValueRead w p id address response,
      task.Belongs w past move start root p sent := by
  cases response with
  | found siblings vclock =>
      refine List.forall_mem_cons.mpr ⟨trivial, ?_⟩
      cases Store.Outcome.ofSiblings (w.draw p.looks) siblings vclock with
      | found value _ =>
          exact List.forall_mem_cons.mpr
            ⟨trivial, List.forall_mem_singleton.mpr (belongs_ends stands _)⟩
      | missing _ =>
          exact List.forall_mem_singleton.mpr
            (belongs_retry stands ⟨_, told⟩ (fun _ h => h) _)
  | _ => exact List.forall_mem_singleton.mpr (belongs_ends stands _)

theorem belongs_onSetRead (address : Address) (read : SetRead) :
    ∀ task ∈ operation.onSetRead p id address read response,
      task.Belongs w past move start root p sent := by
  obtain ⟨place, at', -⟩ := stands.trail
  cases response with
  | set members context =>
      unfold Operation.onSetRead
      dsimp only
      split
      · exact List.forall_mem_singleton.mpr
          (belongs_retry stands ⟨_, told⟩ (fun _ h => h) _)
      · exact List.forall_mem_append.mpr ⟨belongs_copies,
          List.forall_mem_singleton.mpr (belongs_deliver stands.client at' _ _)⟩
  | _ => exact List.forall_mem_singleton.mpr (belongs_ends stands _)

theorem belongs_onVclock {address : Address} {value : Bytes} {deferred : Store.Request}
    (stage : operation.stage = .awaitingVclock address value deferred) :
    ∀ task ∈ operation.onVclock id address value deferred response,
      task.Belongs w past move start root p sent := by
  cases response with
  | found siblings vclock =>
      refine List.forall_mem_cons.mpr ⟨trivial, List.forall_mem_singleton.mpr ?_⟩
      refine belongs_send stands (by simp) (by simp) ?_
      intro place server trail _
      rw [stage] at trail
      exact trail.answered told
  | _ => exact List.forall_mem_singleton.mpr (belongs_ends stands _)

theorem belongs_onFetched {dest : Address} {members : List Bytes}
    (stage : operation.stage = .storeFetch dest members) :
    ∀ task ∈ operation.onFetched p id dest members response,
      task.Belongs w past move start root p sent := by
  cases response with
  | set current context =>
      unfold Operation.onFetched
      dsimp only
      cases replaces : Store.Request.setReplace p.settings dest.key current context members with
      | error why => exact List.forall_mem_singleton.mpr (belongs_ends stands _)
      | ok change =>
          cases change with
          | none => exact belongs_replaced stands dest members
          | some request =>
              refine List.forall_mem_singleton.mpr (belongs_send stands (by simp) (by simp) ?_)
              intro place server trail _
              rw [stage] at trail
              exact trail.fetched told replaces
  | _ => exact List.forall_mem_singleton.mpr (belongs_ends stands _)

theorem belongs_onWritten (write : Write) : ∀ task ∈ operation.onWritten p write response,
    task.Belongs w past move start root p sent := by
  obtain ⟨place, at', -⟩ := stands.trail
  have single : ∀ value, ∀ task ∈ [operation.conclude value],
      task.Belongs w past move start root p sent :=
    fun value => List.forall_mem_singleton.mpr (belongs_ends stands value)
  unfold Operation.onWritten
  split
  · exact List.forall_mem_cons.mpr ⟨trivial, List.forall_mem_cons.mpr ⟨trivial, single _⟩⟩
  · exact List.forall_mem_cons.mpr ⟨trivial, single _⟩
  · exact List.forall_mem_cons.mpr ⟨trivial, single _⟩
  · refine List.forall_mem_cons.mpr ⟨trivial, ?_⟩
    cases target : operation.target with
    | client slot => exact single _
    | fragment group index =>
        rw [target] at at'
        exact List.forall_mem_singleton.mpr at'.1
  · exact belongs_replaced stands _ _
  · exact single _

theorem belongs_onResponse : ∀ task ∈ operation.onResponse w p id server response,
    task.Belongs w past move start root p sent := by
  unfold Operation.onResponse
  cases response with
  | error message code =>
      dsimp only
      split
      · next retryable =>
          have resendable : operation.isResendable = true := (Bool.and_eq_true_iff.mp retryable).2
          refine List.forall_mem_singleton.mpr
            (belongs_elsewhere stands ⟨_, told⟩ resendable ?_ _)
          intro other primary
          rw [primary, Option.getD_some]
      · exact List.forall_mem_singleton.mpr (belongs_ends stands _)
  | found | putAck | deleteAck | set | counter | updateAck =>
      dsimp only
      cases stage : operation.stage with
      | storeRead read =>
          cases read with
          | value address => exact belongs_onValueRead stands told address
          | set address read => exact belongs_onSetRead stands told address read
      | awaitingVclock address value deferred => exact belongs_onVclock stands told stage
      | storeFetch dest members => exact belongs_onFetched stands told stage
      | storeWrite write => exact belongs_onWritten stands told write
      | cacheRead read => exact List.forall_mem_singleton.mpr (belongs_ends stands _)

end Told

end Stands

theorem belongs_decide {news : News}
    (h : (Task.news id operation news).Belongs w past move start root p sent) :
    ∀ task ∈ operation.decide w p id news, task.Belongs w past move start root p sent := by
  obtain ⟨stands, heard⟩ := h
  cases news with
  | value value => exact belongs_onValue stands value
  | missed => exact belongs_onMiss stands
  | failed why => exact List.forall_mem_singleton.mpr (belongs_ends stands _)
  | response server response =>
      rcases heard with told | ⟨read, stage⟩
      · exact belongs_onResponse stands told
      · have cached : ∀ task ∈ [operation.failing .responseToCacheRead],
            task.Belongs w past move start root p sent :=
          List.forall_mem_singleton.mpr (belongs_ends stands _)
        have early : operation.isResendable = false := by
          simp [Operation.isResendable, stage]
        simp only [Operation.decide, Operation.onResponse, stage, early, Bool.and_false]
        cases response with
        | error message code => exact List.forall_mem_singleton.mpr (belongs_ends stands _)
        | _ => exact cached
  | lost server reason =>
      rcases heard with told | ⟨read, stage⟩
      · refine List.forall_mem_singleton.mpr (belongs_retry stands ⟨_, told⟩ ?_ _)
        intro other primary
        rw [primary, Option.getD_some]
      · have early : operation.isResendable = false := by
          simp [Operation.isResendable, stage]
        simp only [Operation.decide, Operation.retry, early]
        exact List.forall_mem_singleton.mpr (belongs_ends stands _)

theorem belongs_completion {group : Fragment.Group GroupContext}
    (client : group.client = root.client) (gathers : root.Gathers group.context)
    (le : start ≤ past.length) :
    (completion p.settings group).Belongs w past move start root p sent := by
  unfold completion
  cases context : group.context with
  | del slot =>
      rw [context] at gathers
      exact ⟨client, gathers.1⟩
  | algebra slot op dest =>
      rw [context] at gathers
      obtain ⟨own, sources, plan⟩ := gathers
      dsimp only
      split
      · exact ⟨client, own⟩
      · cases dest with
        | none => exact ⟨client, own⟩
        | some dest =>
            dsimp only
            cases composed : Store.Request.setFetch p.settings dest.key with
            | error why => exact ⟨client, own⟩
            | ok request =>
                refine ⟨⟨client, none, own, rfl⟩, ?_⟩
                intro id server _ _
                refine ⟨client, ⟨none, ⟨own, rfl⟩, ?_⟩, Or.inl ⟨slot, op, _, sources, rfl, plan⟩,
                  by simp, by simp⟩
                rw [plan]
                exact .dest le composed

theorem belongs_deletions {group : Nat} {cacheOnly : List Address}
    {stored : List (Address × Store.Request)} (plan : root.plan = .delete cacheOnly stored)
    (bears : root.Bears p group) (begins : root.Begins w past move start) :
    ∀ task ∈ deletions root.client group stored, task.Belongs w past move start root p sent := by
  intro task hm
  obtain ⟨⟨part, index⟩, hp, rfl⟩ := List.mem_map.mp hm
  have stands := List.mem_zipIdx_iff_getElem?.mp hp
  refine ⟨⟨rfl, some index, bears, rfl⟩, ?_⟩
  intro id server spare picked
  obtain ⟨rfl, numbers⟩ := begins
  refine ⟨rfl, ⟨some index, ⟨bears, rfl⟩, ?_⟩, Or.inr (numbers spare), by simp, by simp⟩
  rw [plan]
  exact .delete stands picked

theorem belongs_lookUps {group : Nat} {op : SetOperator} {dest : Option Address}
    {sources : List Address} (plan : root.plan = .combine op dest sources)
    (bears : root.Bears p group) (begins : root.Begins w past move start) :
    ∀ task ∈ lookUps root.client group sources, task.Belongs w past move start root p sent := by
  intro task hm
  obtain ⟨⟨source, index⟩, hp, rfl⟩ := List.mem_map.mp hm
  have stands := List.mem_zipIdx_iff_getElem?.mp hp
  intro past id spare
  refine ⟨rfl, ⟨some index, ⟨bears, rfl⟩, ?_⟩, Or.inr (begins.numbers spare), fun _ _ => rfl,
    by simp⟩
  rw [plan]
  exact .source stands

end Decide

end ReadThrough.Proxy
