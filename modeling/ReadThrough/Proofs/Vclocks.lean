import ReadThrough.Proofs.Keys
import ReadThrough.Proofs.Lessons
import ReadThrough.Proofs.Plans

namespace ReadThrough

def Store.Response.vclock? : Store.Response → Option Bytes
  | .found _ vclock | .putAck vclock => vclock
  | _ => none

namespace Proxy

def Taught (past : History) (time : Nat) (key : Key) (vclock : Bytes) : Prop :=
  ∃ q move id operation server response, past[time]? = some (q, move) ∧
    move.news? q = some (id, .response server response) ∧
    q.operations.get? id = some operation ∧ operation.stage.address.key = key ∧
    response.vclock? = some vclock ∧ vclock ≠ []

theorem Taught.concat {past : History} {time : Nat} {key : Key} {vclock : Bytes}
    (h : Taught past time key vclock) (more : History) :
    Taught (past ++ more) time key vclock := by
  obtain ⟨q, move, id, operation, server, response, at', told⟩ := h
  exact ⟨q, move, id, operation, server, response,
    getElem?_of_front (List.prefix_append _ _) at', told⟩

section Keys

variable {settings : Settings} {key : Key} {request : Store.Request}

theorem compose_eq_ok {body : Store.RequestBody}
    (h : Store.Request.compose settings key body = .ok request) :
    key.hasBucket = true ∧ request = { key, quorum := settings.quorum, body } := by
  obtain ⟨key', bucket, rfl⟩ := map_eq_ok h
  obtain ⟨rfl, has⟩ := Key.requireBucket_eq_ok bucket
  exact ⟨has, rfl⟩

theorem settled_of_parse {raw : Bytes} {address : Address} (h : Address.parse raw = .ok address) :
    address.key.Settled := by
  obtain ⟨key, split, rfl⟩ := map_eq_ok h
  exact Key.settled_of_split split

def Stage.Tells (stage : Stage) (address : Address) : Prop :=
  stage = .storeRead (.value address) ∨
    (∃ value deferred, stage = .awaitingVclock address value deferred) ∨
    ∃ value, stage = .storeWrite (.put address value)

theorem Stage.Tells.address_eq {stage : Stage} {address : Address} (h : stage.Tells address) :
    stage.address = address := by
  rcases h with rfl | ⟨value, deferred, rfl⟩ | ⟨value, rfl⟩ <;> rfl

theorem lesson_cases {operation : Operation} {news : News} {address : Address} {v : Bytes}
    (h : operation.lesson? news = some (address, some v)) : operation.stage.Tells address ∧
      ∃ server response, news = .response server response ∧ response.vclock? = some v := by
  unfold Operation.lesson? at h
  split at h
  · split at h
    · next stage =>
        cases h
        exact ⟨Or.inl stage, _, _, rfl, rfl⟩
    · next stage =>
        cases h
        exact ⟨Or.inr (Or.inl ⟨_, _, stage⟩), _, _, rfl, rfl⟩
    · cases h
  · split at h
    · next stage =>
        cases h
        exact ⟨Or.inr (Or.inr ⟨_, stage⟩), _, _, rfl, rfl⟩
    · cases h
  · cases h

theorem stored_of_trail {w : World} {past : History} {start id : Nat} {plan : Plan}
    {place : Option Nat} {stage : Stage} {asked : Option Store.Request} {sent : List Sending}
    {q : Proxy} {command : Command} {address : Address} (planned : Plans q command plan)
    (trail : Trail w past settings start id plan place stage asked sent)
    (tells : stage.Tells address) : address.key.Settled ∧ address.key.hasBucket = true := by
  rcases tells with rfl | ⟨value, deferred, rfl⟩ | ⟨value, rfl⟩
  · cases trail with
    | read composed =>
        cases planned with
        | get parsed => exact ⟨settled_of_parse parsed, (compose_eq_ok composed).1⟩
  · cases trail with
    | fetch =>
        cases planned with
        | readThenPut parsed _ puts => exact ⟨settled_of_parse parsed, (compose_eq_ok puts).1⟩
  · cases trail with
    | write =>
        cases planned with
        | put parsed _ puts => exact ⟨settled_of_parse parsed, (compose_eq_ok puts).1⟩
    | put =>
        cases planned with
        | readThenPut parsed _ puts => exact ⟨settled_of_parse parsed, (compose_eq_ok puts).1⟩

end Keys

theorem put_of_trail {w : World} {past : History} {settings : Settings} {start id : Nat}
    {plan : Plan} {place : Option Nat} {stage : Stage} {asked : Option Store.Request}
    {sent : List Sending} {q : Proxy} {command : Command} {sending : Sending} {v data : Bytes}
    {contentType : String} (planned : Plans q command plan)
    (trail : Trail w past settings start id plan place stage asked sent) (hm : sending ∈ sent)
    (body : sending.request.body = .put data contentType (some v)) :
    (sending.time = start ∧ sending.request.key.Settled ∧ sending.request.key.hasBucket = true ∧
        q.rememberedVclock sending.request.key.join = some v) ∨
      ∃ address value deferred fetch answering siblings,
        plan = .readThenPut address value deferred fetch ∧ sending.request.key = address.key ∧
        Told past sending.time id (.response answering (.found siblings (some v))) ∧ v ≠ [] := by
  have kind : sending.request.kind = .put := congrArg Store.RequestBody.kind body
  have other : ∀ {kind' : Store.RequestKind}, sending.request.kind = kind' → kind' ≠ .put → False :=
    fun same ne => ne (same.symm.trans kind)
  cases trail with
  | lookUp | source => cases hm
  | @read read request first rest composed tried =>
      have awaited := Read.kind_of_request composed
      rw [← tried.same sending hm] at awaited
      cases read <;> exact (other (Option.some.inj awaited).symm (by simp)).elim
  | @write write request server picked =>
      obtain rfl := List.mem_singleton.mp hm
      cases planned with
      | put parsed remembered puts =>
          obtain ⟨has, rfl⟩ := compose_eq_ok puts
          cases body
          exact Or.inl ⟨rfl, settled_of_parse parsed, has, remembered⟩
      | sadd _ composed | srem _ composed =>
          exact (other (Store.Request.kind_of_setUpdate composed) (by simp)).elim
      | incr _ composed =>
          exact (other (Store.Request.kind_of_counterUpdate composed) (by simp)).elim
  | fetch =>
      obtain rfl := List.mem_singleton.mp hm
      cases planned with
      | readThenPut _ _ _ gets => exact (other (Store.Request.kind_of_get gets) (by simp)).elim
  | @put address value deferred fetch server time _ answering siblings vclock picked told =>
      cases planned with
      | readThenPut parsed _ puts gets =>
          rcases List.mem_cons.mp hm with rfl | hm
          · exact (other (Store.Request.kind_of_get gets) (by simp)).elim
          · obtain rfl := List.mem_singleton.mp hm
            obtain ⟨-, rfl⟩ := compose_eq_ok puts
            obtain ⟨rfl, filled⟩ : vclock = some v ∧ v ≠ [] := by
              simp only [withVclock, Store.RequestBody.put.injEq] at body
              obtain ⟨same, filled⟩ := Option.filter_eq_some_iff.mp body.2.2
              exact ⟨same, of_decide_eq_true filled⟩
            exact Or.inr ⟨address, value, _, fetch, answering, siblings, rfl, rfl, told, filled⟩
  | @delete cacheOnly stored index address request server part picked =>
      obtain rfl := List.mem_singleton.mp hm
      cases planned with
      | del _ composed =>
          obtain ⟨_, -, each⟩ := exists_of_mem_mapM composed (List.mem_of_getElem? part)
          obtain ⟨_, deletes, he⟩ := map_eq_ok each
          cases he
          exact (other (Store.Request.kind_of_delete deletes) (by simp)).elim
  | sourceRead _ fetches | dest _ fetches =>
      obtain rfl := List.mem_singleton.mp hm
      exact (other (Store.Request.kind_of_setFetch fetches) (by simp)).elim
  | replace _ fetches _ replaces =>
      rcases List.mem_cons.mp hm with rfl | hm
      · exact (other (Store.Request.kind_of_setFetch fetches) (by simp)).elim
      · obtain rfl := List.mem_singleton.mp hm
        exact (other (Store.Request.kind_of_setReplace replaces) (by simp)).elim

theorem Trail.address_of_readThenPut {w : World} {past : History} {settings : Settings}
    {start id : Nat} {address : Address} {value : Bytes} {deferred fetch : Store.Request}
    {place : Option Nat} {stage : Stage} {asked : Option Store.Request} {sent : List Sending}
    (h : Trail w past settings start id (.readThenPut address value deferred fetch) place stage
      asked sent) : stage.address = address := by
  cases h <;> rfl

section Learned

variable {w : World} {p : Proxy}

theorem taught_of_remembered (trailed : Trailed w [] p)
    (empty : ∀ key, p.rememberedVclock key = none) (moves : List Move) {key v : Bytes}
    (h : (play w p moves).rememberedVclock key = some v) :
    ∃ time taught, Taught (history w p moves) time taught v ∧ taught.Settled ∧
      taught.hasBucket = true ∧ taught.join = key := by
  induction moves using List.reverseRecOn generalizing key v with
  | nil =>
      rw [play_nil, empty] at h
      cases h
  | append_singleton moves move ih =>
      rw [play_concat] at h
      rw [history_concat]
      rcases rememberedVclock_of_apply h with before | ⟨address, lesson, filled, rfl⟩
      · obtain ⟨time, taught, told, rest⟩ := ih before
        exact ⟨time, taught, told.concat _, rest⟩
      · rcases tasks_cases w (play w p moves) move with replies | ⟨command, root, -, -, tasks⟩ |
          ⟨id, operation, news, told, ho, tasks⟩
        · obtain ⟨task, hm, taught⟩ := List.mem_filterMap.mp lesson
          obtain ⟨client, slot, value, rfl⟩ := replies task hm
          cases taught
        · rw [tasks, lessons_tasks] at lesson
          cases lesson
        · rw [tasks, lessons_cons, lessons_nil, List.append_nil, Option.mem_toList] at lesson
          obtain ⟨tells, server, response, rfl, vclock⟩ := lesson_cases lesson
          obtain ⟨start, command, root, ⟨q, -, of⟩, -, stands⟩ := (trailed.play moves).table ho
          obtain ⟨place, -, trail⟩ := stands.trail
          refine ⟨(history w p moves).length, address.key, ?_, ?_⟩
          · exact ⟨_, move, id, operation, server, response, by simp, told, ho,
              congrArg Address.key tells.address_eq, vclock, filled⟩
          · obtain ⟨settled, has⟩ := stored_of_trail (plans_of_plan of.plan) trail tells
            exact ⟨settled, has, rfl⟩

end Learned

section Provenance

variable {w : World} {p : Proxy} {moves : List Move} {time id : Nat} {q : Proxy} {move : Move}

theorem waiting (trailed : Trailed w [] p) {start : Nat} {command : Command} {root : Root}
    {operation : Operation} (planned : Planned w (history w p moves) start command root)
    (stems : Stems w (history w p moves) start id)
    (at' : (history w p moves)[time]? = some (q, move))
    (ho : q.operations.get? id = some operation) : ∃ sent place,
      Trail w (history w p (moves.take time)) q.settings start id root.plan place operation.stage
        operation.request sent := by
  obtain ⟨-, rfl⟩ := getElem?_history.mp at'
  obtain ⟨start', command', root', planned', stems', stands⟩ :=
    (trailed.play (moves.take time)).table ho
  obtain ⟨rfl, rfl, rfl⟩ := root_unique planned planned'.of_take stems stems'.of_take
  obtain ⟨place, -, trail⟩ := stands.trail
  exact ⟨_, place, trail⟩

theorem taught_of_put (trailed : Trailed w [] p) (empty : ∀ key, p.rememberedVclock key = none)
    {sending : Sending} (hm : sending ∈ sendings w (history w p moves) id) {data v : Bytes}
    {contentType : String} (body : sending.request.body = .put data contentType (some v)) :
    v ≠ [] ∧ ∃ time key, time ≤ sending.time ∧ Taught (history w p moves) time key v ∧
      (key = sending.request.key ∨ key.Nests sending.request.key ∨
        sending.request.key.Nests key) := by
  obtain ⟨start, command, root, planned, stems, place, stage, asked, trail⟩ :=
    (trailed.play moves).known (List.ne_nil_of_mem hm)
  have at' := planned
  obtain ⟨q, at', of⟩ := at'
  obtain ⟨-, rfl⟩ := getElem?_history.mp at'
  rcases put_of_trail (plans_of_plan of.plan) trail hm body with
    ⟨now, settled, has, remembered⟩ |
    ⟨address, value, deferred, fetch, answering, siblings, plan, same, told, filled⟩
  · obtain ⟨time, key, taught, settled', has', join⟩ :=
      taught_of_remembered trailed empty (moves.take start) remembered
    have filled : v ≠ [] := by
      obtain ⟨_, _, _, _, _, _, -, -, -, -, -, filled⟩ := taught
      exact filled
    have before : time ≤ start := by
      obtain ⟨_, _, _, _, _, _, at', -⟩ := taught
      have lt := (List.getElem?_eq_some_iff.mp at').1
      rw [length_history, List.length_take] at lt
      omega
    obtain ⟨later, split⟩ := history_take w p moves start
    refine ⟨filled, time, key, now ▸ before, ?_, Key.eq_of_join_eq settled' settled has' has join⟩
    rw [split]
    exact taught.concat later
  · obtain ⟨q, move, operation, at', heard, ho⟩ := told
    obtain ⟨sent, place, waits⟩ := waiting trailed planned stems at' ho
    rw [plan] at waits
    refine ⟨filled, sending.time, address.key, Nat.le_refl _, ?_, Or.inl same.symm⟩
    exact ⟨q, move, id, operation, answering, _, at', heard, ho,
      congrArg Address.key waits.address_of_readThenPut, rfl, filled⟩

structure Versioned (w : World) (p : Proxy) (events : List Event) : Prop
    extends Unrolled w p events where
  taught : ∀ ms, ms <+: course w p events → ∀ id,
    ∀ sending ∈ sendings w (history w p ms) id, ∀ data contentType v,
      sending.request.body = .put data contentType (some v) →
      v ≠ [] ∧ ∃ time key, time ≤ sending.time ∧ Taught (history w p ms) time key v ∧
        (key = sending.request.key ∨ key.Nests sending.request.key ∨
          sending.request.key.Nests key)

theorem versioned_run (w : World) (settings : Settings) (policy : BucketPolicy)
    (events : List Event) : Versioned w (start settings policy) events where
  toUnrolled := unrolled_of_tidy w (Tidy.start settings policy) events
  taught _ _ _ _ hm _ _ _ body := taught_of_put (Trailed.start w settings policy) (fun _ => rfl) hm body

theorem put_with_vclock_of_twin :
    let w : World :=
      { pool := fun _ =>
          { pick := fun tier _ => if tier = .store then some 0 else none, live := fun _ => [0] }
        draw := fun _ => 0 }
    let events : List Event :=
      [.command 7 (.get (ascii "b:a:x")), .storeData 0 ([0, 0, 0, 5, 10, 18, 2] ++ ascii "vc"),
        .command 7 (.set (ascii ":b:a:x") (ascii "1"))]
    let p := start {} {}
    let past := history w p (course w p events)
    (sendings w past 1).map (·.request.key) = [⟨some (ascii "b"), ascii "a", ascii "x"⟩] ∧
      (sendings w past 2).map (fun sending => (sending.request.key, sending.request.body)) =
        [(⟨none, ascii "b", ascii "a:x"⟩, .put (ascii "1") "text/plain" (some (ascii "vc")))] := by
  decide +kernel

end Provenance

end Proxy

end ReadThrough
