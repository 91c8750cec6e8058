import ReadThrough.Proofs.Faults
import ReadThrough.Proofs.Framing
import ReadThrough.Proofs.Given
import ReadThrough.Proofs.Precedence
import ReadThrough.Proofs.Teardown

namespace ReadThrough

theorem Text.eq_return_of_mem {c : Char} (h : (13 : UInt8) ∈ String.utf8EncodeChar c) :
    c = '\r' := by
  have number : ∀ n : Nat, (13 : UInt8) = UInt8.ofNat n → n % 256 = 13 := by
    intro n same
    rw [← UInt8.toNat_ofNat', ← same]
    rfl
  have small : c.val.toNat = 13 := by
    unfold String.utf8EncodeChar at h
    dsimp only at h
    split at h
    · have := number _ (List.mem_singleton.mp h)
      omega
    · split at h
      · simp only [List.mem_cons, List.not_mem_nil, or_false] at h
        rcases h with h | h <;> have := number _ h <;> omega
      · split at h
        · simp only [List.mem_cons, List.not_mem_nil, or_false] at h
          rcases h with h | h | h <;> have := number _ h <;> omega
        · simp only [List.mem_cons, List.not_mem_nil, or_false] at h
          rcases h with h | h | h | h <;> have := number _ h <;> omega
  exact Char.ext (UInt32.toNat_inj.mp small)

namespace Reply

open Resp (maxNesting maxElements maxBulk)

theorem not_return_oneLine (text : String) : (13 : UInt8) ∉ Text.utf8 (oneLine text) := by
  intro inside
  obtain ⟨c, hc, hm⟩ := List.mem_flatMap.mp inside
  obtain rfl := Text.eq_return_of_mem hm
  rw [oneLine, String.toList_ofList] at hc
  obtain ⟨old, -, same⟩ := List.mem_map.mp hc
  split at same
  · cases same
  · next kept => exact kept (Or.inl same)

def Framed (value : Reply) : Prop :=
  value.Fits (maxNesting + 1) ∨ ∃ items, value = members items

def Bounded : Reply → Prop
  | .array items => (items.length : Int) ≤ maxElements.toInt ∧
      ∀ data, .bulk data ∈ items → (data.length : Int) ≤ maxBulk.toInt
  | _ => True

variable {value : Reply}

theorem Framed.fits (h : value.Framed) (bounded : value.Bounded) : value.Fits (maxNesting + 1) := by
  rcases h with fits | ⟨items, rfl⟩
  · exact fits
  · obtain ⟨few, short⟩ := bounded
    refine .array few (List.forall_mem_map.mpr ?_)
    exact fun data hm => .bulk (short data (List.mem_map.mpr ⟨data, hm, rfl⟩))

theorem framed_error (message : String) : (error message).Framed := by
  refine Or.inl (.error ?_)
  intro inside
  rcases List.mem_append.mp (inside.subset List.mem_cons_self) with front | back
  · exact absurd front (by decide)
  · exact not_return_oneLine message back

theorem framed_failure (why : Failure) : (failure why).Framed := framed_error _

theorem framed_integer (n : Int64) : (integer n).Framed := Or.inl (.integer n)

theorem framed_members (items : List Bytes) : (members items).Framed := Or.inr ⟨items, rfl⟩

theorem framed_answer (query : SetQuery) (items : List Bytes) : (query.answer items).Framed := by
  cases query with
  | members => exact framed_members items
  | contains member => exact framed_integer _
  | card => exact framed_integer _

end Reply

namespace Proxy

open Resp (maxNesting maxBulk)

def News.Framed : News → Prop
  | .value answer => answer.Fits (maxNesting + 1)
  | .response _ answer => ∀ siblings vclock, answer = .found siblings vclock →
      ∀ sibling ∈ siblings, (sibling.value.length : Int) ≤ maxBulk.toInt
  | _ => True

def Task.Framed : Task → Prop
  | .reply _ _ value | .elsewhere _ _ _ value => value.Framed
  | .news _ _ heard => heard.Framed
  | _ => True

section Decide

variable {w : World} {p : Proxy} {id : Nat} {operation : Operation} {value : Reply}

theorem framed_conclude (h : value.Framed) : (operation.conclude value).Framed := by
  unfold Operation.conclude
  split
  · exact h
  · trivial

theorem framed_ends (h : value.Framed) : ∀ t ∈ [operation.conclude value], t.Framed :=
  List.forall_mem_singleton.mpr (framed_conclude h)

theorem framed_deliver (read : SetRead) (members : List Bytes) :
    (operation.deliver read members).Framed := by
  unfold Operation.deliver
  split
  · exact framed_conclude (Reply.framed_answer _ members)
  · trivial
  · exact framed_conclude (Reply.framed_members members)

theorem framed_retry (primary : Option Nat) (h : value.Framed) :
    (operation.retry id primary value).Framed := by
  unfold Operation.retry
  split
  · split
    · exact h
    · exact framed_conclude h
  · exact framed_conclude h

theorem framed_copies (route : Bytes) (commands : List Cache.Command) :
    ∀ t ∈ copies route commands, t.Framed :=
  List.forall_mem_map.mpr fun _ _ => trivial

theorem framed_replaced (dest : Address) (members : List Bytes) :
    ∀ t ∈ operation.replaced p dest members, t.Framed :=
  List.forall_mem_append.mpr ⟨framed_copies _ _, framed_ends (Reply.framed_integer _)⟩

theorem framed_onValue {answer : Resp.Value} (h : answer.Fits (maxNesting + 1)) :
    ∀ t ∈ operation.onValue id answer, t.Framed := by
  have missed : ∀ t ∈ [Task.news id operation .missed], t.Framed :=
    List.forall_mem_singleton.mpr trivial
  unfold Operation.onValue
  split
  · split
    · exact missed
    · split
      · split
        · exact missed
        · exact framed_ends (Or.inl h)
      · split
        · exact missed
        · exact framed_ends (Or.inl h)
      · split
        · exact List.forall_mem_singleton.mpr trivial
        · exact missed
  · exact framed_ends (Reply.framed_failure _)

theorem framed_onMiss (settings : Settings) : ∀ t ∈ operation.onMiss settings id, t.Framed := by
  unfold Operation.onMiss
  split
  · split
    · split
      · exact framed_ends (Or.inl .nilBulk)
      · exact List.forall_mem_singleton.mpr (framed_deliver _ _)
    · split
      · exact List.forall_mem_singleton.mpr trivial
      · exact framed_ends (Reply.framed_failure _)
  · exact framed_ends (Reply.framed_failure _)

theorem framed_onValueRead (address : Address) {response : Store.Response}
    (h : ∀ siblings vclock, response = .found siblings vclock →
      ∀ sibling ∈ siblings, (sibling.value.length : Int) ≤ maxBulk.toInt) :
    ∀ t ∈ operation.onValueRead w p id address response, t.Framed := by
  cases response with
  | found siblings vclock =>
      refine List.forall_mem_cons.mpr ⟨trivial, ?_⟩
      unfold Store.Outcome.ofSiblings
      cases picked : Store.Sibling.pick (w.draw p.looks) siblings with
      | none => exact List.forall_mem_singleton.mpr (framed_retry _ (Or.inl .nilBulk))
      | some sibling =>
          have among := (List.mem_filter.mp (List.mem_of_getElem? picked)).1
          have short := h siblings vclock rfl sibling among
          have shorter := Store.stripQuotes_length sibling.value
          refine List.forall_mem_cons.mpr ⟨trivial, framed_ends (Or.inl (.bulk ?_))⟩
          omega
  | _ => exact framed_ends (Reply.framed_error _)

theorem framed_onSetRead (address : Address) (read : SetRead) (response : Store.Response) :
    ∀ t ∈ operation.onSetRead p id address read response, t.Framed := by
  unfold Operation.onSetRead
  split
  · split
    · exact List.forall_mem_singleton.mpr (framed_retry _ (Reply.framed_answer _ _))
    · exact List.forall_mem_append.mpr ⟨framed_copies _ _,
        List.forall_mem_singleton.mpr (framed_deliver _ _)⟩
  · exact framed_ends (Reply.framed_error _)

theorem framed_onVclock (address : Address) (value : Bytes) (deferred : Store.Request)
    (response : Store.Response) :
    ∀ t ∈ operation.onVclock id address value deferred response, t.Framed := by
  unfold Operation.onVclock
  split
  · exact List.forall_mem_cons.mpr ⟨trivial, List.forall_mem_singleton.mpr trivial⟩
  · exact framed_ends (Reply.framed_error _)

theorem framed_onFetched (dest : Address) (members : List Bytes) (response : Store.Response) :
    ∀ t ∈ operation.onFetched p id dest members response, t.Framed := by
  unfold Operation.onFetched
  split
  · split
    · exact List.forall_mem_singleton.mpr trivial
    · exact framed_replaced dest members
    · exact framed_ends (Reply.framed_failure _)
  · exact framed_ends (Reply.framed_error _)

theorem framed_onWritten (write : Write) (response : Store.Response) :
    ∀ t ∈ operation.onWritten p write response, t.Framed := by
  unfold Operation.onWritten
  split
  · refine List.forall_mem_cons.mpr ⟨trivial, List.forall_mem_cons.mpr ⟨trivial, ?_⟩⟩
    exact framed_ends (Or.inl (.simple (by decide)))
  · exact List.forall_mem_cons.mpr ⟨trivial, framed_ends (Reply.framed_integer _)⟩
  · exact List.forall_mem_cons.mpr ⟨trivial, framed_ends (Reply.framed_integer _)⟩
  · refine List.forall_mem_cons.mpr ⟨trivial, List.forall_mem_singleton.mpr ?_⟩
    split
    · trivial
    · exact framed_conclude (Reply.framed_integer _)
  · exact framed_replaced _ _
  · exact framed_ends (Reply.framed_error _)

theorem framed_decide {news : News} (h : news.Framed) :
    ∀ t ∈ operation.decide w p id news, t.Framed := by
  cases news with
  | value answer => exact framed_onValue h
  | missed => exact framed_onMiss p.settings
  | failed why => exact framed_ends (Reply.framed_failure why)
  | lost server reason =>
      exact List.forall_mem_singleton.mpr (framed_retry _ (Reply.framed_failure _))
  | response server response =>
      change ∀ t ∈ operation.onResponse w p id server response, t.Framed
      unfold Operation.onResponse
      split
      · split
        · exact List.forall_mem_singleton.mpr (Reply.framed_failure _)
        · exact framed_ends (Reply.framed_error _)
      · split
        · exact framed_onValueRead _ h
        · exact framed_onSetRead _ _ _
        · exact framed_onVclock _ _ _ _
        · exact framed_onFetched _ _ _
        · exact framed_onWritten _ _
        · exact framed_ends (Reply.framed_failure _)

theorem framed_closing (settings : Settings) (done : Option (Fragment.Group GroupContext)) :
    ∀ t ∈ closing settings done, t.Framed := by
  cases done with
  | none => exact List.forall_mem_nil _
  | some group =>
      refine List.forall_mem_singleton.mpr ?_
      unfold completion
      split
      · exact Reply.framed_integer _
      · split
        · exact Reply.framed_error _
        · dsimp only
          split
          · exact Reply.framed_members _
          · split
            · exact Reply.framed_failure _
            · trivial

end Decide

section Steps

variable {w : World} {p q : Proxy} {task : Task} {more : List Task}

theorem Does.framed (done : Does w p task q more) (h : task.Framed) : ∀ t ∈ more, t.Framed := by
  cases done with
  | reply | refuse | copy | drop | learn | send | again | lookUp => exact List.forall_mem_nil _
  | bring | poll => exact framed_closing _ _
  | news => exact framed_decide h
  | oversize | unreached => exact framed_ends (Reply.framed_failure _)
  | exhausted => exact framed_ends h
  | launch | pass => exact List.forall_mem_singleton.mpr trivial
  | delete =>
      refine List.forall_mem_append.mpr ⟨?_, List.forall_mem_singleton.mpr trivial⟩
      exact List.forall_mem_map.mpr fun _ _ => trivial
  | combine => exact List.forall_mem_map.mpr fun _ _ => trivial

theorem gives_of_framed {a b : Proxy × List Task} (done : Steps w a b)
    (h : ∀ t ∈ a.2, t.Framed) : Gives Reply.Framed a.1 b.1 := by
  induction done using Relation.ReflTransGen.head_induction_on with
  | refl => exact .refl _
  | head first _ ih =>
      cases first with
      | still same => exact .trans (.of_mute (.of_alike same.toAlike)) (ih h)
      | @task p q task more rest does =>
          obtain ⟨head, others⟩ := List.forall_mem_cons.mp h
          refine .trans ?_ (ih (List.forall_mem_append.mpr ⟨does.framed head, others⟩))
          by_cases told : ∃ client slot value, task = .reply client slot value
          · obtain ⟨client, slot, value, rfl⟩ := told
            cases does
            exact .reply p client slot head
          · exact .of_mute (does.mute fun client slot value he => told ⟨client, slot, value, he⟩)

end Steps

def Move.Read : Move → Prop
  | .cacheAnswer _ value => value.Fits (maxNesting + 1)
  | .storeAnswer _ frame => frame.payload.length < Store.Frame.maxLength
  | _ => True

section Read

variable {w : World} {p : Proxy} {server : Nat} {ending : Ending}

theorem read_cacheLossMoves (p : Proxy) (server : Nat) :
    ∀ move ∈ cacheLossMoves p server, move.Read :=
  List.forall_mem_cons.mpr ⟨trivial, List.forall_mem_map.mpr fun _ _ => trivial⟩

theorem read_storeCloseMoves (p : Proxy) (server : Nat) (why : Failure) :
    ∀ move ∈ storeCloseMoves p server why, move.Read :=
  List.forall_mem_cons.mpr ⟨trivial,
    List.forall_mem_cons.mpr ⟨trivial, List.forall_mem_map.mpr fun _ _ => trivial⟩⟩

theorem read_storeLossMoves (p : Proxy) (server : Nat) (reason : String) :
    ∀ move ∈ storeLossMoves p server reason, move.Read :=
  List.forall_mem_cons.mpr ⟨trivial, List.forall_mem_map.mpr fun _ _ => trivial⟩

theorem read_cacheMoves {values : List Resp.Value}
    (h : ∀ value ∈ values, value.Fits (maxNesting + 1)) :
    ∀ move ∈ cacheMoves w server ending values p, move.Read := by
  obtain ⟨good, left, after, rfl, course, ends⟩ := cacheMoves_cases w server ending values p
  have closes : ∀ move ∈ .cacheProtest server ::
      cacheLossMoves (play w p (good.map (.cacheAnswer server))) server, move.Read :=
    List.forall_mem_cons.mpr ⟨trivial, read_cacheLossMoves _ server⟩
  rw [course]
  refine List.forall_mem_append.mpr ⟨List.forall_mem_map.mpr ?_, ?_⟩
  · exact fun value hm => h value (List.mem_append_left _ hm)
  · rcases ends with ⟨rest, rfl⟩ | fault
    · exact List.forall_mem_singleton.mpr trivial
    · cases fault with
      | unreadable | unrequested => exact closes

theorem read_storeMoves {frames : List Store.Frame}
    (h : ∀ frame ∈ frames, frame.payload.length < Store.Frame.maxLength) :
    ∀ move ∈ storeMoves w server ending frames p, move.Read := by
  obtain ⟨good, left, after, rfl, course, ends⟩ := storeMoves_cases w server ending frames p
  obtain ⟨answered, open'⟩ := List.forall_mem_append.mp h
  rw [course]
  refine List.forall_mem_append.mpr ⟨List.forall_mem_map.mpr answered, ?_⟩
  rcases ends with ⟨rest, rfl⟩ | ⟨why, fault⟩
  · exact List.forall_mem_singleton.mpr trivial
  · cases fault with
    | unreadable | unrequested => exact read_storeCloseMoves _ server _
    | undecodable =>
        exact List.forall_mem_cons.mpr
          ⟨open' _ List.mem_cons_self, read_storeCloseMoves _ server _⟩

theorem read_moves (w : World) (p : Proxy) (event : Event) :
    ∀ move ∈ moves w p event, move.Read := by
  cases event with
  | cacheData server data => exact read_cacheMoves (Resp.fits_of_stream _)
  | storeData server data =>
      exact read_storeMoves
        (Resp.stream_forall Store.Frame.reader Store.Frame.payload_lt_of_decode)
  | cacheClosed server => exact read_cacheLossMoves p server
  | storeClosed server => exact read_storeLossMoves p server _
  | storeTimeout server => exact List.forall_mem_cons.mpr ⟨trivial, read_storeLossMoves p server _⟩
  | clientData | command | clientClosed | policy | drain =>
      intro move hm
      cases arises_of_mem hm <;> trivial

theorem read_course (w : World) (p : Proxy) (events : List Event) :
    ∀ move ∈ course w p events, move.Read := by
  induction events generalizing p with
  | nil => exact List.forall_mem_nil _
  | cons event events ih => exact List.forall_mem_append.mpr ⟨read_moves w p event, ih _⟩

end Read

section Run

variable {w : World} {p : Proxy} {move : Move} {ms : List Move} {id : Nat} {news : News}

def HoldsFramed (p : Proxy) : Prop :=
  ∀ client slot value, (slot, some value) ∈ p.slots client → value.Framed

theorem framed_news (read : move.Read) (told : move.news? p = some (id, news)) : news.Framed := by
  cases news with
  | value answer =>
      cases Move.news?_eq_some_iff.mp told with
      | value => exact read
  | response server response =>
      rintro siblings vclock rfl sibling hm
      obtain ⟨frame, kind, rest, rfl, -, decoded⟩ := storeAnswer_of_told told
      have short := Store.Response.value_le_of_decode decoded sibling hm
      have bound : (Store.Frame.maxLength : Int) ≤ maxBulk.toInt := by decide
      have read : frame.payload.length < Store.Frame.maxLength := read
      omega
  | missed | failed | lost => trivial

theorem framed_tasks (read : move.Read) : ∀ t ∈ move.tasks p, t.Framed := by
  by_cases asks : ∃ client content, move = .request client content
  · obtain ⟨client, content, rfl⟩ := asks
    have refused : ∀ why : Failure,
        ∀ t ∈ [Task.reply client (p.client client).replies.next (Reply.failure why)], t.Framed :=
      fun why => List.forall_mem_singleton.mpr (Reply.framed_failure why)
    cases content with
    | error why => exact refused why
    | ok command =>
        cases planned : p.plan command with
        | error why =>
            simp only [Move.tasks, planned]
            exact refused why
        | ok plan =>
            simp only [Move.tasks, planned]
            cases plan with
            | read | write | readThenPut | combine => exact List.forall_mem_singleton.mpr trivial
            | delete cacheOnly stored =>
                refine List.forall_mem_append.mpr ⟨?_, List.forall_mem_singleton.mpr trivial⟩
                exact List.forall_mem_map.mpr fun _ _ => trivial
  · rcases tasks_of_news (p := p) fun client content he => asks ⟨client, content, he⟩ with
      none | ⟨id, operation, news, told, -, tasks⟩
    · rw [none]
      exact List.forall_mem_nil _
    · rw [tasks]
      exact List.forall_mem_singleton.mpr (framed_news read told)

theorem mem_slots_of_ready {client slot : Nat} {value : Reply}
    (hm : (slot, some value) ∈ (move.ready p).slots client) : (slot, some value) ∈ p.slots client := by
  have slots : (move.ready p).slots client = (move.opening p).1.slots client := by
    simp only [Proxy.slots, Proxy.client, (akin_ready p move).clients]
  rw [slots] at hm
  by_cases leaves : ∃ c, move = .hangUp c
  · obtain ⟨c, rfl⟩ := leaves
    change (slot, some value) ∈ ((p.clientClosed c).client client).replies.slots at hm
    rw [client_clientClosed] at hm
    split at hm
    · cases hm
    · exact hm
  · exact (Sessions.mem_slots_opening fun c he => leaves ⟨c, he⟩).mp hm

theorem framed_of_apply (h : HoldsFramed p) (read : move.Read) :
    HoldsFramed (move.apply w p) ∧
      ∀ client slot value, .reply client slot value ∈ move.emits w p → value.Framed := by
  obtain ⟨actions, outbox, given⟩ := gives_of_framed (steps_apply w p move) (framed_tasks read)
  have good : ∀ client slot value,
      (slot, some value) ∈ repliesTo client actions ++ (move.apply w p).slots client →
      value.Framed := by
    intro client slot value hm
    rcases given client slot value hm with old | new
    · exact h client slot value (mem_slots_of_ready old)
    · exact new
  refine ⟨fun client slot value hm => good client slot value (List.mem_append_right _ hm), ?_⟩
  intro client slot value hm
  rw [(akin_ready p move).outbox] at outbox
  refine good client slot value (List.mem_append_left _ ?_)
  rw [← Sessions.repliesTo_emits outbox]
  exact mem_repliesTo.mpr hm

theorem framed_of_emitted (h : HoldsFramed p) (read : ∀ move ∈ ms, move.Read)
    {client slot : Nat} {value : Reply} (hm : .reply client slot value ∈ emitted w p ms) :
    value.Framed := by
  induction ms generalizing p with
  | nil => cases hm
  | cons move ms ih =>
      obtain ⟨first, others⟩ := List.forall_mem_cons.mp read
      obtain ⟨holds, sent⟩ := framed_of_apply (w := w) h first
      rcases List.mem_append.mp hm with now | later
      · exact sent client slot value now
      · exact ih holds others later

theorem mem_emitted_of_outbox (tidy : Tidy p []) {action : Action}
    (hm : action ∈ (play w p ms).outbox) : action ∈ p.outbox ∨ action ∈ emitted w p ms := by
  induction ms generalizing p with
  | nil => exact Or.inl hm
  | cons move ms ih =>
      rcases ih (tidy.apply w move) hm with early | later
      · rw [outbox_apply move w tidy.sound] at early
        rcases List.mem_append.mp early with left | sent
        · refine Or.inl ?_
          cases move <;> first | exact left | cases left
        · exact Or.inr (List.mem_append_left _ sent)
      · exact Or.inr (List.mem_append_right _ later)

end Run

def answers (client : Nat) (actions : List Action) : List Reply :=
  (actions.filterMap (Action.toClient? client)).map Prod.snd

structure Delimited (w : World) (p : Proxy) (events : List Event) : Prop where
  single : ∀ client slot value, .reply client slot value ∈ emitted w p (course w p events) →
    value.Bounded → Resp.parse (Action.reply client slot value).bytes = .complete value []
  outbox : ∀ client slot value, .reply client slot value ∈ (p.run w events).outbox →
    value.Bounded → Resp.parse (Action.reply client slot value).bytes = .complete value []
  stream : ∀ client, (∀ value ∈ answers client (emitted w p (course w p events)), value.Bounded) →
    Resp.reader.stream ((answers client (emitted w p (course w p events))).flatMap
      Resp.Value.encode) = (answers client (emitted w p (course w p events)), .waiting [])

theorem mem_answers {client : Nat} {actions : List Action} {value : Reply}
    (h : value ∈ answers client actions) : ∃ slot, Action.reply client slot value ∈ actions := by
  obtain ⟨⟨slot, value⟩, hm, rfl⟩ := List.mem_map.mp h
  exact ⟨slot, mem_repliesTo.mp (List.mem_map.mpr ⟨_, hm, rfl⟩)⟩

theorem delimited_run (w : World) (settings : Settings) (policy : BucketPolicy)
    (events : List Event) : Delimited w (start settings policy) events := by
  have holds : HoldsFramed (start settings policy) := fun _ _ _ hm => by cases hm
  have fits : ∀ client slot value, .reply client slot value ∈
      emitted w (start settings policy) (course w (start settings policy) events) →
      value.Bounded → value.Fits (maxNesting + 1) := fun _ _ _ hm =>
    (framed_of_emitted holds (read_course w _ events) hm).fits
  refine ⟨?_, ?_, ?_⟩
  · intro client slot value hm bounded
    exact Resp.parse_encode_iff.mpr (fits client slot value hm bounded)
  · intro client slot value hm bounded
    rw [← play_course] at hm
    rcases mem_emitted_of_outbox (Tidy.start settings policy) hm with nothing | sent
    · cases nothing
    · exact Resp.parse_encode_iff.mpr (fits client slot value sent bounded)
  · intro client bounded
    refine Resp.stream_encode fun value hm => ?_
    obtain ⟨slot, sent⟩ := mem_answers hm
    exact fits client slot value sent (bounded value hm)

theorem simple_member_passed_on {member : Bytes} (one : ¬ crlf <:+: member) :
    let w : World :=
      { pool := fun _ =>
          { pick := fun tier _ => if tier = .cache then some 0 else none, live := fun _ => [] }
        draw := fun _ => 0 }
    let events : List Event :=
      [.command 7 (.algebra .union none [ascii "b:x"]),
        .cacheData 0 (Resp.Value.array [.simple member]).encode]
    .reply 7 0 (Reply.members [member]) ∈
      emitted w (start {} {}) (course w (start {} {}) events) := by
  intro w events
  let value : Resp.Value := .array [.simple member]
  let q : Proxy := (start {} {}).step w (.command 7 (.algebra .union none [ascii "b:x"]))
  have few : ((1 : Nat) : Int) ≤ Resp.maxElements.toInt := by decide
  have fits : value.Fits (maxNesting + 1) :=
    .array few (List.forall_mem_singleton.mpr (.simple one))
  have arrived : Resp.reader.stream value.encode = ([value], .waiting []) := by
    have alone := Resp.stream_encode (List.forall_mem_singleton.mpr fits)
    rwa [List.flatMap_cons, List.flatMap_nil, List.append_nil] at alone
  have answered : moves w q (.cacheData 0 value.encode) =
      [.cacheAnswer 0 value, .cacheHold 0 []] := by
    change cacheMoves w 0 (Resp.reader.stream value.encode).2
      (Resp.reader.stream value.encode).1 q = _
    rw [arrived]
    rfl
  have sent : (Move.cacheAnswer 0 value).emits w q = [.reply 7 0 (Reply.members [member])] := rfl
  have all : course w (start {} {}) events =
      [.request 7 (.ok (.algebra .union none [ascii "b:x"])), .cacheAnswer 0 value,
        .cacheHold 0 []] := by
    change _ :: (moves w q (.cacheData 0 value.encode) ++ []) = _
    rw [answered, List.append_nil]
  rw [all]
  refine List.mem_append_right _ (List.mem_append_left _ ?_)
  change _ ∈ (Move.cacheAnswer 0 value).emits w q
  rw [sent]
  exact List.mem_singleton_self _

theorem oversized_member_refused :
    let w : World :=
      { pool := fun _ =>
          { pick := fun tier _ => if tier = .cache then some 0 else none, live := fun _ => [] }
        draw := fun _ => 0 }
    let member : Bytes := List.replicate 536870913 97
    let events : List Event :=
      [.command 7 (.algebra .union none [ascii "b:x"]),
        .cacheData 0 (Resp.Value.array [.simple member]).encode]
    let reply : Action := .reply 7 0 (Reply.members [member])
    reply ∈ emitted w (start {} {}) (course w (start {} {}) events) ∧
      Resp.parse reply.bytes = .refused (.invalidBulkLength 536870913) := by
  intro w member events reply
  constructor
  · refine simple_member_passed_on ?_
    intro inside
    have same := List.eq_of_mem_replicate (inside.subset List.mem_cons_self)
    cases same
  · have length : member.length = 536870913 := List.length_replicate
    have large : Resp.maxBulk.toInt < member.length := by
      rw [length]
      decide
    have refused := Resp.parse_oversized large (by rw [length]; decide)
    rwa [length] at refused

end Proxy

end ReadThrough
