import ReadThrough.Proofs.Delimited
import ReadThrough.Proofs.Errands
import ReadThrough.Proofs.Measured
import ReadThrough.Proofs.Requests

namespace ReadThrough

def Command.named : Command → List Bytes
  | .get key | .set key _ | .sadd key _ | .srem key _ | .smembers key | .sismember key _ | .scard key
  | .incr key _ => [key]
  | .del keys => keys
  | .algebra _ dest keys => dest.toList ++ keys

def Command.Names (command : Command) (key : Key) : Prop :=
  ∃ raw ∈ command.named, ∃ address, Address.parse raw = .ok address ∧
    address.hasBucket = true ∧ address.key = key

variable {settings : Settings} {command : Command} {raw : Bytes} {errand : Store.Errand}
  {request : Store.Request}

theorem Command.Bids.named (h : command.Bids raw errand) : raw ∈ command.named := by
  cases h with
  | delete among => exact among
  | source among => exact List.mem_append_right _ among
  | present | replace => exact List.mem_append_left _ (List.mem_singleton_self _)
  | _ => exact List.mem_singleton_self _

theorem Command.Causes.names (h : command.Causes settings raw errand request) :
    command.Names request.key :=
  ⟨raw, h.bids.named, _, h.parsed, (Store.Errand.request_eq_ok h.composed).1, rfl⟩

namespace Proxy

section Keys

variable {w : World} {raw : Bytes} {address : Address} {id : Nat}

theorem names_of_sending {p : Proxy} {ms : List Move} {sending : Sending} (trailed : Trailed w [] p)
    (hm : sending ∈ sendings w (history w p ms) id) :
    ∃ start command root, Planned w (history w p ms) start command root ∧
      Stems w (history w p ms) start id ∧ command.Names sending.request.key := by
  obtain ⟨start, command, root, raw, errand, planned, stems, causes⟩ := causes_of_sending trailed hm
  exact ⟨start, command, root, planned, stems, causes.names⟩

theorem name_ne_nil_of_parse (h : Address.parse raw = .ok address) : address.key.name ≠ [] := by
  obtain ⟨key, split, rfl⟩ := map_eq_ok h
  exact Key.name_ne_nil_of_split split

end Keys

section Measured

variable {w : World} {p : Proxy} {move : Move} {limit : Nat}

theorem measured_tasks (w : World) (h : Measured limit p) : ∀ t ∈ move.tasks p, t.Measured limit := by
  rcases tasks_cases w p move with replies | ⟨command, root, -, -, tasks⟩ |
    ⟨id, operation, news, -, ho, tasks⟩
  · intro task hm
    obtain ⟨client, slot, value, rfl⟩ := replies task hm
    trivial
  · rw [tasks]
    cases root.plan with
    | read | combine => exact List.forall_mem_singleton.mpr trivial
    | write | readThenPut => exact List.forall_mem_singleton.mpr (Operation.measured_none rfl)
    | delete cacheOnly stored =>
        refine List.forall_mem_append.mpr ⟨?_, List.forall_mem_singleton.mpr trivial⟩
        exact List.forall_mem_map.mpr fun _ _ => trivial
  · rw [tasks]
    exact List.forall_mem_singleton.mpr (h id operation ho)

theorem measured_apply (h : Measured p.settings.maxFrameSize p) (move : Move) :
    Measured p.settings.maxFrameSize (move.apply w p) ∧
      ∀ server id request, Action.store server id request ∈ move.emits w p →
        request.checkSize p.settings.maxFrameSize = .ok () := by
  have ready : Measured p.settings.maxFrameSize (move.ready p) := fun id operation ho =>
    h id operation (get?_operations_ready ho).1
  have settings := congrArg Settings.maxFrameSize (frame_ready p move).settings
  obtain ⟨measured, actions, outbox, sent⟩ :=
    ships_of_steps (steps_apply w p move) settings ready (measured_tasks w h)
  refine ⟨measured, fun server id request hm => ?_⟩
  rw [(akin_ready p move).outbox] at outbox
  rw [emits_of_outbox move w outbox] at hm
  rcases List.mem_append.mp hm with notice | now
  · cases move <;> simp [Move.notice] at notice
  · exact sent server id request now

theorem measured_play (h : Measured p.settings.maxFrameSize p) (ms : List Move) :
    Measured p.settings.maxFrameSize (play w p ms) := by
  induction ms using List.reverseRecOn with
  | nil => exact h
  | append_singleton ms move ih =>
      rw [play_concat]
      have settings := settings_play w p ms
      rw [← settings] at ih ⊢
      exact (measured_apply ih move).1

theorem checkSize_of_sending {ms : List Move} {id : Nat} {sending : Sending}
    (h : Measured p.settings.maxFrameSize p) (sent : sending ∈ sendings w (history w p ms) id) :
    sending.request.checkSize p.settings.maxFrameSize = .ok () := by
  obtain ⟨q, move, made, sent⟩ := mem_sendings.mp sent
  obtain ⟨-, rfl⟩ := getElem?_history.mp made
  have fits := (measured_apply (settings_play w p _ ▸ measured_play h (ms.take sending.time)) move).2
    _ _ _ sent
  rwa [settings_play] at fits

end Measured

structure Addressing (w : World) (p : Proxy) (events : List Event) : Prop
    extends Unrolled w p events where
  framed : ∀ server id request,
    .store server id request ∈ emitted w p (course w p events) →
    Store.Addressed p.settings.maxFrameSize request.kind request.key
      (Action.store server id request).bytes request.frame
  waiting : ∀ server id request, .store server id request ∈ (p.run w events).outbox →
    Store.Addressed p.settings.maxFrameSize request.kind request.key
      (Action.store server id request).bytes request.frame
  queued : ∀ ms move, ms ++ [move] <+: course w p events → ∀ server,
    (play w p (ms ++ [move])).pendingStore server =
      ((storeLine server).passage move).left ((play w p ms).pendingStore server) ++
        ((move.emits w (play w p ms)).filterMap (Action.toStore? server)).map
          fun sent => (sent.1, sent.2.kind)
  named : ∀ ms, ms <+: course w p events → ∀ id, ∀ sending ∈ sendings w (history w p ms) id,
    ∃ start command root, Planned w (history w p ms) start command root ∧
      Stems w (history w p ms) start id ∧ command.Names sending.request.key

theorem addressing_run (w : World) (settings : Settings) (policy : BucketPolicy)
    (events : List Event) : Addressing w (start settings policy) events := by
  let p := start settings policy
  have tidy := Tidy.start settings policy
  have none : Measured p.settings.maxFrameSize p := fun id operation ho => by cases ho
  have trailed := Trailed.start w settings policy
  have framed : ∀ ms server id request, .store server id request ∈ emitted w p ms →
      Store.Addressed p.settings.maxFrameSize request.kind request.key
        (Action.store server id request).bytes request.frame := by
    intro ms server id request hm
    obtain ⟨n, move, made, sent⟩ := mem_emitted.mp hm
    have asked : ⟨n, server, request⟩ ∈ sendings w (history w p ms) id :=
      mem_sendings.mpr ⟨_, move, getElem?_history.mpr ⟨made, rfl⟩, sent⟩
    have fits := checkSize_of_sending none asked
    obtain ⟨start, command, root, -, -, raw, -, address, parsed, bucket, same⟩ :=
      names_of_sending trailed asked
    have bucket : request.key.bucket ≠ [] := same ▸ of_decide_eq_true bucket
    exact Store.addressed_of_checkSize fits bucket (same ▸ name_ne_nil_of_parse parsed)
  refine ⟨unrolled_of_tidy w tidy events, framed _, ?_, ?_,
    fun ms _ id sending hm => names_of_sending trailed hm⟩
  · intro server id request hm
    rw [← play_course] at hm
    rcases mem_emitted_of_outbox tidy hm with nothing | sent
    · cases nothing
    · exact framed _ server id request sent
  · intro ms move _ server
    rw [play_concat]
    exact pendingStore_apply move server w (tidy.play w ms).sound

end Proxy

end ReadThrough
