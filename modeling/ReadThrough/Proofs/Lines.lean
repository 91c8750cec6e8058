import ReadThrough.Proofs.Growth
import ReadThrough.Proofs.Tidy

/-!
A line is the connection to one server. Between two losses of it, which is an epoch, its queue
holds what was sent less what was answered, so that answers and messages are paired in order.
-/

namespace ReadThrough.Proxy

inductive Passage where
  | answer
  | loss
  | other
  deriving DecidableEq

@[simp] def Passage.left {ε : Type} : Passage → List ε → List ε
  | .answer, queue => queue.tail
  | .loss, _ => []
  | .other, queue => queue

/-- What has been sent over a line since it was last lost, and how much of it was answered. -/
structure Epoch (μ : Type) where
  sent : List μ := []
  answered : Nat := 0

def Epoch.advance {μ : Type} (epoch : Epoch μ) (messages : List μ) : Passage → Epoch μ
  | .answer => { sent := epoch.sent ++ messages, answered := epoch.answered + 1 }
  | .loss => {}
  | .other => { epoch with sent := epoch.sent ++ messages }

def Move.emits (w : World) (p : Proxy) : Move → List Action
  | .drain => []
  | move => (move.apply w p).outbox.drop p.outbox.length

def Move.leaves (p : Proxy) : Move → List Action
  | .drain => []
  | _ => p.outbox

structure Line (σ μ ε : Type) where
  passage : Move → Passage
  message? : Action → Option μ
  entry : μ → ε
  pending : Proxy → List ε
  answer : σ → Move
  protest : Move
  loss : Move
  arrivals : Proxy → Event → List σ
  deliver : World → Proxy → μ → σ → Proxy

def cacheLine (server : Nat) : Line Resp.Value (CacheEntry × Cache.Command) CacheEntry where
  passage
    | .cacheAnswer s _ => if s = server then .answer else .other
    | .cacheLoss s => if s = server then .loss else .other
    | _ => .other
  message? := Action.toCache? server
  entry message := message.1
  pending p := p.pendingCache server
  answer := .cacheAnswer server
  protest := .cacheProtest server
  loss := .cacheLoss server
  arrivals p
    | .cacheData s data =>
        if s = server then
          (Resp.reader.stream ((p.cacheLink server).inbound.append data).bytes).1
        else []
    | _ => []
  deliver w p message value :=
    (p.setCache server
      { p.cacheLink server with pending := (p.pendingCache server).tail }).cacheAnswer w
        message.1 value

def storeLine (server : Nat) : Line Store.Frame (Nat × Store.Request) (Nat × Store.RequestKind)
    where
  passage
    | .storeAnswer s _ => if s = server then .answer else .other
    | .storeLoss s => if s = server then .loss else .other
    | _ => .other
  message? := Action.toStore? server
  entry message := (message.1, message.2.kind)
  pending p := p.pendingStore server
  answer := .storeAnswer server
  protest := .storeProtest server
  loss := .storeLoss server
  arrivals p
    | .storeData s data =>
        if s = server then
          (Store.Frame.reader.stream ((p.storeLink server).inbound.append data).bytes).1
        else []
    | _ => []
  deliver w p message frame :=
    (p.setStore server
      { p.storeLink server with pending := (p.pendingStore server).tail }).resume message.1
        (frameHandler w server message.1 message.2.kind frame)

namespace Line

variable {σ μ ε : Type} (line : Line σ μ ε) (w : World)

def messages (p : Proxy) (move : Move) : List μ :=
  (move.emits w p).filterMap line.message?

def epoch : Proxy → Epoch μ → List Move → Epoch μ
  | _, before, [] => before
  | p, before, move :: moves =>
      epoch (move.apply w p) (before.advance (line.messages w p move) (line.passage move)) moves

structure Follows (epoch : Epoch μ) (p : Proxy) : Prop where
  answered_le : epoch.answered ≤ epoch.sent.length
  pending : line.pending p = (epoch.sent.drop epoch.answered).map line.entry

structure Kept (p : Proxy) (move : Move) : Prop where
  pending : line.pending (move.apply w p) =
    (line.passage move).left (line.pending p) ++ (line.messages w p move).map line.entry
  awaited : line.passage move = .answer → line.pending p ≠ []
  silent : line.passage move = .loss → line.messages w p move = []

variable {line w} {p : Proxy} {move : Move} {epoch : Epoch μ}

theorem Follows.answered_lt (h : line.Follows epoch p) (awaited : line.pending p ≠ []) :
    epoch.answered < epoch.sent.length := by
  rw [h.pending] at awaited
  by_contra all
  exact awaited (by rw [List.drop_of_length_le (Nat.not_lt.mp all), List.map_nil])

theorem Follows.pending_eq_cons (h : line.Follows epoch p)
    (lt : epoch.answered < epoch.sent.length) : line.pending p =
      line.entry epoch.sent[epoch.answered] ::
        (epoch.sent.drop (epoch.answered + 1)).map line.entry := by
  rw [h.pending, List.drop_eq_getElem_cons lt, List.map_cons]

theorem Follows.advance (h : line.Follows epoch p) (kept : line.Kept w p move) :
    line.Follows (epoch.advance (line.messages w p move) (line.passage move))
      (move.apply w p) := by
  have pending := kept.pending
  cases passage : line.passage move with
  | answer =>
      have lt := h.answered_lt (kept.awaited passage)
      rw [passage, h.pending_eq_cons lt] at pending
      refine ⟨?_, ?_⟩
      · simp only [Epoch.advance, List.length_append]
        omega
      · simp only [Epoch.advance]
        rw [pending, List.drop_append_of_le_length lt, List.map_append]
        rfl
  | loss =>
      rw [passage, kept.silent passage] at pending
      exact ⟨Nat.le_refl _, pending⟩
  | other =>
      rw [passage, h.pending] at pending
      refine ⟨?_, ?_⟩
      · simp only [Epoch.advance, List.length_append]
        exact Nat.le_add_right_of_le h.answered_le
      · simp only [Epoch.advance]
        rw [pending, List.drop_append_of_le_length h.answered_le, List.map_append]
        rfl

end Line

section Kept

variable {p : Proxy} (move : Move) (server : Nat)

def Move.notice : Move → List Action
  | .cacheProtest server => [.closeCache server]
  | .storeProtest server => [.closeStore server]
  | _ => []

theorem outbox_opening (p : Proxy) (drains : move ≠ .drain) :
    (move.opening p).1.outbox = p.outbox ++ move.notice := by
  obtain ⟨operations, h⟩ := Move.opening_fst p move
  rw [h]
  change (move.prepare p).outbox = p.outbox ++ move.notice
  cases move with
  | drain => exact absurd rfl drains
  | cacheProtest | storeProtest => rfl
  | cacheAnswer server value =>
      simp only [Move.prepare]
      split <;> exact (List.append_nil _).symm
  | storeAnswer server frame =>
      simp only [Move.prepare]
      split <;> exact (List.append_nil _).symm
  | _ => exact (List.append_nil _).symm

theorem pendingCache_opening (p : Proxy) : (move.opening p).1.pendingCache server =
    ((cacheLine server).passage move).left (p.pendingCache server) := by
  obtain ⟨operations, h⟩ := Move.opening_fst p move
  rw [h]
  change (move.prepare p).pendingCache server = _
  cases move with
  | cacheAnswer s value =>
      by_cases hs : s = server
      · subst hs
        simp only [cacheLine, if_true, Move.prepare]
        cases hp : (p.cacheLink s).pending with
        | nil =>
            have queue : p.pendingCache s = [] := hp
            simp [queue]
        | cons entry pending =>
            have queue : p.pendingCache s = entry :: pending := hp
            simp [pendingCache_setCache, queue]
      · simp only [cacheLine, hs, if_false, Move.prepare]
        split
        · rfl
        · simp [pendingCache_setCache, Ne.symm hs]
  | cacheLoss s =>
      simp only [cacheLine, Move.prepare, pendingCache, cacheLink, Table.get?_erase]
      by_cases hs : server = s
      · simp [hs]
      · simp [hs, Ne.symm hs]
  | cacheHold s rest =>
      simp only [cacheLine, Move.prepare, pendingCache_setCache]
      split
      · next hs =>
          subst hs
          rfl
      · rfl
  | storeAnswer s frame =>
      simp only [cacheLine, Move.prepare]
      split <;> rfl
  | _ => rfl

theorem pendingStore_opening (p : Proxy) : (move.opening p).1.pendingStore server =
    ((storeLine server).passage move).left (p.pendingStore server) := by
  obtain ⟨operations, h⟩ := Move.opening_fst p move
  rw [h]
  change (move.prepare p).pendingStore server = _
  cases move with
  | storeAnswer s frame =>
      by_cases hs : s = server
      · subst hs
        simp only [storeLine, if_true, Move.prepare]
        cases hp : (p.storeLink s).pending with
        | nil =>
            have queue : p.pendingStore s = [] := hp
            simp [queue]
        | cons entry pending =>
            have queue : p.pendingStore s = entry :: pending := hp
            simp [pendingStore_setStore, queue]
      · simp only [storeLine, hs, if_false, Move.prepare]
        split
        · rfl
        · simp [pendingStore_setStore, Ne.symm hs]
  | storeLoss s =>
      simp only [storeLine, Move.prepare, pendingStore, storeLink, eraseStore, Table.get?_erase]
      by_cases hs : server = s
      · simp [hs]
      · simp [hs, Ne.symm hs]
  | storeHold s rest =>
      simp only [storeLine, Move.prepare, pendingStore_setStore]
      split
      · next hs =>
          subst hs
          rfl
      · rfl
  | cacheAnswer s value =>
      simp only [storeLine, Move.prepare]
      split <;> rfl
  | _ => rfl

theorem emits_of_outbox (w : World) {actions : List Action}
    (outbox : (move.apply w p).outbox = (move.opening p).1.outbox ++ actions) :
    move.emits w p = move.notice ++ actions := by
  by_cases drains : move = .drain
  · subst drains
    exact outbox
  · have emits : move.emits w p = (move.apply w p).outbox.drop p.outbox.length := by
      cases move <;> first | rfl | exact absurd rfl drains
    rw [emits, outbox, outbox_opening move p drains, List.append_assoc, List.drop_left]

theorem outbox_apply (w : World) (sound : SoundOperations p) :
    (move.apply w p).outbox = move.leaves p ++ move.emits w p := by
  obtain ⟨actions, grows⟩ := Grows.apply w sound move
  rw [emits_of_outbox move w grows.outbox, grows.outbox]
  by_cases drains : move = .drain
  · subst drains
    rfl
  · have leaves : move.leaves p = p.outbox := by
      cases move <;> first | rfl | exact absurd rfl drains
    rw [outbox_opening move p drains, leaves, List.append_assoc]

theorem passage_cacheLine_eq_answer :
    (cacheLine server).passage move = .answer ↔ ∃ value, move = .cacheAnswer server value := by
  cases move with
  | cacheAnswer s value => by_cases h : s = server <;> simp [cacheLine, h]
  | cacheLoss s => by_cases h : s = server <;> simp [cacheLine, h]
  | _ => simp [cacheLine]

theorem passage_cacheLine_eq_loss :
    (cacheLine server).passage move = .loss ↔ move = .cacheLoss server := by
  cases move with
  | cacheAnswer s value => by_cases h : s = server <;> simp [cacheLine, h]
  | cacheLoss s => by_cases h : s = server <;> simp [cacheLine, h]
  | _ => simp [cacheLine]

theorem passage_storeLine_eq_answer :
    (storeLine server).passage move = .answer ↔ ∃ frame, move = .storeAnswer server frame := by
  cases move with
  | storeAnswer s frame => by_cases h : s = server <;> simp [storeLine, h]
  | storeLoss s => by_cases h : s = server <;> simp [storeLine, h]
  | _ => simp [storeLine]

theorem passage_storeLine_eq_loss :
    (storeLine server).passage move = .loss ↔ move = .storeLoss server := by
  cases move with
  | storeAnswer s frame => by_cases h : s = server <;> simp [storeLine, h]
  | storeLoss s => by_cases h : s = server <;> simp [storeLine, h]
  | _ => simp [storeLine]

theorem pendingCache_apply (w : World) (sound : SoundOperations p) :
    (move.apply w p).pendingCache server =
      ((cacheLine server).passage move).left (p.pendingCache server) ++
        ((cacheLine server).messages w p move).map (cacheLine server).entry := by
  obtain ⟨actions, grows⟩ := Grows.apply w sound move
  have messages : (cacheLine server).messages w p move =
      actions.filterMap (Action.toCache? server) := by
    rw [Line.messages, emits_of_outbox move w grows.outbox, List.filterMap_append]
    cases move <;> rfl
  rw [messages]
  exact (grows.caches server).trans (congrArg (· ++ _) (pendingCache_opening move server p))

theorem kept_cacheLine (w : World) (sound : SoundOperations p) (expected : move.Expected p) :
    (cacheLine server).Kept w p move := by
  refine ⟨pendingCache_apply move server w sound, ?_, ?_⟩
  · intro passage
    obtain ⟨value, rfl⟩ := (passage_cacheLine_eq_answer move server).mp passage
    exact expected
  · intro passage
    obtain rfl := (passage_cacheLine_eq_loss move server).mp passage
    simp [Line.messages, Move.emits, Move.apply]

theorem pendingStore_apply (w : World) (sound : SoundOperations p) :
    (move.apply w p).pendingStore server =
      ((storeLine server).passage move).left (p.pendingStore server) ++
        ((storeLine server).messages w p move).map (storeLine server).entry := by
  obtain ⟨actions, grows⟩ := Grows.apply w sound move
  have messages : (storeLine server).messages w p move =
      actions.filterMap (Action.toStore? server) := by
    rw [Line.messages, emits_of_outbox move w grows.outbox, List.filterMap_append]
    cases move <;> rfl
  rw [messages]
  exact (grows.stores server).trans (congrArg (· ++ _) (pendingStore_opening move server p))

theorem kept_storeLine (w : World) (sound : SoundOperations p) (expected : move.Expected p) :
    (storeLine server).Kept w p move := by
  refine ⟨pendingStore_apply move server w sound, ?_, ?_⟩
  · intro passage
    obtain ⟨frame, rfl⟩ := (passage_storeLine_eq_answer move server).mp passage
    exact expected
  · intro passage
    obtain rfl := (passage_storeLine_eq_loss move server).mp passage
    simp [Line.messages, Move.emits, Move.apply, eraseStore]

end Kept

structure Unrolled (w : World) (p : Proxy) (events : List Event) : Prop where
  state : ∀ before, before <+: events →
    course w p before <+: course w p events ∧ play w p (course w p before) = p.run w before
  outbox : ∀ ms move, ms ++ [move] <+: course w p events →
    (play w p (ms ++ [move])).outbox =
      move.leaves (play w p ms) ++ move.emits w (play w p ms)

theorem unrolled_of_tidy (w : World) {p : Proxy} (t : Tidy p []) (events : List Event) :
    Unrolled w p events where
  state := by
    rintro before ⟨after, rfl⟩
    rw [course_append]
    exact ⟨List.prefix_append _ _, play_course w p before⟩
  outbox ms move _ := by
    rw [play_concat]
    exact outbox_apply move w (t.play w ms).sound

end ReadThrough.Proxy
