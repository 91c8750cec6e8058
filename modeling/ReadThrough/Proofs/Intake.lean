import ReadThrough.Proofs.Segments
import ReadThrough.Proxy.Event

/-!
How a connection is read: what arrives is put behind what waits, the whole messages in front are
dealt with one after the other, and what is left waits in turn. Where a reader is steady, and bytes
that wait make no difference to how a message is dealt with, it does not matter how a stream is cut
into pieces.
-/

namespace ReadThrough.Proxy

def feed (w : World) (arrival : Bytes → Event) (ends : Proxy → Bytes → Bool) :
    Proxy → List Bytes → Proxy
  | p, [] => p
  | p, chunk :: chunks =>
      if ends p chunk then p.step w (arrival chunk)
      else feed w arrival ends (p.step w (arrival chunk)) chunks

structure Intake (σ : Type) where
  reader : Reader σ
  inbound : Proxy → Bytes
  begin : Proxy → Proxy
  answer : Proxy → σ → Except Proxy Proxy
  hold : Proxy → Bytes → Proxy
  refuse : Proxy → Failure → Proxy

namespace Intake

variable {σ : Type}

def conclude (intake : Intake σ) (ending : Ending) (p : Proxy) : Except Proxy Proxy :=
  match ending with
  | .waiting rest => .ok (intake.hold p rest)
  | .refused why => .error (intake.refuse p why)

def take (intake : Intake σ) (ending : Ending) (messages : List σ) (p : Proxy) :
    Except Proxy Proxy :=
  messages.foldlM intake.answer p >>= intake.conclude ending

def read (intake : Intake σ) (p : Proxy) (data : Bytes) : Except Proxy Proxy :=
  let (messages, ending) := intake.reader.stream (intake.inbound p ++ data)
  intake.take ending messages (intake.begin p)

structure Lawful (intake : Intake σ) (w : World) (arrival : Bytes → Event)
    (ends : Proxy → Bytes → Bool) (fit busy : Proxy → Prop) : Prop where
  steady : Steady intake.reader.read
  begin : ∀ {p}, fit p → busy (intake.begin p)
  answer : ∀ {p q message}, busy p → intake.answer p message = .ok q → busy q
  hold : ∀ {p} rest, busy p → fit (intake.hold p rest)
  inbound : ∀ p rest, intake.inbound (intake.hold p rest) = rest
  resume : ∀ ending messages {p} rest, busy p →
    intake.take ending messages (intake.begin (intake.hold p rest)) =
      intake.take ending messages p
  step : ∀ {p}, fit p → ∀ data, intake.read p data =
    if ends p data then .error (p.step w (arrival data)) else .ok (p.step w (arrival data))

theorem take_cons (intake : Intake σ) (ending : Ending) (message : σ) (messages : List σ)
    (p : Proxy) : intake.take ending (message :: messages) p =
      intake.answer p message >>= intake.take ending messages := by
  rw [take, List.foldlM_cons, bind_assoc]
  rfl

theorem take_append (intake : Intake σ) (ending : Ending) (messages more : List σ) (p : Proxy) :
    intake.take ending (messages ++ more) p =
      messages.foldlM intake.answer p >>= intake.take ending more := by
  rw [take, List.foldlM_append, bind_assoc]
  rfl

theorem take_hold {intake : Intake σ} {busy : Proxy → Prop}
    (keeps : ∀ {p q message}, busy p → intake.answer p message = .ok q → busy q)
    (again : ∀ p rest left, intake.hold (intake.hold p rest) left = intake.hold p left)
    (refuse : ∀ p rest why, intake.refuse (intake.hold p rest) why = intake.refuse p why)
    (answer : ∀ {p} rest message, busy p → intake.answer (intake.hold p rest) message =
      (intake.answer p message).map (intake.hold · rest))
    (ending : Ending) (messages : List σ) {p : Proxy} (rest : Bytes) (ready : busy p) :
    intake.take ending messages (intake.hold p rest) = intake.take ending messages p := by
  induction messages generalizing p with
  | nil =>
      cases ending with
      | waiting left => exact congrArg Except.ok (again p rest left)
      | refused why => exact congrArg Except.error (refuse p rest why)
  | cons message messages ih =>
      rw [take_cons, take_cons, answer rest message ready]
      cases answered : intake.answer p message with
      | error closed => rfl
      | ok q => exact ih (keeps ready answered)

namespace Lawful

variable {intake : Intake σ} {w : World} {arrival : Bytes → Event} {ends : Proxy → Bytes → Bool}
  {fit busy : Proxy → Prop} (lawful : intake.Lawful w arrival ends fit busy) {p q : Proxy}

include lawful

theorem answers {messages : List σ} (ready : busy p)
    (answered : messages.foldlM intake.answer p = .ok q) : busy q := by
  induction messages generalizing p with
  | nil =>
      cases answered
      exact ready
  | cons message messages ih =>
      rw [List.foldlM_cons] at answered
      cases first : intake.answer p message with
      | error closed =>
          rw [first] at answered
          cases answered
      | ok r =>
          rw [first] at answered
          exact ih (lawful.answer ready first) answered

theorem waiting (ready : fit p) {data : Bytes} (goes : intake.read p data = .ok q) :
    fit q ∧
      (intake.reader.stream (intake.inbound p ++ data)).2 = .waiting (intake.inbound q) := by
  unfold read take at goes
  cases stream : intake.reader.stream (intake.inbound p ++ data) with
  | mk messages ending =>
      simp only [stream] at goes ⊢
      cases answered : messages.foldlM intake.answer (intake.begin p) with
      | error closed =>
          rw [answered] at goes
          cases goes
      | ok r =>
          rw [answered] at goes
          cases ending with
          | refused why => cases goes
          | waiting rest =>
              cases goes
              rw [lawful.inbound]
              exact ⟨lawful.hold rest (lawful.answers (lawful.begin ready) answered), rfl⟩

theorem read_append (ready : fit p) (first second : Bytes) :
    intake.read p (first ++ second) = intake.read p first >>= (intake.read · second) := by
  unfold read
  rw [← List.append_assoc]
  cases stream : intake.reader.stream (intake.inbound p ++ first) with
  | mk messages ending =>
      cases ending with
      | refused why =>
          rw [Reader.stream_append_of_refused lawful.steady second stream]
          simp only [take]
          cases messages.foldlM intake.answer (intake.begin p) <;> rfl
      | waiting rest =>
          rw [Reader.stream_append_of_waiting lawful.steady second stream]
          dsimp only
          rw [take_append]
          simp only [take]
          cases answered : messages.foldlM intake.answer (intake.begin p) with
          | error closed => rfl
          | ok q =>
              have busy := lawful.answers (lawful.begin ready) answered
              have resumed := lawful.resume (intake.reader.stream (rest ++ second)).2
                (intake.reader.stream (rest ++ second)).1 rest busy
              change intake.take _ _ q = _
              simp only [conclude, bind, Except.bind, lawful.inbound]
              exact resumed.symm

theorem step_append (ready : fit p) (first second : Bytes) :
    p.step w (arrival (first ++ second)) =
        (if ends p first then p.step w (arrival first)
        else (p.step w (arrival first)).step w (arrival second)) ∧
      ends p (first ++ second) = (ends p first || ends (p.step w (arrival first)) second) := by
  have both := lawful.read_append ready first second
  have once := lawful.step ready first
  rw [lawful.step ready (first ++ second), once] at both
  by_cases stops : ends p first = true
  · rw [if_pos stops] at both ⊢
    rw [stops, Bool.true_or]
    split at both
    · next ended => exact ⟨Except.error.inj both, ended⟩
    · cases both
  · rw [if_neg stops] at both once ⊢
    rw [eq_false_of_ne_true stops, Bool.false_or]
    have goes := lawful.step (lawful.waiting ready once).1 second
    change _ = intake.read (p.step w (arrival first)) second at both
    rw [goes] at both
    split at both <;> split at both
    · next ended later => exact ⟨Except.error.inj both, ended.trans later.symm⟩
    · cases both
    · cases both
    · next unended later =>
        exact ⟨Except.ok.inj both, (eq_false_of_ne_true unended).trans
          (eq_false_of_ne_true later).symm⟩

theorem feed_cons (ready : fit p) (first : Bytes) (more : List Bytes) :
    feed w arrival ends p (first :: more) = p.step w (arrival (first ++ more.flatten)) := by
  induction more generalizing p first with
  | nil =>
      rw [feed, List.flatten_nil, List.append_nil]
      exact ite_self _
  | cons second more ih =>
      rw [feed, List.flatten_cons, (lawful.step_append ready first _).1]
      have once := lawful.step ready first
      by_cases stops : ends p first = true
      · rw [if_pos stops, if_pos stops]
      · rw [if_neg stops] at once ⊢
        rw [if_neg stops]
        exact ih (lawful.waiting ready once).1 second

theorem run_cons (ready : fit p) {first : Bytes} {more : List Bytes}
    (goes : ends p (first ++ more.flatten) = false) :
    p.run w ((first :: more).map arrival) = p.step w (arrival (first ++ more.flatten)) := by
  induction more generalizing p first with
  | nil =>
      rw [List.flatten_nil, List.append_nil]
      rfl
  | cons second more ih =>
      rw [List.flatten_cons] at goes ⊢
      obtain ⟨both, split⟩ := lawful.step_append ready first (second ++ more.flatten)
      obtain ⟨goes', later⟩ := Bool.or_eq_false_iff.mp (split ▸ goes)
      have once := lawful.step ready first
      rw [goes'] at both once
      rw [both]
      exact ih (lawful.waiting ready once).1 later

theorem rest (ready : fit p) {data : Bytes} (goes : ends p data = false) :
    (intake.reader.stream (intake.inbound p ++ data)).2 =
        .waiting (intake.inbound (p.step w (arrival data))) ∧
      intake.reader.read (intake.inbound (p.step w (arrival data))) = .incomplete := by
  have once := lawful.step ready data
  rw [goes] at once
  have left := (lawful.waiting ready once).2
  exact ⟨left, Reader.of_stream_waiting (Prod.ext rfl left)⟩

end Lawful

end Intake

end ReadThrough.Proxy
