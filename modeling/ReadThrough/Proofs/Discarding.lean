import ReadThrough.Proofs.Buffers
import ReadThrough.Proofs.Intake

namespace ReadThrough.Proxy

def malformed (client : Nat) (p : Proxy) (data : Bytes) : Bool :=
  match (Resp.reader.stream ((p.client client).inbound.append data).bytes).2 with
  | .waiting _ => false
  | .refused _ => true

variable (w : World) (client : Nat)

def clientIntake : Intake Resp.Value where
  reader := Resp.reader
  inbound p := (p.client client).inbound.bytes
  begin p := (Move.hold client []).apply w p
  answer p value := .ok (p.clientValue w client value)
  hold p rest := (Move.hold client rest).apply w p
  refuse p why := p.reject client why

structure Emptied (p : Proxy) : Prop where
  tidy : Tidy p []
  inbound : (p.client client).inbound = {}
  known : p.clients.get? client ≠ none

variable {client} {p : Proxy}

theorem emptied_hold (tidy : Tidy p []) : Emptied client ((Move.hold client []).apply w p) where
  tidy := tidy.apply w _
  inbound := by rw [Move.apply, client_setClient, if_pos rfl]
  known := by
    rw [Move.apply, setClient, Table.get?_insert_self]
    exact Option.some_ne_none _

theorem Emptied.request (emptied : Emptied client p) (content : Except Failure Command) :
    Emptied client ((Move.request client content).apply w p) := by
  have kept := Buffers.apply w emptied.tidy.sound (.request client content) trivial
  exact ⟨emptied.tidy.apply w _, (kept.client client).trans emptied.inbound,
    kept.clients client emptied.known⟩

theorem Emptied.values (emptied : Emptied client p) (values : List Resp.Value) :
    Emptied client (values.foldl (fun p value => p.clientValue w client value) p) := by
  induction values generalizing p with
  | nil => exact emptied
  | cons value values ih =>
      rw [List.foldl_cons, ← apply_request_ofValue]
      exact ih (emptied.request w _)

theorem Emptied.begin_hold (emptied : Emptied client p) (rest : Bytes) :
    (Move.hold client []).apply w ((Move.hold client rest).apply w p) = p := by
  obtain ⟨link, held⟩ := Option.ne_none_iff_exists'.mp emptied.known
  have empty := emptied.inbound
  rw [Proxy.client, held] at empty
  simp only [Move.apply, setClient, Proxy.client, Table.get?_insert_self, Table.insert_insert_self,
    held, Option.getD_some]
  rw [Table.insert_of_get?]
  rw [held, ← empty]
  rfl

theorem take_clientIntake (ending : Ending) (values : List Resp.Value) (p : Proxy) :
    (clientIntake w client).take ending values p =
      (clientIntake w client).conclude ending
        (values.foldl (fun p value => p.clientValue w client value) p) := by
  induction values generalizing p with
  | nil => rfl
  | cons value values ih => exact ih _

theorem lawful_clientIntake : (clientIntake w client).Lawful w (.clientData client)
    (malformed client) (Tidy · []) (Emptied client) where
  steady := Resp.steady_parse
  begin := emptied_hold w
  answer {p q value} emptied answered := by
    cases answered
    rw [← apply_request_ofValue]
    exact emptied.request w _
  hold rest emptied := emptied.tidy.apply w (.hold client rest)
  inbound p rest := by
    simp only [clientIntake, Move.apply, client_setClient, if_pos]
  resume ending values _ rest emptied :=
    congrArg ((clientIntake w client).take ending values) (emptied.begin_hold w rest)
  step {p} _ data := by
    change (clientIntake w client).take
      (Resp.reader.stream ((p.client client).inbound.append data).bytes).2
      (Resp.reader.stream ((p.client client).inbound.append data).bytes).1
      ((Move.hold client []).apply w p) = _
    rw [take_clientIntake, malformed]
    unfold step clientData
    dsimp only
    cases (Resp.reader.stream ((p.client client).inbound.append data).bytes).2 <;> rfl

theorem emptied_of_malformed (tidy : Tidy p []) {data : Bytes}
    (met : malformed client p data = true) :
    Emptied client (p.step w (.clientData client data)) := by
  rw [malformed] at met
  unfold step clientData
  dsimp only
  have begun : Emptied client ((Move.hold client []).apply w p) := emptied_hold w tidy
  have dealt := begun.values w
    (Resp.reader.stream ((p.client client).inbound.append data).bytes).1
  cases ending : (Resp.reader.stream ((p.client client).inbound.append data).bytes).2 with
  | waiting rest =>
      rw [ending] at met
      cases met
  | refused why => exact dealt.request w (.error why)

structure Discarding (w : World) (p : Proxy) : Prop where
  pieces : ∀ (client : Nat) (first : Bytes) (more : List Bytes),
    feed w (.clientData client) (malformed client) p (first :: more) =
      p.step w (.clientData client (first ++ more.flatten))
  whole : ∀ (client : Nat) (first : Bytes) (more : List Bytes),
    malformed client p (first ++ more.flatten) = false →
    p.run w ((first :: more).map (.clientData client)) =
      p.step w (.clientData client (first ++ more.flatten))
  dropped : ∀ (client : Nat) (first behind : Bytes), malformed client p first = true →
    p.step w (.clientData client (first ++ behind)) = p.step w (.clientData client first)
  afresh : ∀ (client : Nat) (first : Bytes), malformed client p first = true →
    ((p.step w (.clientData client first)).client client).inbound = {}
  rest : ∀ (client : Nat) (data : Bytes), malformed client p data = false →
    Resp.parse ((p.step w (.clientData client data)).client client).inbound.bytes = .incomplete

theorem discarding_of_tidy {p : Proxy} (tidy : Tidy p []) : Discarding w p where
  pieces client := (lawful_clientIntake w).feed_cons tidy
  whole client first more goes := (lawful_clientIntake w).run_cons tidy goes
  dropped client first behind met := by
    rw [((lawful_clientIntake w).step_append tidy first behind).1, if_pos met]
  afresh client first met := (emptied_of_malformed w tidy met).inbound
  rest client data goes := ((lawful_clientIntake w).rest tidy goes).2

theorem discarding_run (w : World) (settings : Settings) (policy : BucketPolicy)
    (events : List Event) : Discarding w ((start settings policy).run w events) := by
  have tidy := (Tidy.start settings policy).play w (course w (start settings policy) events)
  rw [play_course] at tidy
  exact discarding_of_tidy w tidy

example :
    let w : World := { pool := fun _ => { pick := fun _ _ => none, live := fun _ => [] }
                       draw := fun _ => 0 }
    let command := ascii "*2\r\n$3\r\nGET\r\n$1\r\nk\r\n"
    ((start {} {}).run w [.clientData 7 (ascii "@" ++ command)]).outbox.length = 1 ∧
      ((start {} {}).run w [.clientData 7 (ascii "@"), .clientData 7 command]).outbox.length = 2 := by
  decide +kernel

end ReadThrough.Proxy
