import ReadThrough.Proofs.Plans
import ReadThrough.Proofs.Precedence

namespace ReadThrough

def Command.reads : Command → Store.RequestKind
  | .set .. => .get
  | _ => .setFetch

namespace Proxy

def WritesAtOnce (p : Proxy) : Command → Prop
  | .set key _ => ∃ address, Address.parse key = .ok address ∧
      p.rememberedVclock address.key.join ≠ none
  | .algebra .. => False
  | _ => True

structure Wrote (w : World) (past : History) (start : Nat) (command : Command) (id : Nat)
    (write : Sending) : Prop where
  asked : ∃ q client, past[start]? = some (q, .request client (.ok command))
  stems : Stems w past start id
  sent : write ∈ sendings w past id
  writes : write.request.kind.isIdempotentRead = false

structure WroteAfter (w : World) (past : History) (start : Nat) (command : Command) (id : Nat)
    (read write : Sending) : Prop extends Wrote w past start command id write where
  fetched : read ∈ sendings w past id
  reads : read.request.kind.isIdempotentRead = true

structure Awaited (w : World) (past : History) (start : Nat) (command : Command) (id : Nat)
    (read write : Sending) : Prop where
  sent : sendings w past id = [read, write]
  kind : read.request.kind = command.reads
  since : start ≤ read.time
  prompt : ∀ key value, command = .set key value → read.time = start

inductive Written (w : World) (past : History) (start : Nat) (command : Command) (id : Nat)
    (write : Sending) : Prop where
  | atOnce {q : Proxy} {client : Nat} :
      past[start]? = some (q, .request client (.ok command)) → q.WritesAtOnce command →
      write.time = start →
      (∀ sending ∈ sendings w past id, sending.request.kind.isIdempotentRead = false) →
      Written w past start command id write
  | after {q : Proxy} {client answering : Nat} {read : Sending} {response : Store.Response} :
      past[start]? = some (q, .request client (.ok command)) → ¬ q.WritesAtOnce command →
      Awaited w past start command id read write →
      Told past write.time id (.response answering response) →
      Written w past start command id write

section Written

variable {w : World} {p : Proxy} {past : History} {moves : List Move} {start id : Nat}
  {command : Command} {read write : Sending}

theorem only_of_pair (all : sendings w past id = [read, write]) :
    ∀ sending ∈ sendings w past id, sending.time < write.time → sending = read := by
  intro sending sent lt
  rw [all] at sent
  rcases List.mem_pair.mp sent with rfl | rfl
  · rfl
  · exact absurd lt (Nat.lt_irrefl _)

theorem eq_of_writes {first second : Sending} (sent : write ∈ [first, second])
    (reads : first.request.kind.isIdempotentRead = true)
    (writes : write.request.kind.isIdempotentRead = false) : write = second := by
  rcases List.mem_pair.mp sent with rfl | rfl
  · rw [reads] at writes
    cases writes
  · rfl

theorem Written.alone {q : Proxy} {client : Nat}
    (asked : past[start]? = some (q, .request client (.ok command)))
    (atOnce : q.WritesAtOnce command) (all : sendings w past id = [write])
    (now : write.time = start) (writes : write.request.kind.isIdempotentRead = false) :
    Written w past start command id write := by
  refine .atOnce asked atOnce now ?_
  rw [all]
  exact List.forall_mem_singleton.mpr writes

theorem written_of_trail {q : Proxy} {client : Nat} {plan : Plan} {place : Option Nat}
    {stage : Stage} {request : Option Store.Request}
    (asked : past[start]? = some (q, .request client (.ok command))) (plans : Plans q command plan)
    (trail : Trail w past p.settings start id plan place stage request (sendings w past id))
    (sent : write ∈ sendings w past id) (writes : write.request.kind.isIdempotentRead = false) :
    Written w past start command id write := by
  generalize all : sendings w past id = sendings at trail sent
  have single : ∀ {sending : Sending}, sendings = [sending] → write = sending := by
    rintro sending rfl
    exact List.mem_singleton.mp sent
  cases trail with
  | lookUp | source => cases sent
  | read composed tried =>
      have reads := Read.isIdempotentRead_of_request composed
      rw [tried.same write sent, reads] at writes
      cases writes
  | write =>
      obtain rfl := single rfl
      refine .alone asked ?_ all rfl writes
      cases plans with
      | put parsed known => exact ⟨_, parsed, known ▸ Option.some_ne_none _⟩
      | sadd | srem | incr => trivial
  | delete =>
      obtain rfl := single rfl
      refine .alone asked ?_ all rfl writes
      cases plans with
      | del => trivial
  | fetch =>
      obtain rfl := single rfl
      cases plans with
      | readThenPut _ _ _ gets =>
          rw [Store.Request.kind_of_get gets] at writes
          cases writes
  | sourceRead _ fetches | dest _ fetches =>
      obtain rfl := single rfl
      rw [Store.Request.kind_of_setFetch fetches] at writes
      cases writes
  | @put address value deferred fetch server time other answering siblings vclock _ told =>
      cases plans with
      | readThenPut parsed unknown _ gets =>
          have kind := Store.Request.kind_of_get gets
          obtain rfl := eq_of_writes sent (kind ▸ rfl) writes
          refine .after asked ?_ ⟨all, kind, le_rfl, fun _ _ _ => rfl⟩ told
          rintro ⟨address', parsed', known⟩
          cases parsed.symm.trans parsed'
          exact known unknown
  | @replace op dest sources members current sent' server time other answering fetch request' context
      le fetches told replaces =>
      have kind := Store.Request.kind_of_setFetch fetches
      obtain rfl := eq_of_writes sent (kind ▸ rfl) writes
      cases plans with
      | algebra => exact .after asked (fun h => h) ⟨all, kind, le, fun _ _ h => nomatch h⟩ told

theorem Wrote.written (trailed : Trailed w [] p)
    (h : Wrote w (history w p moves) start command id write) :
    Written w (history w p moves) start command id write := by
  obtain ⟨start', command', root, planned, stems, place, stage, request, trail⟩ :=
    (trailed.play moves).known (List.ne_nil_of_mem h.sent)
  obtain ⟨q', client, asked⟩ := h.asked
  obtain rfl := stems_unique stems h.stems planned.asks ⟨q', client, _, asked⟩
  obtain ⟨q, asked', of⟩ := planned
  cases Option.some.inj (asked'.symm.trans asked)
  exact written_of_trail asked (plans_of_plan of.plan) trail h.sent h.writes

theorem Written.le (tidy : Tidy p []) (empty : ∀ server, p.queued server = [])
    (h : Written w (history w p moves) start command id write) : start ≤ write.time := by
  cases h with
  | atOnce _ _ now => exact now.ge
  | after _ _ awaited told =>
      obtain ⟨-, -, lt, -⟩ := queued_between tidy empty told (only_of_pair awaited.sent)
      exact awaited.since.trans lt.le

theorem Wrote.prompt (trailed : Trailed w [] p)
    (atOnce : (play w p (moves.take start)).WritesAtOnce command)
    (h : Wrote w (history w p moves) start command id write) : write.time = start := by
  cases h.written trailed with
  | atOnce _ _ now => exact now
  | after asked waits =>
      obtain ⟨-, rfl⟩ := getElem?_history.mp asked
      exact absurd atOnce waits

theorem Wrote.awaited (trailed : Trailed w [] p) (empty : ∀ server, p.queued server = [])
    (waits : ¬ (play w p (moves.take start)).WritesAtOnce command)
    (h : Wrote w (history w p moves) start command id write) :
    ∃ read response, Awaited w (history w p moves) start command id read write ∧
      read.time < write.time ∧
      Told (history w p moves) write.time id (.response read.server response) := by
  cases h.written trailed with
  | atOnce asked atOnce =>
      obtain ⟨-, rfl⟩ := getElem?_history.mp asked
      exact absurd atOnce waits
  | after _ _ awaited told =>
      obtain ⟨-, server, lt, -⟩ :=
        queued_between trailed.tidy empty told (only_of_pair awaited.sent)
      exact ⟨_, _, awaited, lt, server ▸ told⟩

theorem WroteAfter.awaited (trailed : Trailed w [] p)
    (h : WroteAfter w (history w p moves) start command id read write) :
    Awaited w (history w p moves) start command id read write ∧ ∃ answering response,
      Told (history w p moves) write.time id (.response answering response) := by
  cases h.toWrote.written trailed with
  | atOnce _ _ _ none =>
      have writes := none read h.fetched
      rw [h.reads] at writes
      cases writes
  | @after _ _ answering read' response _ _ awaited told =>
      have fetched := h.fetched
      rw [awaited.sent] at fetched
      rcases List.mem_pair.mp fetched with rfl | rfl
      · exact ⟨awaited, answering, response, told⟩
      · have writes := h.writes
        rw [h.reads] at writes
        cases writes

end Written

structure Sequenced (w : World) (p : Proxy) (events : List Event) : Prop
    extends Unrolled w p events where
  prompt : ∀ ms, ms <+: course w p events → ∀ start command id write,
    (play w p (ms.take start)).WritesAtOnce command →
    Wrote w (history w p ms) start command id write → write.time = start
  awaited : ∀ ms, ms <+: course w p events → ∀ start command id write,
    ¬ (play w p (ms.take start)).WritesAtOnce command →
    Wrote w (history w p ms) start command id write →
    ∃ read response, Awaited w (history w p ms) start command id read write ∧
      read.time < write.time ∧
      Told (history w p ms) write.time id (.response read.server response)
  atOnce : ∀ ms, ms <+: course w p events → ∀ start start' command command' id id' write write',
    start < start' → (play w p (ms.take start)).WritesAtOnce command →
    Wrote w (history w p ms) start command id write →
    Wrote w (history w p ms) start' command' id' write' → write.time < write'.time
  /-- Writes for which the store had to be read are sent in the order of these reads, if one server
  was read; that of a put is sent as soon as it comes in. -/
  after : ∀ ms, ms <+: course w p events →
    ∀ start start' command command' id id' read read' write write',
    start < start' → read.server = read'.server →
    (read.time < read'.time ∨ ∃ key value, command = .set key value) →
    WroteAfter w (history w p ms) start command id read write →
    WroteAfter w (history w p ms) start' command' id' read' write' → write.time < write'.time

theorem sequenced_run (w : World) (settings : Settings) (policy : BucketPolicy)
    (events : List Event) : Sequenced w (start settings policy) events where
  toUnrolled := unrolled_of_tidy w (Tidy.start settings policy) events
  prompt _ _ _ _ _ _ atOnce h := h.prompt (Trailed.start w settings policy) atOnce
  awaited _ _ _ _ _ _ waits h := h.awaited (Trailed.start w settings policy) (fun _ => rfl) waits
  atOnce := by
    intro ms _ start start' command command' id id' write write' lt atOnce h h'
    have trailed := Trailed.start w settings policy
    have le := (h'.written trailed).le trailed.tidy (fun _ => rfl)
    exact h.prompt trailed atOnce ▸ Nat.lt_of_lt_of_le lt le
  after := by
    intro ms _ start start' command command' id id' read read' write write' lt server order h h'
    have trailed := Trailed.start w settings policy
    obtain ⟨awaited, answering, response, told⟩ := h.awaited trailed
    obtain ⟨awaited', answering', response', told'⟩ := h'.awaited trailed
    have earlier : read.time < read'.time := by
      rcases order with order | ⟨key, value, isSet⟩
      · exact order
      · exact awaited.prompt key value isSet ▸ Nat.lt_of_lt_of_le lt awaited'.since
    exact answered_in_order trailed.tidy (fun _ => rfl) told told' (only_of_pair awaited.sent)
      (only_of_pair awaited'.sent) server earlier

theorem put_overtaken :
    let w : World :=
      { pool := fun _ =>
          { pick := fun tier _ => if tier = .store then some 0 else none, live := fun _ => [0] }
        draw := fun _ => 0 }
    let put : Command := .set (ascii "b:k") (ascii "1")
    let deletion : Command := .del [ascii "b:k"]
    let events : List Event :=
      [.command 7 put, .command 7 deletion, .storeData 0 [0, 0, 0, 1, 10]]
    let past := history w (start {} {}) (course w (start {} {}) events)
    ∃ first second, Wrote w past 0 put 1 first ∧ Wrote w past 1 deletion 2 second ∧
      first.request.key = second.request.key ∧ second.time < first.time := by
  intro w put deletion events past
  let key : Key := ⟨none, ascii "b", ascii "k"⟩
  refine ⟨⟨2, 0, key, {}, .put (ascii "1") "text/plain" none⟩, ⟨1, 0, key, {}, .delete⟩,
    ⟨⟨_, 7, rfl⟩, .begun rfl ?_ ?_, ?_, rfl⟩, ⟨⟨_, 7, rfl⟩, .begun rfl ?_ ?_, ?_, rfl⟩, rfl,
    Nat.lt_succ_self 1⟩
  all_goals decide +kernel

end Proxy

end ReadThrough
