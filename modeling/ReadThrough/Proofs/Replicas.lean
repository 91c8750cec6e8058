import ReadThrough.Proofs.Returned
import ReadThrough.Proofs.Scans
import ReadThrough.Proofs.Sendings
import ReadThrough.Proofs.Teardown

namespace ReadThrough

inductive Command.Seeks : Command → Proxy.Read → Prop where
  | get {key : Bytes} {address : Address} : Address.parse key = .ok address →
      Command.Seeks (.get key) (.value address)
  | smembers {key : Bytes} {address : Address} : Address.parse key = .ok address →
      Command.Seeks (.smembers key) (.set address (.query .members))
  | sismember {key member : Bytes} {address : Address} : Address.parse key = .ok address →
      Command.Seeks (.sismember key member) (.set address (.query (.contains member)))
  | scard {key : Bytes} {address : Address} : Address.parse key = .ok address →
      Command.Seeks (.scard key) (.set address (.query .card))

namespace Proxy

section Seeks

variable {command : Command} {read : Read}

theorem plan_of_seeks (seeks : command.Seeks read) (q : Proxy) :
    q.plan command = .ok (.read read) := by
  cases seeks with
  | get parsed | smembers parsed | sismember parsed | scard parsed =>
      simp only [Proxy.plan, parsed, Except.map]

theorem ne_slot_of_seeks (seeks : command.Seeks read) (address : Address) :
    read ≠ .set address .slot := by
  cases seeks <;> simp

end Seeks

def Fixes (w : World) (past : History) (settings : Settings) (first : Sending) (time : Nat)
    (plan : List Nat) : Prop :=
  ∃ look, Looked w past time look ∧ plan =
    Pool.Resend.plan ((w.pool look).live .store) first.server settings.effectiveMaxResend

structure Waits (w : World) (p : Proxy) (ms : List Move) (id : Nat) (read : Read)
    (operation : Operation) (first : Sending) (rest : List Sending) (plan left : List Nat) :
    Prop where
  sent : sendings w (history w p ms) id = first :: rest
  pursued : Pursued (Fixes w (history w p ms) p.settings first) read.nothing first rest plan
    (attempts w (history w p ms) id read)
  scanned : scan read.nothing plan ((attempts w (history w p ms) id read).map Prod.snd) =
    .waiting left
  servers : operation.resend.servers =
    if attempts w (history w p ms) id read = [] then none else some left

inductive Progress (w : World) (p : Proxy) (ms : List Move) (root : Root) (id : Nat) (read : Read) :
    Prop where
  | unsent : sendings w (history w p ms) id = [] → attempts w (history w p ms) id read = [] →
      Progress w p ms root id read
  | waiting {operation : Operation} {first : Sending} {rest : List Sending} {plan left : List Nat} :
      Waits w p ms id read operation first rest plan left →
      (play w p ms).operations.get? id = some operation → Progress w p ms root id read
  | replied {first : Sending} {rest : List Sending} {plan : List Nat} {value : Reply} :
      sendings w (history w p ms) id = first :: rest →
      Pursued (Fixes w (history w p ms) p.settings first) read.nothing first rest plan
        (attempts w (history w p ms) id read) →
      scan read.nothing plan ((attempts w (history w p ms) id read).map Prod.snd) =
        .replied value →
      (root.slot, some value) ∈ tape w (history w p ms) (play w p ms) root.client →
      Progress w p ms root id read

structure Sought (w : World) (p : Proxy) (events : List Event) (ms : List Move) (start : Nat)
    (command : Command) (root : Root) (id : Nat) (read : Read) : Prop
    extends Attended w p events ms start command root where
  plan : root.plan = .read read
  begun : id ∈ root.numbers

inductive Reads (w : World) (p : Proxy) (ms : List Move) (id : Nat) (read : Read)
    (operation : Operation) : Prop where
  | cache : operation.stage = .cacheRead read → sendings w (history w p ms) id = [] →
      Reads w p ms id read operation
  | store {first : Sending} {rest : List Sending} : operation.stage = .storeRead read →
      operation.isResendable = true → sendings w (history w p ms) id = first :: rest →
      Leftover w (history w p ms) p.settings id operation first rest →
      Reads w p ms id read operation

section Seeking

variable {w : World} {p : Proxy} {events : List Event} {ms front : List Move} {move : Move}
  {start id : Nat} {command : Command} {root : Root} {read : Read} {operation : Operation}
  {news : News}

theorem Fixes.later {settings : Settings} {first : Sending} {time : Nat} {plan : List Nat}
    (h : Fixes w (history w p front) settings first time plan) :
    Fixes w (history w p (front ++ [move])) settings first time plan := by
  obtain ⟨look, looked, made⟩ := h
  rw [history_concat]
  exact ⟨look, looked.concat _, made⟩

theorem Sought.stems (h : Sought w p events ms start command root id read) :
    Stems w (history w p ms) start id := by
  have begun := h.begun
  rw [h.made.numbers, Finset.mem_Ico] at begun
  exact .begun (getElem?_history.mpr ⟨h.request, rfl⟩) begun.1 begun.2

theorem Sought.reads (h : Sought w p events ms start command root id read)
    (trailed : Trailed w [] p) (ho : (play w p ms).operations.get? id = some operation) :
    operation.client = root.client ∧ operation.target = .client root.slot ∧
      Reads w p ms id read operation := by
  have stands := stands_of_stems trailed h.planned ho h.stems
  obtain ⟨place, at', trail⟩ := stands.trail
  have left := stands.left read root.slot
  rw [h.plan] at trail
  rw [settings_play] at trail left
  have target : place = none → operation.target = .client root.slot := by
    rintro rfl
    cases target : operation.target with
    | client slot =>
        rw [target] at at'
        rw [at'.1]
    | fragment group index =>
        rw [target] at at'
        cases at'.2
  generalize stage : operation.stage = reached at trail
  generalize request : operation.request = asked at trail
  generalize all : sendings w (history w p ms) id = sent at trail left
  cases trail with
  | lookUp => exact ⟨stands.client, target rfl, .cache stage all⟩
  | read composed tried =>
      refine ⟨stands.client, target rfl, .store stage ?_ all (left _ _ stage (target rfl) rfl)⟩
      simp only [Operation.isResendable, Operation.kind?, request, Option.map_some, Option.any_some,
        Read.isIdempotentRead_of_request composed, target rfl, stage, Bool.and_self]

end Seeking

section Aside

variable {w : World} {p : Proxy} {front : List Move} {move : Move} {id : Nat}

theorem nextOperation_take_le (w : World) (p : Proxy) (ms : List Move) (n : Nat) :
    (play w p (ms.take n)).nextOperation ≤ (play w p ms).nextOperation := by
  have later := nextOperation_le_play w (play w p (ms.take n)) (ms.drop n)
  rwa [← play_append, List.take_append_drop] at later

theorem lt_of_stems {start : Nat} (stems : Stems w (history w p front) start id) :
    id < (play w p front).nextOperation := by
  have later : ∀ {time : Nat} {q : Proxy} {move : Move},
      (history w p front)[time]? = some (q, move) →
      id < (move.apply w q).nextOperation → id < (play w p front).nextOperation := by
    intro time q move at' lt
    obtain ⟨made, rfl⟩ := getElem?_history.mp at'
    rw [← play_take_succ w p made] at lt
    exact Nat.lt_of_lt_of_le lt (nextOperation_take_le w p front _)
  cases stems with
  | begun at' _ lt => exact later at' lt
  | spawned at' _ _ _ lt => exact later at' lt

theorem sendings_of_unasked {past : History} {q : Proxy}
    (unasked : ∀ server request, Action.store server id request ∉ move.emits w q) :
    sendings w (past ++ [(q, move)]) id = sendings w past id := by
  rw [sendings_concat]
  refine List.append_right_eq_self.mpr (List.filterMap_eq_nil_iff.mpr ?_)
  intro action sent
  cases action with
  | store server k request =>
      refine if_neg ?_
      rintro rfl
      exact unasked server request sent
  | _ => rfl

theorem sendings_of_silent (tidy : Tidy p []) (lt : id < (play w p front).nextOperation)
    (silent : move.tells? (play w p front) id = none) :
    sendings w (history w p (front ++ [move])) id = sendings w (history w p front) id := by
  rw [history_concat]
  refine sendings_of_unasked fun server request sent => ?_
  by_cases subject : move.subject? (play w p front) = some id
  · have gone : (play w p front).operations.get? id = none :=
      Option.eq_none_iff_forall_ne_some.mpr fun operation ho =>
        subject?_ne_of_silent silent ho subject
    rw [emits_of_gone subject gone] at sent
    cases sent
  · exact unasked_of_apply (tidy.play w front) subject lt server request sent

end Aside

section Store

variable {w : World} {q : Proxy} {torn rest : List Ticket} {move : Move} {id : Nat} {news : News}
  {read : Read} {operation : Operation}

theorem missed_of_told (told : move.news? q = some (id, .missed)) :
    move = .cacheSilence (.operation id) := by
  cases move with
  | cacheSilence entry =>
      cases entry with
      | operation k =>
          cases told
          rfl
      | sideEffect => cases told
  | cacheAnswer server value =>
      simp only [Move.news?] at told
      split at told <;> cases told
  | storeAnswer server frame =>
      simp only [Move.news?] at told
      split at told
      · split at told <;> cases told
      · cases told
  | _ => cases told

theorem attempt_of_told (h : Torn torn q) (tears : Tears q torn move rest)
    (told : move.news? q = some (id, news)) (ho : q.operations.get? id = some operation)
    (stage : operation.stage = .storeRead read) (draw : Nat) :
    ∃ attempt, read.attempt? draw news = some attempt := by
  cases news with
  | value answer =>
      obtain ⟨read', other⟩ := cacheRead_of_told h told ho
      cases stage.symm.trans other
  | missed =>
      obtain rfl := missed_of_told told
      cases tears with
      | steady steady => exact steady.elim
      | cacheSilence =>
          obtain ⟨read', other⟩ := cacheRead_of_ticket h ho
            (List.mem_append_right _ List.mem_cons_self)
          cases stage.symm.trans other
  | response server response =>
      cases response with
      | error message code =>
          simp only [Read.attempt?]
          split <;> exact ⟨_, rfl⟩
      | _ => exact ⟨_, rfl⟩
  | failed | lost => exact ⟨_, rfl⟩

theorem next_eq_none {resend : Pool.Resend} {live : List Nat} {primary budget : Nat}
    (h : (resend.next live primary budget).1 = none) :
    resend.servers.getD (Pool.Resend.plan live primary budget) = [] := by
  unfold Pool.Resend.next at h
  split at h
  · next empty => exact empty
  · cases h

end Store

section Waits

variable {w : World} {p : Proxy} {front : List Move} {move : Move} {id server : Nat} {root : Root}
  {read : Read} {operation : Operation} {first : Sending} {rest : List Sending}
  {plan left : List Nat} {attempt : Attempt} {request : Store.Request}

namespace Waits

theorem later (h : Waits w p front id read operation first rest plan left) (move : Move) :
    Pursued (Fixes w (history w p (front ++ [move])) p.settings first) read.nothing first rest plan
      (attempts w (history w p front) id read) :=
  h.pursued.mono fun _ _ => Fixes.later

theorem silent (h : Waits w p front id read operation first rest plan left)
    (sent : sendings w (history w p (front ++ [move])) id = sendings w (history w p front) id)
    (tried : attempts w (history w p (front ++ [move])) id read =
      attempts w (history w p front) id read) :
    Waits w p (front ++ [move]) id read operation first rest plan left where
  sent := sent.trans h.sent
  pursued := tried ▸ h.later move
  scanned := tried ▸ h.scanned
  servers := tried ▸ h.servers

theorem lt (h : Waits w p front id read operation first rest plan left) :
    first.time < front.length := by
  have sent : first ∈ sendings w (history w p front) id := h.sent ▸ List.mem_cons_self
  obtain ⟨q, move, made, -⟩ := mem_sendings.mp sent
  exact length_history (w := w) (p := p) ▸ (List.getElem?_eq_some_iff.mp made).1

theorem planned (h : Waits w p front id read operation first rest plan left) {look : Nat}
    (between : Between (play w p front) (move.apply w (play w p front)) look) :
    ∃ plan, Waits w p front id read operation first rest plan (operation.resend.servers.getD
        (Pool.Resend.plan ((w.pool look).live .store) first.server
          p.settings.effectiveMaxResend)) ∧
      (attempts w (history w p front) id read = [] →
        Fixes w (history w p (front ++ [move])) p.settings first front.length plan) := by
  obtain ⟨plan, left', pursued, scanned, made, rfl⟩ := h.pursued.planned h.scanned _
  rw [← h.servers] at scanned
  refine ⟨plan, ⟨h.sent, pursued, scanned, ?_⟩, fun none => ⟨look, ?_, made none⟩⟩
  · rw [h.servers]
    split <;> rfl
  · rw [history_concat, ← length_history (w := w) (p := p)]
    exact looked_now between.1 between.2

variable
  (tried : attempts w (history w p (front ++ [move])) id read =
    attempts w (history w p front) id read ++ [(front.length, attempt)])
  (fixes : attempts w (history w p front) id read = [] → attempt.passes = true →
    Fixes w (history w p (front ++ [move])) p.settings first front.length plan)

include tried fixes

theorem goes_on (h : Waits w p front id read operation first rest plan (server :: left))
    (passes : attempt.passes = true) {resend : Pool.Resend} (known : resend.servers = some left)
    (sends : Sends w (play w p front) move id { operation with resend } server request) :
    Progress w p (front ++ [move]) root id read := by
  obtain ⟨pursued, scanned⟩ := (h.later move).again (fun none => ⟨h.lt, fixes none⟩) h.scanned
    passes request
  rw [← tried] at pursued scanned
  have sent : sendings w (history w p (front ++ [move])) id =
      first :: (rest ++ [⟨front.length, server, request⟩]) := by
    rw [history_concat, sendings_concat, h.sent, sends.emits, length_history]
    simp [Action.sending?]
  have held : (play w p (front ++ [move])).operations.get? id =
      some { operation with resend } := by
    rw [play_concat, sends.operations, Table.get?_insert_self]
  refine .waiting ⟨sent, pursued, scanned, ?_⟩ held
  rw [known, if_neg (by rw [tried]; simp)]

theorem ends (h : Waits w p front id read operation first rest plan left)
    (trailed : Trailed w [] p) (last : attempt.passes = true → left = [])
    (ended : (play w p (front ++ [move])).operations.get? id = none)
    (given : (root.slot, some (attempt.reply read.nothing)) ∈
      tape w (history w p (front ++ [move])) (play w p (front ++ [move])) root.client) :
    Progress w p (front ++ [move]) root id read := by
  obtain ⟨pursued, scanned⟩ := (h.later move).ends (fun none => ⟨h.lt, fixes none⟩) h.scanned last
  rw [← tried] at pursued scanned
  refine .replied ?_ pursued scanned given
  rw [history_concat, ← h.sent]
  refine sendings_of_unasked fun server request asked => ?_
  obtain ⟨held, ho⟩ := held_of_asked (trailed.tidy.play w front) asked
  rw [← play_concat, ended] at ho
  cases ho

end Waits

end Waits

section Steps

variable {w : World} {p : Proxy} {events : List Event} {front : List Move} {move : Move}
  {start id : Nat} {command : Command} {root : Root} {read : Read} {operation : Operation}
  {news : News}

section Quiet

variable (trailed : Trailed w [] p)

include trailed

theorem Progress.silent (h : Progress w p front root id read) (sessions : Sessions w [] p)
    (before : Sought w p events front start command root id read)
    (listens : move ≠ .hangUp root.client)
    (silent : move.tells? (play w p front) id = none) :
    Progress w p (front ++ [move]) root id read := by
  have sent := sendings_of_silent trailed.tidy (lt_of_stems before.stems) silent
  have tried : attempts w (history w p (front ++ [move])) id read =
      attempts w (history w p front) id read := by
    rw [history_concat]
    exact attempts_of_silent silent
  cases h with
  | unsent unsent untried => exact .unsent (sent.trans unsent) (tried.trans untried)
  | waiting waits ho =>
      have other := subject?_ne_of_silent silent ho
      have own := (before.reads trailed ho).1
      have held := kept_of_apply (w := w) (trailed.tidy.play w front) ho other (own ▸ listens)
      rw [← play_concat] at held
      exact .waiting (waits.silent sent tried) held
  | replied all pursued replies given =>
      have kept := (sessions.play front).kept listens given
      rw [← history_concat, ← play_concat] at kept
      rw [← tried] at pursued replies
      exact .replied (sent.trans all) (pursued.mono fun _ _ => Fixes.later) replies kept

theorem progress_of_first (here : Sought w p events (front ++ [move]) start command root id read)
    (unsent : sendings w (history w p front) id = [])
    (untried : attempts w (history w p (front ++ [move])) id read = []) :
    Progress w p (front ++ [move]) root id read := by
  cases all : sendings w (history w p (front ++ [move])) id with
  | nil => exact .unsent all untried
  | cons first rest =>
      have sent : first ∈ sendings w (history w p (front ++ [move])) id :=
        all ▸ List.mem_cons_self
      have now : front.length ≤ first.time := by
        by_contra before
        have early := sending_take sent (Nat.not_le.mp before)
        rw [List.take_left, unsent] at early
        cases early
      have last : (front ++ [move]).take (first.time + 1) = front ++ [move] :=
        List.take_of_length_le (by rw [List.length_append, List.length_singleton]; omega)
      obtain ⟨operation, ho⟩ := held_of_sending trailed sent
      rw [last] at ho
      have unheard : ∀ heard, ¬ Heard (history w p (front ++ [move])) first.time id heard := by
        intro heard h
        obtain ⟨news, told⟩ := h.told
        have lt := told.lt
        have gt := h.lt
        rw [length_history, List.length_append, List.length_singleton] at lt
        omega
      cases (here.reads trailed ho).2.2 with
      | cache _ none => cases all.symm.trans none
      | store _ _ all' leftover =>
          cases all.symm.trans all'
          rcases leftover.servers with ⟨fresh, rfl, -⟩ | ⟨left, -, heard, look, h, -⟩
          · have waits : Waits w p (front ++ [move]) id read operation first [] [] [] := by
              refine ⟨all, ?_, ?_, ?_⟩ <;> rw [untried]
              · exact .begin []
              · exact scan_nil []
              · exact fresh
            exact .waiting waits ho
          · exact absurd h (unheard heard)

theorem progress_of_begun (at' : front.length = start)
    (here : Sought w p events (front ++ [.request root.client (.ok command)]) start command root id
      read) : Progress w p (front ++ [.request root.client (.ok command)]) root id read := by
  have fresh : (play w p front).nextOperation ≤ id := by
    have begun := here.begun
    rw [here.made.numbers, ← at', List.take_left, Finset.mem_Ico] at begun
    exact begun.1
  refine progress_of_first trailed here ((trailed.play front).fresh fresh) ?_
  refine List.eq_nil_iff_forall_not_mem.mpr ?_
  rintro ⟨time, attempt⟩ hm
  rw [history_concat, attempts_of_silent (by rfl)] at hm
  obtain ⟨news, q, move, operation, made, -, ho⟩ := told_of_mem_attempts hm
  obtain ⟨-, rfl⟩ := getElem?_history.mp made
  have lt := (trailed.tidy.play w (front.take time)).operation_lt ho
  have le := nextOperation_take_le w p front time
  omega

end Quiet

section Told

variable (told : move.news? (play w p front) = some (id, news))
  (ho : (play w p front).operations.get? id = some operation)

include told ho

theorem tells_of_told : move.tells? (play w p front) id = some news :=
  tells?_eq_some_iff.mpr ⟨told, operation, ho⟩

theorem attempts_of_attempt {attempt : Attempt}
    (tried : read.attempt? (w.draw (play w p front).looks) news = some attempt) :
    attempts w (history w p (front ++ [move])) id read =
      attempts w (history w p front) id read ++ [(front.length, attempt)] := by
  rw [history_concat, attempts_of_told (tells_of_told told ho), tried, length_history]
  rfl

theorem progress_of_lookUp (trailed : Trailed w [] p) (empty : ∀ server, p.queued server = [])
    (here : Sought w p events (front ++ [move]) start command root id read)
    (h : Progress w p front root id read) (unsent : sendings w (history w p front) id = []) :
    Progress w p (front ++ [move]) root id read := by
  refine progress_of_first trailed here unsent ?_
  rw [history_concat, attempts_of_told (tells_of_told told ho)]
  cases h with
  | unsent _ untried =>
      rw [untried]
      rcases sent_of_told trailed.tidy empty here.run told with rfl | ⟨value, rfl⟩ | sent
      · rfl
      · rfl
      · exact absurd unsent sent
  | waiting waits => cases unsent.symm.trans waits.sent
  | replied all => cases unsent.symm.trans all

variable {first : Sending} {rest : List Sending}

omit told in
theorem Progress.waits (h : Progress w p front root id read)
    (before : Sought w p events front start command root id read) (sessions : Sessions w [] p)
    (trailed : Trailed w [] p) (balanced : Balanced p [])
    (all : sendings w (history w p front) id = first :: rest) :
    ∃ plan left, Waits w p front id read operation first rest plan left := by
  cases h with
  | unsent unsent => cases all.symm.trans unsent
  | waiting waits held =>
      cases all.symm.trans waits.sent
      cases ho.symm.trans held
      exact ⟨_, _, waits⟩
  | replied _ _ _ given =>
      exact absurd before.stems
        (before.idle_of_given sessions trailed balanced given id operation ho)

theorem progress_of_attempt (h : Progress w p front root id read)
    (before : Sought w p events front start command root id read)
    (here : Sought w p events (front ++ [move]) start command root id read)
    (sessions : Sessions w [] p) (trailed : Trailed w [] p) (balanced : Balanced p [])
    (settled : Torn [] p) (asks : ∀ address, read ≠ .set address .slot)
    (stage : operation.stage = .storeRead read) (resendable : operation.isResendable = true)
    (all : sendings w (history w p front) id = first :: rest)
    (leftover : Leftover w (history w p front) p.settings id operation first rest) :
    Progress w p (front ++ [move]) root id read := by
  have tidy := trailed.tidy.play w front
  have balanced' := balanced.play trailed.tidy w front
  obtain ⟨own, target, -⟩ := before.reads trailed ho
  have made : (front ++ [move])[front.length]? = some move := by simp
  obtain ⟨torn, torn', queued, tears⟩ := tears_of_run settled here.run made
  rw [List.take_left] at queued tears
  obtain ⟨attempt, tried⟩ := attempt_of_told queued tears told ho stage
    (w.draw (play w p front).looks)
  have attempted := attempts_of_attempt told ho tried
  obtain ⟨plan, left, waits⟩ := h.waits ho before sessions trailed balanced all
  rw [← looks_ready (play w p front) move] at tried
  obtain ⟨quiet, pursues⟩ := pursues_decide target resendable leftover.primary stage asks tried
  have done := leads_told w _ told ho []
  rw [List.append_nil, pursues.split] at done
  have ended : ∀ {value}, (root.slot, some value) ∈
      tape w (history w p (front ++ [move])) (play w p (front ++ [move])) root.client →
      (play w p (front ++ [move])).operations.get? id = none := by
    intro value given
    refine Option.eq_none_iff_forall_ne_some.mpr fun held hk => ?_
    exact here.idle_of_given sessions trailed balanced given id held hk here.stems
  by_cases passes : attempt.passes = true
  · rw [Operation.pursue, if_pos passes] at done
    obtain ⟨r, same, since, done⟩ := steps_of_learns (pursues.learns passes) done
    cases onward_of_elsewhere told ho tidy balanced' same since done with
    | sent resendable request between next sends =>
        obtain ⟨left, kept, split⟩ := next_eq_some next
        obtain ⟨plan, waits, fixes⟩ := waits.planned between
        rw [settings_play] at split
        rw [split] at waits
        exact waits.goes_on attempted (fun none _ => fixes none) passes kept sends
    | exhausted between none quits =>
        obtain ⟨plan, waits, fixes⟩ := waits.planned between
        have spent := next_eq_none none
        rw [settings_play] at spent
        rw [spent] at waits
        have given : (root.slot, some (attempt.reply read.nothing)) ∈
            tape w (history w p (front ++ [move])) (play w p (front ++ [move])) root.client := by
          cases quits.ends with
          | answered target' _ given =>
              cases target.symm.trans target'
              rw [history_concat, play_concat, ← own]
              exact mem_tape_of_fills _ (stays_of_told told)
                ((List.mem_append.mp given).symm.imp_right mem_repliesTo.mp)
          | counted target' => cases target.symm.trans target'
        exact waits.ends attempted (fun none _ => fixes none) trailed (fun _ => rfl) (ended given)
          given
  · rw [Operation.pursue, if_neg passes] at done
    obtain ⟨contiguous, slot⟩ := waits_ready sessions balanced told ho target
    have gave := gave_of_steps done rfl pursues.quiet rfl contiguous slot
    have given := mem_tape_of_gave (history w p front) (stays_of_told told) gave
    rw [← history_concat, ← play_concat, own] at given
    exact waits.ends attempted (fun _ pass => absurd pass passes) trailed
      (fun pass => absurd pass passes) (ended given) given

end Told

end Steps

section Run

variable {w : World} {p : Proxy} {events : List Event} {ms : List Move} {start id : Nat}
  {command : Command} {root : Root} {read : Read} {value : Reply}
  (h : Sought w p events ms start command root id read) (sessions : Sessions w [] p)
  (trailed : Trailed w [] p) (balanced : Balanced p [])

include h sessions trailed balanced

theorem progress_of_sought (settled : Torn [] p) (empty : ∀ server, p.queued server = [])
    (asks : ∀ address, read ≠ .set address .slot) : Progress w p ms root id read := by
  have sought : ∀ {front}, Attended w p events front start command root →
      Sought w p events front start command root id read := fun here => ⟨here, h.plan, h.begun⟩
  refine h.lasts (P := fun front => Progress w p front root id read) ?_ ?_
  · exact progress_of_begun trailed (List.length_take_of_le h.lt.le) (sought h.toAttended.begun)
  · intro front move before here listens kept
    have before := sought before
    have here := sought here
    cases tells : move.tells? (play w p front) id with
    | none => exact kept.silent trailed sessions before listens tells
    | some news =>
        obtain ⟨told, operation, ho⟩ := tells?_eq_some_iff.mp tells
        cases (before.reads trailed ho).2.2 with
        | cache _ unsent => exact progress_of_lookUp told ho trailed empty here kept unsent
        | store stage resendable all leftover =>
            exact progress_of_attempt told ho kept before here sessions trailed balanced settled
              asks stage resendable all leftover

theorem Progress.scanned (progress : Progress w p ms root id read)
    (sent : sendings w (history w p ms) id ≠ []) : ∃ first rest plan,
      sendings w (history w p ms) id = first :: rest ∧
      Pursued (Fixes w (history w p ms) p.settings first) read.nothing first rest plan
        (attempts w (history w p ms) id read) ∧
      ∀ value, (root.slot, some value) ∈ tape w (history w p ms) (play w p ms) root.client ↔
        scan read.nothing plan ((attempts w (history w p ms) id read).map Prod.snd) =
          .replied value := by
  cases progress with
  | unsent unsent => exact absurd unsent sent
  | waiting waits ho =>
      refine ⟨_, _, _, waits.sent, waits.pursued, fun value => iff_of_false ?_ ?_⟩
      · intro given
        exact h.idle_of_given sessions trailed balanced given id _ ho h.stems
      · rw [waits.scanned]
        exact nofun
  | replied all pursued replies given =>
      refine ⟨_, _, _, all, pursued, fun value => ?_⟩
      rw [replies, Scan.replied.injEq]
      constructor
      · intro given'
        have nodup : ((tape w (history w p ms) (play w p ms) root.client).map Prod.fst).Nodup := by
          rw [(sessions.play ms).keys]
          exact List.nodup_range
        cases List.inj_on_of_nodup_map nodup given given' rfl
        rfl
      · rintro rfl
        exact given

end Run

structure Scanned (w : World) (p : Proxy) (events : List Event) : Prop
    extends Unrolled w p events where
  replies : ∀ ms, ms <+: course w p events → ∀ client slot start command read id,
    (session w client (history w p ms)).asked[slot]? = some start →
    ms[start]? = some (.request client (.ok command)) → command.Seeks read →
    Stems w (history w p ms) start id → sendings w (history w p ms) id ≠ [] →
    ∃ first rest plan, sendings w (history w p ms) id = first :: rest ∧
      Picked w (history w p ms) first.time read.address.raw first.server ∧
      Pursued (Fixes w (history w p ms) p.settings first) read.nothing first rest plan
        (attempts w (history w p ms) id read) ∧
      ∀ value, (slot, some value) ∈ tape w (history w p ms) (play w p ms) client ↔
        scan read.nothing plan ((attempts w (history w p ms) id read).map Prod.snd) =
          .replied value
  absent : ∀ draw address siblings vclock,
    (Read.value address).settle draw (.found siblings vclock) = .absent ↔
      Store.Sibling.live siblings = []
  unknown : ∀ code payload kind, Store.Code.ofByte? code = none → ∃ response,
    Store.Response.decode code payload kind = .ok response ∧
      ∀ draw (read : Read) server, ∃ error,
        read.attempt? draw (.response server response) = some (.final error)

theorem scanned_run (w : World) (settings : Settings) (policy : BucketPolicy)
    (events : List Event) : Scanned w (start settings policy) events where
  toUnrolled := unrolled_of_tidy w (Tidy.start settings policy) events
  replies := by
    intro ms run client slot start command read id asked request seeks stems sent
    have sessions := Sessions.start w settings policy
    have trailed := Trailed.start w settings policy
    have balanced := Balanced.start settings policy
    have settled : Torn [] (Proxy.start settings policy) := Settled.start settings policy
    obtain ⟨numbers, here⟩ := attended_of_plan sessions request asked run (plan_of_seeks seeks _)
    obtain ⟨place, ⟨n, operation, early, -, -, -, -, stands, -⟩, stage, asks, trail⟩ :=
      stood_of_sent trailed here.planned stems sent
    have begun : id ∈ numbers := by
      refine stands.begun.resolve_left ?_
      rintro ⟨_, _, _, _, -, plan⟩
      cases plan
    have sought : Sought w (Proxy.start settings policy) events ms start command
        ⟨client, slot, .read read, numbers⟩ id read := ⟨here, rfl, begun⟩
    have progress := progress_of_sought sought sessions trailed balanced settled (fun _ => rfl)
      (ne_slot_of_seeks seeks)
    obtain ⟨first, rest, plan, all, pursued, scanned⟩ :=
      progress.scanned sought sessions trailed balanced sent
    refine ⟨first, rest, plan, all, ?_, pursued, scanned⟩
    rw [all] at trail
    cases trail with
    | read composed tried => exact tried.picked
  absent draw address siblings vclock := by
    rw [← Store.Sibling.pick_eq_none_iff draw, Read.settle]
    cases Store.Sibling.pick draw siblings <;> simp
  unknown code payload kind none := by
    refine ⟨.error s!"unknown message code {code}" 0, by simp only [Store.Response.decode, none],
      fun draw read server => ⟨Reply.error s!"unknown message code {code}", ?_⟩⟩
    simp only [Read.attempt?, Store.Response.classify_unknown]
    exact if_neg Bool.false_ne_true

end Proxy

end ReadThrough
