import ReadThrough.Proofs.Candidates
import ReadThrough.Proofs.Fates

namespace ReadThrough.Store.Response

theorem subset_of_occursIn {α : Type} [BEq α] [LawfulBEq α] {word xs : List α}
    (h : occursIn word xs = true) : word ⊆ xs := by
  induction xs with
  | nil =>
      rw [occursIn, List.isEmpty_iff] at h
      rw [h]
      exact List.nil_subset _
  | cons c rest ih =>
      rw [occursIn, Bool.or_eq_true, List.isPrefixOf_iff_prefix] at h
      rcases h with front | later
      · exact front.subset
      · exact List.subset_cons_of_subset c (ih later)

theorem classify_of_lacks {message : String}
    (lacks : ∀ word ∈ transientWords, ∃ c ∈ word.toList, c ∉ message.toLower.toList) :
    classify message = .storeError message := by
  refine if_neg fun occurs => ?_
  obtain ⟨word, hm, occurs⟩ := List.any_eq_true.mp occurs
  obtain ⟨c, inside, outside⟩ := lacks word hm
  exact outside (subset_of_occursIn occurs inside)

theorem toLower_of_isDigit {c : Char} (h : c.isDigit = true) : c.toLower = c := by
  refine dif_neg ?_
  rintro ⟨upper, -⟩
  simp only [Char.isDigit, ge_iff_le, Bool.and_eq_true, decide_eq_true_eq] at h
  exact absurd (UInt32.le_trans upper h.2) (by decide)

theorem lower_unknown (code : UInt8) :
    (s!"unknown message code {code}").toLower.toList =
      "unknown message code ".toList ++ Nat.toDigits 10 code.toNat := by
  have digits : (Nat.toDigits 10 code.toNat).map Char.toLower = Nat.toDigits 10 code.toNat := by
    refine (List.map_congr_left fun c hm => ?_).trans (List.map_id _)
    exact toLower_of_isDigit (Nat.isDigit_of_mem_toDigits (by decide) (by decide) hm)
  change (String.map Char.toLower ("unknown message code " ++ code.toNat.repr)).toList = _
  rw [String.toList_map, String.toList_append, Nat.toList_repr, List.map_append, digits]
  rfl

theorem classify_unknown (code : UInt8) :
    classify s!"unknown message code {code}" = .storeError s!"unknown message code {code}" := by
  refine classify_of_lacks ?_
  rw [lower_unknown]
  have digit : ∀ c : Char, c ∈ Nat.toDigits 10 code.toNat → c.isDigit = true := fun c =>
    Nat.isDigit_of_mem_toDigits (by decide) (by decide)
  have lacks : ∀ c : Char, c.isDigit = false → c ∉ "unknown message code ".toList →
      c ∉ "unknown message code ".toList ++ Nat.toDigits 10 code.toNat := by
    intro c other outside hm
    rcases List.mem_append.mp hm with inside | inside
    · exact outside inside
    · rw [digit c inside] at other
      cases other
  have t := lacks 't' (by decide) (by decide)
  have l := lacks 'l' (by decide) (by decide)
  simp only [transientWords, List.forall_mem_cons]
  exact ⟨⟨'t', by decide, t⟩, ⟨'l', by decide, l⟩, ⟨'t', by decide, t⟩, ⟨'l', by decide, l⟩,
    List.forall_mem_nil _⟩

end ReadThrough.Store.Response

namespace ReadThrough.Proxy

inductive Attempt where
  | found (answer : Reply)
  | absent
  | transient (error : Reply)
  | final (error : Reply)

namespace Attempt

def passes : Attempt → Bool
  | .absent | .transient _ => true
  | .found _ | .final _ => false

def reply (nothing : Reply) : Attempt → Reply
  | .found answer => answer
  | .absent => nothing
  | .transient error | .final error => error

end Attempt

inductive Scan where
  | waiting (left : List Nat)
  | replied (value : Reply)

def scan (nothing : Reply) : List Nat → List Attempt → Scan
  | left, [] => .waiting left
  | _, .found answer :: _ => .replied answer
  | _, .final error :: _ => .replied error
  | [], .absent :: _ => .replied nothing
  | [], .transient error :: _ => .replied error
  | _ :: left, .absent :: later | _ :: left, .transient _ :: later => scan nothing left later

section Scan

variable {nothing : Reply} {plan left : List Nat} {attempt : Attempt} {attempts : List Attempt}
  {server : Nat}

@[simp] theorem scan_nil (left : List Nat) : scan nothing left [] = .waiting left := by
  simp only [scan]

theorem scan_of_passes (passes : attempt.passes = true) (later : List Attempt) :
    scan nothing (server :: left) (attempt :: later) = scan nothing left later := by
  cases attempt with
  | absent | transient => simp only [scan]
  | found | final => cases passes

theorem scan_of_last (last : attempt.passes = true → left = []) (later : List Attempt) :
    scan nothing left (attempt :: later) = .replied (attempt.reply nothing) := by
  cases attempt with
  | absent | transient =>
      obtain rfl := last rfl
      simp only [scan, Attempt.reply]
  | found | final => simp only [scan, Attempt.reply]

theorem scan_append (waits : scan nothing plan attempts = .waiting left) (later : List Attempt) :
    scan nothing plan (attempts ++ later) = scan nothing left later := by
  induction attempts generalizing plan with
  | nil =>
      rw [scan_nil] at waits
      cases waits
      rw [List.nil_append]
  | cons attempt attempts ih =>
      rw [List.cons_append]
      by_cases last : attempt.passes = true → plan = []
      · rw [scan_of_last last] at waits
        cases waits
      · obtain ⟨passes, some⟩ := Classical.not_imp.mp last
        obtain ⟨server, plan, rfl⟩ := List.exists_cons_of_ne_nil some
        rw [scan_of_passes passes] at waits ⊢
        exact ih waits

end Scan

/-- How a read is pursued. Whenever an attempt passes, the read is sent on to the next server of the
plan, which the first such attempt fixes; another attempt is the last. -/
structure Pursued (fixes : Nat → List Nat → Prop) (nothing : Reply) (first : Sending)
    (rest : List Sending) (plan : List Nat) (tried : List (Nat × Attempt)) : Prop where
  fixed : ∀ time attempt, tried.head? = some (time, attempt) →
    first.time < time ∧ (attempt.passes = true → fixes time plan)
  waiting : ∀ left, scan nothing plan (tried.map Prod.snd) = .waiting left →
    rest.map (·.time) = tried.map Prod.fst ∧ rest.map (·.server) ++ left = plan
  replied : ∀ value, scan nothing plan (tried.map Prod.snd) = .replied value →
    ∃ last, tried.map Prod.fst = rest.map (·.time) ++ [last] ∧ rest.map (·.server) <+: plan

namespace Pursued

variable {fixes fixes' : Nat → List Nat → Prop} {nothing : Reply} {first : Sending}
  {rest : List Sending} {plan left : List Nat} {tried : List (Nat × Attempt)} {time server : Nat}
  {attempt : Attempt}

theorem begin (plan : List Nat) : Pursued fixes nothing first [] plan [] where
  fixed _ _ head := by cases head
  waiting left waits := by
    rw [List.map_nil, scan_nil] at waits
    cases waits
    exact ⟨rfl, rfl⟩
  replied _ replies := by
    rw [List.map_nil, scan_nil] at replies
    cases replies

theorem mono (h : Pursued fixes nothing first rest plan tried)
    (imp : ∀ time plan, fixes time plan → fixes' time plan) :
    Pursued fixes' nothing first rest plan tried where
  fixed time attempt head := (h.fixed time attempt head).imp_right fun fixed passes =>
    imp _ _ (fixed passes)
  waiting := h.waiting
  replied := h.replied

theorem planned (h : Pursued fixes nothing first rest plan tried)
    (waits : scan nothing plan (tried.map Prod.snd) = .waiting left) (other : List Nat) :
    ∃ plan left', Pursued fixes nothing first rest plan tried ∧
      scan nothing plan (tried.map Prod.snd) = .waiting left' ∧ (tried = [] → plan = other) ∧
      left' = (if tried = [] then none else some left).getD other := by
  cases tried with
  | nil =>
      obtain ⟨none, -⟩ := h.waiting left waits
      obtain rfl := List.map_eq_nil_iff.mp none
      exact ⟨other, other, begin other, scan_nil other, fun _ => rfl, rfl⟩
  | cons attempt later => exact ⟨plan, left, h, waits, nofun, rfl⟩

section Tries

variable (h : Pursued fixes nothing first rest plan tried)
  (fixed : tried = [] → first.time < time ∧ (attempt.passes = true → fixes time plan))

include h fixed

theorem fixed_concat : ∀ time' attempt',
    (tried ++ [(time, attempt)]).head? = some (time', attempt') →
    first.time < time' ∧ (attempt'.passes = true → fixes time' plan) := by
  intro time' attempt' head
  cases tried with
  | nil =>
      cases head
      exact fixed rfl
  | cons attempt later => exact h.fixed time' attempt' head

theorem again (waits : scan nothing plan (tried.map Prod.snd) = .waiting (server :: left))
    (passes : attempt.passes = true) (request : Store.Request) :
    Pursued fixes nothing first (rest ++ [⟨time, server, request⟩]) plan
        (tried ++ [(time, attempt)]) ∧
      scan nothing plan ((tried ++ [(time, attempt)]).map Prod.snd) = .waiting left := by
  have goes : scan nothing plan ((tried ++ [(time, attempt)]).map Prod.snd) = .waiting left := by
    rw [List.map_append, scan_append waits, ← scan_nil left]
    exact scan_of_passes passes []
  obtain ⟨times, servers⟩ := h.waiting _ waits
  refine ⟨⟨h.fixed_concat fixed, ?_, ?_⟩, goes⟩
  · intro left' waits'
    cases goes.symm.trans waits'
    refine ⟨by rw [List.map_append, List.map_append, times]; rfl, ?_⟩
    rw [List.map_append, List.append_assoc]
    exact servers
  · intro value replies
    cases goes.symm.trans replies

theorem ends (waits : scan nothing plan (tried.map Prod.snd) = .waiting left)
    (last : attempt.passes = true → left = []) :
    Pursued fixes nothing first rest plan (tried ++ [(time, attempt)]) ∧
      scan nothing plan ((tried ++ [(time, attempt)]).map Prod.snd) =
        .replied (attempt.reply nothing) := by
  have done : scan nothing plan ((tried ++ [(time, attempt)]).map Prod.snd) =
      .replied (attempt.reply nothing) := by
    rw [List.map_append, scan_append waits]
    exact scan_of_last last []
  obtain ⟨times, servers⟩ := h.waiting _ waits
  refine ⟨⟨h.fixed_concat fixed, ?_, ?_⟩, done⟩
  · intro left' waits'
    cases done.symm.trans waits'
  · intro _ _
    exact ⟨time, by rw [List.map_append, times]; rfl, ⟨left, servers⟩⟩

end Tries

end Pursued

def Read.settle (draw : Nat) : Read → Store.Response → Attempt
  | .value _, .found siblings _ =>
      match Store.Sibling.pick draw siblings with
      | some sibling => .found (Reply.bulk (Store.stripQuotes sibling.value))
      | none => .absent
  | .set _ (.query _), .set [] _ => .absent
  | .set _ (.query query), .set members _ => .found (query.answer members)
  | .set _ .slot, .set members _ => .found (Reply.members members)
  | .value _, _ => .final (Reply.error "unexpected response to a get")
  | .set .., _ => .final (Reply.error "unexpected response to a set fetch")

def Read.attempt? (draw : Nat) (read : Read) : News → Option Attempt
  | .value _ | .missed => none
  | .failed why => some (.final (Reply.failure why))
  | .lost server reason => some (.transient (Reply.failure (.serverLost server reason)))
  | .response server (.error message _) =>
      if (Store.Response.classify message).kind.isRetryable then
        some (.transient (Reply.failure (.serverLost server message)))
      else some (.final (Reply.error message))
  | .response _ response => some (read.settle draw response)

def Move.tells? (p : Proxy) (move : Move) (id : Nat) : Option News :=
  match move.news? p with
  | some (k, news) => if k = id ∧ (p.operations.get? id).isSome then some news else none
  | none => none

def attempts (w : World) (past : History) (id : Nat) (read : Read) : List (Nat × Attempt) :=
  past.zipIdx.filterMap fun made => (made.1.2.tells? made.1.1 id).bind fun news =>
    (read.attempt? (w.draw made.1.1.looks) news).map (made.2, ·)

section Attempts

variable {w : World} {past : History} {p : Proxy} {move : Move} {id time : Nat} {read : Read}
  {news : News} {attempt : Attempt}

theorem tells?_eq_some_iff : move.tells? p id = some news ↔
    move.news? p = some (id, news) ∧ ∃ operation, p.operations.get? id = some operation := by
  unfold Move.tells?
  cases move.news? p with
  | none => simp
  | some heard =>
      obtain ⟨k, news'⟩ := heard
      simp only [Option.ite_none_right_eq_some, Option.some.injEq, Option.isSome_iff_exists,
        Prod.mk.injEq]
      tauto

theorem subject?_ne_of_silent {operation : Operation} (silent : move.tells? p id = none)
    (ho : p.operations.get? id = some operation) : move.subject? p ≠ some id := by
  intro subject
  obtain ⟨news, told⟩ := news?_of_subject? subject
  cases silent.symm.trans (tells?_eq_some_iff.mpr ⟨told, operation, ho⟩)

theorem attempts_concat : attempts w (past ++ [(p, move)]) id read = attempts w past id read ++
    ((move.tells? p id).bind fun news =>
      (read.attempt? (w.draw p.looks) news).map (past.length, ·)).toList := by
  rw [attempts, List.zipIdx_append, List.filterMap_append, Nat.zero_add, List.zipIdx_singleton,
    List.filterMap_cons, List.filterMap_nil]
  cases (move.tells? p id).bind _ <;> rfl

theorem attempts_of_silent (silent : move.tells? p id = none) :
    attempts w (past ++ [(p, move)]) id read = attempts w past id read := by
  rw [attempts_concat, silent]
  exact List.append_nil _

theorem attempts_of_told (told : move.tells? p id = some news) :
    attempts w (past ++ [(p, move)]) id read = attempts w past id read ++
      ((read.attempt? (w.draw p.looks) news).map (past.length, ·)).toList := by
  rw [attempts_concat, told]
  rfl

theorem told_of_mem_attempts (h : (time, attempt) ∈ attempts w past id read) :
    ∃ news, Told past time id news := by
  obtain ⟨⟨⟨p, move⟩, t⟩, hm, made⟩ := List.mem_filterMap.mp h
  obtain ⟨news, tells, made⟩ := Option.bind_eq_some_iff.mp made
  obtain ⟨_, -, same⟩ := Option.map_eq_some_iff.mp made
  cases same
  obtain ⟨told, operation, ho⟩ := tells?_eq_some_iff.mp tells
  exact ⟨news, p, move, operation, List.mem_zipIdx_iff_getElem?.mp hm, told, ho⟩

end Attempts

section Decide

variable {w : World} {q : Proxy} {id server slot : Nat} {read : Read} {operation : Operation}
  {news : News} {attempt : Attempt}

def Operation.pursue (operation : Operation) (id slot server : Nat) (nothing : Reply)
    (attempt : Attempt) : Task :=
  if attempt.passes then .elsewhere id operation server (attempt.reply nothing)
  else .reply operation.client slot (attempt.reply nothing)

structure Operation.Pursues (operation : Operation) (id slot server : Nat) (nothing : Reply)
    (attempt : Attempt) (before tasks : List Task) : Prop where
  split : tasks = before ++ [operation.pursue id slot server nothing attempt]
  quiet : ∀ task ∈ before, task.Quiet
  learns : attempt.passes = true → ∀ task ∈ before, ∃ address vclock, task = .learn address vclock

theorem pursues_alone {nothing : Reply} {tasks : List Task}
    (h : tasks = [operation.pursue id slot server nothing attempt]) :
    operation.Pursues id slot server nothing attempt [] tasks :=
  ⟨h, List.forall_mem_nil _, fun _ => List.forall_mem_nil _⟩

section Target

variable (target : operation.target = .client slot)

include target

theorem conclude_client (value : Reply) :
    operation.conclude value = .reply operation.client slot value := by
  rw [Operation.conclude, target]

theorem deliver_client (query : SetQuery) (members : List Bytes) :
    operation.deliver (.query query) members =
      .reply operation.client slot (query.answer members) := by
  rw [Operation.deliver, conclude_client target]

variable (resendable : operation.isResendable = true) (primary : operation.primary = some server)

include resendable primary

theorem pursues_onValueRead (address : Address) (response : Store.Response) :
    ∃ before, operation.Pursues id slot server Reply.nil
      ((Read.value address).settle (w.draw q.looks) response) before
      (operation.onValueRead w q id address response) := by
  cases response with
  | found siblings vclock =>
      have learns : ∀ task ∈ [Task.learn address vclock], task.Quiet :=
        List.forall_mem_singleton.mpr trivial
      cases picked : Store.Sibling.pick (w.draw q.looks) siblings with
      | some sibling =>
          refine ⟨[.learn address vclock, .copy address.raw (Cache.populateValue address.raw
            (Store.stripQuotes sibling.value) (q.ttl address))], ?_, ?_, ?_⟩
          · simp only [Operation.onValueRead, Store.Outcome.ofSiblings, Read.settle, picked,
              conclude_client target]
            rfl
          · exact List.forall_mem_cons.mpr ⟨trivial, List.forall_mem_singleton.mpr trivial⟩
          · simp only [Read.settle, picked, Attempt.passes, Bool.false_eq_true, false_implies]
      | none =>
          refine ⟨[.learn address vclock], ?_, learns, fun _ => ?_⟩
          · simp only [Operation.onValueRead, Store.Outcome.ofSiblings, Read.settle, picked,
              Operation.retry, resendable, primary, if_true]
            rfl
          · exact List.forall_mem_singleton.mpr ⟨_, _, rfl⟩
  | _ => exact ⟨[], pursues_alone (congrArg (fun task => [task]) (conclude_client target _))⟩

theorem pursues_onSetRead (address : Address) (query : SetQuery) (response : Store.Response) :
    ∃ before, operation.Pursues id slot server (query.answer [])
      ((Read.set address (.query query)).settle (w.draw q.looks) response) before
      (operation.onSetRead q id address (.query query) response) := by
  cases response with
  | set members context =>
      cases members with
      | nil =>
          refine ⟨[], pursues_alone ?_⟩
          simp only [Operation.onSetRead, Operation.retry, resendable, primary, if_true]
          rfl
      | cons member members =>
          refine ⟨copies address.raw
            (Cache.populateSet address.raw (member :: members) (q.ttl address)), ?_, ?_, ?_⟩
          · simp only [Operation.onSetRead, deliver_client target]
            rfl
          · intro task hm
            obtain ⟨command, -, rfl⟩ := List.mem_map.mp hm
            trivial
          · simp only [Read.settle, Attempt.passes, Bool.false_eq_true, false_implies]
  | _ => exact ⟨[], pursues_alone (congrArg (fun task => [task]) (conclude_client target _))⟩

theorem pursues_decide (stage : operation.stage = .storeRead read)
    (asks : ∀ address, read ≠ .set address .slot)
    (tried : read.attempt? (w.draw q.looks) news = some attempt) :
    ∃ before, operation.Pursues id slot server read.nothing attempt before
      (operation.decide w q id news) := by
  cases news with
  | value | missed => cases tried
  | failed why =>
      cases tried
      exact ⟨[], pursues_alone (congrArg (fun task => [task]) (conclude_client target _))⟩
  | lost lost reason =>
      cases tried
      refine ⟨[], pursues_alone ?_⟩
      simp only [Operation.decide, Operation.retry, resendable, primary, Option.getD_some, if_true]
      rfl
  | response answering response =>
      cases response with
      | error message code =>
          refine ⟨[], pursues_alone ?_⟩
          simp only [Read.attempt?] at tried
          simp only [Operation.decide, Operation.onResponse, resendable, Bool.and_true, primary,
            Option.getD_some]
          split at tried
          · next retryable =>
              cases tried
              rw [if_pos retryable]
              rfl
          · next settled =>
              cases tried
              rw [if_neg settled, conclude_client target]
              rfl
      | found | putAck | deleteAck | set | counter | updateAck =>
          cases tried
          simp only [Operation.decide, Operation.onResponse, stage]
          cases read with
          | value address => exact pursues_onValueRead target resendable primary address _
          | set address sought =>
              cases sought with
              | slot => exact absurd rfl (asks address)
              | query query => exact pursues_onSetRead target resendable primary address query _

end Target

theorem steps_of_learns {before : List Task} {task : Task} {p r : Proxy}
    (learns : ∀ task ∈ before, ∃ address vclock, task = .learn address vclock)
    (done : Steps w (p, before ++ [task]) (r, [])) :
    ∃ q, Alike p q ∧ p.looks ≤ q.looks ∧ Steps w (q, [task]) (r, []) := by
  induction before generalizing p with
  | nil => exact ⟨p, (Still.refl p).toAlike, Nat.le_refl _, done⟩
  | cons first before ih =>
      obtain ⟨⟨address, vclock, rfl⟩, others⟩ := List.forall_mem_cons.mp learns
      obtain ⟨s, s', more, still, does, later⟩ := steps_cons done
      have looks := still.looks.trans (Frame.does does).looks
      cases does with
      | learn =>
          obtain ⟨q, same, since, done⟩ := ih others later
          refine ⟨q, ?_, looks.trans since, done⟩
          exact still.toAlike.trans ((Alike.rememberVclock s address vclock).trans same)

end Decide

end ReadThrough.Proxy
