import ReadThrough.Proofs.Belongs

namespace ReadThrough.Proxy

structure Apart (p : Proxy) (tasks : List Task) : Prop where
  lt : ∀ {id}, id ∈ numbers tasks → id < p.nextOperation
  nodup : (numbers tasks).Nodup
  table : ∀ {id operation}, p.operations.get? id = some operation → id < p.nextOperation
  apart : ∀ {id}, id ∈ numbers tasks → p.operations.get? id = none

def newly (past : History) (actions : List Action) (id : Nat) : List Sending :=
  actions.filterMap (Action.sending? past.length id)

def soFar (w : World) (past : History) (actions : List Action) (id : Nat) : List Sending :=
  sendings w past id ++ newly past actions id

/-- Within the last move: what has been done of it, and what the tasks still left will add. -/
structure Underway (w : World) (past : History) (move : Proxy × Move) (start : Nat) (root : Root)
    (mine : Nat → Prop) (origin p : Proxy) (actions : List Action) (tasks : List Task) :
    Prop where
  apart : Apart p tasks
  own : ∀ {id}, id ∈ numbers tasks → mine id
  frame : Frame origin p
  outbox : p.outbox = origin.outbox ++ actions
  fresh : ∀ {id}, p.nextOperation ≤ id → soFar w past actions id = []
  belongs : ∀ task ∈ tasks, task.Belongs w past move start root p (soFar w past actions)
  made : ∀ {id}, newly past actions id ≠ [] → ∃ operation, p.operations.get? id = some operation
  table : ∀ {id operation}, p.operations.get? id = some operation →
    (origin.operations.get? id = some operation ∧ newly past actions id = []) ∨
      (mine id ∧ Stands w (past ++ [move]) start root p id operation (soFar w past actions id))

section Numbers

variable {w : World} {past : History} {p : Proxy} {tasks rest more : List Task} {task : Task}
  {actions added : List Action} {id : Nat}

theorem newly_append : newly past (actions ++ added) id =
    newly past actions id ++ newly past added id :=
  List.filterMap_append

theorem soFar_append : soFar w past (actions ++ added) id =
    soFar w past actions id ++ newly past added id := by
  rw [soFar, newly_append, soFar, List.append_assoc]

theorem mem_numbers_cons : id ∈ numbers (task :: rest) ↔
    task.number? = some id ∨ id ∈ numbers rest := by
  rw [numbers_cons, List.mem_append, Option.mem_toList]

theorem mem_numbers_append : id ∈ numbers (more ++ rest) ↔
    id ∈ numbers more ∨ id ∈ numbers rest := by
  rw [numbers_append, List.mem_append]

theorem Apart.number_notMem (h : Apart p (task :: rest)) (number : task.number? = some id) :
    id ∉ numbers rest := by
  have nodup := h.nodup
  rw [numbers_cons, number] at nodup
  exact (List.nodup_cons.mp nodup).1

theorem Apart.tail (h : Apart p (task :: rest)) : Apart p rest where
  lt hm := h.lt (mem_numbers_cons.mpr (Or.inr hm))
  nodup := by
    have less : (numbers rest).Sublist (numbers (task :: rest)) :=
      (List.sublist_cons_self task rest).filterMap _
    exact less.nodup h.nodup
  table := h.table
  apart hm := h.apart (mem_numbers_cons.mpr (Or.inr hm))

def Takes (p q : Proxy) (task : Task) (id : Nat) : Prop :=
  task.number? = some id ∨ (p.nextOperation ≤ id ∧ id < q.nextOperation)

namespace Apart

variable {q : Proxy} (h : Apart p (task :: rest)) (takes : Takes p q task id)

include h takes

theorem lt_of_takes (le : p.nextOperation ≤ q.nextOperation) : id < q.nextOperation := by
  rcases takes with own | ⟨-, lt⟩
  · exact Nat.lt_of_lt_of_le (h.lt (mem_numbers_cons.mpr (Or.inl own))) le
  · exact lt

theorem notMem_of_takes : id ∉ numbers rest := by
  rcases takes with own | ⟨le, -⟩
  · exact h.number_notMem own
  · exact fun hm => absurd (h.tail.lt hm) (Nat.not_lt.mpr le)

theorem get?_of_takes : p.operations.get? id = none := by
  rcases takes with own | ⟨le, -⟩
  · exact h.apart (mem_numbers_cons.mpr (Or.inl own))
  · exact Option.eq_none_iff_forall_ne_some.mpr fun operation ho =>
      absurd (h.table ho) (Nat.not_lt.mpr le)

end Apart

theorem Apart.turn {q : Proxy} (h : Apart p (task :: rest))
    (le : p.nextOperation ≤ q.nextOperation) (operations : q.operations = p.operations)
    (nodup : (numbers more).Nodup) (takes : ∀ id ∈ numbers more, Takes p q task id) :
    Apart q (more ++ rest) where
  lt hm := by
    rcases mem_numbers_append.mp hm with hm | hm
    · exact h.lt_of_takes (takes _ hm) le
    · exact Nat.lt_of_lt_of_le (h.tail.lt hm) le
  nodup := by
    rw [numbers_append]
    refine List.nodup_append.mpr ⟨nodup, h.tail.nodup, ?_⟩
    rintro id hm other ho rfl
    exact h.notMem_of_takes (takes id hm) ho
  table ho := Nat.lt_of_lt_of_le (h.table (operations ▸ ho)) le
  apart hm := by
    rw [operations]
    rcases mem_numbers_append.mp hm with hm | hm
    · exact h.get?_of_takes (takes _ hm)
    · exact h.tail.apart hm

theorem Apart.settle {q : Proxy} {operation : Operation} (h : Apart p (task :: rest))
    (le : p.nextOperation ≤ q.nextOperation)
    (operations : q.operations = p.operations.insert id operation)
    (takes : Takes p q task id) : Apart q rest where
  lt hm := Nat.lt_of_lt_of_le (h.tail.lt hm) le
  nodup := h.tail.nodup
  table ho := by
    rw [operations] at ho
    rcases Table.get?_insert_eq_some_iff.mp ho with ⟨rfl, -⟩ | ⟨-, ho⟩
    · exact h.lt_of_takes takes le
    · exact Nat.lt_of_lt_of_le (h.table ho) le
  apart hm := by
    have ne : _ ≠ id := fun same => h.notMem_of_takes takes (same ▸ hm)
    rw [operations, Table.get?_insert_of_ne _ _ ne]
    exact h.tail.apart hm

end Numbers

namespace Underway

variable {w : World} {past : History} {move : Proxy × Move} {start : Nat} {root : Root}
  {mine : Nat → Prop} {origin p q : Proxy} {actions silent added : List Action} {task : Task}
  {rest more : List Task}

theorem mine_of_takes (h : Underway w past move start root mine origin p actions (task :: rest))
    (newer : ∀ id, origin.nextOperation ≤ id → mine id) {id : Nat} (takes : Takes p q task id) :
    mine id := by
  rcases takes with own | ⟨le, -⟩
  · exact h.own (mem_numbers_cons.mpr (Or.inl own))
  · exact newer id (Nat.le_trans h.frame.nextOperation le)

theorem turn (h : Underway w past move start root mine origin p actions (task :: rest))
    (newer : ∀ id, origin.nextOperation ≤ id → mine id) (frame : Frame p q)
    (operations : q.operations = p.operations) (outbox : q.outbox = p.outbox ++ silent)
    (silence : ∀ id, newly past silent id = []) (nodup : (numbers more).Nodup)
    (takes : ∀ id ∈ numbers more, Takes p q task id)
    (belongs : ∀ t ∈ more, t.Belongs w past move start root q (soFar w past actions)) :
    Underway w past move start root mine origin q (actions ++ silent) (more ++ rest) := by
  have same : soFar w past (actions ++ silent) = soFar w past actions := by
    funext id
    rw [soFar_append, silence, List.append_nil]
  have unsent : ∀ id, newly past (actions ++ silent) id = newly past actions id := by
    intro id
    rw [newly_append, silence, List.append_nil]
  refine ⟨h.apart.turn frame.nextOperation operations nodup takes, ?_, h.frame.trans frame,
    ?_, ?_, ?_, ?_, ?_⟩
  · intro id hm
    rcases mem_numbers_append.mp hm with hm | hm
    · exact h.mine_of_takes newer (takes id hm)
    · exact h.own (mem_numbers_cons.mpr (Or.inr hm))
  · rw [outbox, h.outbox, List.append_assoc]
  · intro id le
    rw [same]
    exact h.fresh (Nat.le_trans frame.nextOperation le)
  · intro t ht
    rw [same]
    rcases List.mem_append.mp ht with ht | ht
    · exact belongs t ht
    · exact (h.belongs t (List.mem_cons_of_mem _ ht)).mono frame fun _ _ => rfl
  · intro id sent
    rw [unsent] at sent
    rw [operations]
    exact h.made sent
  · intro id operation ho
    rw [operations] at ho
    rw [unsent, same]
    exact (h.table ho).imp_right (And.imp_right fun stands => stands.mono frame)

theorem settle (h : Underway w past move start root mine origin p actions (task :: rest))
    (newer : ∀ id, origin.nextOperation ≤ id → mine id) (frame : Frame p q) {id : Nat}
    {operation : Operation} (operations : q.operations = p.operations.insert id operation)
    (outbox : q.outbox = p.outbox ++ added)
    (others : ∀ k, k ≠ id → newly past added k = []) (takes : Takes p q task id)
    (stands : Stands w (past ++ [move]) start root q id operation
      (soFar w past actions id ++ newly past added id)) :
    Underway w past move start root mine origin q (actions ++ added) rest := by
  have same : ∀ k, k ≠ id → soFar w past (actions ++ added) k = soFar w past actions k := by
    intro k ne
    rw [soFar_append, others k ne, List.append_nil]
  have unsent : ∀ k, k ≠ id → newly past (actions ++ added) k = newly past actions k := by
    intro k ne
    rw [newly_append, others k ne, List.append_nil]
  rw [← soFar_append] at stands
  refine ⟨h.apart.settle frame.nextOperation operations takes,
    fun hm => h.own (mem_numbers_cons.mpr (Or.inr hm)), h.frame.trans frame, ?_, ?_, ?_, ?_, ?_⟩
  · rw [outbox, h.outbox, List.append_assoc]
  · intro k le
    have ne : k ≠ id := by
      rintro rfl
      exact Nat.not_lt.mpr le (h.apart.lt_of_takes takes frame.nextOperation)
    rw [same k ne]
    exact h.fresh (Nat.le_trans frame.nextOperation le)
  · intro t ht
    refine (h.belongs t (List.mem_cons_of_mem _ ht)).mono frame ?_
    intro k hk
    refine same k ?_
    rintro rfl
    exact h.apart.notMem_of_takes takes (List.mem_filterMap.mpr ⟨t, ht, hk⟩)
  · intro k sent
    rw [operations, Table.get?_insert]
    split
    · exact ⟨operation, rfl⟩
    · next ne =>
        rw [unsent k ne] at sent
        exact h.made sent
  · intro k o ho
    rw [operations] at ho
    rcases Table.get?_insert_eq_some_iff.mp ho with ⟨rfl, rfl⟩ | ⟨ne, ho⟩
    · exact Or.inr ⟨h.mine_of_takes newer takes, stands⟩
    · rw [unsent k ne, same k ne]
      exact (h.table ho).imp_right (And.imp_right fun stands => stands.mono frame)

end Underway

theorem newly_store (past : History) (server id : Nat) (request : Store.Request) :
    newly past [.store server id request] id = [⟨past.length, server, request⟩] := by
  simp [newly, Action.sending?]

theorem newly_store_of_ne (past : History) (server : Nat) {id k : Nat} (request : Store.Request)
    (ne : k ≠ id) : newly past [.store server id request] k = [] := by
  simp [newly, Action.sending?, Ne.symm ne]

theorem newly_replies (past : History) (client id : Nat) (filled : List (Nat × Reply)) :
    newly past (filled.map fun s => .reply client s.1 s.2) id = [] := by
  simp [newly, List.filterMap_map, Action.sending?]

theorem number?_completion (settings : Settings) (group : Fragment.Group GroupContext) :
    (completion settings group).number? = none := by
  unfold completion
  split
  · rfl
  · split
    · rfl
    · split
      · rfl
      · split <;> rfl

theorem numbers_closing (settings : Settings)
    (done : Option (Fragment.Group GroupContext)) : numbers (closing settings done) = [] := by
  cases done with
  | none => rfl
  | some group => simp [numbers, closing, number?_completion]

theorem numbers_deletions (client group : Nat) (stored : List (Address × Store.Request)) :
    numbers (deletions client group stored) = [] := by
  simp [numbers, deletions, List.filterMap_map, Function.comp_def]

theorem numbers_lookUps (client group : Nat) (sources : List Address) :
    numbers (lookUps client group sources) = [] := by
  simp [numbers, lookUps, List.filterMap_map, Function.comp_def, Task.number?]

section Decide

variable (operation : Operation) (w : World) (p : Proxy) (id : Nat)

theorem number?_retry (primary : Option Nat) (value : Reply) :
    (operation.retry id primary value).number? = none ∨
      (operation.retry id primary value).number? = some id := by
  unfold Operation.retry
  split
  · split
    · exact Or.inr rfl
    · exact Or.inl (operation.number?_conclude value)
  · exact Or.inl (operation.number?_conclude value)

theorem numbers_retry (primary : Option Nat) (value : Reply) :
    (numbers [operation.retry id primary value]).Sublist [id] := by
  rcases number?_retry operation id primary value with h | h <;> simp [h]

theorem numbers_onValue (value : Resp.Value) :
    (numbers (operation.onValue id value)).Sublist [id] := by
  fun_cases Operation.onValue <;> simp

theorem numbers_onMiss (settings : Settings) :
    (numbers (operation.onMiss settings id)).Sublist [id] := by
  fun_cases Operation.onMiss <;> simp

theorem numbers_onValueRead (address : Address) (response : Store.Response) :
    (numbers (operation.onValueRead w p id address response)).Sublist [id] := by
  unfold Operation.onValueRead
  split
  · split
    · simp
    · exact numbers_retry operation id _ _
  · simp

theorem numbers_onSetRead (address : Address) (read : SetRead) (response : Store.Response) :
    (numbers (operation.onSetRead p id address read response)).Sublist [id] := by
  fun_cases Operation.onSetRead with
  | case1 context query => exact numbers_retry operation id _ _
  | case2 | case3 => simp

theorem numbers_onWritten (write : Write) (response : Store.Response) :
    numbers (operation.onWritten p write response) = [] := by
  unfold Operation.onWritten
  split
  · simp
  · simp
  · simp
  · cases operation.target <;> simp
  · simp [Operation.replaced]
  · simp

theorem numbers_onResponse (server : Nat) (response : Store.Response) :
    (numbers (operation.onResponse w p id server response)).Sublist [id] := by
  fun_cases Operation.onResponse with
  | case1 | case2 | case8 => simp
  | case3 => exact numbers_onValueRead operation w p id _ _
  | case4 => exact numbers_onSetRead operation p id _ _ _
  | case5 => fun_cases Operation.onVclock <;> simp
  | case6 => fun_cases Operation.onFetched <;> simp [Operation.replaced]
  | case7 => rw [numbers_onWritten]; exact List.nil_sublist _

theorem numbers_decide (news : News) :
    (numbers (operation.decide w p id news)).Sublist [id] := by
  cases news with
  | value value => exact numbers_onValue operation id value
  | missed => exact numbers_onMiss operation id p.settings
  | failed why => simp [Operation.decide]
  | lost server reason => exact numbers_retry operation id _ _
  | response server response => exact numbers_onResponse operation w p id server response

end Decide

section Again

variable {w : World} {past : History} {move : Proxy × Move} {start id look : Nat} {root : Root}
  {p q : Proxy} {operation : Operation} {sent : Nat → List Sending}

theorem next_eq_some {resend resend' : Pool.Resend} {live : List Nat} {primary budget server : Nat}
    (h : resend.next live primary budget = (some server, resend')) :
    ∃ servers, resend'.servers = some servers ∧
      resend.servers.getD (Pool.Resend.plan live primary budget) = server :: servers := by
  unfold Pool.Resend.next at h
  split at h
  · cases h
  · next server' servers split =>
      cases h
      exact ⟨servers, rfl, split⟩

theorem looked_now (ge : move.1.looks ≤ look) (lt : look < (move.2.apply w move.1).looks) :
    Looked w (past ++ [move]) past.length look :=
  ⟨move.1, move.2, by simp, ge, lt⟩

theorem Resent.again {first : Sending} {rest : List Sending} {server : Nat}
    {resend : Pool.Resend} {settings : Settings} (request : Store.Request)
    (before : first.time < past.length)
    (told : ∃ news, Told (past ++ [move]) past.length id news)
    (looked : Looked w (past ++ [move]) past.length look)
    (left : Leftover w past settings id operation first rest)
    (next : operation.resend.next ((w.pool look).live .store) first.server
      settings.effectiveMaxResend = (some server, resend)) :
    ∃ servers, resend.servers = some servers ∧
      Resent w (past ++ [move]) settings id first
        ((rest ++ [Sending.mk past.length server request]).map (·.server)) servers := by
  obtain ⟨servers, kept, split⟩ := next_eq_some next
  refine ⟨servers, kept, ?_⟩
  rw [List.map_append, List.map_singleton]
  rcases left.servers with ⟨none, rfl, unheard⟩ | ⟨servers', some, heard, look', first', at', plan⟩
  · rw [none, Option.getD_none] at split
    refine ⟨past.length, look, ⟨before, told, ?_⟩, looked, split.symm⟩
    intro t gt lt news told
    exact unheard t gt news (told.of_concat lt)
  · rw [some, Option.getD_some] at split
    refine ⟨heard, look', first'.concat _, at'.concat _, ?_⟩
    rw [List.append_assoc, ← plan, split]
    rfl

theorem Stands.again {primary server : Nat} {value : Reply} {request : Store.Request}
    {resend : Pool.Resend}
    (h : (Task.elsewhere id operation primary value).Belongs w past move start root p sent)
    (resendable : operation.isResendable = true) (asked : operation.request = some request)
    (next : operation.resend.next ((w.pool look).live .store) primary
      p.settings.effectiveMaxResend = (some server, resend))
    (looked : Looked w (past ++ [move]) past.length look) :
    Stands w (past ++ [move]) start root p id { operation with resend }
      (sent id ++ [⟨past.length, server, request⟩]) := by
  obtain ⟨stands, told, first, rest, split, rfl⟩ := h
  obtain ⟨read, request', first', rest', plan, stage, target, asked', split', composed, tried,
    left⟩ := stands.read_of_resendable resendable
  cases asked.symm.trans asked'
  cases split.symm.trans split'
  have before : first.time < past.length := by
    obtain ⟨_, ⟨q, m, at', -⟩, -⟩ := tried.picked
    exact (List.getElem?_eq_some_iff.mp at').1
  obtain ⟨servers, kept, resent⟩ := Resent.again request before told looked left next
  have tried' : Tried w (past ++ [move]) p.settings id read.address.raw request first
      (rest ++ [⟨past.length, server, request⟩]) := by
    refine ⟨?_, tried.picked.concat _, Or.inr ⟨servers, resent⟩⟩
    intro sending hm
    rw [← List.cons_append] at hm
    rcases List.mem_append.mp hm with hm | hm
    · exact tried.same sending hm
    · rw [List.mem_singleton.mp hm]
  have trail : Trail w (past ++ [move]) p.settings start id root.plan none operation.stage
      operation.request (sent id ++ [⟨past.length, server, request⟩]) := by
    rw [plan, stage, asked, split]
    exact .read composed tried'
  refine ⟨stands.client, ⟨none, ?_, trail⟩, stands.begun, ?_, ?_⟩
  · rw [target]
    exact ⟨rfl, rfl⟩
  · intro read' h
    cases stage.symm.trans h
  · intro read' slot first' rest' _ _ split'
    rw [split, List.cons_append] at split'
    cases split'
    exact ⟨left.primary, Or.inr ⟨servers, kept, resent⟩⟩

end Again

namespace Underway

variable {w : World} {past : History} {move : Proxy × Move} {start group : Nat} {root : Root}
  {mine : Nat → Prop} {origin p q : Proxy} {actions silent : List Action} {task : Task}
  {rest more : List Task} {part : Fragment.Part}

theorem quiet (h : Underway w past move start root mine origin p actions (task :: rest))
    (newer : ∀ id, origin.nextOperation ≤ id → mine id) (frame : Frame p q)
    (operations : q.operations = p.operations) (outbox : q.outbox = p.outbox ++ silent)
    (silence : ∀ id, newly past silent id = []) (none : numbers more = [])
    (belongs : ∀ t ∈ more, t.Belongs w past move start root q (soFar w past actions)) :
    Underway w past move start root mine origin q (actions ++ silent) (more ++ rest) := by
  refine h.turn newer frame operations outbox silence ?_ ?_ belongs
  · rw [none]
    exact List.nodup_nil
  · rw [none]
    intro id hm
    cases hm

theorem numbered (h : Underway w past move start root mine origin p actions (task :: rest))
    (newer : ∀ id, origin.nextOperation ≤ id → mine id) (frame : Frame p q)
    (operations : q.operations = p.operations) (outbox : q.outbox = p.outbox)
    (next : q.nextOperation = p.nextOperation + 1) {on : Task}
    (number : on.number? = some p.nextOperation)
    (belongs : on.Belongs w past move start root q (soFar w past actions)) :
    Underway w past move start root mine origin q (actions ++ []) (on :: rest) := by
  have numbers : numbers [on] = [p.nextOperation] := by rw [numbers_cons, number]; rfl
  rw [← List.singleton_append]
  refine h.turn newer frame operations (outbox.trans (List.append_nil _).symm) (fun _ => rfl) ?_ ?_
    (List.forall_mem_singleton.mpr belongs)
  · rw [numbers]
    exact List.nodup_singleton _
  · intro k hk
    rw [numbers, List.mem_singleton] at hk
    subst hk
    exact Or.inr ⟨Nat.le_refl _, next ▸ Nat.lt_succ_self _⟩

theorem reply {client slot : Nat} {value : Reply}
    (h : Underway w past move start root mine origin p actions
      (.reply client slot value :: rest))
    (newer : ∀ id, origin.nextOperation ≤ id → mine id) :
    ∃ added, Underway w past move start root mine origin (p.reply client slot value)
      (actions ++ added) rest := by
  have frame := Frame.reply p client slot value
  rcases reply_cases p client slot value with ⟨-, what, hr⟩ | ⟨filled, -, hr⟩
  · refine ⟨[], h.quiet newer frame ?_ ?_ (fun _ => rfl) rfl (List.forall_mem_nil _)⟩
    · rw [hr]
      rfl
    · rw [hr]
      exact (List.append_nil _).symm
  · refine ⟨_, h.quiet newer frame ?_ (congrArg Proxy.outbox hr)
      (newly_replies past client · filled.drain.1) rfl (List.forall_mem_nil _)⟩
    rw [hr]

theorem bring (h : Underway w past move start root mine origin p actions (.part group part :: rest))
    (newer : ∀ id, origin.nextOperation ≤ id → mine id) (le : start ≤ past.length)
    (accepts : p.groups.accepts group part = true) :
    Underway w past move start root mine origin
      { p with groups := (p.groups.contribute group part).2 } (actions ++ [])
      (closing p.settings (p.groups.contribute group part).1 ++ rest) := by
  have bears : root.Bears p group := h.belongs _ List.mem_cons_self
  refine h.quiet newer (Frame.bring p accepts) rfl (List.append_nil _).symm (fun _ => rfl)
    (numbers_closing _ _) ?_
  obtain ⟨old, grown, ho, ha, incomplete | complete⟩ :=
    Fragment.Groups.contribute_of_accepts accepts
  · rw [incomplete.2]
    exact List.forall_mem_nil _
  · obtain ⟨client, -, context, -⟩ := Fragment.Group.frame_of_accept? ha
    obtain ⟨own, gathers⟩ := bears.gathers ho
    rw [complete.2]
    exact List.forall_mem_singleton.mpr
      (belongs_completion (client.trans own) (context ▸ gathers) le)

theorem poll (h : Underway w past move start root mine origin p actions (.poll group :: rest))
    (newer : ∀ id, origin.nextOperation ≤ id → mine id) (le : start ≤ past.length) :
    Underway w past move start root mine origin { p with groups := (p.groups.poll group).2 }
      (actions ++ []) (closing p.settings (p.groups.poll group).1 ++ rest) := by
  have bears : root.Bears p group := h.belongs _ List.mem_cons_self
  refine h.quiet newer (Frame.poll p group) rfl (List.append_nil _).symm (fun _ => rfl)
    (numbers_closing _ _) ?_
  rcases Fragment.Groups.poll_cases p.groups group with open' | ⟨done, ho, closed⟩
  · rw [open']
    exact List.forall_mem_nil _
  · obtain ⟨own, gathers⟩ := bears.gathers ho
    rw [closed]
    exact List.forall_mem_singleton.mpr (belongs_completion own gathers le)

theorem delete {client slot count : Nat} {stored : List (Address × Store.Request)}
    (h : Underway w past move start root mine origin p actions
      (.delete client slot count stored :: rest))
    (newer : ∀ id, origin.nextOperation ≤ id → mine id) :
    Underway w past move start root mine origin
      (p.openGroup client stored.length (.count (Int64.ofNat count)) (.del slot)).2
      (actions ++ [])
      (deletions client p.groups.next stored ++ [.poll p.groups.next] ++ rest) := by
  obtain ⟨rfl, rfl, begins, cacheOnly, plan⟩ := h.belongs _ List.mem_cons_self
  have bears : root.Bears (p.openGroup root.client stored.length (.count (Int64.ofNat count))
      (.del root.slot)).2 p.groups.next := Root.bears_openGroup ⟨rfl, cacheOnly, stored, plan⟩
  refine h.quiet newer (Frame.openGroup p _ _ _ _) rfl (List.append_nil _).symm (fun _ => rfl)
    (by rw [numbers_append, numbers_deletions]; rfl) ?_
  exact List.forall_mem_append.mpr
    ⟨belongs_deletions plan bears begins, List.forall_mem_singleton.mpr bears⟩

theorem combine {client slot : Nat} {op : SetOperator} {dest : Option Address}
    {sources : List Address}
    (h : Underway w past move start root mine origin p actions
      (.combine client slot op dest sources :: rest))
    (newer : ∀ id, origin.nextOperation ≤ id → mine id) :
    Underway w past move start root mine origin
      (p.openGroup client sources.length (.emptySets sources.length) (.algebra slot op dest)).2
      (actions ++ []) (lookUps client p.groups.next sources ++ rest) := by
  obtain ⟨rfl, rfl, begins, plan⟩ := h.belongs _ List.mem_cons_self
  have bears : root.Bears (p.openGroup root.client sources.length (.emptySets sources.length)
      (.algebra root.slot op dest)).2 p.groups.next := Root.bears_openGroup ⟨rfl, sources, plan⟩
  exact h.quiet newer (Frame.openGroup p _ _ _ _) rfl (List.append_nil _).symm (fun _ => rfl)
    (numbers_lookUps _ _ _) (belongs_lookUps plan bears begins)

theorem does (h : Underway w past move start root mine origin p actions (task :: rest))
    (newer : ∀ id, origin.nextOperation ≤ id → mine id) (begins : Frame move.1 origin)
    (le : start ≤ past.length) (done : Does w p task q more)
    (ends : Frame q (move.2.apply w move.1)) :
    ∃ added, Underway w past move start root mine origin q (actions ++ added) (more ++ rest) := by
  have belongs := h.belongs task List.mem_cons_self
  have frame := Frame.does done
  have looked : p.looks < q.looks → Looked w (past ++ [move]) past.length p.looks :=
    fun lt => looked_now (begins.trans h.frame).looks (Nat.lt_of_lt_of_le lt ends.looks)
  have spare : p.nextOperation < q.nextOperation → Spare w move p.nextOperation :=
    fun lt => ⟨(begins.trans h.frame).nextOperation, Nat.lt_of_lt_of_le lt ends.nextOperation⟩
  cases done with
  | reply => exact h.reply newer
  | bring accepts => exact ⟨[], h.bring newer le accepts⟩
  | refuse | drop =>
      exact ⟨[], h.quiet newer frame rfl (List.append_nil _).symm (fun _ => rfl) rfl
        (List.forall_mem_nil _)⟩
  | copy =>
      exact ⟨_, h.quiet newer frame rfl rfl (fun _ => rfl) rfl (List.forall_mem_nil _)⟩
  | learn =>
      have same := Alike.rememberVclock p ‹_› ‹_›
      exact ⟨[], h.quiet newer frame same.operations (by rw [same.outbox, List.append_nil])
        (fun _ => rfl) rfl (List.forall_mem_nil _)⟩
  | @news id operation news =>
      have few := numbers_decide operation w p id news
      refine ⟨[], h.turn newer frame rfl (List.append_nil _).symm (fun _ => rfl) ?_ ?_
        (belongs_decide belongs)⟩
      · exact few.nodup (List.nodup_singleton id)
      · intro k hk
        rw [List.mem_singleton.mp (few.subset hk)]
        exact Or.inl rfl
  | @send id operation request server size picked =>
      refine ⟨_, h.settle newer frame rfl rfl
        (fun k ne => newly_store_of_ne past server request ne) (Or.inl rfl) ?_⟩
      rw [newly_store]
      exact (belongs.2 server ⟨_, looked (Nat.lt_succ_self _), picked⟩).mono frame
  | oversize | unreached =>
      obtain ⟨⟨client, place, at'⟩, -⟩ := belongs
      exact ⟨[], h.quiet newer frame rfl (List.append_nil _).symm (fun _ => rfl) (by simp)
        (List.forall_mem_singleton.mpr (belongs_conclude client (at'.mono frame) _))⟩
  | @again id operation primary value request server resend resendable asked next =>
      refine ⟨_, h.settle newer frame rfl rfl
        (fun k ne => newly_store_of_ne past server request ne) (Or.inl rfl) ?_⟩
      rw [newly_store]
      exact (Stands.again belongs resendable asked next (looked (Nat.lt_succ_self _))).mono frame
  | exhausted =>
      exact ⟨[], h.quiet newer frame rfl (List.append_nil _).symm (fun _ => rfl) (by simp)
        (List.forall_mem_singleton.mpr (belongs_ends (belongs.1.mono frame) _))⟩
  | @launch operation request =>
      obtain ⟨⟨client, place, at'⟩, stands⟩ := belongs
      refine ⟨[], h.numbered newer frame rfl rfl rfl rfl ⟨⟨client, place, at'.mono frame⟩, ?_⟩⟩
      intro server picked
      rw [h.fresh (Nat.le_refl _)]
      exact (stands _ server (spare (Nat.lt_succ_self _)) picked).mono frame
  | lookUp =>
      refine ⟨_, h.settle newer frame rfl rfl (fun k _ => rfl)
        (Or.inr ⟨Nat.le_refl _, Nat.lt_succ_self _⟩) ?_⟩
      rw [h.fresh (Nat.le_refl _)]
      exact (belongs _ _ (spare (Nat.lt_succ_self _))).mono frame
  | @pass client target read =>
      refine ⟨[], h.numbered newer frame rfl rfl rfl rfl ⟨?_, Or.inr ⟨read, rfl⟩⟩⟩
      rw [h.fresh (Nat.le_refl _)]
      exact (belongs _ _ (spare (Nat.lt_succ_self _))).mono frame
  | delete => exact ⟨[], h.delete newer⟩
  | combine => exact ⟨[], h.combine newer⟩
  | poll => exact ⟨[], h.poll newer le⟩

theorem step {a b : Proxy × List Task}
    (h : Underway w past move start root mine origin a.1 actions a.2)
    (newer : ∀ id, origin.nextOperation ≤ id → mine id) (begins : Frame move.1 origin)
    (le : start ≤ past.length) (done : Step w a b)
    (ends : Frame b.1 (move.2.apply w move.1)) :
    ∃ added, Underway w past move start root mine origin b.1 (actions ++ added) b.2 := by
  cases done with
  | task done => exact h.does newer begins le done ends
  | @still p q tasks same =>
      have frame := Frame.still same
      refine ⟨[], ⟨?_, h.own, h.frame.trans frame, ?_, ?_, ?_, ?_, ?_⟩⟩
      · have apart := h.apart
        refine ⟨?_, apart.nodup, ?_, ?_⟩
        · rw [same.nextOperation]
          exact apart.lt
        · rw [same.nextOperation, same.operations]
          exact apart.table
        · rw [same.operations]
          exact apart.apart
      · rw [List.append_nil, same.outbox]
        exact h.outbox
      · rw [List.append_nil, same.nextOperation]
        exact h.fresh
      · rw [List.append_nil]
        intro task hm
        exact (h.belongs task hm).mono frame fun _ _ => rfl
      · rw [List.append_nil, same.operations]
        exact h.made
      · rw [List.append_nil, same.operations]
        intro id operation ho
        exact (h.table ho).imp_right (And.imp_right fun stands => stands.mono frame)

theorem steps {a b : Proxy × List Task} (done : Steps w a b)
    (h : Underway w past move start root mine origin a.1 actions a.2)
    (newer : ∀ id, origin.nextOperation ≤ id → mine id) (begins : Frame move.1 origin)
    (le : start ≤ past.length) (ends : Frame b.1 (move.2.apply w move.1)) :
    ∃ added, Underway w past move start root mine origin b.1 (actions ++ added) b.2 := by
  induction done using Relation.ReflTransGen.head_induction_on generalizing actions with
  | refl => exact ⟨[], by rwa [List.append_nil]⟩
  | head first others ih =>
      have later := (Frame.steps others).trans ends
      obtain ⟨added, h⟩ := h.step newer begins le first later
      obtain ⟨more, h⟩ := ih h
      exact ⟨added ++ more, by rwa [← List.append_assoc]⟩

end Underway

end ReadThrough.Proxy
