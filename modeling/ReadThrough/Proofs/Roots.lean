import Mathlib.Order.Interval.Finset.Nat
import ReadThrough.Proofs.Sessions
import ReadThrough.Proofs.Tasks.Moves

namespace ReadThrough.Proxy

structure Frame (p q : Proxy) : Prop where
  settings : q.settings = p.settings
  looks : p.looks ≤ q.looks
  nextOperation : p.nextOperation ≤ q.nextOperation
  nextGroup : p.groups.next ≤ q.groups.next
  groups : ∀ {id group}, q.groups.table.get? id = some group →
    (∃ old, p.groups.table.get? id = some old ∧ old.client = group.client ∧
        old.context = group.context) ∨
      p.groups.next ≤ id

namespace Frame

variable {w : World} {p q r : Proxy} {task : Task} {tasks more : List Task}

theorem of_eq (settings : q.settings = p.settings) (looks : p.looks ≤ q.looks)
    (next : p.nextOperation ≤ q.nextOperation) (groups : q.groups = p.groups) : Frame p q where
  settings := settings
  looks := looks
  nextOperation := next
  nextGroup := Nat.le_of_eq (by rw [groups])
  groups hg := Or.inl ⟨_, groups ▸ hg, rfl, rfl⟩

theorem refl (p : Proxy) : Frame p p :=
  of_eq rfl (Nat.le_refl _) (Nat.le_refl _) rfl

theorem trans (h : Frame p q) (h' : Frame q r) : Frame p r where
  settings := h'.settings.trans h.settings
  looks := Nat.le_trans h.looks h'.looks
  nextOperation := Nat.le_trans h.nextOperation h'.nextOperation
  nextGroup := Nat.le_trans h.nextGroup h'.nextGroup
  groups := by
    intro id group hg
    rcases h'.groups hg with ⟨mid, hm, client, context⟩ | le
    · rcases h.groups hm with ⟨old, ho, client', context'⟩ | le
      · exact Or.inl ⟨old, ho, client'.trans client, context'.trans context⟩
      · exact Or.inr le
    · exact Or.inr (Nat.le_trans h.nextGroup le)

theorem still (h : Still p q) : Frame p q :=
  of_eq h.settings h.looks (Nat.le_of_eq h.nextOperation.symm) h.groups

theorem reply (p : Proxy) (client slot : Nat) (value : Reply) :
    Frame p (p.reply client slot value) := by
  rcases reply_cases p client slot value with ⟨-, what, h⟩ | ⟨filled, -, h⟩
  · rw [h]
    exact still (Still.breach p what)
  · rw [h]
    exact of_eq rfl (Nat.le_refl _) (Nat.le_refl _) rfl

theorem openGroup (p : Proxy) (client total : Nat) (gathered : Fragment.Gathered)
    (context : GroupContext) : Frame p (p.openGroup client total gathered context).2 where
  settings := rfl
  looks := Nat.le_refl _
  nextOperation := Nat.le_refl _
  nextGroup := Nat.le_succ _
  groups := by
    intro id group hg
    rcases Fragment.Groups.get?_openGroup hg with ⟨new, -⟩ | hg
    · exact Or.inr (Nat.le_of_eq new.symm)
    · exact Or.inl ⟨group, hg, rfl, rfl⟩

theorem bring (p : Proxy) {group : Nat} {part : Fragment.Part}
    (accepts : p.groups.accepts group part = true) :
    Frame p { p with groups := (p.groups.contribute group part).2 } where
  settings := rfl
  looks := Nat.le_refl _
  nextOperation := Nat.le_refl _
  nextGroup := Nat.le_of_eq (p.groups.next_contribute group part).symm
  groups hg := Or.inl (Fragment.Groups.origin_of_contribute accepts hg)

theorem poll (p : Proxy) (group : Nat) :
    Frame p { p with groups := (p.groups.poll group).2 } := by
  rcases Fragment.Groups.poll_cases p.groups group with h | ⟨done, -, h⟩
  · rw [h]
    exact refl p
  · rw [h]
    refine ⟨rfl, Nat.le_refl _, Nat.le_refl _, Nat.le_refl _, ?_⟩
    intro id g hg
    exact Or.inl ⟨g, (Table.get?_erase_eq_some_iff.mp hg).2, rfl, rfl⟩

theorem does (h : Does w p task q more) : Frame p q := by
  cases h with
  | reply => exact reply p _ _ _
  | bring accepts => exact bring p accepts
  | refuse | news | oversize => exact refl p
  | learn =>
      refine of_eq (Alike.rememberVclock p _ _).settings ?_ ?_
        (Alike.rememberVclock p _ _).groups
      · unfold rememberVclock
        split <;> exact Nat.le_refl _
      · exact Nat.le_of_eq (Alike.rememberVclock p _ _).nextOperation.symm
  | copy | drop | send | again | unreached | exhausted =>
      exact of_eq rfl (Nat.le_succ _) (Nat.le_refl _) rfl
  | launch => exact of_eq rfl (Nat.le_refl _) (Nat.le_succ _) rfl
  | lookUp | pass => exact of_eq rfl (Nat.le_succ _) (Nat.le_succ _) rfl
  | delete | combine => exact openGroup p _ _ _ _
  | poll => exact poll p _

theorem step {a b : Proxy × List Task} (h : Step w a b) : Frame a.1 b.1 := by
  cases h with
  | still same => exact still same
  | task done => exact does done

theorem steps {a b : Proxy × List Task} (h : Steps w a b) : Frame a.1 b.1 := by
  induction h with
  | refl => exact refl _
  | tail _ done ih => exact ih.trans (step done)

end Frame

theorem akin_ready (p : Proxy) (move : Move) : Akin (move.opening p).1 (move.ready p) := by
  cases move with
  | request client content =>
      cases content with
      | error why => exact (Still.refl _).toAkin
      | ok command =>
          obtain ⟨vclocks, nextOperation, ready, -, -⟩ := ready_request p client command
          rw [ready]
          exact ⟨rfl, rfl, rfl, rfl, rfl, rfl, rfl⟩
  | _ => exact (Still.refl _).toAkin

theorem looks_ready (p : Proxy) (move : Move) : (move.ready p).looks = p.looks := by
  have opened : (move.opening p).1.looks = p.looks := by
    obtain ⟨operations, h⟩ := Move.opening_fst p move
    rw [h]
    change (move.prepare p).looks = p.looks
    cases move with
    | cacheAnswer server value =>
        simp only [Move.prepare]
        split <;> rfl
    | storeAnswer server frame =>
        simp only [Move.prepare]
        split <;> rfl
    | _ => rfl
  cases move with
  | request client content =>
      cases content with
      | error why => exact opened
      | ok command =>
          obtain ⟨vclocks, nextOperation, ready, -, -⟩ := ready_request p client command
          rw [ready]
          rfl
  | _ => exact opened

theorem nextOperation_ready (p : Proxy) {move : Move}
    (other : ∀ client key value, move ≠ .request client (.ok (.set key value))) :
    (move.ready p).nextOperation = p.nextOperation := by
  cases move with
  | request client content =>
      cases content with
      | error why => exact nextOperation_opening p (.request client (.error why))
      | ok command =>
          obtain ⟨vclocks, nextOperation, ready, -, same | ⟨-, ⟨key, value, rfl⟩, -⟩⟩ :=
            ready_request p client command
          · rw [ready]
            exact same
          · exact absurd rfl (other client key value)
  | _ => exact nextOperation_opening p _

theorem nextOperation_le_ready (p : Proxy) (move : Move) :
    p.nextOperation ≤ (move.ready p).nextOperation := by
  by_cases sets : ∃ client key value, move = .request client (.ok (.set key value))
  · obtain ⟨client, key, value, rfl⟩ := sets
    obtain ⟨vclocks, nextOperation, ready, -, same | ⟨-, -, spent⟩⟩ :=
      ready_request p client (.set key value)
    · rw [ready]
      exact Nat.le_of_eq same.symm
    · rw [ready]
      exact spent ▸ Nat.le_succ _
  · exact Nat.le_of_eq (nextOperation_ready p fun client key value asks =>
      sets ⟨client, key, value, asks⟩).symm

theorem settings_opening (p : Proxy) (move : Move) : (move.opening p).1.settings = p.settings := by
  obtain ⟨operations, h⟩ := Move.opening_fst p move
  rw [h]
  change (move.prepare p).settings = p.settings
  cases move with
  | cacheAnswer server value =>
      simp only [Move.prepare]
      split <;> rfl
  | storeAnswer server frame =>
      simp only [Move.prepare]
      split <;> rfl
  | _ => rfl

theorem frame_ready (p : Proxy) (move : Move) : Frame p (move.ready p) := by
  by_cases hangsUp : ∃ client, move = .hangUp client
  · obtain ⟨client, rfl⟩ := hangsUp
    refine ⟨rfl, Nat.le_refl _, Nat.le_refl _, Nat.le_refl _, ?_⟩
    intro id group hg
    exact Or.inl ⟨group, (get?_groups_clientClosed.mp hg).1, rfl, rfl⟩
  · have stays : ∀ client, move ≠ .hangUp client := fun client he => hangsUp ⟨client, he⟩
    have same := akin_ready p move
    exact .of_eq (same.settings.trans (settings_opening p move))
      (Nat.le_of_eq (looks_ready p move).symm) (nextOperation_le_ready p move)
      (same.groups.trans (groups_opening stays))

theorem frame_apply (w : World) (p : Proxy) (move : Move) : Frame p (move.apply w p) :=
  (frame_ready p move).trans (Frame.steps (steps_apply w p move))

theorem settings_play (w : World) (p : Proxy) (moves : List Move) :
    (play w p moves).settings = p.settings := by
  induction moves generalizing p with
  | nil => rfl
  | cons move moves ih => exact (ih _).trans (frame_apply w p move).settings

section History

variable {w : World} {p q : Proxy} {moves : List Move} {move : Move} {time : Nat}

theorem getElem?_history : (history w p moves)[time]? = some (q, move) ↔
    moves[time]? = some move ∧ q = play w p (moves.take time) := by
  induction moves generalizing p time with
  | nil => simp [history]
  | cons first moves ih =>
      cases time with
      | zero => simp [history, and_comm, eq_comm]
      | succ time => simpa [history] using ih

theorem length_history : (history w p moves).length = moves.length := by
  induction moves generalizing p with
  | nil => rfl
  | cons first moves ih => simp [history, ih]

theorem nextOperation_le_play (w : World) (p : Proxy) (moves : List Move) :
    p.nextOperation ≤ (play w p moves).nextOperation := by
  induction moves generalizing p with
  | nil => exact Nat.le_refl _
  | cons move moves ih => exact Nat.le_trans (frame_apply w p move).nextOperation (ih _)

theorem nextOperation_le_of_lt {earlier later : Nat} {q q' : Proxy} {move move' : Move}
    (h : (history w p moves)[earlier]? = some (q, move))
    (h' : (history w p moves)[later]? = some (q', move')) (lt : earlier < later) :
    (move.apply w q).nextOperation ≤ q'.nextOperation := by
  obtain ⟨at', rfl⟩ := getElem?_history.mp h
  obtain ⟨-, rfl⟩ := getElem?_history.mp h'
  obtain ⟨more, split⟩ : moves.take (earlier + 1) <+: moves.take later :=
    List.take_prefix_take_left (Nat.succ_le_of_lt lt)
  rw [← split, play_append, play_take_succ w p at']
  exact nextOperation_le_play w _ more

theorem creation_unique {earlier later id : Nat} {q q' : Proxy} {move move' : Move}
    (h : (history w p moves)[earlier]? = some (q, move))
    (h' : (history w p moves)[later]? = some (q', move'))
    (le : q.nextOperation ≤ id) (lt : id < (move.apply w q).nextOperation)
    (le' : q'.nextOperation ≤ id) (lt' : id < (move'.apply w q').nextOperation) :
    earlier = later := by
  rcases Nat.lt_trichotomy earlier later with before | same | after
  · have := nextOperation_le_of_lt h h' before
    omega
  · exact same
  · have := nextOperation_le_of_lt h' h after
    omega

theorem stems_unique {start start' id : Nat} (h : Stems w (history w p moves) start id)
    (h' : Stems w (history w p moves) start' id)
    (asks : ∃ q client content, (history w p moves)[start]? = some (q, .request client content))
    (asks' : ∃ q client content,
      (history w p moves)[start']? = some (q, .request client content)) : start = start' := by
  have mute : ∀ {time : Nat} {q : Proxy} {move : Move} {parent : Nat},
      (history w p moves)[time]? = some (q, move) → move.subject? q = some parent →
      ¬ ∃ q client content, (history w p moves)[time]? = some (q, Move.request client content) := by
    rintro time q move parent at' subject ⟨q', client, content, asked⟩
    cases Option.some.inj (at'.symm.trans asked)
    cases subject
  -- A number is given out once, by the request itself or by a move that dealt with the parent.
  induction h with
  | begun at' le lt =>
      cases h' with
      | begun at'' le' lt' => exact creation_unique at' at'' le lt le' lt'
      | spawned at'' subject _ le' lt' =>
          obtain rfl := creation_unique at' at'' le lt le' lt'
          exact absurd asks (mute at'' subject)
  | spawned at' subject _ le lt ih =>
      cases h' with
      | begun at'' le' lt' =>
          obtain rfl := creation_unique at' at'' le lt le' lt'
          exact absurd asks' (mute at' subject)
      | spawned at'' subject' parents le' lt' =>
          obtain rfl := creation_unique at' at'' le lt le' lt'
          cases Option.some.inj (at'.symm.trans at'')
          cases Option.some.inj (subject.symm.trans subject')
          exact ih parents

end History

/-- A request that a plan was made of, with the slot that its reply goes to and the numbers of the
operations that it began. -/
structure Root where
  client : Nat
  slot : Nat
  plan : Plan
  numbers : Finset Nat

namespace Root

variable {root : Root} {p q : Proxy} {group : Nat} {target : Target} {place : Option Nat}

def Gathers (root : Root) : GroupContext → Prop
  | .del slot => slot = root.slot ∧ ∃ cacheOnly stored, root.plan = .delete cacheOnly stored
  | .algebra slot op dest => slot = root.slot ∧ ∃ sources, root.plan = .combine op dest sources

structure Bears (root : Root) (p : Proxy) (group : Nat) : Prop where
  lt : group < p.groups.next
  gathers : ∀ {g}, p.groups.table.get? group = some g →
    g.client = root.client ∧ root.Gathers g.context

def At (root : Root) (p : Proxy) : Target → Option Nat → Prop
  | .client slot, place => slot = root.slot ∧ place = none
  | .fragment group index, place => root.Bears p group ∧ place = some index

theorem Bears.mono (h : root.Bears p group) (frame : Frame p q) : root.Bears q group where
  lt := Nat.lt_of_lt_of_le h.lt frame.nextGroup
  gathers := by
    intro g hg
    rcases frame.groups hg with ⟨old, ho, client, context⟩ | le
    · rw [← client, ← context]
      exact h.gathers ho
    · exact absurd h.lt (Nat.not_lt.mpr le)

theorem At.mono (h : root.At p target place) (frame : Frame p q) : root.At q target place := by
  cases target with
  | client slot => exact h
  | fragment group index => exact ⟨h.1.mono frame, h.2⟩

theorem bears_openGroup {total : Nat} {gathered : Fragment.Gathered} {context : GroupContext}
    (gathers : root.Gathers context) :
    root.Bears (p.openGroup root.client total gathered context).2 p.groups.next where
  lt := Nat.lt_succ_self _
  gathers := by
    intro g hg
    simp only [openGroup, Fragment.Groups.openGroup, Table.get?_insert_self,
      Option.some.injEq] at hg
    subst hg
    exact ⟨rfl, gathers⟩

end Root

structure Root.Of (w : World) (root : Root) (p : Proxy) (command : Command) : Prop where
  plan : p.plan command = .ok root.plan
  slot : root.slot = (p.client root.client).replies.next
  numbers : root.numbers =
    Finset.Ico p.nextOperation (p.clientCommand w root.client command).nextOperation

def Planned (w : World) (past : History) (start : Nat) (command : Command) (root : Root) : Prop :=
  ∃ q, past[start]? = some (q, .request root.client (.ok command)) ∧ root.Of w q command

theorem Planned.concat {w : World} {past : History} {start : Nat} {command : Command} {root : Root}
    (h : Planned w past start command root) (more : History) :
    Planned w (past ++ more) start command root := by
  obtain ⟨q, at', of⟩ := h
  exact ⟨q, getElem?_of_front (List.prefix_append _ _) at', of⟩

section Take

variable {w : World} {p : Proxy} {past : History} {moves : List Move} {time start start' id : Nat}
  {client : Nat} {command command' : Command} {root root' : Root}

theorem Planned.unique (h : Planned w past start command root)
    (h' : Planned w past start command' root') : command = command' ∧ root = root' := by
  obtain ⟨q, at', of⟩ := h
  obtain ⟨q', at'', of'⟩ := h'
  obtain ⟨client, slot, plan, numbers⟩ := root
  obtain ⟨client', slot', plan', numbers'⟩ := root'
  cases Option.some.inj (at'.symm.trans at'')
  cases Except.ok.inj (of.plan.symm.trans of'.plan)
  cases of.slot.trans of'.slot.symm
  cases of.numbers.trans of'.numbers.symm
  exact ⟨rfl, rfl⟩

theorem Planned.asks (h : Planned w past start command root) :
    ∃ q client content, past[start]? = some (q, .request client content) := by
  obtain ⟨q, at', -⟩ := h
  exact ⟨q, _, _, at'⟩

theorem root_unique (h : Planned w (history w p moves) start command root)
    (h' : Planned w (history w p moves) start' command' root')
    (stems : Stems w (history w p moves) start id)
    (stems' : Stems w (history w p moves) start' id) :
    start = start' ∧ command = command' ∧ root = root' := by
  obtain rfl := stems_unique stems stems' h.asks h'.asks
  exact ⟨rfl, h.unique h'⟩

theorem history_take (w : World) (p : Proxy) (moves : List Move) (time : Nat) :
    ∃ later, history w p moves = history w p (moves.take time) ++ later := by
  refine ⟨history w (play w p (moves.take time)) (moves.drop time), ?_⟩
  rw [← history_append, List.take_append_drop]

theorem Planned.of_take (h : Planned w (history w p (moves.take time)) start command root) :
    Planned w (history w p moves) start command root := by
  obtain ⟨later, split⟩ := history_take w p moves time
  exact split ▸ h.concat later

theorem Stems.of_take (h : Stems w (history w p (moves.take time)) start id) :
    Stems w (history w p moves) start id := by
  obtain ⟨later, split⟩ := history_take w p moves time
  exact split ▸ h.concat later

theorem Stems.lt_of_take (h : Stems w (history w p (moves.take time)) start id) :
    start < time := by
  have lt := h.start_lt
  rw [length_history, List.length_take] at lt
  exact (Nat.lt_min.mp lt).1

theorem root_of_request (request : moves[start]? = some (.request client (.ok command)))
    (stems : Stems w (history w p moves) start id)
    (planned : Planned w (history w p (moves.take time)) start' command' root)
    (stems' : Stems w (history w p (moves.take time)) start' id) :
    start' = start ∧ root.client = client ∧ root.Of w (play w p (moves.take start)) command := by
  have asked := getElem?_history (w := w) (p := p) |>.mpr ⟨request, rfl⟩
  obtain rfl := stems_unique stems stems'.of_take ⟨_, client, _, asked⟩ planned.of_take.asks
  obtain ⟨q, at', of⟩ := planned.of_take
  cases asked.symm.trans at'
  exact ⟨rfl, rfl, of⟩

end Take

end ReadThrough.Proxy
