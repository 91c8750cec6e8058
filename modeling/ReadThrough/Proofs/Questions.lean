import ReadThrough.Proofs.Abandonment
import ReadThrough.Proofs.CacheServers

namespace ReadThrough.Proxy

variable {w : World} {p : Proxy} {move : Move} {ms more : List Move} {server : Nat}

def tells (w : World) (p : Proxy) (move : Move) (server : Nat) : List Cache.Command :=
  ((cacheLine server).messages w p move).map Prod.snd

def told (w : World) (p : Proxy) (ms : List Move) (server : Nat) : List Cache.Command :=
  (history w p ms).flatMap fun made => tells w made.1 made.2 server

/-- The server does what it is told, and what comes from it are its answers in their order: each
belongs to the oldest command on the connection that has none. -/
structure Executes (w : World) (p : Proxy) (ms : List Move) (server : Nat) (cache : Cache.Server)
    (contents : cache.Contents) (happenings : List Cache.Happening) : Prop where
  done : happenings.filterMap Cache.Happening.command? = told w p ms server
  answered : ∀ time value, ms[time]? = some (.cacheAnswer server value) →
    (cache.answers contents happenings)[(told w p (ms.take time) server).length -
      ((play w p (ms.take time)).pendingCache server).length]? = some value

def Receives (w : World) (p : Proxy) (ms : List Move) (asked heard server : Nat)
    (value : Resp.Value) : Prop :=
  ms[heard]? = some (.cacheAnswer server value) ∧ ∃ id, Stems w (history w p ms) asked id ∧
    (Move.cacheAnswer server value).subject? (play w p (ms.take heard)) = some id

section Told

variable {command : Cache.Command}

theorem mem_tells : command ∈ tells w p move server ↔
    ∃ entry, Action.cache server entry command ∈ move.emits w p := by
  constructor
  · intro told
    obtain ⟨⟨entry, command'⟩, sent, rfl⟩ := List.mem_map.mp told
    obtain ⟨action, hm, same⟩ := List.mem_filterMap.mp sent
    cases action with
    | cache server' entry' command' =>
        simp only [cacheLine, Action.toCache?] at same
        split at same
        · next own =>
            cases own
            cases same
            exact ⟨_, hm⟩
        · cases same
    | _ => cases same
  · rintro ⟨entry, hm⟩
    exact List.mem_map.mpr ⟨(entry, command), List.mem_filterMap.mpr ⟨_, hm, if_pos rfl⟩, rfl⟩

theorem told_cons (w : World) (p : Proxy) (move : Move) (ms : List Move) (server : Nat) :
    told w p (move :: ms) server = tells w p move server ++ told w (move.apply w p) ms server := rfl

theorem told_append (w : World) (p : Proxy) (ms more : List Move) (server : Nat) :
    told w p (ms ++ more) server = told w p ms server ++ told w (play w p ms) more server := by
  rw [told, history_append, List.flatMap_append]
  rfl

theorem told_take_succ {time : Nat} (made : ms[time]? = some move) (server : Nat) :
    told w p (ms.take (time + 1)) server =
      told w p (ms.take time) server ++ tells w (play w p (ms.take time)) move server := by
  rw [List.take_add_one, made, told_append]
  exact congrArg _ (List.append_nil _)

end Told

section Queue

theorem pending_suffix (tidy : Tidy p []) (ms : List Move) (server : Nat) : ∃ entries,
    entries.length = (told w p ms server).length ∧
      (play w p ms).pendingCache server <:+ p.pendingCache server ++ entries := by
  induction ms generalizing p with
  | nil => exact ⟨[], rfl, (List.append_nil _).symm ▸ List.suffix_rfl⟩
  | cons move ms ih =>
      obtain ⟨entries, length, suffix⟩ := ih (tidy.apply w move)
      refine ⟨((cacheLine server).messages w p move).map Prod.fst ++ entries, ?_,
        suffix.trans ?_⟩
      · rw [told_cons, List.length_append, List.length_append, length, tells, List.length_map,
          List.length_map]
      · rw [pendingCache_apply move server w tidy.sound, ← List.append_assoc]
        have left : ((cacheLine server).passage move).left (p.pendingCache server) <:+
            p.pendingCache server := by
          cases (cacheLine server).passage move with
          | answer => exact List.tail_suffix _
          | loss => exact List.nil_suffix
          | other => exact List.suffix_rfl
        obtain ⟨front, same⟩ := left
        exact ⟨front, by rw [← List.append_assoc, ← List.append_assoc, same]; rfl⟩

def Numbered (p : Proxy) : Prop :=
  ∀ server id, .operation id ∈ p.pendingCache server → id < p.nextOperation

namespace Numbered

variable {fan : Nat → Prop} {q : Proxy}

theorem of_eq (h : Numbered p) (caches : q.caches = p.caches)
    (next : p.nextOperation ≤ q.nextOperation) : Numbered q := by
  intro server id among
  rw [pendingCache, cacheLink, caches] at among
  exact Nat.lt_of_lt_of_le (h server id among) next

theorem ask (h : Numbered p) {entry : CacheEntry} {command : Cache.Command}
    (fresh : ∀ id, entry = .operation id → id < p.nextOperation) :
    Numbered (p.ask server entry command) := by
  intro s id among
  rw [(Grows.ask p server entry command).caches] at among
  rcases List.mem_append.mp among with old | new
  · exact h s id old
  · by_cases own : server = s
    · simp only [List.filterMap_cons, Action.toCache?, if_pos own] at new
      exact fresh id (List.mem_singleton.mp new).symm
    · simp only [List.filterMap_cons, Action.toCache?, if_neg own] at new
      cases new

theorem deed {a b : Proxy × Hand} (h : Numbered a.1) (step : Deed fan a b) (t : Tidy a.1 a.2) :
    Numbered b.1 := by
  cases step with
  | quiet same => exact h.of_eq same.caches same.nextOperation.ge
  | number => exact h.of_eq rfl (Nat.le_succ _)
  | sideEffect => exact h.ask fun id none => by cases none
  | @lookUp p hand id operation read server =>
      have asked : Numbered (p.ask server (.operation id) read.lookup) := h.ask fun k own => by
        cases own
        exact t.number_lt List.mem_cons_self
      exact asked.of_eq rfl le_rfl
  | @reply p hand number client slot value =>
      change Numbered (p.reply client slot value)
      rcases reply_cases p client slot value with ⟨-, what, same⟩ | ⟨filled, -, same⟩
      · rw [same]
        exact h.of_eq rfl le_rfl
      · rw [same]
        exact h.of_eq rfl le_rfl
  | _ => exact h.of_eq rfl le_rfl

theorem deeds {a b : Proxy × Hand} (h : Numbered a.1) (steps : Relation.ReflTransGen (Deed fan) a b)
    (t : Tidy a.1 a.2) : Numbered b.1 := by
  induction steps with
  | refl => exact h
  | tail steps step ih => exact ih.deed step (t.deeds steps)

theorem apply (h : Numbered p) (t : Tidy p []) (w : World) (move : Move) :
    Numbered (move.apply w p) := by
  have opened : Numbered (move.opening p).1 := by
    intro server id among
    rw [pendingCache_opening] at among
    rw [nextOperation_opening]
    refine h server id ?_
    cases passage : (cacheLine server).passage move with
    | answer =>
        rw [passage] at among
        exact List.mem_of_mem_tail among
    | loss =>
        rw [passage] at among
        cases among
    | other =>
        rw [passage] at among
        exact among
  exact opened.deeds (deeds_of_apply w t.sound move) (t.opening move)

theorem play (h : Numbered p) (t : Tidy p []) (w : World) (ms : List Move) :
    Numbered (play w p ms) := by
  induction ms generalizing p with
  | nil => exact h
  | cons move ms ih => exact ih (h.apply t w move) (t.apply w move)

theorem start (settings : Settings) (policy : BucketPolicy) : Numbered (start settings policy) := by
  intro server id among
  cases among

end Numbered

end Queue

section Place

variable {q : Proxy} {start time asked heard id : Nat} {value : Resp.Value}

theorem nextOperation_le_of_stems (tidy : Tidy p [])
    (at' : (history w p ms)[start]? = some (q, move))
    (stems : Stems w (history w p ms) start id) : q.nextOperation ≤ id := by
  induction stems with
  | begun at'' le =>
      cases at'.symm.trans at''
      exact le
  | @spawned time r made parent id at'' subject _ le lt ih =>
      rcases Nat.lt_or_ge time start with before | after
      · have later := nextOperation_le_of_lt at'' at' before
        obtain ⟨-, rfl⟩ := getElem?_history.mp at''
        have gone : (Proxy.play w p (ms.take time)).operations.get? parent = none := by
          cases found : (Proxy.play w p (ms.take time)).operations.get? parent with
          | none => rfl
          | some operation =>
              have known := (tidy.play w (ms.take time)).operation_lt found
              omega
        have unchanged := congrArg Proxy.nextOperation (apply_of_gone (w := w) subject gone)
        obtain ⟨operations, opening⟩ := Move.opening_fst (Proxy.play w p (ms.take time)) made
        have same := nextOperation_opening (Proxy.play w p (ms.take time)) made
        rw [opening] at same
        change (made.prepare _).nextOperation = _ at same
        omega
      · rcases Nat.eq_or_lt_of_le after with rfl | after
        · cases at'.symm.trans at''
          exact le
        · have between := nextOperation_le_of_lt at' at'' after
          exact ((frame_apply w q move).nextOperation.trans between).trans le

theorem pending_of_subject
    (subject : (Move.cacheAnswer server value).subject? p = some id) :
    ∃ rest, p.pendingCache server = .operation id :: rest := by
  obtain ⟨_, ⟨pending⟩⟩ := Move.subject?_eq_some_iff.mp subject
  exact ⟨_, pending⟩

theorem length_le_of_suffix {entry : CacheEntry} {rest before entries : List CacheEntry}
    (suffix : entry :: rest <:+ before ++ entries) (fresh : entry ∉ before) :
    (entry :: rest).length ≤ entries.length := by
  obtain ⟨front, same⟩ := suffix
  rcases List.append_eq_append_iff.mp same with ⟨left, old, new⟩ | ⟨left, -, new⟩
  · cases left with
    | nil => exact (congrArg List.length new).le
    | cons other left =>
        cases new
        exact absurd (old ▸ List.mem_append_right _ List.mem_cons_self) fresh
  · rw [new, List.length_append]
    exact Nat.le_add_left _ _

theorem told_le_of_later (numbered : Numbered p) (tidy : Tidy p []) (later : time < asked)
    (receives : Receives w p ms asked heard server value) :
    (told w p (ms.take (time + 1)) server).length ≤ (told w p (ms.take heard) server).length -
      ((play w p (ms.take heard)).pendingCache server).length := by
  obtain ⟨-, id, stems, subject⟩ := receives
  obtain ⟨rest, queue⟩ := pending_of_subject subject
  obtain ⟨request, made⟩ : ∃ request, ms[asked]? = some request := by
    have lt := stems.start_lt
    rw [length_history] at lt
    exact ⟨_, List.getElem?_eq_getElem lt⟩
  have new := nextOperation_le_of_stems tidy (getElem?_history.mpr ⟨made, rfl⟩) stems
  -- The operation that asks is younger than the later request, so it stood in no queue before.
  have fresh : ∀ n ≤ asked, .operation id ∉ (play w p (ms.take n)).pendingCache server := by
    intro n le among
    obtain ⟨between, split⟩ := List.take_prefix_take_left (l := ms) le
    have grows := nextOperation_le_play w (play w p (ms.take n)) between
    rw [← play_append, split] at grows
    have known := numbered.play tidy w (ms.take n) server id among
    omega
  have after : time + 1 ≤ heard := by
    by_contra before
    exact fresh heard (by omega) (queue ▸ List.mem_cons_self)
  obtain ⟨between, split⟩ := List.take_prefix_take_left (l := ms) after
  obtain ⟨entries, length, suffix⟩ :=
    pending_suffix (tidy.play w (ms.take (time + 1))) between server (w := w)
  rw [← play_append, split, queue] at suffix
  have le := length_le_of_suffix suffix (fresh (time + 1) later)
  rw [← split, told_append, List.length_append, ← length, split, queue]
  omega

theorem Executes.answered_of_later {cache : Cache.Server} {contents : cache.Contents}
    {before after : List Cache.Happening}
    (executes : Executes w p ms server cache contents (before ++ after))
    (done : before.filterMap Cache.Happening.command? = told w p (ms.take (time + 1)) server)
    (numbered : Numbered p) (tidy : Tidy p []) (later : time < asked)
    (receives : Receives w p ms asked heard server value) :
    ∃ place : Nat, (cache.answers (cache.after contents before) after)[place]? = some value := by
  have answered := executes.answered heard value receives.1
  have le := told_le_of_later numbered tidy later receives
  rw [← done, ← Cache.Server.length_answers contents] at le
  rw [Cache.Server.answers_append, List.getElem?_append_right le] at answered
  exact ⟨_, answered⟩

end Place

end ReadThrough.Proxy
