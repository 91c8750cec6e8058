import ReadThrough.Proofs.Lifetimes

namespace ReadThrough.PolicyBoard

inductive Act where
  | publish (policy : BucketPolicy)
  | subscribe
  | drop (reader : Nat)
  | refresh (reader : Nat)
  deriving DecidableEq

namespace Act

def policy? : Act → Option BucketPolicy
  | .publish policy => some policy
  | _ => none

def concerns (reader : Nat) : Act → Bool
  | .drop other | .refresh other => other = reader
  | _ => true

end Act

def act (board : PolicyBoard) : Act → PolicyBoard
  | .publish policy => board.publish policy
  | .subscribe => board.subscribe.2
  | .drop reader => board.drop reader
  | .refresh reader => (board.refresh reader).2

def after (initial : BucketPolicy) (acts : List Act) : PolicyBoard :=
  acts.foldl act { newest := initial }

def published (acts : List Act) : List BucketPolicy :=
  acts.filterMap Act.policy?

def lastPublished (initial : BucketPolicy) (acts : List Act) : BucketPolicy :=
  (published acts).getLast?.getD initial

def snapshot? (board : PolicyBoard) (reader : Nat) : Option BucketPolicy :=
  (board.reader? reader).map PolicyReader.current

structure Stays (initial : BucketPolicy) (opening life : List Act) (reader : Nat) : Prop where
  subscribed : (after initial opening).subscribe.1 = reader
  kept : .drop reader ∉ life

structure Distribution : Prop where
  begins : ∀ initial opening reader, Stays initial opening [] reader →
    (after initial (opening ++ [.subscribe])).snapshot? reader =
      some (lastPublished initial opening)
  newest : ∀ initial opening life reader, Stays initial opening life reader →
    ((after initial (opening ++ .subscribe :: life)).refresh reader).2.snapshot? reader =
      some (lastPublished initial (opening ++ .subscribe :: life))
  told : ∀ initial opening life since reader, Stays initial opening (life ++ since) reader →
    (life = [] ∨ life.getLast? = some (.refresh reader)) → .refresh reader ∉ since →
      (((after initial (opening ++ .subscribe :: (life ++ since))).refresh reader).1 = true ↔
        ∃ policy, .publish policy ∈ since)
  steady : ∀ initial opening life more reader, Stays initial opening (life ++ more) reader →
    .refresh reader ∉ more → ∃ table,
      (after initial (opening ++ .subscribe :: life)).snapshot? reader = some table ∧
        (after initial (opening ++ .subscribe :: (life ++ more))).snapshot? reader = some table
  apart : ∀ initial acts acts' reader,
    acts.filter (Act.concerns reader) = acts'.filter (Act.concerns reader) →
      (after initial acts).reader? reader = (after initial acts').reader? reader ∧
        ((after initial acts).refresh reader).1 = ((after initial acts').refresh reader).1
  tabled : ∀ settings, BucketPolicy.Tabled settings

section Readers

variable {board : PolicyBoard} {policy : BucketPolicy} {readers : Table Nat PolicyReader}
  {subscribers : List Nat} {reader other : Nat} {r : PolicyReader}

theorem get?_handOut (nodup : subscribers.Nodup) :
    (handOut policy subscribers readers).2.get? reader =
      if reader ∈ subscribers then (readers.get? reader).map (·.deliver policy)
      else readers.get? reader := by
  induction subscribers generalizing readers with
  | nil => simp [handOut]
  | cons subscriber rest ih =>
      obtain ⟨absent, nodup⟩ := List.nodup_cons.mp nodup
      unfold handOut
      cases there : readers.get? subscriber with
      | none =>
          simp only [ih nodup, List.mem_cons]
          by_cases same : reader = subscriber
          · simp [same, absent, there]
          · simp [same]
      | some r =>
          simp only [ih nodup, List.mem_cons, Table.get?_insert]
          by_cases same : reader = subscriber
          · simp [same, absent, there]
          · simp [same]

theorem handOut_fst :
    (handOut policy subscribers readers).1 = subscribers.filter readers.contains := by
  induction subscribers generalizing readers with
  | nil => rfl
  | cons subscriber rest ih =>
      unfold handOut
      cases there : readers.get? subscriber with
      | none =>
          have gone : readers.contains subscriber = false := by simp [Table.contains, there]
          simp only [ih]
          rw [List.filter_cons_of_neg (by simp [gone])]
      | some r =>
          have present : readers.contains subscriber = true := by simp [Table.contains, there]
          have same : (readers.insert subscriber (r.deliver policy)).contains =
              readers.contains := by
            funext k
            by_cases own : k = subscriber
            · simp [Table.contains, own, there]
            · simp [Table.contains, Table.get?_insert, own]
          simp only [ih, same]
          rw [List.filter_cons_of_pos present]

theorem refresh_of_none (h : board.reader? reader = none) :
    board.refresh reader = (false, board) := by
  simp only [refresh, h]

theorem refresh_of_some (h : board.reader? reader = some r) : board.refresh reader =
    (r.isStale, { board with readers := board.readers.insert reader r.refresh }) := by
  simp only [refresh, h, PolicyReader.look_eq]

theorem refresh_fst :
    (board.refresh reader).1 = ((board.reader? reader).map PolicyReader.isStale).getD false := by
  cases there : board.reader? reader with
  | none => rw [refresh_of_none there]; rfl
  | some r => rw [refresh_of_some there]; rfl

structure Listed (board : PolicyBoard) : Prop where
  nodup : board.subscribers.Nodup
  listed : ∀ reader, board.reader? reader ≠ none → reader ∈ board.subscribers
  below : ∀ reader ∈ board.subscribers, reader < board.nextReader

theorem reader?_publish (h : board.Listed) (policy : BucketPolicy) :
    (board.publish policy).reader? reader = (board.reader? reader).map (·.deliver policy) := by
  have handed : (board.publish policy).reader? reader = _ := get?_handOut h.nodup
  rw [handed]
  split
  · rfl
  · next absent =>
      have none : board.reader? reader = none := by_contra fun there => absent (h.listed _ there)
      simp only [reader?] at none ⊢
      rw [none]
      rfl

theorem reader?_subscribe : board.subscribe.2.reader? reader =
    if reader = board.nextReader then some { current := board.newest }
    else board.reader? reader :=
  Table.get?_insert _ _ _ _

theorem reader?_drop : (board.drop other).reader? reader =
    if reader = other then none else board.reader? reader :=
  Table.get?_erase _ _ _

theorem reader?_refresh : (board.refresh other).2.reader? reader =
    if reader = other then (board.reader? reader).map PolicyReader.refresh
    else board.reader? reader := by
  cases there : board.reader? other with
  | none =>
      rw [refresh_of_none there]
      split
      · next same => simp [same, there]
      · rfl
  | some r =>
      rw [refresh_of_some there]
      refine (Table.get?_insert _ _ _ _).trans ?_
      split
      · next same => simp [same, there]
      · rfl

theorem frame_refresh (board : PolicyBoard) (other : Nat) :
    (board.refresh other).2.newest = board.newest ∧
    (board.refresh other).2.nextReader = board.nextReader ∧
      (board.refresh other).2.subscribers = board.subscribers := by
  cases there : board.reader? other with
  | none =>
      rw [refresh_of_none there]
      exact ⟨rfl, rfl, rfl⟩
  | some r =>
      rw [refresh_of_some there]
      exact ⟨rfl, rfl, rfl⟩

namespace Listed

theorem start (initial : BucketPolicy) : ({ newest := initial } : PolicyBoard).Listed where
  nodup := List.nodup_nil
  listed _ there := absurd rfl there
  below _ mem := nomatch mem

theorem publish (h : board.Listed) (policy : BucketPolicy) : (board.publish policy).Listed := by
  have kept : (board.publish policy).subscribers =
      board.subscribers.filter board.readers.contains := handOut_fst
  refine ⟨?_, fun reader there => ?_, fun reader mem => ?_⟩
  · rw [kept]
    exact h.nodup.filter _
  · have present : board.reader? reader ≠ none := by
      intro none
      rw [reader?_publish h, none] at there
      exact there rfl
    rw [kept, List.mem_filter]
    exact ⟨h.listed reader present, Option.isSome_iff_ne_none.mpr present⟩
  · rw [kept] at mem
    exact h.below reader (List.mem_of_mem_filter mem)

theorem subscribe (h : board.Listed) : board.subscribe.2.Listed := by
  refine ⟨?_, fun reader there => ?_, fun reader mem => ?_⟩
  · refine List.nodup_append.mpr ⟨h.nodup, List.nodup_singleton _, fun old mem new hn => ?_⟩
    rw [List.mem_singleton.mp hn]
    exact Nat.ne_of_lt (h.below old mem)
  · refine List.mem_append.mpr ?_
    rw [reader?_subscribe] at there
    split at there
    · next new => exact Or.inr (List.mem_singleton.mpr new)
    · exact Or.inl (h.listed reader there)
  · rcases List.mem_append.mp mem with old | new
    · exact Nat.lt_succ_of_lt (h.below reader old)
    · rw [List.mem_singleton.mp new]
      exact Nat.lt_succ_self _

theorem drop (h : board.Listed) (other : Nat) : (board.drop other).Listed where
  nodup := h.nodup
  listed reader there := by
    rw [reader?_drop] at there
    split at there
    · exact absurd rfl there
    · exact h.listed reader there
  below := h.below

theorem refresh (h : board.Listed) (other : Nat) : (board.refresh other).2.Listed := by
  obtain ⟨-, next, subscribers⟩ := frame_refresh board other
  refine ⟨?_, fun reader there => ?_, fun reader mem => ?_⟩
  · rw [subscribers]
    exact h.nodup
  · rw [subscribers]
    refine h.listed reader fun none => there ?_
    rw [reader?_refresh, none]
    split <;> rfl
  · rw [subscribers] at mem
    rw [next]
    exact h.below reader mem

theorem act (h : board.Listed) (a : Act) : (board.act a).Listed := by
  cases a with
  | publish policy => exact h.publish policy
  | subscribe => exact h.subscribe
  | drop other => exact h.drop other
  | refresh other => exact h.refresh other

theorem after (initial : BucketPolicy) (acts : List Act) : (after initial acts).Listed := by
  induction acts using List.reverseRecOn with
  | nil => exact .start initial
  | append_singleton acts a ih =>
      rw [PolicyBoard.after, List.foldl_append]
      exact ih.act a

end Listed

end Readers

section Seats

structure Seat where
  newest : BucketPolicy
  next : Nat
  held : Option PolicyReader

def seat (board : PolicyBoard) (reader : Nat) : Seat :=
  { newest := board.newest, next := board.nextReader, held := board.reader? reader }

def Seat.act (reader : Nat) (seat : Seat) : Act → Seat
  | .publish policy =>
      { seat with newest := policy, held := seat.held.map (·.deliver policy) }
  | .subscribe =>
      { seat with
        next := seat.next + 1
        held := if reader = seat.next then some { current := seat.newest } else seat.held }
  | .drop other => { seat with held := if reader = other then none else seat.held }
  | .refresh other =>
      { seat with
        held := if reader = other then seat.held.map PolicyReader.refresh else seat.held }

variable {board : PolicyBoard} {initial : BucketPolicy} {acts : List Act} {reader : Nat}
  {seat : Seat} {r : PolicyReader}

theorem seat_act (h : board.Listed) (a : Act) :
    (board.act a).seat reader = (board.seat reader).act reader a := by
  cases a with
  | publish policy => exact congrArg (Seat.mk policy board.nextReader) (reader?_publish h policy)
  | subscribe => exact congrArg (Seat.mk board.newest (board.nextReader + 1)) reader?_subscribe
  | drop other => exact congrArg (Seat.mk board.newest board.nextReader) reader?_drop
  | refresh other =>
      obtain ⟨newest, next, -⟩ := frame_refresh board other
      simp only [act, PolicyBoard.seat, newest, next, reader?_refresh, Seat.act]

theorem seat_append (initial : BucketPolicy) (acts more : List Act) :
    (after initial (acts ++ more)).seat reader =
      more.foldl (Seat.act reader) ((after initial acts).seat reader) := by
  induction more using List.reverseRecOn with
  | nil => rw [List.append_nil]; rfl
  | append_singleton more a ih =>
      rw [← List.append_assoc, List.foldl_append, ← ih]
      refine (congrArg (PolicyBoard.seat · reader) ?_).trans (seat_act (.after initial _) a)
      rw [after, List.foldl_append]
      rfl

theorem Seat.foldl_concerns (seat : Seat) (acts : List Act) :
    acts.foldl (Seat.act reader) seat =
      (acts.filter (Act.concerns reader)).foldl (Seat.act reader) seat := by
  induction acts generalizing seat with
  | nil => rfl
  | cons a acts ih =>
      by_cases concerned : a.concerns reader = true
      · rw [List.filter_cons_of_pos concerned]
        exact ih _
      · have still : seat.act reader a = seat := by
          cases a with
          | publish | subscribe => exact absurd rfl concerned
          | drop other | refresh other =>
              have ne : reader ≠ other := by
                rintro rfl
                exact concerned (decide_eq_true rfl)
              simp only [act, if_neg ne]
        rw [List.filter_cons_of_neg concerned, List.foldl_cons, still]
        exact ih seat

def meet (reader : Nat) (r : PolicyReader) : Act → PolicyReader
  | .publish policy => r.deliver policy
  | .refresh other => if reader = other then r.refresh else r
  | .subscribe | .drop _ => r

structure Seat.Served (reader : Nat) (seat : Seat) (r : PolicyReader) : Prop where
  there : seat.held = some r
  below : reader < seat.next
  newest : r.refresh.current = seat.newest

theorem Seat.Served.act (h : seat.Served reader r) {a : Act} (kept : a ≠ .drop reader) :
    (seat.act reader a).Served reader (meet reader r a) := by
  obtain ⟨there, below, newest⟩ := h
  cases a with
  | publish policy =>
      refine ⟨by simp [Seat.act, there, meet], below, ?_⟩
      simp only [meet, Seat.act, PolicyReader.refresh_deliver]
  | subscribe =>
      exact ⟨by simp [Seat.act, there, meet, Nat.ne_of_lt below], Nat.lt_succ_of_lt below, newest⟩
  | drop other =>
      have ne : reader ≠ other := fun same => kept (same ▸ rfl)
      exact ⟨by simp [Seat.act, there, meet, ne], below, newest⟩
  | refresh other =>
      refine ⟨?_, below, ?_⟩
      · by_cases same : reader = other <;> simp [Seat.act, there, meet, same]
      · by_cases same : reader = other
        · simp only [meet, if_pos same]
          exact newest
        · simp only [meet, if_neg same]
          exact newest

theorem Seat.Served.foldl (h : seat.Served reader r) (kept : .drop reader ∉ acts) :
    (acts.foldl (Seat.act reader) seat).Served reader (acts.foldl (meet reader) r) := by
  induction acts generalizing seat r with
  | nil => exact h
  | cons a acts ih =>
      obtain ⟨first, rest⟩ := not_or.mp (mt List.mem_cons.mpr kept)
      exact ih (h.act (Ne.symm first)) rest

end Seats

section Looking

variable {initial : BucketPolicy} {opening life acts more : List Act} {reader : Nat}
  {r : PolicyReader}

theorem lastPublished_concat (initial : BucketPolicy) (acts : List Act) (a : Act) :
    lastPublished initial (acts ++ [a]) = a.policy?.getD (lastPublished initial acts) := by
  cases h : a.policy? <;> simp [lastPublished, published, h]

theorem newest_after (initial : BucketPolicy) (acts : List Act) :
    (after initial acts).newest = lastPublished initial acts := by
  induction acts using List.reverseRecOn with
  | nil => rfl
  | append_singleton acts a ih =>
      rw [lastPublished_concat, ← ih, after, List.foldl_append]
      cases a with
      | publish | subscribe | drop => rfl
      | refresh other => exact (frame_refresh _ other).1

theorem foldl_meet (still : .refresh reader ∉ acts) :
    acts.foldl (meet reader) r = { r with unread := r.unread ++ published acts } := by
  induction acts generalizing r with
  | nil => simp [published]
  | cons a acts ih =>
      obtain ⟨first, rest⟩ := not_or.mp (mt List.mem_cons.mpr still)
      rw [List.foldl_cons, ih rest]
      cases a with
      | publish policy => simp [meet, published, Act.policy?, PolicyReader.deliver]
      | subscribe | drop => rfl
      | refresh other =>
          have ne : reader ≠ other := fun same => first (same ▸ rfl)
          simp only [meet, if_neg ne]
          rfl

theorem unread_foldl_meet (looked : acts = [] ∨ acts.getLast? = some (.refresh reader))
    (nothing : r.unread = []) : (acts.foldl (meet reader) r).unread = [] := by
  rcases looked with rfl | last
  · exact nothing
  · obtain ⟨acts, rfl⟩ := List.getLast?_eq_some_iff.mp last
    rw [List.foldl_append]
    simp [meet, PolicyReader.refresh]

theorem Stays.served (h : Stays initial opening life reader) :
    ((after initial (opening ++ .subscribe :: life)).seat reader).Served reader
      (life.foldl (meet reader) { current := lastPublished initial opening }) := by
  rw [seat_append, List.foldl_cons]
  refine Seat.Served.foldl ⟨?_, ?_, ?_⟩ h.kept
  · rw [← newest_after]
    exact if_pos h.subscribed.symm
  · exact h.subscribed ▸ Nat.lt_succ_self _
  · exact (newest_after initial opening).symm

theorem mem_published {policy : BucketPolicy} :
    policy ∈ published acts ↔ .publish policy ∈ acts := by
  rw [published, List.mem_filterMap]
  constructor
  · rintro ⟨a, mem, same⟩
    cases a with
    | publish => exact Option.some.inj same ▸ mem
    | subscribe | drop | refresh => cases same
  · exact fun mem => ⟨_, mem, rfl⟩

theorem isStale_iff : r.isStale = true ↔ ∃ policy, policy ∈ r.unread := by
  cases unread : r.unread with
  | nil => simp [PolicyReader.isStale, unread]
  | cons policy rest => simp [PolicyReader.isStale, unread]

end Looking

theorem distribution : Distribution where
  begins initial opening reader stays := congrArg (Option.map _) stays.served.there
  newest initial opening life reader stays := by
    have served := stays.served
    rw [snapshot?, reader?_refresh, if_pos rfl]
    refine (congrArg (Option.map _ <| Option.map _ ·) served.there).trans (congrArg some ?_)
    exact served.newest.trans (newest_after _ _)
  told initial opening life since reader stays looked still := by
    have served := stays.served
    have nothing := unread_foldl_meet (r := { current := lastPublished initial opening }) looked rfl
    rw [List.foldl_append, foldl_meet still, nothing, List.nil_append] at served
    rw [refresh_of_some served.there, isStale_iff]
    exact exists_congr fun _ => mem_published
  steady initial opening life more reader stays still := by
    have kept : .drop reader ∉ life := fun mem => stays.kept (List.mem_append_left _ mem)
    have before := (Stays.served ⟨stays.subscribed, kept⟩).there
    have behind := stays.served.there
    rw [List.foldl_append, foldl_meet still] at behind
    exact ⟨_, congrArg (Option.map _) before, congrArg (Option.map _) behind⟩
  apart initial acts acts' reader same := by
    -- What concerns others passes by the seat, so it can be left out of the acts.
    have alone (acts : List Act) : (after initial acts).seat reader =
        (acts.filter (Act.concerns reader)).foldl (Seat.act reader)
          ((after initial []).seat reader) :=
      (seat_append initial [] acts).trans (Seat.foldl_concerns _ acts)
    have seats : (after initial acts).seat reader = (after initial acts').seat reader := by
      rw [alone acts, alone acts', same]
    have readers : (after initial acts).reader? reader = (after initial acts').reader? reader :=
      congrArg Seat.held seats
    exact ⟨readers, by rw [refresh_fst, refresh_fst, readers]⟩
  tabled := BucketPolicy.tabled

example : ((after {} [.subscribe, .subscribe, .publish (.setTtl {} [1] [2] .never), .drop 0,
    .publish {}]).refresh 1).1 = true := by decide

end ReadThrough.PolicyBoard
