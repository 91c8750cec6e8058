import ReadThrough.Proofs.Lines

namespace ReadThrough.Proxy

def Lawful (w : World) : Proxy → List Move → Prop
  | _, [] => True
  | p, move :: moves => move.Expected p ∧ Lawful w (move.apply w p) moves

section Lawful

variable {w : World} {p : Proxy}

theorem lawful_append {before after : List Move} :
    Lawful w p (before ++ after) ↔ Lawful w p before ∧ Lawful w (play w p before) after := by
  induction before generalizing p with
  | nil => simp [Lawful]
  | cons move before ih => simp [Lawful, ih, and_assoc]

theorem lawful_of_forall {moves : List Move} (h : ∀ move ∈ moves, ∀ p, move.Expected p) :
    Lawful w p moves := by
  induction moves generalizing p with
  | nil => trivial
  | cons move moves ih =>
      exact ⟨h move List.mem_cons_self p, ih fun m hm => h m (List.mem_cons_of_mem _ hm)⟩

theorem lawful_cacheLossMoves (server : Nat) : Lawful w p (cacheLossMoves p server) := by
  refine lawful_of_forall ?_
  intro move hm q
  rcases List.mem_cons.mp hm with rfl | hm
  · trivial
  · obtain ⟨entry, -, rfl⟩ := List.mem_map.mp hm
    trivial

theorem lawful_storeCloseMoves (server : Nat) (why : Failure) :
    Lawful w p (storeCloseMoves p server why) := by
  refine lawful_of_forall ?_
  intro move hm q
  rcases List.mem_cons.mp hm with rfl | hm
  · trivial
  · rcases List.mem_cons.mp hm with rfl | hm
    · trivial
    · obtain ⟨entry, -, rfl⟩ := List.mem_map.mp hm
      trivial

theorem lawful_cacheMoves (server : Nat) (ending : Ending) (values : List Resp.Value) :
    Lawful w p (cacheMoves w server ending values p) := by
  have closes : ∀ q : Proxy, Lawful w q (.cacheProtest server :: cacheLossMoves q server) :=
    fun q => ⟨trivial, lawful_cacheLossMoves (p := q.emit (.closeCache server)) server⟩
  induction values generalizing p with
  | nil =>
      cases ending with
      | waiting rest => exact ⟨trivial, trivial⟩
      | refused why => exact closes p
  | cons value values ih =>
      unfold cacheMoves
      cases hp : (p.cacheLink server).pending with
      | nil => exact closes p
      | cons entry pending => exact ⟨by simp [Move.Expected, hp], ih⟩

theorem lawful_storeMoves (server : Nat) (ending : Ending) (frames : List Store.Frame) :
    Lawful w p (storeMoves w server ending frames p) := by
  induction frames generalizing p with
  | nil =>
      cases ending with
      | waiting rest => exact ⟨trivial, trivial⟩
      | refused why => exact lawful_storeCloseMoves server why
  | cons frame frames ih =>
      unfold storeMoves
      cases hp : (p.storeLink server).pending with
      | nil => exact lawful_storeCloseMoves server _
      | cons entry pending =>
          refine ⟨by simp [Move.Expected, hp], ?_⟩
          split
          · exact ih
          · split
            · exact lawful_storeCloseMoves server _
            · exact ih

theorem lawful_moves (event : Event) : Lawful w p (moves w p event) := by
  cases event with
  | cacheData server data => exact lawful_cacheMoves server _ _
  | storeData server data => exact lawful_storeMoves server _ _
  | clientData | command | clientClosed | cacheClosed | storeClosed | storeTimeout | policy
  | drain =>
      refine lawful_of_forall ?_
      intro move hm q
      cases arises_of_mem hm <;> trivial

theorem lawful_course (events : List Event) : Lawful w p (course w p events) := by
  induction events generalizing p with
  | nil => trivial
  | cons event events ih =>
      refine lawful_append.mpr ⟨lawful_moves event, ?_⟩
      rw [play_moves]
      exact ih

end Lawful

namespace Line

variable {σ μ ε : Type} {line : Line σ μ ε} {w : World} {p : Proxy}

theorem follows_epoch
    (keeps : ∀ p move, SoundOperations p → move.Expected p → line.Kept w p move)
    {moves : List Move} {epoch : Epoch μ} (t : Tidy p []) (lawful : Lawful w p moves)
    (h : line.Follows epoch p) : line.Follows (line.epoch w p epoch moves) (play w p moves) := by
  induction moves generalizing p epoch with
  | nil => exact h
  | cons move moves ih =>
      obtain ⟨expected, lawful⟩ := lawful
      exact ih (t.apply w move) lawful (h.advance (keeps p move t.sound expected))

def Takes (line : Line σ μ ε) (arrivals : List σ) (moves : List Move) : Prop :=
  ∃ taken left rest, arrivals = taken ++ left ∧ moves = taken.map line.answer ++ rest ∧
    (∀ move ∈ rest, line.passage move ≠ .answer) ∧
    (left ≠ [] → ∃ more, rest = line.protest :: line.loss :: more)

theorem Takes.nil {moves : List Move} (h : ∀ move ∈ moves, line.passage move ≠ .answer) :
    line.Takes [] moves :=
  ⟨[], [], moves, rfl, rfl, h, fun h => absurd rfl h⟩

theorem Takes.cons {what : σ} {arrivals : List σ} {moves : List Move}
    (h : line.Takes arrivals moves) :
    line.Takes (what :: arrivals) (line.answer what :: moves) := by
  obtain ⟨taken, left, rest, rfl, rfl, answers, torn⟩ := h
  exact ⟨what :: taken, left, rest, rfl, rfl, answers, torn⟩

theorem Takes.refuse {arrivals : List σ} {moves : List Move}
    (h : ∀ move ∈ line.protest :: line.loss :: moves, line.passage move ≠ .answer) :
    line.Takes arrivals (line.protest :: line.loss :: moves) :=
  ⟨[], arrivals, _, rfl, rfl, h, fun _ => ⟨moves, rfl⟩⟩

theorem Takes.torn {taken left : List σ} {what : σ} {moves : List Move}
    (h : line.Takes (taken ++ what :: left) moves)
    (answers : ∀ what, line.passage (line.answer what) = .answer)
    (before : taken.map line.answer <+: moves)
    (last : ∀ what, ¬ taken.map line.answer ++ [line.answer what] <+: moves) :
    ∃ more, moves = taken.map line.answer ++ line.protest :: line.loss :: more := by
  obtain ⟨first, others, rest, arrived, rfl, none, torn⟩ := h
  rcases List.append_eq_append_iff.mp arrived with ⟨more, rfl, ho⟩ | ⟨more, rfl, rfl⟩
  · cases more with
    | nil =>
        obtain ⟨more, rfl⟩ := torn (by rintro rfl; cases ho)
        exact ⟨more, by simp⟩
    | cons next more =>
        refine absurd ?_ (last next)
        exact ⟨more.map line.answer ++ rest, by simp⟩
  · cases more with
    | nil =>
        obtain ⟨more, rfl⟩ := torn (by simp)
        exact ⟨more, by simp⟩
    | cons next more =>
        rw [List.map_append, List.prefix_append_right_inj] at before
        have stray : line.answer next ∈ rest := before.subset (by simp)
        exact absurd (answers next) (none _ stray)

structure Paired (line : Line σ μ ε) (w : World) (p : Proxy) (events : List Event) : Prop
    extends Unrolled w p events where
  follows : ∀ ms, ms <+: course w p events → line.Follows (line.epoch w p {} ms) (play w p ms)
  delivered : ∀ ms what, ms ++ [line.answer what] <+: course w p events →
    ∃ message, (line.epoch w p {} ms).sent[(line.epoch w p {} ms).answered]? = some message ∧
      (line.answer what).apply w (play w p ms) = line.deliver w (play w p ms) message what
  taken : ∀ before event after, events = before ++ event :: after →
    line.Takes (line.arrivals (p.run w before) event) (moves w (p.run w before) event)
  beyond : ∀ before event after taken what left, events = before ++ event :: after →
    line.arrivals (p.run w before) event = taken ++ what :: left →
    taken.map line.answer <+: moves w (p.run w before) event →
    ∀ epoch, epoch = line.epoch w p {} (course w p before ++ taken.map line.answer) →
      epoch.answered = epoch.sent.length →
      ∃ more, moves w (p.run w before) event =
        taken.map line.answer ++ line.protest :: line.loss :: more

end Line

section CacheLine

variable {w : World} {server : Nat} {ending : Ending}

theorem not_answer_cacheCloseMoves (p : Proxy) :
    ∀ move ∈ Move.cacheProtest server :: cacheLossMoves p server,
      (cacheLine server).passage move ≠ .answer := by
  intro move hm passage
  obtain ⟨value, rfl⟩ := (passage_cacheLine_eq_answer move server).mp passage
  simp [cacheLossMoves] at hm

theorem takes_cacheMoves (p : Proxy) (values : List Resp.Value) :
    (cacheLine server).Takes values (cacheMoves w server ending values p) := by
  induction values generalizing p with
  | nil =>
      cases ending with
      | waiting rest => exact .nil (by simp [cacheMoves, cacheLine])
      | refused why => exact .nil (not_answer_cacheCloseMoves p)
  | cons value values ih =>
      unfold cacheMoves
      split
      · exact .refuse (not_answer_cacheCloseMoves p)
      · exact .cons (ih _)

end CacheLine

section StoreLine

variable {w : World} {server : Nat} {ending : Ending}

theorem not_answer_storeCloseMoves (p : Proxy) (why : Failure) :
    ∀ move ∈ storeCloseMoves p server why, (storeLine server).passage move ≠ .answer := by
  intro move hm passage
  obtain ⟨frame, rfl⟩ := (passage_storeLine_eq_answer move server).mp passage
  simp [storeCloseMoves] at hm

theorem takes_storeMoves (p : Proxy) (frames : List Store.Frame) :
    (storeLine server).Takes frames (storeMoves w server ending frames p) := by
  induction frames generalizing p with
  | nil =>
      cases ending with
      | waiting rest => exact .nil (by simp [storeMoves, storeLine])
      | refused why => exact .nil (not_answer_storeCloseMoves p why)
  | cons frame frames ih =>
      unfold storeMoves
      split
      · exact .refuse (not_answer_storeCloseMoves p _)
      · refine .cons ?_
        split
        · exact ih _
        · split
          · exact .refuse (not_answer_storeCloseMoves _ _)
          · exact ih _

end StoreLine

namespace Line

variable {σ μ ε : Type} {line : Line σ μ ε} {w : World} {p : Proxy} {events : List Event}

structure Orderly (line : Line σ μ ε) (w : World) : Prop where
  answer : ∀ what, line.passage (line.answer what) = .answer
  kept : ∀ p move, SoundOperations p → move.Expected p → line.Kept w p move
  delivers : ∀ p what message rest, line.pending p = line.entry message :: rest →
    (line.answer what).apply w p = line.deliver w p message what
  takes : ∀ p event, line.Takes (line.arrivals p event) (moves w p event)

theorem epoch_nil_follows (h : line.pending p = []) : line.Follows {} p :=
  ⟨Nat.le_refl _, h⟩

theorem paired_of_orderly (h : line.Orderly w) (t : Tidy p []) (fresh : line.pending p = []) :
    line.Paired w p events := by
  have follows : ∀ ms, ms <+: course w p events →
      line.Follows (line.epoch w p {} ms) (play w p ms) := by
    rintro ms ⟨rest, hm⟩
    have lawful : Lawful w p (ms ++ rest) := hm ▸ lawful_course events
    exact follows_epoch h.kept t (lawful_append.mp lawful).1 (epoch_nil_follows fresh)
  have awaited : ∀ ms what, ms ++ [line.answer what] <+: course w p events →
      (line.epoch w p {} ms).answered < (line.epoch w p {} ms).sent.length := by
    rintro ms what ⟨rest, hm⟩
    have lawful : Lawful w p (ms ++ [line.answer what] ++ rest) := hm ▸ lawful_course events
    have expected := (lawful_append.mp (lawful_append.mp lawful).1).2.1
    refine (follows ms ⟨[line.answer what] ++ rest, by rw [← hm, List.append_assoc]⟩).answered_lt ?_
    exact (h.kept _ _ (t.play w ms).sound expected).awaited (h.answer what)
  refine ⟨unrolled_of_tidy w t events, follows, ?_, ?_, ?_⟩
  · intro ms what hm
    have lt := awaited ms what hm
    refine ⟨_, List.getElem?_eq_getElem lt, ?_⟩
    have queue := (follows ms ((List.prefix_append _ _).trans hm)).pending_eq_cons lt
    exact h.delivers _ what _ _ queue
  · intro before event after _
    exact h.takes _ event
  · intro before event after taken what left he arrived prefixed epoch hepoch all
    subst he hepoch
    have takes := h.takes (p.run w before) event
    rw [arrived] at takes
    refine takes.torn h.answer prefixed ?_
    intro next hn
    have lt := awaited (course w p before ++ taken.map line.answer) next (by
      rw [course_append, List.append_assoc, List.prefix_append_right_inj, course]
      exact hn.trans (List.prefix_append _ _))
    omega

end Line

theorem orderly_cacheLine (w : World) (server : Nat) : (cacheLine server).Orderly w where
  answer value := (passage_cacheLine_eq_answer _ server).mpr ⟨value, rfl⟩
  kept p move := kept_cacheLine move server w
  delivers p value message rest queue := by
    have pending : (p.cacheLink server).pending = message.1 :: rest := queue
    simp [cacheLine, Move.apply, pendingCache, pending]
  takes p event := by
    have others : (∀ data, event ≠ .cacheData server data) →
        (cacheLine server).Takes [] (moves w p event) := by
      intro other
      refine .nil ?_
      intro move hm passage
      obtain ⟨value, rfl⟩ := (passage_cacheLine_eq_answer move server).mp passage
      cases arises_of_mem hm with
      | cacheAnswer server data value => exact other data rfl
    cases event with
    | cacheData s data =>
        by_cases same : s = server
        · subst same
          have arrivals : (cacheLine s).arrivals p (.cacheData s data) =
              (Resp.reader.stream ((p.cacheLink s).inbound.append data).bytes).1 := if_pos rfl
          rw [arrivals]
          exact takes_cacheMoves p _
        · have arrivals : (cacheLine server).arrivals p (.cacheData s data) = [] := if_neg same
          rw [arrivals]
          exact others (by simp [same])
    | _ => exact others (by simp)

theorem orderly_storeLine (w : World) (server : Nat) : (storeLine server).Orderly w where
  answer frame := (passage_storeLine_eq_answer _ server).mpr ⟨frame, rfl⟩
  kept p move := kept_storeLine move server w
  delivers p frame message rest queue := by
    have pending : (p.storeLink server).pending = (message.1, message.2.kind) :: rest := queue
    simp [storeLine, Move.apply, pendingStore, pending]
  takes p event := by
    have others : (∀ data, event ≠ .storeData server data) →
        (storeLine server).Takes [] (moves w p event) := by
      intro other
      refine .nil ?_
      intro move hm passage
      obtain ⟨frame, rfl⟩ := (passage_storeLine_eq_answer move server).mp passage
      cases arises_of_mem hm with
      | storeAnswer server data frame => exact other data rfl
    cases event with
    | storeData s data =>
        by_cases same : s = server
        · subst same
          have arrivals : (storeLine s).arrivals p (.storeData s data) =
              (Store.Frame.reader.stream ((p.storeLink s).inbound.append data).bytes).1 :=
            if_pos rfl
          rw [arrivals]
          exact takes_storeMoves p _
        · have arrivals : (storeLine server).arrivals p (.storeData s data) = [] := if_neg same
          rw [arrivals]
          exact others (by simp [same])
    | _ => exact others (by simp)

theorem paired_run (w : World) (settings : Settings) (policy : BucketPolicy)
    (events : List Event) (server : Nat) :
    (cacheLine server).Paired w (start settings policy) events ∧
      (storeLine server).Paired w (start settings policy) events := by
  have t := Tidy.start settings policy
  exact ⟨Line.paired_of_orderly (orderly_cacheLine w server) t rfl,
    Line.paired_of_orderly (orderly_storeLine w server) t rfl⟩

end ReadThrough.Proxy
