import Mathlib.Data.List.Induction
import ReadThrough.Proofs.Gathering

namespace ReadThrough.Fragment

inductive Call (κ : Type) where
  | opens (opening : Opening κ)
  | contribute (id : Nat) (part : Part)
  | poll (id : Nat)
  | abandon (client : Nat)

namespace Groups

variable {κ : Type}

def opens (groups : Groups κ) (opening : Opening κ) : Nat × Groups κ :=
  groups.openGroup opening.client opening.total opening.gathered opening.context

def call (groups : Groups κ) : Call κ → Option (Group κ) × Groups κ
  | .opens opening => (none, (groups.opens opening).2)
  | .contribute id part => groups.contribute id part
  | .poll id => groups.poll id
  | .abandon client => (none, groups.abandon client)

def after (calls : List (Call κ)) : Groups κ :=
  calls.foldl (fun groups call => (groups.call call).2) {}

end Groups

inductive Turn where
  | part (part : Part)
  | polled
  | abandoned

def Call.turn? {κ : Type} (id client : Nat) : Call κ → Option Turn
  | .opens _ => none
  | .contribute id' part => if id' = id then some (.part part) else none
  | .poll id' => if id' = id then some .polled else none
  | .abandon client' => if client' = client then some .abandoned else none

inductive Opened {κ : Type} : List (Call κ) → Nat → Opening κ → List Turn → Prop
  | intro (before behind : List (Call κ)) (opening : Opening κ) :
      Opened (before ++ .opens opening :: behind) ((Groups.after before).opens opening).1 opening
        (behind.filterMap (Call.turn? ((Groups.after before).opens opening).1 opening.client))

inductive Continues {κ : Type} (opening : Opening κ) (taken : List Part) : Turn → List Part → Prop
  | took {part : Part} : Fits opening.gathered taken part → taken.length + 1 < opening.total →
      Continues opening taken (.part part) (taken ++ [part])
  | refused {part : Part} : ¬ Fits opening.gathered taken part →
      Continues opening taken (.part part) taken
  | waits : taken.length < opening.total → Continues opening taken .polled taken

inductive Completes {κ : Type} (opening : Opening κ) (taken : List Part) : Turn → List Part → Prop
  | last {part : Part} : Fits opening.gathered taken part → opening.total ≤ taken.length + 1 →
      Completes opening taken (.part part) (taken ++ [part])
  | polled : opening.total ≤ taken.length → Completes opening taken .polled taken

inductive Stands {κ : Type} (opening : Opening κ) : List Turn → List Part → Prop
  | opened : Stands opening [] []
  | next {turns : List Turn} {turn : Turn} {taken taken' : List Part} : Stands opening turns taken →
      Continues opening taken turn taken' → Stands opening (turns ++ [turn]) taken'

section Turns

variable {κ : Type} {calls : List (Call κ)} {call : Call κ} {id : Nat} {opening : Opening κ}
  {turns : List Turn} {turn : Turn} {taken taken' : List Part} {groups : Groups κ} {group : Group κ}

theorem stands_concat_iff : Stands opening (turns ++ [turn]) taken' ↔
    ∃ taken, Stands opening turns taken ∧ Continues opening taken turn taken' := by
  constructor
  · intro stands
    generalize same : turns ++ [turn] = all at stands
    cases stands with
    | opened => exact absurd same (List.concat_ne_nil turn turns)
    | next stands continues =>
        obtain ⟨rfl, one⟩ := List.append_inj' same rfl
        cases one
        exact ⟨_, stands, continues⟩
  · rintro ⟨taken, stands, continues⟩
    exact .next stands continues

theorem Groups.after_concat :
    Groups.after (calls ++ [call]) = ((Groups.after calls).call call).2 := by
  rw [Groups.after, List.foldl_append]
  rfl

inductive Turned (opening : Opening κ) (taken : List Part) (turn : Turn) :
    Option (Group κ) → Option (Group κ) → Prop
  | continues {taken' : List Part} {group : Group κ} : Continues opening taken turn taken' →
      Settles opening taken' group → Turned opening taken turn none (some group)
  | completes {taken' : List Part} {done : Group κ} : Completes opening taken turn taken' →
      Settles opening taken' done → Turned opening taken turn (some done) none
  | abandoned : turn = .abandoned → Turned opening taken turn none none

theorem turned_poll (held : groups.table.get? id = some group)
    (settles : Settles opening taken group) :
    Turned opening taken .polled (groups.poll id).1 ((groups.poll id).2.table.get? id) := by
  by_cases complete : group.isComplete = true
  · have polled : groups.poll id =
        (some group, { groups with table := groups.table.erase id }) := by
      simp only [Groups.poll, held, if_pos complete]
    rw [polled, Table.get?_erase_self]
    exact .completes (.polled (settles.isComplete_iff.mp complete)) settles
  · have waits : groups.poll id = (none, groups) := by
      simp only [Groups.poll, held, if_neg complete]
    rw [waits, held]
    exact .continues (.waits (Nat.lt_of_not_le (mt settles.isComplete_iff.mpr complete))) settles

theorem turned_contribute {part : Part} (held : groups.table.get? id = some group)
    (settles : Settles opening taken group) : Turned opening taken (.part part)
      (groups.contribute id part).1 ((groups.contribute id part).2.table.get? id) := by
  by_cases fits : Fits opening.gathered taken part
  · obtain ⟨grown, accepted, settles'⟩ := settles.accept fits
    have taken' : (groups.table.get? id).bind (·.accept? part) = some grown := by
      rw [held, Option.bind_some, accepted]
    have enough := settles'.isComplete_iff
    rw [List.length_append, List.length_singleton] at enough
    obtain ⟨_, grown', held', accepted', contributed⟩ :=
      Groups.contribute_of_accepts (Option.isSome_iff_exists.mpr ⟨grown, taken'⟩)
    cases held.symm.trans held'
    cases accepted.symm.trans accepted'
    obtain ⟨waits, contributed⟩ | ⟨complete, contributed⟩ := contributed
    · rw [contributed, Table.get?_insert_self]
      rw [← Bool.not_eq_true, enough, Nat.not_le] at waits
      exact .continues (.took fits waits) settles'
    · rw [contributed, Table.get?_erase_self]
      exact .completes (.last fits (enough.mp complete)) settles'
  · have refused : groups.contribute id part = (none, groups) := by
      simp only [Groups.contribute, held, Option.bind_some, settles.accept?_eq_none fits]
    rw [refused, held]
    exact .continues (.refused fits) settles

theorem turned_call (held : groups.table.get? id = some group)
    (settles : Settles opening taken group) (turn' : call.turn? id opening.client = some turn) :
    Turned opening taken turn (groups.call call).1 ((groups.call call).2.table.get? id) := by
  cases call with
  | opens opening' => cases turn'
  | contribute id' part =>
      obtain ⟨rfl, rfl⟩ : id' = id ∧ .part part = turn := by
        simpa [Call.turn?] using turn'
      exact turned_contribute held settles
  | poll id' =>
      obtain ⟨rfl, rfl⟩ : id' = id ∧ .polled = turn := by
        simpa [Call.turn?] using turn'
      exact turned_poll held settles
  | abandon client =>
      obtain ⟨rfl, rfl⟩ : client = opening.client ∧ .abandoned = turn := by
        simpa [Call.turn?] using turn'
      have gone : (groups.abandon opening.client).table.get? id = none := by
        rw [Groups.abandon, Table.get?_filter, held]
        simp [Option.filter, settles.client]
      exact gone.symm ▸ .abandoned rfl

theorem Groups.get?_poll_of_ne {id' : Nat} (ne : id' ≠ id) :
    (groups.poll id').2.table.get? id = groups.table.get? id := by
  rcases groups.poll_cases id' with same | ⟨group, -, polled⟩
  · rw [same]
  · rw [polled, Table.get?_erase_of_ne _ (Ne.symm ne)]

theorem Groups.get?_contribute_of_ne {id' : Nat} {part : Part} (ne : id' ≠ id) :
    (groups.contribute id' part).2.table.get? id = groups.table.get? id := by
  unfold Groups.contribute
  split
  · rfl
  · rw [Groups.get?_poll_of_ne ne, Table.get?_insert_of_ne _ _ (Ne.symm ne)]

theorem get?_call_of_apart (old : ∀ opening, call = .opens opening → id ≠ (groups.opens opening).1)
    (apart : ∀ group, groups.table.get? id = some group → call.turn? id group.client = none) :
    (groups.call call).2.table.get? id = groups.table.get? id := by
  cases call with
  | opens opening => exact Table.get?_insert_of_ne _ _ (old opening rfl)
  | contribute id' part =>
      by_cases same : id' = id
      · cases held : groups.table.get? id with
        | none => simp only [Groups.call, Groups.contribute, same, held, Option.bind_none]
        | some group => exact absurd (apart group held) (by simp [Call.turn?, same])
      · exact Groups.get?_contribute_of_ne same
  | poll id' =>
      by_cases same : id' = id
      · cases held : groups.table.get? id with
        | none => simp only [Groups.call, Groups.poll, same, held]
        | some group => exact absurd (apart group held) (by simp [Call.turn?, same])
      · exact Groups.get?_poll_of_ne same
  | abandon client =>
      change (groups.table.filter _).get? id = _
      rw [Table.get?_filter]
      cases held : groups.table.get? id with
      | none => rfl
      | some group =>
          have ne : ¬ client = group.client := fun same => by
            have none := apart group held
            rw [Call.turn?, if_pos same] at none
            cases none
          simp [Option.filter, Ne.symm ne]

theorem Groups.next_call (groups : Groups κ) (call : Call κ) :
    groups.next ≤ (groups.call call).2.next := by
  cases call with
  | opens opening => exact Nat.le_succ _
  | contribute id part => exact Nat.le_of_eq (groups.next_contribute id part).symm
  | poll id => exact Nat.le_of_eq (groups.next_poll id).symm
  | abandon client => exact Nat.le_refl _

theorem opened_concat_iff : Opened (calls ++ [call]) id opening turns ↔
    (∃ earlier, Opened calls id opening earlier ∧
      turns = earlier ++ (call.turn? id opening.client).toList) ∨
    call = .opens opening ∧ id = ((Groups.after calls).opens opening).1 ∧ turns = [] := by
  have last : ∀ id client, List.filterMap (Call.turn? id client) [call] =
      (call.turn? id client).toList := by
    intro id client
    cases none : call.turn? id client <;> simp [none]
  constructor
  · intro opened
    generalize same : calls ++ [call] = all at opened
    obtain ⟨before, behind, opening⟩ := opened
    rcases concat_eq_append_cons_iff.mp same with ⟨rfl, rfl, rfl⟩ | ⟨rest, rfl, rfl⟩
    · exact Or.inr ⟨rfl, rfl, rfl⟩
    · refine Or.inl ⟨_, .intro before rest opening, ?_⟩
      rw [List.filterMap_append, last]
  · rintro (⟨earlier, ⟨before, behind, opening⟩, rfl⟩ | ⟨rfl, rfl, rfl⟩)
    · have opened := Opened.intro before (behind ++ [call]) opening
      rwa [List.filterMap_append, last, ← List.cons_append, ← List.append_assoc] at opened
    · exact .intro calls [] opening

section Unique

variable {taken₁ taken₂ : List Part}

theorem Continues.unique (h : Continues opening taken turn taken₁)
    (h' : Continues opening taken turn taken₂) : taken₁ = taken₂ := by
  cases h with
  | took fits =>
      cases h' with
      | took => rfl
      | refused unfit => exact absurd fits unfit
  | refused unfit =>
      cases h' with
      | took fits => exact absurd fits unfit
      | refused => rfl
  | waits => cases h'; rfl

theorem Completes.unique (h : Completes opening taken turn taken₁)
    (h' : Completes opening taken turn taken₂) : taken₁ = taken₂ := by
  cases h <;> cases h' <;> rfl

theorem Completes.not_continues (h : Completes opening taken turn taken₁) :
    ¬ Continues opening taken turn taken₂ := by
  intro h'
  cases h with
  | last fits enough =>
      cases h' with
      | took _ few => exact absurd enough (Nat.not_le.mpr few)
      | refused unfit => exact unfit fits
  | polled enough =>
      cases h' with
      | waits few => exact absurd enough (Nat.not_le.mpr few)

theorem Stands.unique (h : Stands opening turns taken₁) (h' : Stands opening turns taken₂) :
    taken₁ = taken₂ := by
  induction h generalizing taken₂ with
  | opened =>
      generalize same : ([] : List Turn) = none at h'
      cases h' with
      | opened => rfl
      | @next turns turn => exact absurd same.symm (List.concat_ne_nil turn turns)
  | next _ continues ih =>
      obtain ⟨taken, stands, continues'⟩ := stands_concat_iff.mp h'
      obtain rfl := ih stands
      exact continues.unique continues'

end Unique

inductive Holds (opening : Opening κ) (turns : List Turn) : Option (Group κ) → Prop
  | stands {taken : List Part} {group : Group κ} : Stands opening turns taken →
      Settles opening taken group → Holds opening turns (some group)
  | gone : (∀ taken, ¬ Stands opening turns taken) → Holds opening turns none

structure Ledger (calls : List (Call κ)) : Prop where
  below : ∀ id opening turns, Opened calls id opening turns → id < (Groups.after calls).next
  known : ∀ id group, (Groups.after calls).table.get? id = some group →
    ∃ opening turns, Opened calls id opening turns
  holds : ∀ id opening turns, Opened calls id opening turns →
    Holds opening turns ((Groups.after calls).table.get? id)

theorem Holds.turned {answer held : Option (Group κ)} (stands : Stands opening turns taken)
    (turned : Turned opening taken turn answer held) : Holds opening (turns ++ [turn]) held := by
  cases turned with
  | continues continues settles => exact .stands (.next stands continues) settles
  | completes completes =>
      refine .gone fun taken' stands' => ?_
      obtain ⟨taken'', stands'', continues⟩ := stands_concat_iff.mp stands'
      obtain rfl := stands.unique stands''
      exact completes.not_continues continues
  | abandoned same =>
      refine .gone fun taken' stands' => ?_
      obtain ⟨taken'', -, continues⟩ := stands_concat_iff.mp stands'
      subst same
      cases continues

theorem Holds.apart (holds : Holds opening turns (groups.table.get? id))
    (other : call.turn? id opening.client = none) :
    ∀ group, groups.table.get? id = some group → call.turn? id group.client = none := by
  intro group held
  rw [held] at holds
  cases holds with
  | stands _ settles => rw [settles.client, other]

theorem Holds.later (holds : Holds opening turns (groups.table.get? id)) (lt : id < groups.next) :
    Holds opening (turns ++ (call.turn? id opening.client).toList)
      ((groups.call call).2.table.get? id) := by
  have old : ∀ opening, call = .opens opening → id ≠ (groups.opens opening).1 :=
    fun _ _ => Nat.ne_of_lt lt
  cases concerns : call.turn? id opening.client with
  | none =>
      rw [get?_call_of_apart old (holds.apart concerns), Option.toList_none, List.append_nil]
      exact holds
  | some turn =>
      generalize held : groups.table.get? id = entry at holds
      cases holds with
      | stands stands settles => exact .turned stands (turned_call held settles concerns)
      | gone ended =>
          rw [get?_call_of_apart old (by rw [held]; exact nofun), held]
          refine .gone fun taken stands => ?_
          obtain ⟨taken', stands', -⟩ := stands_concat_iff.mp stands
          exact ended taken' stands'

theorem not_opened_nil : ¬ Opened ([] : List (Call κ)) id opening turns := by
  intro opened
  generalize same : ([] : List (Call κ)) = none at opened
  cases opened
  exact List.append_ne_nil_of_right_ne_nil _ (List.cons_ne_nil _ _) same.symm

theorem ledger (calls : List (Call κ)) : Ledger calls := by
  -- On the last call: whatever the calls before it have opened stands below the next number.
  induction calls using List.reverseRecOn with
  | nil =>
      exact ⟨fun _ _ _ opened => absurd opened not_opened_nil, (fun _ _ held => nomatch held),
        fun _ _ _ opened => absurd opened not_opened_nil⟩
  | append_singleton calls call ih =>
      have grows := (Groups.after calls).next_call call
      refine ⟨?_, ?_, ?_⟩ <;> intro id <;> rw [Groups.after_concat]
      · intro opening turns opened
        rcases opened_concat_iff.mp opened with ⟨earlier, opened', -⟩ | ⟨rfl, rfl, -⟩
        · exact Nat.lt_of_lt_of_le (ih.below id opening earlier opened') grows
        · exact Nat.lt_succ_self _
      · intro group held
        by_cases now : ∃ opening, call = .opens opening ∧
            id = ((Groups.after calls).opens opening).1
        · obtain ⟨opening, rfl, rfl⟩ := now
          exact ⟨opening, [], opened_concat_iff.mpr (Or.inr ⟨rfl, rfl, rfl⟩)⟩
        · cases before : (Groups.after calls).table.get? id with
          | none =>
              have old : ∀ opening, call = .opens opening →
                  id ≠ ((Groups.after calls).opens opening).1 :=
                fun opening opens same => now ⟨opening, opens, same⟩
              rw [get?_call_of_apart old (by rw [before]; exact nofun), before] at held
              cases held
          | some group' =>
              obtain ⟨opening, turns, opened⟩ := ih.known id group' before
              exact ⟨opening, _, opened_concat_iff.mpr (Or.inl ⟨turns, opened, rfl⟩)⟩
      · intro opening turns opened
        rcases opened_concat_iff.mp opened with ⟨earlier, opened', rfl⟩ | ⟨rfl, rfl, rfl⟩
        · exact (ih.holds id opening earlier opened').later (ih.below id opening earlier opened')
        · have held : (((Groups.after calls).call (.opens opening)).2.table.get?
              ((Groups.after calls).opens opening).1) = some opening.group :=
            Table.get?_insert_self _ _ _
          rw [held]
          exact .stands .opened (settles_nil opening)

theorem Opened.turned (opened : Opened calls id opening turns)
    (stands : Stands opening turns taken) (concerns : call.turn? id opening.client = some turn) :
    Turned opening taken turn ((Groups.after calls).call call).1
      (((Groups.after calls).call call).2.table.get? id) := by
  have holds := (ledger calls).holds id opening turns opened
  generalize held : (Groups.after calls).table.get? id = entry at holds
  cases holds with
  | gone ended => exact absurd stands (ended taken)
  | stands stands' settles =>
      obtain rfl := stands.unique stands'
      exact turned_call held settles concerns

theorem Turned.of_completes {answer held : Option (Group κ)}
    (turned : Turned opening taken turn answer held)
    (completes : Completes opening taken turn taken') :
    ∃ done, answer = some done ∧ Settles opening taken' done := by
  cases turned with
  | continues continues => exact absurd continues completes.not_continues
  | completes completes' settles => exact ⟨_, rfl, completes.unique completes' ▸ settles⟩
  | abandoned same =>
      subst same
      cases completes

theorem Turned.of_continues {answer held : Option (Group κ)}
    (turned : Turned opening taken turn answer held)
    (continues : Continues opening taken turn taken') : answer = none := by
  cases turned with
  | continues | abandoned => rfl
  | completes completes => exact absurd continues completes.not_continues

theorem Turned.of_answer {done : Group κ} {held : Option (Group κ)}
    (turned : Turned opening taken turn (some done) held) :
    held = none ∧ ∃ taken', Completes opening taken turn taken' ∧ Settles opening taken' done := by
  cases turned with
  | completes completes settles => exact ⟨rfl, _, completes, settles⟩

theorem answer_of_none {client : Nat} (none : groups.table.get? id = none)
    (concerns : call.turn? id client = some turn) : (groups.call call).1 = .none := by
  cases call with
  | opens | abandon => rfl
  | contribute id' part =>
      obtain ⟨rfl, -⟩ : id' = id ∧ .part part = turn := by
        simpa [Call.turn?] using concerns
      simp only [Groups.call, Groups.contribute, none, Option.bind_none]
  | poll id' =>
      obtain ⟨rfl, -⟩ : id' = id ∧ .polled = turn := by
        simpa [Call.turn?] using concerns
      simp only [Groups.call, Groups.poll, none]

theorem Opened.later (opened : Opened calls id opening turns) (more : List (Call κ)) :
    Opened (calls ++ more) id opening (turns ++ more.filterMap (Call.turn? id opening.client)) := by
  obtain ⟨before, behind, opening⟩ := opened
  have later := Opened.intro before (behind ++ more) opening
  rwa [List.filterMap_append, ← List.cons_append, ← List.append_assoc] at later

theorem Stands.earlier {more : List Turn} (stands : Stands opening (turns ++ more) taken') :
    ∃ taken, Stands opening turns taken := by
  induction more using List.reverseRecOn generalizing taken' with
  | nil => exact ⟨taken', by rwa [List.append_nil] at stands⟩
  | append_singleton more turn ih =>
      rw [← List.append_assoc] at stands
      obtain ⟨taken, stands, -⟩ := stands_concat_iff.mp stands
      exact ih stands

end Turns

theorem Acceptable.stands {κ : Type} {opening : Opening κ} {parts : List Part}
    (h : Acceptable opening.gathered parts)
    (few : parts.length < opening.total) : Stands opening (parts.map .part) parts := by
  induction parts using List.reverseRecOn with
  | nil => exact .opened
  | append_singleton parts part ih =>
      have few : parts.length + 1 < opening.total := by simpa using few
      rw [List.map_append]
      exact .next (ih h.front (Nat.lt_of_succ_lt few)) (.took h.next few)

structure Served {κ : Type} (calls : List (Call κ)) : Prop where
  handed : ∀ call done, ((Groups.after calls).call call).1 = some done ↔
    ∃ id opening turns turn taken taken', Opened calls id opening turns ∧
      call.turn? id opening.client = some turn ∧ Stands opening turns taken ∧
      Completes opening taken turn taken' ∧ Settles opening taken' done
  once : ∀ id opening turns call, Opened calls id opening turns →
    (call.turn? id opening.client).isSome → ((Groups.after calls).call call).1.isSome →
    ∀ more call', (call'.turn? id opening.client).isSome →
      ((Groups.after (calls ++ call :: more)).call call').1 = none
  exact : ∀ (opening : Opening κ) taken done n, Settles opening taken done →
    opening.gathered = .count n → Int64.minValue.toInt ≤ reckon n taken →
    reckon n taken ≤ Int64.maxValue.toInt →
    ∃ sum, done.gathered = .count sum ∧ sum.toInt = reckon n taken
  refused : ∀ id part, (∀ opening turns taken, Opened calls id opening turns →
      Stands opening turns taken → ¬ Fits opening.gathered taken part) →
    (Groups.after calls).contribute id part = (none, Groups.after calls)
  apart : ∀ id opening turns call, Opened calls id opening turns →
    call.turn? id opening.client = none →
    (Groups.after (calls ++ [call])).table.get? id = (Groups.after calls).table.get? id
  fresh : ∀ id opening turns opening', Opened calls id opening turns →
    id < ((Groups.after calls).opens opening').1
  permuted : ∀ opening parts, Acceptable opening.gathered parts → parts.length = opening.total →
    ∃ done, Settles opening parts done ∧ ∀ front part behind,
      (front ++ part :: behind).Perm parts → ∀ id, Opened calls id opening (front.map .part) →
        ((Groups.after calls).contribute id part).1 = if behind = [] then some done else none

section Answer

variable {κ : Type} {calls : List (Call κ)} {call : Call κ} {id : Nat} {opening : Opening κ}
  {turns : List Turn} {turn : Turn} {taken : List Part} {done : Group κ}

theorem Opened.stands_of_held (opened : Opened calls id opening turns) {group : Group κ}
    (held : (Groups.after calls).table.get? id = some group) :
    ∃ taken, Stands opening turns taken ∧ Settles opening taken group := by
  have holds := (ledger calls).holds id opening turns opened
  rw [held] at holds
  cases holds with
  | stands stands settles => exact ⟨_, stands, settles⟩

theorem stands_of_answer (concerns : ∀ client, call.turn? id client = some turn)
    (answer : ((Groups.after calls).call call).1 = some done) :
    ∃ opening turns taken, Opened calls id opening turns ∧ Stands opening turns taken := by
  cases held : (Groups.after calls).table.get? id with
  | none =>
      rw [answer_of_none held (concerns 0)] at answer
      cases answer
  | some group =>
      obtain ⟨opening, turns, opened⟩ := (ledger calls).known id group held
      obtain ⟨taken, stands, -⟩ := opened.stands_of_held held
      exact ⟨opening, turns, taken, opened, stands⟩

theorem Opened.gone (opened : Opened calls id opening turns)
    (concerns : call.turn? id opening.client = some turn)
    (answer : ((Groups.after calls).call call).1 = some done) (more : List (Call κ)) :
    (Groups.after (calls ++ call :: more)).table.get? id = none := by
  cases held : (Groups.after calls).table.get? id with
  | none =>
      rw [answer_of_none held concerns] at answer
      cases answer
  | some group =>
      obtain ⟨taken, stands, -⟩ := opened.stands_of_held held
      have turned := opened.turned stands concerns
      rw [answer] at turned
      obtain ⟨-, taken', completes, -⟩ := turned.of_answer
      have later := opened.later (call :: more)
      rw [List.filterMap_cons_some concerns, List.append_cons turns] at later
      by_contra there
      obtain ⟨group', held'⟩ := Option.ne_none_iff_exists'.mp there
      obtain ⟨_, stands', -⟩ := later.stands_of_held held'
      obtain ⟨_, stands'⟩ := stands'.earlier
      obtain ⟨_, before, continues⟩ := stands_concat_iff.mp stands'
      obtain rfl := stands.unique before
      exact completes.not_continues continues

theorem answer_eq_some_iff : ((Groups.after calls).call call).1 = some done ↔
    ∃ id opening turns turn taken taken', Opened calls id opening turns ∧
      call.turn? id opening.client = some turn ∧ Stands opening turns taken ∧
      Completes opening taken turn taken' ∧ Settles opening taken' done := by
  constructor
  · intro answer
    obtain ⟨id, turn, concerns⟩ : ∃ id turn, ∀ client, call.turn? id client = some turn := by
      cases call with
      | opens | abandon => cases answer
      | contribute id part => exact ⟨id, .part part, fun _ => if_pos rfl⟩
      | poll id => exact ⟨id, .polled, fun _ => if_pos rfl⟩
    obtain ⟨opening, turns, taken, opened, stands⟩ := stands_of_answer concerns answer
    have turned := opened.turned stands (concerns opening.client)
    rw [answer] at turned
    obtain ⟨-, taken', completes, settles⟩ := turned.of_answer
    exact ⟨id, opening, turns, turn, taken, taken', opened, concerns opening.client, stands,
      completes, settles⟩
  · rintro ⟨id, opening, turns, turn, taken, taken', opened, concerns, stands, completes, settles⟩
    obtain ⟨done', answer, settles'⟩ := (opened.turned stands concerns).of_completes completes
    rw [answer, settles.unique (.refl _) settles']

theorem contribute_of_unfit {part : Part} (unfit : ∀ opening turns taken,
    Opened calls id opening turns → Stands opening turns taken →
      ¬ Fits opening.gathered taken part) :
    (Groups.after calls).contribute id part = (none, Groups.after calls) := by
  cases held : (Groups.after calls).table.get? id with
  | none => simp only [Groups.contribute, held, Option.bind_none]
  | some group =>
      obtain ⟨opening, turns, opened⟩ := (ledger calls).known id group held
      obtain ⟨taken, stands, settles⟩ := opened.stands_of_held held
      have none := settles.accept?_eq_none (unfit opening turns taken opened stands)
      simp only [Groups.contribute, held, Option.bind_some, none]

theorem Opened.answer_of_acceptable {front behind : List Part} {part : Part}
    (opened : Opened calls id opening (front.map .part))
    (acceptable : Acceptable opening.gathered (front ++ part :: behind))
    (all : (front ++ part :: behind).length = opening.total)
    (settles : Settles opening (front ++ part :: behind) done) :
    ((Groups.after calls).contribute id part).1 = if behind = [] then some done else none := by
  rw [List.length_append, List.length_cons] at all
  have stands : Stands opening (front.map .part) front := acceptable.front.stands (by omega)
  rw [List.append_cons] at acceptable
  have fits := acceptable.front.next
  have concerns : (Call.contribute id part : Call κ).turn? id opening.client =
      some (.part part) := if_pos rfl
  have turned := opened.turned stands concerns
  cases behind with
  | nil =>
      rw [List.length_nil] at all
      obtain ⟨done', answer, settles'⟩ := turned.of_completes (.last fits (by omega))
      rw [settles.unique (.refl _) settles']
      exact answer
  | cons next behind =>
      rw [List.length_cons] at all
      exact turned.of_continues (.took fits (by omega))

end Answer

theorem served_calls {κ : Type} (calls : List (Call κ)) : Served calls where
  handed _ _ := answer_eq_some_iff
  once := by
    intro id opening turns call opened concerns answered more call' concerns'
    obtain ⟨turn, concerns⟩ := Option.isSome_iff_exists.mp concerns
    obtain ⟨turn', concerns'⟩ := Option.isSome_iff_exists.mp concerns'
    obtain ⟨done, answered⟩ := Option.isSome_iff_exists.mp answered
    exact answer_of_none (opened.gone concerns answered more) concerns'
  exact := by
    intro opening taken done n settles kind low high
    have gathered := settles.gathered
    rw [kind] at gathered
    generalize done.gathered = held at gathered
    cases gathered
    exact ⟨_, rfl, Int64.toInt_ofInt_of_le low (Int.lt_of_le_of_lt high (by decide))⟩
  refused _ _ := contribute_of_unfit
  apart := by
    intro id opening turns call opened other
    have holds := (ledger calls).holds id opening turns opened
    have lt := (ledger calls).below id opening turns opened
    rw [Groups.after_concat]
    exact get?_call_of_apart (fun _ _ => Nat.ne_of_lt lt) (holds.apart other)
  fresh id opening turns _ opened := (ledger calls).below id opening turns opened
  permuted := by
    intro opening parts acceptable all
    obtain ⟨done, settles⟩ := acceptable.settles opening
    refine ⟨done, settles, fun front part behind perm id opened => ?_⟩
    have acceptable' := acceptable.perm perm
    obtain ⟨done', settles'⟩ := acceptable'.settles opening
    rw [settles.unique perm.symm settles']
    exact opened.answer_of_acceptable acceptable' (perm.length_eq.trans all) settles'

example : ((Groups.after [.opens ⟨7, 2, .count 2, ()⟩, .contribute 1 (.count 1),
    .contribute 1 (.set 0 [])]).contribute 1 .failed).1 =
    some ⟨7, 2, 2, 1, .count 3, ()⟩ := by decide

end ReadThrough.Fragment
