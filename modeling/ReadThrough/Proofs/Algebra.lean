import ReadThrough.Proofs.Tallies

namespace ReadThrough.Proxy

section Result

variable {w : World} {past past' : History} {p : Proxy} {c : Combination} {client slot : Nat}
  {value value' : Reply}

theorem Combination.Result.of_same (h : c.Result w past value)
    (same : ∀ index time operation news, Hears w past' c.start index time operation news ↔
      Hears w past c.start index time operation news) : c.Result w past' value := by
  cases h with
  | members all =>
      exact .members ⟨all.length, fun at' held => (all.counts at' held).of_same (same _)⟩
  | missing some each =>
      refine .missing some fun index => (each index).trans ?_
      simp only [counts_congr (same index)]

theorem Kept.sets_unique (kept : Kept w past p c client slot) {sets sets' : List (List Bytes)}
    (all : AllCount w past c.start c.sources sets)
    (all' : AllCount w past c.start c.sources sets') : sets = sets' := by
  refine List.ext_getElem (all.length.trans all'.length.symm) fun index lt lt' => ?_
  have at' := List.getElem?_eq_getElem (l := c.sources) (all.length ▸ lt)
  exact kept.single (all.counts at' (List.getElem?_eq_getElem lt))
    (all'.counts at' (List.getElem?_eq_getElem lt'))

theorem Kept.result_unique (kept : Kept w past p c client slot) (h : c.Result w past value)
    (h' : c.Result w past value') : value = value' := by
  have served : ∀ {sets : List (List Bytes)} {lost : Finset Nat},
      AllCount w past c.start c.sources sets → lost.Nonempty →
      ¬ ∀ index, index ∈ lost ↔ ∃ address, c.sources[index]? = some address ∧
        ∀ set, ¬ Counts w past c.start index address set := by
    rintro sets lost all ⟨index, hm⟩ each
    obtain ⟨address, at', none⟩ := (each index).mp hm
    have lt : index < sets.length := all.length ▸ (List.getElem?_eq_some_iff.mp at').1
    exact none _ (all.counts at' (List.getElem?_eq_getElem lt))
  cases h with
  | @members sets all =>
      cases h' with
      | members all' => rw [kept.sets_unique all all']
      | missing some each => exact absurd each (served all some)
  | @missing lost some each =>
      cases h' with
      | members all => exact absurd each (served all some)
      | @missing lost' some' each' =>
          have same : lost = lost' := Finset.ext fun index => (each index).trans (each' index).symm
          rw [same]

end Result

structure Algebraic (w : World) (p : Proxy) (events : List Event) : Prop
    extends Unrolled w p events where
  once : ∀ ms, ms <+: course w p events → ∀ client,
    (tape w (history w p ms) (play w p ms) client).map Prod.fst =
      List.range (session w client (history w p ms)).asked.length
  refused : ∀ ms, ms <+: course w p events → ∀ client slot start op keys why value,
    (session w client (history w p ms)).asked[slot]? = some start →
    ms[start]? = some (.request client (.ok (.algebra op none keys))) →
    keys.mapM Address.parse = .error why →
    ((slot, some value) ∈ tape w (history w p ms) (play w p ms) client ↔
      value = Reply.failure why)
  answered : ∀ ms, ms <+: course w p events → ∀ client slot start op keys sources value,
    (session w client (history w p ms)).asked[slot]? = some start →
    ms[start]? = some (.request client (.ok (.algebra op none keys))) →
    (Command.algebra op none keys).Received →
    keys.mapM Address.parse = .ok sources →
    ((slot, some value) ∈ tape w (history w p ms) (play w p ms) client ↔
      Idle w p ms start ∧ Combination.Result w (history w p ms) ⟨start, op, none, sources⟩ value)

theorem algebra_run (w : World) (settings : Settings) (policy : BucketPolicy)
    (events : List Event) : Algebraic w (start settings policy) events where
  toUnrolled := unrolled_of_tidy w (Tidy.start settings policy) events
  once ms _ client := ((Sessions.start w settings policy).play ms).keys client
  refused := by
    intro ms run client slot start op keys why value asked request unread
    have sessions := Sessions.start w settings policy
    have refuses : ∀ q : Proxy, q.plan (.algebra op none keys) = .error why := by
      intro q
      simp only [plan, unread]
      rfl
    constructor
    · exact refusal_of_given sessions request asked refuses (Trailed.start w settings policy)
    · rintro rfl
      exact given_of_refusal sessions request asked refuses
  answered := by
    intro ms run client slot start op keys sources value asked request received parsed
    have sessions := Sessions.start w settings policy
    have trailed := Trailed.start w settings policy
    have balanced := Balanced.start settings policy
    have planned : (play w (Proxy.start settings policy) (ms.take start)).plan
        (.algebra op none keys) = .ok (.combine op none sources) := by
      simp only [plan, parsed]
      rfl
    obtain ⟨numbers, attended⟩ := attended_of_plan sessions request asked run planned
    have listens : Listens w (Proxy.start settings policy) events ms ⟨start, op, none, sources⟩
        (.algebra op none keys) ⟨client, slot, .combine op none sources, numbers⟩ :=
      ⟨attended, rfl⟩
    have kept := kept_of_run listens sessions trailed balanced fun _ => rfl
    have result : ∀ {value}, (slot, some value) ∈ tape w (history w (Proxy.start settings policy) ms)
        (play w (Proxy.start settings policy) ms) client →
        Combination.Result w (history w (Proxy.start settings policy) ms) ⟨start, op, none, sources⟩
          value := fun given =>
      (Combination.accounts sessions trailed balanced (fun _ => rfl) listens.plan).allowed_of_given
        attended sessions trailed balanced
        (fun same tells dest => (tells dest).of_same same) given rfl
    constructor
    · intro given
      exact ⟨attended.idle_of_given sessions trailed balanced given, result given⟩
    · rintro ⟨idle, due⟩
      have positive : 0 < sources.length :=
        length_of_mapM parsed ▸ Command.keys_of_received received
      obtain ⟨value', given⟩ := attended.given_of_idle sessions trailed balanced
        (fun _ _ hg own there => kept.unfinished hg own there positive) idle
      rw [kept.result_unique due (result given)]
      exact given

end ReadThrough.Proxy
