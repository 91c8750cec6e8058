import ReadThrough.Proofs.Trailed

namespace ReadThrough.Proxy

def Hears (w : World) (past : History) (start index time : Nat) (operation : Operation)
    (news : News) : Prop :=
  ∃ p move id group, past[time]? = some (p, move) ∧ move.news? p = some (id, news) ∧
    p.operations.get? id = some operation ∧ operation.target = .fragment group index ∧
    Stems w (past.take time) start id

def Uncached (w : World) (past : History) (start index : Nat) : Prop :=
  ∀ time operation value read, Hears w past start index time operation (.value value) →
    operation.stage = .cacheRead read → Cache.members? value = none

inductive Counts (w : World) (past : History) (start index : Nat) (address : Address) :
    List Bytes → Prop where
  | copy {time : Nat} {operation : Operation} {value : Resp.Value} {members : List Bytes} :
      Hears w past start index time operation (.value value) →
      operation.stage = .cacheRead (.set address .slot) → Cache.members? value = some members →
      Counts w past start index address members
  | bare : Uncached w past start index → address.hasBucket = false →
      Counts w past start index address []
  | stored {time server : Nat} {operation : Operation} {members : List Bytes}
      {context : Option Bytes} : Uncached w past start index → address.hasBucket = true →
      Hears w past start index time operation (.response server (.set members context)) →
      operation.stage = .storeRead (.set address .slot) → Counts w past start index address members

structure AllCount (w : World) (past : History) (start : Nat) (sources : List Address)
    (sets : List (List Bytes)) : Prop where
  length : sets.length = sources.length
  counts : ∀ {index address set}, sources[index]? = some address → sets[index]? = some set →
    Counts w past start index address set

def Operation.brought? (operation : Operation) : News → Option (List Bytes)
  | .value value =>
      match operation.stage with
      | .cacheRead _ => Cache.members? value
      | _ => none
  | .response _ (.set members _) =>
      match operation.stage with
      | .storeRead _ => some members
      | _ => none
  | _ => none

def Unheard (w : World) (past : History) (start index : Nat) : Prop :=
  ∀ time operation news, Hears w past start index time operation news →
    operation.brought? news = none

def Only (w : World) (past : History) (start index : Nat) (operation : Operation)
    (news : News) : Prop :=
  ∀ time other heard, Hears w past start index time other heard → other.brought? heard = none ∨
    (other = operation ∧ heard = news)

section Hears

variable {w : World} {past : History} {start index time : Nat} {operation : Operation}
  {news : News} {address : Address} {members : List Bytes} {p : Proxy} {move : Move}

theorem Hears.lt (h : Hears w past start index time operation news) : time < past.length := by
  obtain ⟨p, move, id, group, at', -⟩ := h
  exact (List.getElem?_eq_some_iff.mp at').1

theorem Hears.after (h : Hears w past start index time operation news) : start < time := by
  obtain ⟨p, move, id, group, -, -, -, -, stems⟩ := h
  have lt := stems.start_lt
  rw [List.length_take] at lt
  exact (Nat.lt_min.mp lt).1

theorem hears_append (more : History) (lt : time < past.length) :
    Hears w (past ++ more) start index time operation news ↔
      Hears w past start index time operation news := by
  simp only [Hears, List.getElem?_append_left lt, List.take_append_of_le_length lt.le]

theorem hears_concat : Hears w (past ++ [(p, move)]) start index time operation news ↔
    Hears w past start index time operation news ∨ (time = past.length ∧
      ∃ id group, move.news? p = some (id, news) ∧ p.operations.get? id = some operation ∧
        operation.target = .fragment group index ∧ Stems w past start id) := by
  constructor
  · intro h
    have lt := h.lt
    rw [List.length_append, List.length_singleton] at lt
    rcases Nat.lt_succ_iff_lt_or_eq.mp lt with before | rfl
    · exact Or.inl ((hears_append _ before).mp h)
    · obtain ⟨q, made, id, group, at', told, ho, target, stems⟩ := h
      rw [List.getElem?_concat_length, Option.some.injEq, Prod.mk.injEq] at at'
      obtain ⟨rfl, rfl⟩ := at'
      rw [List.take_left] at stems
      exact Or.inr ⟨rfl, id, group, told, ho, target, stems⟩
  · rintro (h | ⟨rfl, id, group, told, ho, target, stems⟩)
    · exact (hears_append _ h.lt).mpr h
    · exact ⟨p, move, id, group, by simp, told, ho, target, by rwa [List.take_left]⟩

theorem hears_of_other (other : ∀ id operation group news, move.news? p = some (id, news) →
      p.operations.get? id = some operation → operation.target = .fragment group index →
      ¬ Stems w past start id) :
    Hears w (past ++ [(p, move)]) start index time operation news ↔
      Hears w past start index time operation news := by
  rw [hears_concat]
  refine or_iff_left ?_
  rintro ⟨-, id, group, told, ho, target, stems⟩
  exact other id operation group news told ho target stems

section Same

variable {past' : History} (same : ∀ time operation news,
  Hears w past' start index time operation news ↔ Hears w past start index time operation news)

include same

theorem Unheard.of_same (h : Unheard w past start index) : Unheard w past' start index :=
  fun time operation news heard => h time operation news ((same _ _ _).mp heard)

theorem Uncached.of_same (h : Uncached w past start index) : Uncached w past' start index :=
  fun time operation value read heard => h time operation value read ((same _ _ _).mp heard)

theorem Counts.of_same (h : Counts w past start index address members) :
    Counts w past' start index address members := by
  cases h with
  | copy heard stage found => exact .copy ((same _ _ _).mpr heard) stage found
  | bare uncached none => exact .bare (uncached.of_same same) none
  | stored uncached bucket heard stage =>
      exact .stored (uncached.of_same same) bucket ((same _ _ _).mpr heard) stage

theorem counts_congr : Counts w past' start index address members ↔
    Counts w past start index address members :=
  ⟨fun h => h.of_same fun _ _ _ => (same _ _ _).symm, fun h => h.of_same same⟩

end Same

theorem unheard_of_le (le : past.length ≤ start + 1) : Unheard w past start index := by
  intro time operation news h
  have lt := h.lt
  have after := h.after
  omega

theorem Unheard.uncached (h : Unheard w past start index) : Uncached w past start index := by
  intro time operation value read heard stage
  have none := h time operation (.value value) heard
  simpa only [Operation.brought?, stage] using none

theorem Unheard.only (h : Unheard w past start index) : Only w past start index operation news :=
  fun time other heard hears => Or.inl (h time other heard hears)

theorem Only.unheard (h : Only w past start index operation news)
    (none : operation.brought? news = none) : Unheard w past start index := by
  intro time other heard hears
  rcases h time other heard hears with nothing | ⟨rfl, rfl⟩
  · exact nothing
  · exact none

theorem counts_of_unheard (h : Unheard w past start index) :
    Counts w past start index address members ↔ address.hasBucket = false ∧ members = [] := by
  constructor
  · intro counts
    cases counts with
    | copy heard stage found =>
        have none := h _ _ _ heard
        simp only [Operation.brought?, stage, found] at none
        cases none
    | bare _ none => exact ⟨none, rfl⟩
    | stored _ _ heard stage =>
        have none := h _ _ _ heard
        simp only [Operation.brought?, stage] at none
        cases none
  · rintro ⟨none, rfl⟩
    exact .bare h.uncached none

theorem Only.same (h : Only w past start index operation news) {other : Operation} {heard : News}
    (hears : Hears w past start index time other heard)
    (brings : (other.brought? heard).isSome = true) : other = operation ∧ heard = news := by
  rcases h time other heard hears with none | same
  · rw [none] at brings
    cases brings
  · exact same

theorem Only.unique (h : Only w past start index operation news) {set set' : List Bytes}
    (counts : Counts w past start index address set)
    (counts' : Counts w past start index address set') : set = set' := by
  cases counts with
  | copy heard stage found =>
      cases counts' with
      | copy heard' stage' found' =>
          obtain ⟨rfl, told⟩ := h.same heard (by simp only [Operation.brought?, stage, found]; rfl)
          obtain ⟨rfl, told'⟩ :=
            h.same heard' (by simp only [Operation.brought?, stage', found']; rfl)
          cases told.trans told'.symm
          exact Option.some.inj (found.symm.trans found')
      | bare uncached none => cases found.symm.trans (uncached _ _ _ _ heard stage)
      | stored uncached => cases found.symm.trans (uncached _ _ _ _ heard stage)
  | bare uncached none =>
      cases counts' with
      | copy heard stage found => cases found.symm.trans (uncached _ _ _ _ heard stage)
      | bare => rfl
      | stored _ bucket => cases none.symm.trans bucket
  | stored uncached bucket heard stage =>
      cases counts' with
      | copy heard stage found => cases found.symm.trans (uncached _ _ _ _ heard stage)
      | bare _ none => cases none.symm.trans bucket
      | stored _ _ heard' stage' =>
          obtain ⟨-, told⟩ := h.same heard (by simp only [Operation.brought?, stage]; rfl)
          obtain ⟨-, told'⟩ := h.same heard' (by simp only [Operation.brought?, stage']; rfl)
          cases told.trans told'.symm
          rfl

theorem counts_of_only (only : Only w past start index operation news)
    (heard : Hears w past start index time operation news)
    (brought : operation.brought? news = some members)
    (stage : operation.stage = .cacheRead (.set address .slot) ∨
      operation.stage = .storeRead (.set address .slot) ∧ address.hasBucket = true)
    {set : List Bytes} : Counts w past start index address set ↔ set = members := by
  have here : Counts w past start index address members := by
    rcases stage with stage | ⟨stage, bucket⟩
    · cases news with
      | value value =>
          simp only [Operation.brought?, stage] at brought
          exact .copy heard stage brought
      | response server response =>
          cases response <;> simp only [Operation.brought?, stage, reduceCtorEq] at brought
      | missed | failed | lost => cases brought
    · cases news with
      | response server response =>
          cases response with
          | set members' context =>
              simp only [Operation.brought?, stage, Option.some.injEq] at brought
              subst brought
              refine .stored ?_ bucket heard stage
              intro time other value read hears cached
              cases found : Cache.members? value with
              | none => rfl
              | some set =>
                  obtain ⟨-, same⟩ :=
                    only.same hears (by simp only [Operation.brought?, cached, found]; rfl)
                  cases same
          | _ => cases brought
      | value value => simp only [Operation.brought?, stage, reduceCtorEq] at brought
      | missed | failed | lost => cases brought
  constructor
  · exact fun counts => only.unique counts here
  · rintro rfl
    exact here

end Hears

end ReadThrough.Proxy
