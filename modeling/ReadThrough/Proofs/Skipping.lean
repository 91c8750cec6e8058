import ReadThrough.Proofs.Records

namespace ReadThrough.Protobuf

inductive Plain : WireType → Bytes → Prop where
  | varint {n : Nat} {bytes : Bytes} : Varint.Spelling n bytes → Plain .varint bytes
  | sixtyFourBit {bytes : Bytes} : bytes.length = 8 → Plain .sixtyFourBit bytes
  | thirtyTwoBit {bytes : Bytes} : bytes.length = 4 → Plain .thirtyTwoBit bytes
  | lengthDelimited {front body : Bytes} : Varint.Spelling body.length front →
      Plain .lengthDelimited (front ++ body)

/-- One field of that number. A group holds fields of any numbers, and the fields stand `depth` levels
deep in one another at most. -/
inductive Whole : (number depth : Nat) → Bytes → Prop where
  | value {number depth : Nat} {wire : WireType} {front value : Bytes} :
      KeySpelling number wire front → Plain wire value → Whole number (depth + 1) (front ++ value)
  | group {number depth : Nat} {front close : Bytes} {parts : List (Nat × Bytes)} :
      KeySpelling number .startGroup front → (∀ part ∈ parts, Whole part.1 depth part.2) →
      KeySpelling number .endGroup close →
      Whole number (depth + 1) (front ++ (parts.flatMap Prod.snd ++ close))

section Values

variable {count : Nat} {wire : WireType} {bytes front body value : Bytes}

theorem takeBytes_append (h : bytes.length = count) (rest : Bytes) :
    takeBytes count (bytes ++ rest) = .ok (bytes, rest) := by
  subst h
  simp [takeBytes]

theorem readDelimited_append (h : Varint.Spelling body.length front) (rest : Bytes) :
    readDelimited (front ++ body ++ rest) = .ok (body, rest) := by
  rw [readDelimited, List.append_assoc, h.decode]
  exact takeBytes_append rfl rest

theorem skipValue_plain (h : Plain wire value) (rest : Bytes) :
    skipValue wire (value ++ rest) = .ok rest := by
  cases h with
  | varint spelled => rw [skipValue, spelled.decode]; rfl
  | sixtyFourBit length => rw [skipValue, takeBytes_append length]; rfl
  | thirtyTwoBit length => rw [skipValue, takeBytes_append length]; rfl
  | lengthDelimited spelled => rw [skipValue, readDelimited_append spelled]; rfl

end Values

section Groups

variable {budget number n depth : Nat} {outer : List Nat} {wire : WireType}
  {bytes rest behind field : Bytes}

theorem exists_inner (le : depth + 1 ≤ budget) : ∃ inner, budget = inner + 1 ∧ depth ≤ inner :=
  ⟨budget - 1, by omega, by omega⟩

theorem skipGroup_value (hk : readKey bytes = .ok (n, wire, rest))
    (hs : skipValue wire rest = .ok behind) :
    skipGroup (budget + 1) number outer bytes = skipGroup (budget + 1) number outer behind := by
  rw [skipGroup]
  split
  · simp_all
  · next hk' =>
      rw [hk] at hk'
      cases hk'
      simp [skipValue] at hs
  · next hk' =>
      rw [hk] at hk'
      cases hk'
      simp [skipValue] at hs
  · next hk' =>
      rw [hk] at hk'
      cases hk'
      rw [if_neg (Nat.succ_ne_zero budget)]
      split
      · simp_all
      · next hs' =>
          rw [hs] at hs'
          cases hs'
          rfl

theorem skipGroup_open (hk : readKey bytes = .ok (n, .startGroup, rest)) :
    skipGroup (budget + 1) number outer bytes = skipGroup budget n (number :: outer) rest := by
  rw [skipGroup]
  split
  · simp_all
  · simp_all
  · next hk' =>
      rw [hk] at hk'
      cases hk'
      rw [if_neg (Nat.succ_ne_zero budget)]
      rfl
  · simp_all

theorem skipGroup_close (hk : readKey bytes = .ok (number, .endGroup, rest)) :
    skipGroup budget number (n :: outer) bytes = skipGroup (budget + 1) n outer rest := by
  rw [skipGroup]
  split
  · simp_all
  · next hk' =>
      rw [hk] at hk'
      cases hk'
      rw [if_neg (not_not_intro rfl)]
  · simp_all
  · simp_all

theorem skipGroup_end (hk : readKey bytes = .ok (number, .endGroup, rest)) :
    skipGroup budget number [] bytes = .ok rest := by
  rw [skipGroup]
  split
  · simp_all
  · next hk' =>
      rw [hk] at hk'
      cases hk'
      rw [if_neg (not_not_intro rfl)]
  · simp_all
  · simp_all

theorem skipGroup_parts {parts : List (Nat × Bytes)}
    (each : ∀ part ∈ parts, ∀ {number outer} rest,
      skipGroup budget number outer (part.2 ++ rest) = skipGroup budget number outer rest)
    (rest : Bytes) : skipGroup budget number outer (parts.flatMap Prod.snd ++ rest) =
      skipGroup budget number outer rest := by
  induction parts with
  | nil => rfl
  | cons part parts ih =>
      obtain ⟨first, others⟩ := List.forall_mem_cons.mp each
      rw [List.flatMap_cons, List.append_assoc, first, ih others]

theorem skipGroup_whole (h : Whole n depth field) (le : depth ≤ budget) (rest : Bytes) :
    skipGroup budget number outer (field ++ rest) = skipGroup budget number outer rest := by
  -- a group in the group is a stretch of the same scan, one number higher on the stack
  induction h generalizing budget number outer rest with
  | @value n depth wire front value key plain =>
      obtain ⟨budget, rfl, -⟩ := exists_inner le
      rw [List.append_assoc]
      exact skipGroup_value (key.readKey _) (skipValue_plain plain rest)
  | @group n depth front close parts key _ closing ih =>
      obtain ⟨budget, rfl, within⟩ := exists_inner le
      rw [List.append_assoc, List.append_assoc, skipGroup_open (key.readKey _),
        skipGroup_parts fun part hm _ _ rest => ih part hm within rest,
        skipGroup_close (closing.readKey rest)]

theorem skip_plain {value : Bytes} (h : Plain wire value) (rest : Bytes) :
    skip (budget + 1) number wire (value ++ rest) = .ok rest := by
  have skipped := skipValue_plain h rest
  unfold skip
  rw [if_neg (Nat.succ_ne_zero budget)]
  cases h <;> exact skipped

theorem skip_group {parts : List (Nat × Bytes)} {close : Bytes}
    (inside : ∀ part ∈ parts, Whole part.1 depth part.2) (le : depth ≤ budget)
    (closing : KeySpelling number .endGroup close) (rest : Bytes) :
    skip (budget + 1) number .startGroup (parts.flatMap Prod.snd ++ close ++ rest) = .ok rest := by
  unfold skip
  rw [if_neg (Nat.succ_ne_zero budget)]
  change skipGroup budget number [] _ = _
  rw [List.append_assoc,
    skipGroup_parts fun part hm _ _ rest => skipGroup_whole (inside part hm) le rest,
    skipGroup_end (closing.readKey rest)]

end Groups

namespace Message

variable {ρ : Type} [Message ρ] {number depth budget behind : Nat} {wire : WireType} {record : ρ}
  {bytes rest field : Bytes}

theorem mergeField_unknown (unknown : number ∉ (fields (ρ := ρ)).map (·.number)) :
    mergeField budget number wire record bytes =
      (skip budget number wire bytes).map fun rest => (record, rest) := by
  have none : (fields (ρ := ρ)).find? (fun field => field.number = number) = none := by
    rw [List.find?_eq_none]
    intro field hm same
    exact unknown (List.mem_map.mpr ⟨field, hm, of_decide_eq_true same⟩)
  rw [mergeField, none]

theorem mergeField_known (known : number ∈ (fields (ρ := ρ)).map (·.number)) :
    ∃ field ∈ fields (ρ := ρ), field.number = number ∧ ∀ budget wire record bytes,
      mergeField budget number wire record bytes = field.merge budget wire record bytes := by
  obtain ⟨field, hm, same⟩ := List.mem_map.mp known
  have some : ((fields (ρ := ρ)).find? fun field => field.number = number).isSome :=
    List.find?_isSome.mpr ⟨field, hm, decide_eq_true same⟩
  obtain ⟨first, found⟩ := Option.isSome_iff_exists.mp some
  have same := List.find?_some found
  refine ⟨first, List.mem_of_find?_eq_some found, of_decide_eq_true same, ?_⟩
  intro budget wire record bytes
  rw [mergeField, found]

theorem mergeUntil_unknown (h : Whole number depth field) (le : depth ≤ budget)
    (unknown : number ∉ (fields (ρ := ρ)).map (·.number)) (enough : behind ≤ rest.length) :
    mergeUntil behind budget record (field ++ rest) = mergeUntil behind budget record rest := by
  have filled : ∀ {wire : WireType} {front : Bytes}, KeySpelling number wire front →
      ∀ value, behind < (front ++ (value ++ rest)).length := by
    intro wire front key value
    have shorter := readKey_shorter (key.readKey (value ++ rest))
    rw [List.length_append] at shorter
    omega
  cases h with
  | @value _ depth wire front value key plain =>
      obtain ⟨budget, rfl, -⟩ := exists_inner le
      rw [List.append_assoc]
      refine mergeUntil_field (filled key value) (key.readKey _) ?_
      rw [mergeField_unknown unknown, skip_plain plain rest]
      rfl
  | @group _ depth front close parts key inside closing =>
      obtain ⟨budget, rfl, within⟩ := exists_inner le
      rw [List.append_assoc]
      refine mergeUntil_field (filled key _) (key.readKey _) ?_
      rw [mergeField_unknown unknown, skip_group inside within closing rest]
      rfl

end Message

end ReadThrough.Protobuf
