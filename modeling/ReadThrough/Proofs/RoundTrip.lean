import ReadThrough.Proofs.Framing

namespace ReadThrough.Resp

namespace Value

inductive Holds : Value → Nat → Value → Prop where
  | whole (value : Value) : Holds value 0 value
  | item {items : List Value} {item part : Value} {depth : Nat} : item ∈ items →
      Holds item depth part → Holds (.array items) (depth + 1) part

def Bounded : Value → Prop
  | .simple text | .error text => ¬ crlf <:+: text
  | .bulk data => (data.length : Int) ≤ maxBulk.toInt
  | .array items => (items.length : Int) ≤ maxElements.toInt
  | .integer _ | .nilBulk | .nilArray => True

structure Regular (value : Value) : Prop where
  bounded : ∀ depth part, value.Holds depth part → part.Bounded
  shallow : ∀ depth part, value.Holds depth part → depth ≤ maxNesting

variable {levels depth : Nat} {value inner : Value}

theorem Fits.bounded (h : value.Fits levels) : value.Bounded := by
  cases h with
  | simple one | error one => exact one
  | integer | nilBulk | nilArray => trivial
  | bulk short => exact short
  | array few => exact few

theorem Fits.part (h : value.Fits levels) (holds : value.Holds depth inner) :
    depth < levels ∧ inner.Fits (levels - depth) := by
  induction holds generalizing levels with
  | whole value =>
      refine ⟨?_, h⟩
      cases h <;> exact Nat.succ_pos _
  | item among _ ih =>
      cases h with
      | @array levels _ _ fits =>
          obtain ⟨lt, inner⟩ := ih (fits _ among)
          rw [Nat.succ_sub_succ]
          exact ⟨Nat.succ_lt_succ lt, inner⟩

theorem fits_of_parts (bounded : ∀ depth part, value.Holds depth part → part.Bounded)
    (shallow : ∀ depth part, value.Holds depth part → depth < levels) : value.Fits levels := by
  induction levels generalizing value with
  | zero => exact absurd (shallow 0 value (.whole value)) (Nat.lt_irrefl 0)
  | succ levels ih =>
      have own := bounded 0 value (.whole value)
      cases value with
      | simple text => exact .simple own
      | error text => exact .error own
      | integer n => exact .integer n
      | nilBulk => exact .nilBulk
      | bulk data => exact .bulk own
      | nilArray => exact .nilArray
      | array items =>
          refine .array own fun item among => ih ?_ ?_
          · exact fun depth part holds => bounded _ part (.item among holds)
          · exact fun depth part holds => Nat.lt_of_succ_lt_succ (shallow _ part (.item among holds))

theorem regular_iff : value.Regular ↔ value.Fits (maxNesting + 1) := by
  constructor
  · intro regular
    exact fits_of_parts regular.bounded fun depth part holds =>
      Nat.lt_succ_of_le (regular.shallow depth part holds)
  · intro fits
    exact ⟨fun _ _ holds => (fits.part holds).2.bounded,
      fun _ _ holds => Nat.le_of_lt_succ (fits.part holds).1⟩

end Value

theorem round_trip (value : Value) :
    (value.Regular → ∀ rest, parse (value.encode ++ rest) = .complete value rest) ∧
      ∀ bytes behind, parse bytes = .complete value behind →
        value.Regular ∧ ∀ rest, parse (value.encode ++ rest) = .complete value rest := by
  have back : value.Regular → ∀ rest, parse (value.encode ++ rest) = .complete value rest :=
    fun regular => parseWithin_encode (Value.regular_iff.mp regular)
  refine ⟨back, fun bytes behind read => ?_⟩
  have regular := Value.regular_iff.mpr (fits_of_parseWithin read)
  exact ⟨regular, back regular⟩

theorem round_trip_nested :
    let value := Value.array [.simple (ascii "a\r"), .error [], .bulk crlf, .bulk [],
      .integer Int64.minValue, .nilBulk,
      .array [.array [.array [.array [.array [.array [.array [.array []]]]]]]]]
    (value.Regular ∧ parse (value.encode ++ crlf) = .complete value crlf) ∧
      parse (ascii ":+007\r\n*") = .complete (.integer 7) (ascii "*") ∧
      (Value.integer 7).Regular ∧
      parse ((Value.integer 7).encode ++ crlf) = .complete (.integer 7) crlf := by
  intro value
  have regular : value.Regular := by
    have one : ((1 : Nat) : Int) ≤ maxElements.toInt := by decide
    have nest : ∀ {levels inner}, Value.Fits levels inner →
        Value.Fits (levels + 1) (.array [inner]) :=
      fun fits => .array one (List.forall_mem_singleton.mpr fits)
    have empty : Value.Fits 1 (.array []) := .array (by decide) (List.forall_mem_nil _)
    have deep := nest (nest (nest (nest (nest (nest (nest empty))))))
    refine Value.regular_iff.mpr (.array (by decide) ?_)
    simp only [List.forall_mem_cons]
    exact ⟨.simple (by decide), .error (by decide), .bulk (by decide), .bulk (by decide),
      .integer _, .nilBulk, deep, List.forall_mem_nil _⟩
  have spelled : parse (ascii ":+007\r\n*") = .complete (.integer 7) (ascii "*") := by rfl
  obtain ⟨plain, back⟩ := (round_trip (.integer 7)).2 _ _ spelled
  exact ⟨⟨regular, (round_trip value).1 regular crlf⟩, spelled, plain, back crlf⟩

end ReadThrough.Resp
