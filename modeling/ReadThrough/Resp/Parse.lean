import ReadThrough.Resp.Value
import ReadThrough.Verdict

namespace ReadThrough.Resp

def maxBulk : Int64 := 512 * 1024 * 1024

def maxElements : Int64 := 1024 * 1024

def maxNesting : Nat := 8

def takeLine : Bytes → Option (Bytes × Bytes)
  | 13 :: 10 :: rest => some ([], rest)
  | b :: rest => (takeLine rest).map fun (text, rest) => (b :: text, rest)
  | [] => none

def withLine {α : Type} (bytes : Bytes) (next : Bytes → Bytes → Verdict α) : Verdict α :=
  match takeLine bytes with
  | none => .incomplete
  | some (text, rest) => next text rest

def withNumber {α : Type} (bytes : Bytes) (next : Int64 → Bytes → Verdict α) : Verdict α :=
  withLine bytes fun text rest =>
    match Decimal.int64? text with
    | none => .refused .invalidInteger
    | some n => next n rest

/-- A bulk string of known length: judged when its line end has arrived as well. -/
def takeBulk (length : Nat) (bytes : Bytes) : Verdict Value :=
  match bytes.drop length with
  | a :: b :: rest =>
      if [a, b] = crlf then .complete (.bulk (bytes.take length)) rest
      else .refused .bulkUnterminated
  | _ => .incomplete

def parseBulk (bytes : Bytes) : Verdict Value :=
  withNumber bytes fun length rest =>
    if length = -1 then .complete .nilBulk rest
    else if length < 0 ∨ maxBulk < length then .refused (.invalidBulkLength length)
    else takeBulk length.toInt.toNat rest

def parseArray (item : Bytes → Verdict Value) (bytes : Bytes) : Verdict Value :=
  withNumber bytes fun count rest =>
    if count = -1 then .complete .nilArray rest
    else if count < 0 ∨ maxElements < count then .refused (.invalidArrayLength count)
    else
      (Verdict.repeated item count.toInt.toNat rest).bind fun items rest =>
        .complete (.array items) rest

def parseWithin : (levels : Nat) → Bytes → Verdict Value
  | _, [] => .incomplete
  | 0, _ :: _ => .refused .nestedTooDeep
  | levels + 1, tag :: body =>
      if tag = Value.plus then withLine body fun text rest => .complete (.simple text) rest
      else if tag = Value.minus then withLine body fun text rest => .complete (.error text) rest
      else if tag = Value.colon then withNumber body fun n rest => .complete (.integer n) rest
      else if tag = Value.dollar then parseBulk body
      else if tag = Value.star then parseArray (parseWithin levels) body
      else .refused (.unexpectedTypeByte tag)

def parse (bytes : Bytes) : Verdict Value :=
  parseWithin (maxNesting + 1) bytes

theorem takeLine_length {bytes text rest : Bytes} (h : takeLine bytes = some (text, rest)) :
    rest.length + text.length + 2 = bytes.length := by
  fun_induction takeLine bytes generalizing text rest with
  | case1 rest' => simp_all
  | case2 b rest' _ ih =>
      simp only [Option.map_eq_some_iff, Prod.mk.injEq, Prod.exists] at h
      obtain ⟨t, r, hr, ht, rfl⟩ := h
      have := ih hr
      simp only [← ht, List.length_cons]
      omega
  | case3 => simp at h

theorem withLine_complete {α : Type} {bytes : Bytes} {next : Bytes → Bytes → Verdict α} {a : α}
    {rest : Bytes} (h : withLine bytes next = .complete a rest) :
    ∃ text behind, takeLine bytes = some (text, behind) ∧ next text behind = .complete a rest := by
  unfold withLine at h
  split at h
  · simp at h
  · next text behind ht => exact ⟨text, behind, ht, h⟩

theorem withNumber_complete {α : Type} {bytes : Bytes} {next : Int64 → Bytes → Verdict α} {a : α}
    {rest : Bytes} (h : withNumber bytes next = .complete a rest) :
    ∃ text n behind, takeLine bytes = some (text, behind) ∧ Decimal.int64? text = some n ∧
      next n behind = .complete a rest := by
  obtain ⟨text, behind, ht, h⟩ := withLine_complete h
  split at h
  · simp at h
  · next n hn => exact ⟨text, n, behind, ht, hn, h⟩

theorem takeBulk_shorter {length : Nat} {bytes rest : Bytes} {value : Value}
    (h : takeBulk length bytes = .complete value rest) : rest.length < bytes.length := by
  unfold takeBulk at h
  split at h
  · next a b behind hd =>
      have hl := congrArg List.length hd
      simp only [List.length_drop, List.length_cons] at hl
      split at h
      · cases h; omega
      · simp at h
  · simp at h

theorem parseBulk_shorter {bytes rest : Bytes} {value : Value}
    (h : parseBulk bytes = .complete value rest) : rest.length < bytes.length := by
  obtain ⟨text, n, behind, ht, _, h⟩ := withNumber_complete h
  have hl := takeLine_length ht
  split at h
  · cases h; omega
  · split at h
    · simp at h
    · have := takeBulk_shorter h
      omega

theorem parseArray_shorter {item : Bytes → Verdict Value}
    (shorter : ∀ {bytes value rest}, item bytes = .complete value rest →
      rest.length < bytes.length)
    {bytes rest : Bytes} {value : Value} (h : parseArray item bytes = .complete value rest) :
    rest.length < bytes.length := by
  obtain ⟨text, n, behind, ht, _, h⟩ := withNumber_complete h
  have hl := takeLine_length ht
  split at h
  · cases h; omega
  · split at h
    · simp at h
    · obtain ⟨items, r, hr, h⟩ := Verdict.bind_eq_complete h
      have := Verdict.repeated_length_le (fun h => Nat.le_of_lt (shorter h)) hr
      cases h
      omega

theorem parseWithin_shorter {levels : Nat} :
    ∀ {bytes rest : Bytes} {value : Value},
      parseWithin levels bytes = .complete value rest → rest.length < bytes.length := by
  induction levels with
  | zero =>
      intro bytes rest value h
      cases bytes <;> simp [parseWithin] at h
  | succ levels ih =>
      intro bytes rest value h
      cases bytes with
      | nil => simp [parseWithin] at h
      | cons tag body =>
          have simpleLine : ∀ {f : Bytes → Value},
              (withLine body fun text rest => Verdict.complete (f text) rest) =
                .complete value rest → rest.length < (tag :: body).length := by
            intro f h
            obtain ⟨text, behind, ht, h⟩ := withLine_complete h
            have hl := takeLine_length ht
            cases h
            simp only [List.length_cons]
            omega
          simp only [parseWithin] at h
          split at h
          · exact simpleLine h
          · split at h
            · exact simpleLine h
            · split at h
              · obtain ⟨text, n, behind, ht, _, h⟩ := withNumber_complete h
                have hl := takeLine_length ht
                cases h
                simp only [List.length_cons]
                omega
              · split at h
                · have := parseBulk_shorter h
                  simp only [List.length_cons]
                  omega
                · split at h
                  · have := parseArray_shorter ih h
                    simp only [List.length_cons]
                    omega
                  · simp at h

def reader : Reader Value where
  read := parse
  shorter := parseWithin_shorter

end ReadThrough.Resp
