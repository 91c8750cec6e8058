import Mathlib.Data.List.Basic
import ReadThrough.Reply
import ReadThrough.Resp.Parse

namespace ReadThrough

namespace Decimal

theorem toNat_of_isDigit {c : Char} (h : c.isDigit = true) :
    (UInt8.ofNat c.toNat).toNat = c.toNat ∧ isDigit (UInt8.ofNat c.toNat) = true := by
  obtain ⟨low, high⟩ : 48 ≤ c.toNat ∧ c.toNat ≤ 57 := by
    simpa [Char.isDigit, UInt32.le_iff_toNat_le] using h
  have same : (UInt8.ofNat c.toNat).toNat = c.toNat := by
    rw [UInt8.toNat_ofNat']
    omega
  refine ⟨same, ?_⟩
  simp only [isDigit, Bool.and_eq_true, decide_eq_true_eq, UInt8.le_iff_toNat_le, same]
  exact ⟨low, high⟩

theorem isDigit_of_mem_ofNat {n : Nat} : ∀ b ∈ ofNat n, isDigit b = true := by
  refine List.forall_mem_map.mpr fun c hc => ?_
  exact (toNat_of_isDigit (Nat.isDigit_of_mem_toDigits (by decide) (by decide) hc)).2

theorem ofNat_ne_nil (n : Nat) : ofNat n ≠ [] :=
  fun none => Nat.toDigits_ne_nil (List.map_eq_nil_iff.mp none)

theorem nat?_ofNat (n : Nat) : nat? (ofNat n) = some n := by
  have value : (ofNat n).foldl (fun n d => 10 * n + (d.toNat - 48)) 0 = n := by
    rw [ofNat, List.foldl_map]
    refine Eq.trans ?_ (Nat.ofDigitChars_ten_toDigits (n := n))
    refine List.foldl_ext _ _ _ fun sofar c hc => ?_
    rw [(toNat_of_isDigit (Nat.isDigit_of_mem_toDigits (by decide) (by decide) hc)).1]
    rfl
  rw [nat?, if_pos ⟨ofNat_ne_nil n, List.all_eq_true.mpr isDigit_of_mem_ofNat⟩, value]

theorem int?_ofNat (n : Nat) : int? (ofNat n) = some (n : Int) := by
  cases digits : ofNat n with
  | nil => exact absurd digits (ofNat_ne_nil n)
  | cons b rest =>
      have digit : isDigit b = true := isDigit_of_mem_ofNat b (digits ▸ List.mem_cons_self)
      rw [int?, if_neg (by rintro rfl; cases digit), if_neg (by rintro rfl; cases digit), ← digits,
        nat?_ofNat]
      rfl

theorem int?_ofInt (n : Int) : int? (ofInt n) = some n := by
  cases n with
  | ofNat n => exact int?_ofNat n
  | negSucc n =>
      rw [ofInt, int?, if_pos rfl, nat?_ofNat]
      rfl

theorem int64?_ofNat {n : Nat} (h : n ≤ Int64.maxValue.toInt) :
    int64? (ofNat n) = some (Int64.ofInt n) := by
  have low : Int64.minValue.toInt ≤ n := Int.le_trans (by decide) (Int.natCast_nonneg n)
  rw [int64?, int?_ofNat, Option.bind_some, if_pos ⟨low, h⟩]

theorem int64?_ofInt64 (n : Int64) : int64? (ofInt64 n) = some n := by
  rw [int64?, ofInt64, int?_ofInt, Option.bind_some, if_pos ⟨n.minValue_le_toInt, n.toInt_le⟩,
    Int64.ofInt_toInt]

end Decimal

namespace Resp

section Lines

variable {bytes text rest : Bytes}

theorem takeLine_eq_some_iff :
    takeLine bytes = some (text, rest) ↔ bytes = text ++ crlf ++ rest ∧ ¬ crlf <:+: text := by
  induction bytes using takeLine.induct generalizing text with
  | case1 behind =>
      constructor
      · rintro ⟨⟩
        exact ⟨rfl, by decide⟩
      · rintro ⟨split, none⟩
        cases text with
        | nil =>
            cases split
            rfl
        | cons b text =>
            obtain ⟨rfl, later⟩ := List.cons.inj split
            cases text with
            | nil => cases later
            | cons c text =>
                obtain ⟨rfl, -⟩ := List.cons.inj later
                exact absurd ⟨[], text, rfl⟩ none
  | case2 b behind other ih =>
      rw [takeLine.eq_2 b behind other, Option.map_eq_some_iff]
      constructor
      · rintro ⟨⟨before, after⟩, found, same⟩
        obtain ⟨rfl, rfl⟩ := Prod.mk.inj same
        obtain ⟨rfl, none⟩ := ih.mp found
        refine ⟨rfl, ?_⟩
        rw [List.infix_cons_iff, not_or]
        refine ⟨?_, none⟩
        rintro ⟨more, split⟩
        obtain ⟨rfl, rfl⟩ := List.cons.inj split
        exact other _ rfl rfl
      · rintro ⟨split, none⟩
        cases text with
        | nil =>
            obtain ⟨rfl, rfl⟩ := List.cons.inj split
            exact (other rest rfl rfl).elim
        | cons c text =>
            obtain ⟨rfl, rfl⟩ := List.cons.inj split
            rw [List.infix_cons_iff, not_or] at none
            exact ⟨(text, rest), ih.mpr ⟨rfl, none.2⟩, rfl⟩
  | case3 =>
      constructor
      · rintro ⟨⟩
      · rintro ⟨split, -⟩
        cases text <;> cases split

theorem takeLine_append (one : ¬ crlf <:+: text) (rest : Bytes) :
    takeLine (text ++ crlf ++ rest) = some (text, rest) :=
  takeLine_eq_some_iff.mpr ⟨rfl, one⟩

theorem not_crlf_of_digits (h : ∀ b ∈ text, b = 45 ∨ isDigit b = true) : ¬ crlf <:+: text := by
  intro inside
  rcases h 13 (inside.subset List.mem_cons_self) with same | digit
  · cases same
  · cases digit

theorem not_crlf_ofNat (n : Nat) : ¬ crlf <:+: Decimal.ofNat n :=
  not_crlf_of_digits fun b hm => Or.inr (Decimal.isDigit_of_mem_ofNat b hm)

theorem not_crlf_ofInt64 (n : Int64) : ¬ crlf <:+: Decimal.ofInt64 n := by
  refine not_crlf_of_digits fun b hm => ?_
  cases same : n.toInt with
  | ofNat k =>
      rw [Decimal.ofInt64, same] at hm
      exact Or.inr (Decimal.isDigit_of_mem_ofNat b hm)
  | negSucc k =>
      rw [Decimal.ofInt64, same] at hm
      exact (List.mem_cons.mp hm).imp_right (Decimal.isDigit_of_mem_ofNat b)

variable {α : Type} {next : Bytes → Bytes → Verdict α}

theorem withLine_append (one : ¬ crlf <:+: text) (rest : Bytes) :
    withLine (text ++ crlf ++ rest) next = next text rest := by
  rw [withLine, takeLine_append one]

theorem withNumber_append {next : Int64 → Bytes → Verdict α} {n : Int64}
    (one : ¬ crlf <:+: text) (number : Decimal.int64? text = some n) (rest : Bytes) :
    withNumber (text ++ crlf ++ rest) next = next n rest := by
  rw [withNumber, withLine_append one, number]

end Lines

namespace Value

/-- The values that stand within so many levels, and keep the bounds that the reader sets. -/
inductive Fits : Nat → Value → Prop where
  | simple {levels : Nat} {text : Bytes} : ¬ crlf <:+: text → Fits (levels + 1) (.simple text)
  | error {levels : Nat} {text : Bytes} : ¬ crlf <:+: text → Fits (levels + 1) (.error text)
  | integer {levels : Nat} (n : Int64) : Fits (levels + 1) (.integer n)
  | nilBulk {levels : Nat} : Fits (levels + 1) .nilBulk
  | bulk {levels : Nat} {data : Bytes} : (data.length : Int) ≤ maxBulk.toInt →
      Fits (levels + 1) (.bulk data)
  | nilArray {levels : Nat} : Fits (levels + 1) .nilArray
  | array {levels : Nat} {items : List Value} : (items.length : Int) ≤ maxElements.toInt →
      (∀ item ∈ items, Fits levels item) → Fits (levels + 1) (.array items)

theorem encodeAll_eq (items : List Value) : encodeAll items = items.flatMap encode := by
  induction items with
  | nil => rfl
  | cons item items ih => rw [encodeAll, ih, List.flatMap_cons]

end Value

section Read

variable {α : Type} {read : Bytes → Verdict α} {encode : α → Bytes} {values : List α}

theorem repeated_flatMap
    (reads : ∀ value ∈ values, ∀ rest, read (encode value ++ rest) = .complete value rest)
    (rest : Bytes) :
    Verdict.repeated read values.length (values.flatMap encode ++ rest) =
      .complete values rest := by
  induction values with
  | nil => rfl
  | cons value values ih =>
      obtain ⟨first, others⟩ := List.forall_mem_cons.mp reads
      rw [List.flatMap_cons, List.append_assoc, List.length_cons, Verdict.repeated, first]
      simp only [Verdict.bind, ih others]

theorem repeated_refused {bytes : Bytes} {why : Failure}
    (reads : ∀ value ∈ values, ∀ rest, read (encode value ++ rest) = .complete value rest)
    (refuses : read bytes = .refused why) (n : Nat) :
    Verdict.repeated read (values.length + (n + 1)) (values.flatMap encode ++ bytes) =
      .refused why := by
  induction values with
  | nil =>
      rw [List.length_nil, Nat.zero_add, List.flatMap_nil, List.nil_append, Verdict.repeated,
        refuses]
      rfl
  | cons value values ih =>
      obtain ⟨first, others⟩ := List.forall_mem_cons.mp reads
      rw [List.flatMap_cons, List.append_assoc, List.length_cons, Nat.succ_add, Verdict.repeated,
        first]
      simp only [Verdict.bind, ih others]

theorem repeated_forall {good : α → Prop} {n : Nat} {bytes rest : Bytes}
    (reads : ∀ {bytes value rest}, read bytes = .complete value rest → good value)
    (h : Verdict.repeated read n bytes = .complete values rest) :
    values.length = n ∧ ∀ value ∈ values, good value := by
  induction n generalizing bytes values with
  | zero =>
      cases h
      exact ⟨rfl, List.forall_mem_nil _⟩
  | succ n ih =>
      obtain ⟨first, behind, hf, h⟩ := Verdict.bind_eq_complete h
      obtain ⟨others, after, ho, h⟩ := Verdict.bind_eq_complete h
      cases h
      obtain ⟨length, all⟩ := ih ho
      exact ⟨congrArg Nat.succ length, List.forall_mem_cons.mpr ⟨reads hf, all⟩⟩

variable (reader : Reader α)

theorem stream_flatMap
    (reads : ∀ value ∈ values, ∀ rest, reader.read (encode value ++ rest) = .complete value rest)
    (none : reader.read [] = .incomplete) :
    reader.stream (values.flatMap encode) = (values, .waiting []) := by
  induction values with
  | nil => exact Reader.stream_of_incomplete reader none
  | cons value values ih =>
      obtain ⟨first, others⟩ := List.forall_mem_cons.mp reads
      rw [List.flatMap_cons, Reader.stream_of_complete reader (first _), ih others]

theorem stream_forall {good : α → Prop} {bytes : Bytes}
    (reads : ∀ {bytes value rest}, reader.read bytes = .complete value rest → good value) :
    ∀ value ∈ (reader.stream bytes).1, good value := by
  induction bytes using Reader.stream.induct reader with
  | case1 bytes read =>
      rw [Reader.stream_of_incomplete _ read]
      exact List.forall_mem_nil _
  | case2 bytes why read =>
      rw [Reader.stream_of_refused _ read]
      exact List.forall_mem_nil _
  | case3 bytes value rest read _ _ _ _ ih =>
      rw [Reader.stream_of_complete _ read]
      exact List.forall_mem_cons.mpr ⟨reads read, ih⟩

end Read

section Parse

variable {levels : Nat} {value : Value} {bytes rest : Bytes}

theorem toInt_length {n : Nat} {bound : Int64} (h : (n : Int) ≤ bound.toInt) :
    (Int64.ofInt n).toInt = n :=
  Int64.toInt_ofInt_of_le (by omega) (Int.lt_of_le_of_lt h bound.toInt_lt)

theorem accepted_of_le {n : Nat} {bound : Int64} (h : (n : Int) ≤ bound.toInt) :
    Decimal.int64? (Decimal.ofNat n) = some (Int64.ofInt n) ∧ Int64.ofInt n ≠ -1 ∧
      ¬ (Int64.ofInt n < 0 ∨ bound < Int64.ofInt n) ∧ (Int64.ofInt n).toInt.toNat = n := by
  have same := toInt_length h
  refine ⟨Decimal.int64?_ofNat (Int.le_trans h bound.toInt_le), ?_, ?_, ?_⟩
  · intro minus
    rw [minus] at same
    have negative : (-1 : Int64).toInt = -1 := by decide
    omega
  · rw [Int64.lt_iff_toInt_lt, Int64.lt_iff_toInt_lt, same]
    have zero : (0 : Int64).toInt = 0 := by decide
    omega
  · rw [same]
    rfl

theorem takeBulk_append (data rest : Bytes) :
    takeBulk data.length (data ++ crlf ++ rest) = .complete (.bulk data) rest := by
  have behind : (data ++ crlf ++ rest).drop data.length = 13 :: 10 :: rest := by
    rw [List.append_assoc, List.drop_left]
    rfl
  rw [takeBulk, behind]
  simp [crlf]

theorem parseBulk_append {data : Bytes} (bound : (data.length : Int) ≤ maxBulk.toInt)
    (rest : Bytes) :
    parseBulk (Decimal.ofNat data.length ++ crlf ++ (data ++ crlf ++ rest)) =
      .complete (.bulk data) rest := by
  obtain ⟨number, present, accepted, same⟩ := accepted_of_le bound
  rw [parseBulk, withNumber_append (not_crlf_ofNat _) number, if_neg present, if_neg accepted, same,
    takeBulk_append]

theorem parseArray_append {item : Bytes → Verdict Value} {items : List Value}
    (bound : (items.length : Int) ≤ maxElements.toInt)
    (reads : ∀ value ∈ items, ∀ rest, item (value.encode ++ rest) = .complete value rest)
    (rest : Bytes) :
    parseArray item (Decimal.ofNat items.length ++ crlf ++ (Value.encodeAll items ++ rest)) =
      .complete (.array items) rest := by
  obtain ⟨number, present, accepted, same⟩ := accepted_of_le bound
  rw [parseArray, withNumber_append (not_crlf_ofNat _) number, if_neg present, if_neg accepted, same,
    Value.encodeAll_eq, repeated_flatMap reads]
  rfl

theorem parseBulk_oversized {data : Bytes} (large : maxBulk.toInt < data.length)
    (le : (data.length : Int) ≤ Int64.maxValue.toInt) (rest : Bytes) :
    parseBulk (Decimal.ofNat data.length ++ crlf ++ rest) =
      .refused (.invalidBulkLength (Int64.ofInt data.length)) := by
  obtain ⟨number, present, -, -⟩ := accepted_of_le le
  have refused : Int64.ofInt data.length < 0 ∨ maxBulk < Int64.ofInt data.length :=
    Or.inr (Int64.lt_iff_toInt_lt.mpr ((toInt_length le).symm ▸ large))
  rw [parseBulk, withNumber_append (not_crlf_ofNat _) number, if_neg present, if_pos refused]

theorem parseWithin_cons (levels : Nat) (tag : UInt8) (body : Bytes) :
    parseWithin (levels + 1) (tag :: body) =
      if tag = Value.plus then withLine body fun text rest => .complete (.simple text) rest
      else if tag = Value.minus then withLine body fun text rest => .complete (.error text) rest
      else if tag = Value.colon then withNumber body fun n rest => .complete (.integer n) rest
      else if tag = Value.dollar then parseBulk body
      else if tag = Value.star then parseArray (parseWithin levels) body
      else .refused (.unexpectedTypeByte tag) := rfl

theorem parseWithin_encode (h : value.Fits levels) (rest : Bytes) :
    parseWithin levels (value.encode ++ rest) = .complete value rest := by
  induction h generalizing rest with
  | @simple levels text one =>
      change parseWithin (levels + 1) (Value.plus :: (text ++ crlf ++ rest)) = _
      rw [parseWithin_cons, if_pos rfl, withLine_append one]
  | @error levels text one =>
      change parseWithin (levels + 1) (Value.minus :: (text ++ crlf ++ rest)) = _
      rw [parseWithin_cons, if_neg (by decide), if_pos rfl, withLine_append one]
  | @integer levels n =>
      change parseWithin (levels + 1) (Value.colon :: (Decimal.ofInt64 n ++ crlf ++ rest)) = _
      rw [parseWithin_cons, if_neg (by decide), if_neg (by decide), if_pos rfl,
        withNumber_append (not_crlf_ofInt64 n) (Decimal.int64?_ofInt64 n)]
  | nilBulk => rfl
  | @bulk levels data bound =>
      have split : (Value.bulk data).encode ++ rest =
          Value.dollar :: (Decimal.ofNat data.length ++ crlf ++ (data ++ crlf ++ rest)) := by
        simp [Value.encode, Value.encodeBulk, Value.line]
      rw [split, parseWithin_cons, if_neg (by decide), if_neg (by decide), if_neg (by decide),
        if_pos rfl, parseBulk_append bound]
  | nilArray => rfl
  | @array levels items bound _ ih =>
      have split : (Value.array items).encode ++ rest =
          Value.star :: (Decimal.ofNat items.length ++ crlf ++
            (Value.encodeAll items ++ rest)) := by
        simp [Value.encode, Value.line]
      rw [split, parseWithin_cons, if_neg (by decide), if_neg (by decide), if_neg (by decide),
        if_neg (by decide), if_pos rfl, parseArray_append bound ih]

section Words

variable {words before after : List Bytes} {data : Bytes}

theorem encodeWords_eq (words : List Bytes) :
    encodeWords words = (Value.array (words.map Value.bulk)).encode := by
  rw [encodeWords, Value.encode, Value.encodeAll_eq, List.length_map, List.flatMap_map]
  rfl

theorem parse_encodeWords (few : (words.length : Int) ≤ maxElements.toInt)
    (short : ∀ word ∈ words, (word.length : Int) ≤ maxBulk.toInt) (rest : Bytes) :
    parse (encodeWords words ++ rest) = .complete (.array (words.map Value.bulk)) rest := by
  rw [encodeWords_eq]
  refine parseWithin_encode (.array ?_ ?_) rest
  · rwa [List.length_map]
  · exact List.forall_mem_map.mpr fun word hm => .bulk (short word hm)

theorem parse_oversized_word (few : ((before ++ data :: after).length : Int) ≤ maxElements.toInt)
    (short : ∀ word ∈ before, (word.length : Int) ≤ maxBulk.toInt)
    (large : maxBulk.toInt < data.length) (le : (data.length : Int) ≤ Int64.maxValue.toInt) :
    parse (encodeWords (before ++ data :: after)) =
      .refused (.invalidBulkLength (Int64.ofInt data.length)) := by
  obtain ⟨number, present, accepted, same⟩ := accepted_of_le few
  have first : parseWithin maxNesting (Value.encodeBulk data ++ after.flatMap Value.encodeBulk) =
      .refused (.invalidBulkLength (Int64.ofInt data.length)) := by
    have split : Value.encodeBulk data ++ after.flatMap Value.encodeBulk =
        Value.dollar :: (Decimal.ofNat data.length ++ crlf ++
          (data ++ crlf ++ after.flatMap Value.encodeBulk)) := by
      simp [Value.encodeBulk, Value.line]
    rw [split, maxNesting, parseWithin_cons, if_neg (by decide), if_neg (by decide),
      if_neg (by decide), if_pos rfl, parseBulk_oversized large le]
  have reads : ∀ value ∈ before.map Value.bulk, ∀ rest,
      parseWithin maxNesting (value.encode ++ rest) = .complete value rest :=
    List.forall_mem_map.mpr fun word hm => parseWithin_encode (.bulk (short word hm))
  have refused := repeated_refused reads first after.length
  rw [List.length_map, List.flatMap_map] at refused
  have split : encodeWords (before ++ data :: after) =
      Value.star :: (Decimal.ofNat (before ++ data :: after).length ++ crlf ++
        (before.flatMap Value.encodeBulk ++
          (Value.encodeBulk data ++ after.flatMap Value.encodeBulk))) := by
    simp [encodeWords, Value.line]
  rw [split, parse, parseWithin_cons, if_neg (by decide), if_neg (by decide), if_neg (by decide),
    if_neg (by decide), if_pos rfl, parseArray, withNumber_append (not_crlf_ofNat _) number,
    if_neg present, if_neg accepted, same, List.length_append, List.length_cons]
  exact congrArg (Verdict.bind · _) refused

theorem parse_oversized (large : maxBulk.toInt < data.length)
    (le : (data.length : Int) ≤ Int64.maxValue.toInt) :
    parse (Value.array [.bulk data]).encode =
      .refused (.invalidBulkLength (Int64.ofInt data.length)) := by
  have few : (([] ++ data :: [] : List Bytes).length : Int) ≤ maxElements.toInt := by
    rw [List.nil_append, List.length_singleton]
    decide
  have refused : parse (encodeWords [data]) = _ :=
    parse_oversized_word few (List.forall_mem_nil _) large le
  rwa [encodeWords_eq] at refused

end Words

theorem le_toInt_of_accepted {n bound : Int64} (h : ¬ (n < 0 ∨ bound < n)) {k : Nat}
    (le : k ≤ n.toInt.toNat) : (k : Int) ≤ bound.toInt := by
  rw [Int64.lt_iff_toInt_lt, Int64.lt_iff_toInt_lt] at h
  have zero : (0 : Int64).toInt = 0 := by decide
  omega

theorem fits_of_parseBulk (h : parseBulk bytes = .complete value rest) :
    value.Fits (levels + 1) := by
  obtain ⟨text, n, behind, -, -, h⟩ := withNumber_complete h
  split at h
  · cases h
    exact .nilBulk
  · split at h
    · cases h
    · next accepted =>
        unfold takeBulk at h
        split at h
        · split at h
          · cases h
            exact .bulk (le_toInt_of_accepted accepted (List.length_take_le _ _))
          · cases h
        · cases h

theorem fits_of_parseArray {item : Bytes → Verdict Value}
    (reads : ∀ {bytes value rest}, item bytes = .complete value rest → value.Fits levels)
    (h : parseArray item bytes = .complete value rest) : value.Fits (levels + 1) := by
  obtain ⟨text, n, behind, -, -, h⟩ := withNumber_complete h
  split at h
  · cases h
    exact .nilArray
  · split at h
    · cases h
    · next accepted =>
        obtain ⟨items, after, read, h⟩ := Verdict.bind_eq_complete h
        obtain ⟨length, all⟩ := repeated_forall reads read
        cases h
        exact .array (le_toInt_of_accepted accepted (Nat.le_of_eq length)) all

theorem fits_of_parseWithin (h : parseWithin levels bytes = .complete value rest) :
    value.Fits levels := by
  induction levels generalizing bytes value rest with
  | zero => cases bytes <;> cases h
  | succ levels ih =>
      cases bytes with
      | nil => cases h
      | cons tag body =>
          rw [parseWithin_cons] at h
          split at h
          · obtain ⟨text, behind, line, h⟩ := withLine_complete h
            cases h
            exact .simple (takeLine_eq_some_iff.mp line).2
          · split at h
            · obtain ⟨text, behind, line, h⟩ := withLine_complete h
              cases h
              exact .error (takeLine_eq_some_iff.mp line).2
            · split at h
              · obtain ⟨text, n, behind, -, -, h⟩ := withNumber_complete h
                cases h
                exact .integer n
              · split at h
                · exact fits_of_parseBulk h
                · split at h
                  · exact fits_of_parseArray ih h
                  · cases h

theorem parse_encode_iff :
    parse value.encode = .complete value [] ↔ value.Fits (maxNesting + 1) := by
  constructor
  · exact fits_of_parseWithin
  · intro h
    have read := parseWithin_encode h []
    rwa [List.append_nil] at read

theorem stream_encode {values : List Value}
    (h : ∀ value ∈ values, value.Fits (maxNesting + 1)) :
    reader.stream (values.flatMap Value.encode) = (values, .waiting []) :=
  stream_flatMap reader (fun value hm => parseWithin_encode (h value hm)) rfl

theorem fits_of_stream (bytes : Bytes) :
    ∀ value ∈ (reader.stream bytes).1, value.Fits (maxNesting + 1) :=
  stream_forall reader fits_of_parseWithin

end Parse

end Resp

end ReadThrough
