import ReadThrough.Proofs.Framing
import ReadThrough.Store.Frame

namespace ReadThrough

variable {α β : Type} {read other : Bytes → Verdict α}

namespace Verdict

def byte : Bytes → Verdict UInt8
  | [] => .incomplete
  | b :: rest => .complete b rest

def stretch (length : Nat) (bytes : Bytes) : Verdict Bytes :=
  if length ≤ bytes.length then .complete (bytes.take length) (bytes.drop length) else .incomplete

def line (bytes : Bytes) : Verdict Bytes :=
  match Resp.takeLine bytes with
  | none => .incomplete
  | some (text, rest) => .complete text rest

end Verdict

inductive Composed : {α : Type} → (Bytes → Verdict α) → Prop where
  | complete {α : Type} (value : α) : Composed (Verdict.complete value)
  | refused {α : Type} (why : Failure) : Composed fun _ => (.refused why : Verdict α)
  | byte : Composed Verdict.byte
  | stretch (length : Nat) : Composed (Verdict.stretch length)
  | line : Composed Verdict.line
  | bind {α β : Type} {read : Bytes → Verdict α} {next : α → Bytes → Verdict β} : Composed read →
      (∀ value, Composed (next value)) → Composed fun bytes => (read bytes).bind next

theorem Composed.ite {c : Prop} [Decidable c] (h : Composed read) (h' : Composed other) :
    Composed fun bytes => if c then read bytes else other bytes := by
  by_cases holds : c
  · simpa only [if_pos holds] using h
  · simpa only [if_neg holds] using h'

theorem Composed.repeated (h : Composed read) : ∀ n, Composed (Verdict.repeated read n)
  | 0 => .complete []
  | n + 1 => h.bind fun _ => (Composed.repeated h n).bind fun _ => .complete _

namespace Resp

open Verdict (byte stretch line)

theorem withLine_eq (next : Bytes → Bytes → Verdict α) (bytes : Bytes) :
    withLine bytes next = (line bytes).bind next := by
  unfold withLine line
  cases takeLine bytes <;> rfl

theorem composed_withLine {next : Bytes → Bytes → Verdict α} (h : ∀ text, Composed (next text)) :
    Composed fun bytes => withLine bytes next := by
  simp only [withLine_eq]
  exact Composed.line.bind h

theorem composed_withNumber {next : Int64 → Bytes → Verdict α} (h : ∀ n, Composed (next n)) :
    Composed fun bytes => withNumber bytes next := by
  refine composed_withLine fun text => ?_
  cases Decimal.int64? text with
  | none => exact .refused _
  | some n => exact h n

theorem takeBulk_eq (length : Nat) (bytes : Bytes) :
    takeBulk length bytes = (stretch (length + 2) bytes).bind fun taken rest =>
      if taken.drop length = crlf then .complete (.bulk (taken.take length)) rest
      else .refused .bulkUnterminated := by
  have count := List.length_drop (i := length) (l := bytes)
  unfold takeBulk stretch
  split
  · next a b rest behind =>
      rw [behind, List.length_cons, List.length_cons] at count
      have enough : length + 2 ≤ bytes.length := by omega
      have front : (bytes.take (length + 2)).drop length = [a, b] := by
        rw [List.drop_take, behind]
        simp
      have left : bytes.drop (length + 2) = rest := by
        rw [← List.drop_drop, behind]
        rfl
      rw [if_pos enough, Verdict.bind, front, left, List.take_take, Nat.min_eq_left (by omega)]
  · next few =>
      refine (if_neg ?_).symm ▸ rfl
      intro enough
      cases behind : bytes.drop length with
      | nil =>
          rw [behind, List.length_nil] at count
          omega
      | cons a tail =>
          cases tail with
          | nil =>
              rw [behind, List.length_singleton] at count
              omega
          | cons b rest => exact few a b rest behind

theorem composed_takeBulk (length : Nat) : Composed (takeBulk length) := by
  rw [funext (takeBulk_eq length)]
  exact (Composed.stretch _).bind fun taken => (Composed.complete _).ite (.refused _)

theorem composed_parseBulk : Composed parseBulk := by
  refine composed_withNumber fun length => ?_
  exact (Composed.complete _).ite ((Composed.refused _).ite (composed_takeBulk _))

theorem composed_parseArray {item : Bytes → Verdict Value} (h : Composed item) :
    Composed (parseArray item) := by
  refine composed_withNumber fun count => (Composed.complete _).ite ((Composed.refused _).ite ?_)
  exact (h.repeated _).bind fun _ => .complete _

theorem composed_parseWithin (levels : Nat) : Composed (parseWithin levels) := by
  induction levels with
  | zero =>
      have split : parseWithin 0 = fun bytes => (byte bytes).bind fun _ _ =>
          .refused .nestedTooDeep := by
        funext bytes
        cases bytes <;> rfl
      rw [split]
      exact Composed.byte.bind fun _ => .refused _
  | succ levels ih =>
      have split : parseWithin (levels + 1) = fun bytes => (byte bytes).bind fun tag body =>
          parseWithin (levels + 1) (tag :: body) := by
        funext bytes
        cases bytes <;> rfl
      rw [split]
      refine Composed.byte.bind fun tag => ?_
      simp only [parseWithin_cons]
      refine (composed_withLine fun text => .complete (Value.simple text)).ite ?_
      refine (composed_withLine fun text => .complete (Value.error text)).ite ?_
      refine (composed_withNumber fun n => .complete (Value.integer n)).ite ?_
      exact composed_parseBulk.ite ((composed_parseArray ih).ite (.refused _))

theorem composed_parse : Composed parse := composed_parseWithin _

end Resp

namespace Store.Frame

open Verdict (byte stretch)

theorem decode_eq (bytes : Bytes) :
    decode bytes = (byte bytes).bind fun a rest => (byte rest).bind fun b rest =>
      (byte rest).bind fun c rest => (byte rest).bind fun d rest =>
      (byte rest).bind fun code rest =>
        if wordValue a b c d = 0 then .refused .frameWithoutCode
        else if maxLength < wordValue a b c d then
          .refused (.payloadTooLarge (wordValue a b c d) maxLength)
        else (stretch (wordValue a b c d - 1) rest).bind fun payload rest =>
          .complete { code, payload } rest := by
  match bytes with
  | [] | [_] | [_, _] | [_, _, _] | [_, _, _, _] => rfl
  | a :: b :: c :: d :: code :: body =>
      simp only [decode, byte, Verdict.bind]
      generalize wordValue a b c d = length
      by_cases zero : length = 0
      · rw [if_pos zero, if_pos zero]
      · rw [if_neg zero, if_neg zero]
        by_cases large : maxLength < length
        · rw [if_pos large, if_pos large]
        · rw [if_neg large, if_neg large, stretch, List.length_take]
          by_cases enough : length - 1 ≤ body.length
          · rw [if_pos enough, if_neg (by omega)]
          · rw [if_neg enough, if_pos (by omega)]

theorem composed_decode : Composed decode := by
  rw [funext decode_eq]
  refine Composed.byte.bind fun a => Composed.byte.bind fun b => Composed.byte.bind fun c =>
    Composed.byte.bind fun d => Composed.byte.bind fun code => (Composed.refused _).ite ?_
  exact (Composed.refused _).ite ((Composed.stretch _).bind fun payload => .complete _)

end Store.Frame

end ReadThrough
