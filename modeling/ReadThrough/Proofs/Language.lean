import ReadThrough.Command
import ReadThrough.Proofs.Numerals
import ReadThrough.Proofs.Outcomes

namespace ReadThrough

namespace CommandWord

def Takes : CommandWord → Nat → Prop
  | .get, n | .smembers, n | .scard, n | .incr, n | .decr, n => n = 1
  | .set, n | .sismember, n | .incrby, n | .decrby, n => n = 2
  | .del, n | .combine _, n => 1 ≤ n
  | .sadd, n | .srem, n | .store _, n => 2 ≤ n

def Spelled (word : CommandWord) (bytes : Bytes) : Prop :=
  bytes.map upperByte = ascii word.name

variable {word : CommandWord} {bytes : Bytes}

theorem spelled_name (word : CommandWord) : word.Spelled (ascii word.name) :=
  name_of_ofBytes? (ofBytes?_name word)

theorem ofBytes?_eq_some_iff : ofBytes? bytes = some word ↔ word.Spelled bytes := by
  constructor
  · exact name_of_ofBytes?
  · intro spelled
    have known := ofBytes?_name word
    rw [ofBytes?, spelled_name word] at known
    rwa [ofBytes?, spelled]

theorem ofBytes?_eq_none_iff :
    ofBytes? bytes = none ↔ ∀ word : CommandWord, ¬ word.Spelled bytes := by
  simp only [Option.eq_none_iff_forall_ne_some, ne_eq, ofBytes?_eq_some_iff]

end CommandWord

namespace Command

open Decimal (Numeral int64?_eq_some_iff)

def Filled : Command → Prop
  | .del keys | .algebra _ _ keys => keys ≠ []
  | .sadd _ members | .srem _ members => members ≠ []
  | _ => True

inductive Misfit : CommandWord → List Bytes → Failure → Prop
  | count {word : CommandWord} {operands : List Bytes} : ¬ word.Takes operands.length →
      Misfit word operands (.wrongArgumentCount word.name.toLower)
  | amount {word : CommandWord} {key text : Bytes} : word = .incrby ∨ word = .decrby →
      (∀ n : Int64, ¬ Numeral text n.toInt) → Misfit word [key, text] .amountNotInteger
  | least {key text : Bytes} : Numeral text Int64.minValue.toInt →
      Misfit .decrby [key, text] .amountOutOfRange

inductive Unreadable : List Bytes → Failure → Prop
  | empty : Unreadable [] .emptyCommand
  | unknown {first : Bytes} {operands : List Bytes} :
      (∀ word : CommandWord, ¬ word.Spelled first) →
      Unreadable (first :: operands) (.unsupportedCommand (Text.lossy first).toUpper)
  | misfit {first : Bytes} {operands : List Bytes} {word : CommandWord} {why : Failure} :
      word.Spelled first → Misfit word operands why → Unreadable (first :: operands) why

section Read

variable {command : Command} {word : CommandWord} {args operands : List Bytes}
  {text first key : Bytes} {n : Int64} {why : Failure}

theorem amount_eq_ok_iff : amount text = .ok n ↔ Numeral text n.toInt := by
  rw [← int64?_eq_some_iff, amount]
  cases Decimal.int64? text <;> simp

theorem amount_eq_error_iff :
    amount text = .error why ↔ (∀ n : Int64, ¬ Numeral text n.toInt) ∧ why = .amountNotInteger := by
  simp only [← int64?_eq_some_iff, amount]
  cases Decimal.int64? text <;> simp [eq_comm]

theorem ofOperands_of_not_takes (h : ¬ word.Takes operands.length) :
    ofOperands word operands = .error (.wrongArgumentCount word.name.toLower) := by
  fun_cases ofOperands word operands with
  | case15 => rfl
  | _ => exact absurd (by simp [CommandWord.Takes]) h

theorem exists_of_takes (h : word.Takes operands.length) :
    (∃ command, ofOperands word operands = .ok command ∧ command.Filled) ∨
      (word = .incrby ∨ word = .decrby) ∧ ∃ key text, operands = [key, text] := by
  cases word with
  | get | smembers | scard | incr | decr =>
      obtain ⟨key, rfl⟩ := List.length_eq_one_iff.mp h
      exact Or.inl ⟨_, rfl, by simp [Filled]⟩
  | set | sismember =>
      obtain ⟨key, value, rfl⟩ := List.length_eq_two.mp h
      exact Or.inl ⟨_, rfl, by simp [Filled]⟩
  | incrby =>
      obtain ⟨key, text, rfl⟩ := List.length_eq_two.mp h
      exact Or.inr ⟨Or.inl rfl, key, text, rfl⟩
  | decrby =>
      obtain ⟨key, text, rfl⟩ := List.length_eq_two.mp h
      exact Or.inr ⟨Or.inr rfl, key, text, rfl⟩
  | del | combine =>
      obtain ⟨key, keys, rfl⟩ := List.exists_cons_of_length_pos h
      exact Or.inl ⟨_, rfl, by simp [Filled]⟩
  | sadd | srem | store =>
      obtain ⟨key, rest, rfl⟩ := List.exists_cons_of_length_pos (Nat.lt_of_succ_lt h)
      obtain ⟨member, members, rfl⟩ := List.exists_cons_of_length_pos (Nat.lt_of_succ_lt_succ h)
      exact Or.inl ⟨_, rfl, by simp [Filled]⟩

theorem opposite_eq_ok_iff {m : Int64} : opposite n = .ok m ↔ n ≠ Int64.minValue ∧ m = -n := by
  rw [opposite]
  split <;> simp_all [eq_comm]

theorem toInt_neg_of_ne (h : n ≠ Int64.minValue) : (-n).toInt = -n.toInt := by
  have low := n.minValue_le_toInt
  have high := n.toInt_le
  have other : n.toInt ≠ Int64.minValue.toInt := fun same => h (Int64.toInt_inj.mp same)
  have least : Int64.minValue.toInt = -9223372036854775808 := by decide
  have most : Int64.maxValue.toInt = 9223372036854775807 := by decide
  rw [Int64.toInt_neg, Int.bmod_eq_of_le (by omega) (by omega)]

theorem opposite_eq_error_iff :
    opposite n = .error why ↔ n = Int64.minValue ∧ why = .amountOutOfRange := by
  rw [opposite]
  split <;> simp_all [eq_comm]

theorem ofOperands_incrby (number : Numeral text n.toInt) :
    ofOperands .incrby [key, text] = .ok (.incr key n) := by
  change (amount text).map (Command.incr key) = _
  rw [amount_eq_ok_iff.mpr number]
  rfl

theorem ofOperands_decrby (number : Numeral text n.toInt) :
    ofOperands .decrby [key, text] = (opposite n).map (.incr key) := by
  change ((amount text).bind opposite).map (Command.incr key) = _
  rw [amount_eq_ok_iff.mpr number]
  rfl

theorem ofOperands_operands (filled : command.Filled) :
    ofOperands command.word command.operands = .ok command := by
  cases command with
  | del keys =>
      obtain ⟨key, keys, rfl⟩ := List.exists_cons_of_ne_nil filled
      rfl
  | sadd key members | srem key members =>
      obtain ⟨member, members, rfl⟩ := List.exists_cons_of_ne_nil filled
      rfl
  | algebra op dest keys =>
      obtain ⟨key, keys, rfl⟩ := List.exists_cons_of_ne_nil filled
      cases dest <;> rfl
  | incr key amount => exact ofOperands_incrby (Decimal.numeral_ofInt64 amount)
  | _ => rfl

theorem filled_of_ofOperands (read : ofOperands word operands = .ok command) : command.Filled := by
  by_cases takes : word.Takes operands.length
  · rcases exists_of_takes takes with ⟨command', read', filled⟩ | ⟨rfl | rfl, key, text, rfl⟩
    · rw [read'] at read
      exact Except.ok.inj read ▸ filled
    · obtain ⟨n, -, rfl⟩ := map_eq_ok read
      trivial
    · obtain ⟨n, -, rfl⟩ := map_eq_ok read
      trivial
  · rw [ofOperands_of_not_takes takes] at read
    cases read

theorem ofArgs_cons (spelled : word.Spelled first) :
    ofArgs (first :: operands) = ofOperands word operands := by
  simp only [ofArgs, CommandWord.ofBytes?_eq_some_iff.mpr spelled]

theorem filled_of_ofArgs (read : ofArgs args = .ok command) : command.Filled := by
  cases args with
  | nil => cases read
  | cons first operands =>
      rw [ofArgs] at read
      split at read
      · exact filled_of_ofOperands read
      · cases read

theorem ofArgs_args (filled : command.Filled) : ofArgs command.args = .ok command :=
  (ofArgs_cons (CommandWord.spelled_name _)).trans (ofOperands_operands filled)

theorem ofOperands_eq_error_iff :
    ofOperands word operands = .error why ↔ Misfit word operands why := by
  constructor
  · intro failed
    by_cases takes : word.Takes operands.length
    · rcases exists_of_takes takes with ⟨command, read, -⟩ | ⟨rfl | rfl, key, text, rfl⟩
      · rw [read] at failed
        cases failed
      · obtain ⟨none, rfl⟩ := amount_eq_error_iff.mp (map_eq_error failed)
        exact .amount (Or.inl rfl) none
      · rcases bind_eq_error (map_eq_error failed) with failed | ⟨n, read, failed⟩
        · obtain ⟨none, rfl⟩ := amount_eq_error_iff.mp failed
          exact .amount (Or.inr rfl) none
        · obtain ⟨rfl, rfl⟩ := opposite_eq_error_iff.mp failed
          exact .least (amount_eq_ok_iff.mp read)
    · rw [ofOperands_of_not_takes takes] at failed
      cases failed
      exact .count takes
  · intro misfit
    cases misfit with
    | count other => exact ofOperands_of_not_takes other
    | @amount _ key text counter none =>
        have failed := amount_eq_error_iff.mpr ⟨none, rfl⟩
        rcases counter with rfl | rfl
        · change (amount text).map (Command.incr key) = _
          rw [failed]
          rfl
        · change ((amount text).bind opposite).map (Command.incr key) = _
          rw [failed]
          rfl
    | @least key text number =>
        rw [ofOperands_decrby number]
        rfl

theorem ofArgs_eq_error_iff : ofArgs args = .error why ↔ Unreadable args why := by
  cases args with
  | nil =>
      refine ⟨fun failed => Except.error.inj failed ▸ .empty, fun unreadable => ?_⟩
      cases unreadable
      rfl
  | cons first operands =>
      cases known : CommandWord.ofBytes? first with
      | none =>
          have unknown := CommandWord.ofBytes?_eq_none_iff.mp known
          have refused : ofArgs (first :: operands) =
              .error (.unsupportedCommand (Text.lossy first).toUpper) := by
            simp only [ofArgs, known]
          rw [refused]
          refine ⟨fun same => Except.error.inj same ▸ .unknown unknown, fun unreadable => ?_⟩
          cases unreadable with
          | unknown => rfl
          | misfit spelled => exact absurd spelled (unknown _)
      | some word =>
          have spelled := CommandWord.ofBytes?_eq_some_iff.mp known
          rw [ofArgs_cons spelled, ofOperands_eq_error_iff]
          refine ⟨.misfit spelled, fun unreadable => ?_⟩
          cases unreadable with
          | unknown none => exact absurd spelled (none word)
          | @misfit _ _ word' _ spelled' misfit =>
              have same := known.symm.trans (CommandWord.ofBytes?_eq_some_iff.mpr spelled')
              exact Option.some.inj same ▸ misfit

end Read

section Sent

theorem wordsOf_map_bulk (words : List Bytes) :
    wordsOf (words.map Resp.Value.bulk) = .ok words := by
  induction words with
  | nil => rfl
  | cons word words ih =>
      rw [List.map_cons, wordsOf, ih]
      rfl

theorem ofValue_words (words : List Bytes) :
    ofValue (.array (words.map Resp.Value.bulk)) = ofArgs words := by
  rw [ofValue, wordsOf_map_bulk]
  rfl

end Sent

structure Language : Prop where
  printed : ∀ (command : Command) (first : Bytes), command.Filled →
    command.word.Spelled first → ofArgs (first :: command.operands) = .ok command
  reprinted : ∀ (args : List Bytes) (command : Command), ofArgs args = .ok command →
    command.Filled ∧ ofArgs command.args = .ok command
  counted : ∀ (up key text : Bytes) (n : Int64), CommandWord.Spelled .incrby up →
    Numeral text n.toInt → ofArgs [up, key, text] = .ok (.incr key n)
  reversed : ∀ (up down key text text' : Bytes) (n : Int64), CommandWord.Spelled .incrby up →
    CommandWord.Spelled .decrby down → n ≠ Int64.minValue → Numeral text n.toInt →
      Numeral text' (-n.toInt) → ofArgs [down, key, text] = ofArgs [up, key, text'] ∧
        ofArgs [up, key, text'] = .ok (.incr key (-n))
  least : ∀ (down key text : Bytes), CommandWord.Spelled .decrby down →
    Numeral text Int64.minValue.toInt → ofArgs [down, key, text] = .error .amountOutOfRange
  increased : ∀ (one up key : Bytes), CommandWord.Spelled .incr one →
    CommandWord.Spelled .incrby up → ofArgs [one, key] = ofArgs [up, key, ascii "1"] ∧
      ofArgs [one, key] = .ok (.incr key 1)
  decreased : ∀ (one up key : Bytes), CommandWord.Spelled .decr one →
    CommandWord.Spelled .incrby up → ofArgs [one, key] = ofArgs [up, key, ascii "-1"] ∧
      ofArgs [one, key] = .ok (.incr key (-1))
  refused : ∀ (args : List Bytes) (why : Failure), ofArgs args = .error why ↔ Unreadable args why
  encoded : ∀ words : List Bytes,
    Resp.encodeWords words = (Resp.Value.array (words.map .bulk)).encode
  framed : ∀ words : List Bytes, (words.length : Int) ≤ Resp.maxElements.toInt →
    (∀ word ∈ words, (word.length : Int) ≤ Resp.maxBulk.toInt) →
      (∀ rest, Resp.parse (Resp.encodeWords words ++ rest) =
        .complete (.array (words.map .bulk)) rest) ∧
          ofValue (.array (words.map .bulk)) = ofArgs words

theorem language : Language where
  printed command first filled spelled := (ofArgs_cons spelled).trans (ofOperands_operands filled)
  reprinted args command read := ⟨filled_of_ofArgs read, ofArgs_args (filled_of_ofArgs read)⟩
  counted up key text n spelled number := (ofArgs_cons spelled).trans (ofOperands_incrby number)
  reversed up down key text text' n up' down' some number number' := by
    have increased : ofArgs [up, key, text'] = .ok (.incr key (-n)) := by
      rw [ofArgs_cons up', ofOperands_incrby]
      rwa [toInt_neg_of_ne some]
    refine ⟨?_, increased⟩
    rw [increased, ofArgs_cons down', ofOperands_decrby number, opposite_eq_ok_iff.mpr ⟨some, rfl⟩]
    rfl
  least down key text spelled number := by
    rw [ofArgs_cons spelled, ofOperands_decrby number, opposite_eq_error_iff.mpr ⟨rfl, rfl⟩]
    rfl
  increased one up key one' up' := by
    have increased : ofArgs [one, key] = .ok (.incr key 1) := ofArgs_cons one'
    refine ⟨?_, increased⟩
    have number : Numeral (ascii "1") (1 : Int64).toInt := int64?_eq_some_iff.mp (by decide)
    rw [increased, ofArgs_cons up', ofOperands_incrby number]
  decreased one up key one' up' := by
    have decreased : ofArgs [one, key] = .ok (.incr key (-1)) := ofArgs_cons one'
    refine ⟨?_, decreased⟩
    have number : Numeral (ascii "-1") (-1 : Int64).toInt := int64?_eq_some_iff.mp (by decide)
    rw [decreased, ofArgs_cons up', ofOperands_incrby number]
  refused args why := ofArgs_eq_error_iff
  encoded := Resp.encodeWords_eq
  framed words few short := ⟨Resp.parse_encodeWords few short, ofValue_words words⟩

example : ofArgs [ascii "DecrBy", ascii "n", ascii "+007"] = .ok (.incr (ascii "n") (-7)) := by
  decide

end Command

end ReadThrough
