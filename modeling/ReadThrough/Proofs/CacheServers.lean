import Mathlib.Logic.Function.Basic
import ReadThrough.Cache.Copy

namespace ReadThrough.Cache

def Command.renews : Command → Bool
  | .set .. | .del _ => true
  | .pexpire _ ttl => ttl == 0
  | _ => false

inductive Happening where
  | told (command : Command)
  | lapsed (key : Bytes)
  deriving DecidableEq, Repr

def Happening.command? : Happening → Option Command
  | .told command => some command
  | .lapsed _ => none

/-- A cache server, by what it makes of the copy under the key of a command, and what it answers. -/
structure Server where
  Copy : Type
  exec : Command → Option Copy → Option Copy
  answer : Command → Option Copy → Resp.Value
  renewed : ∀ command, command.renews = true → ∀ copy other, exec command copy = exec command other

namespace Server

variable (cache : Server)

abbrev Contents : Type :=
  Bytes → Option cache.Copy

def step (contents : cache.Contents) : Happening → cache.Contents
  | .told command =>
      Function.update contents command.key (cache.exec command (contents command.key))
  | .lapsed key => Function.update contents key none

def after (contents : cache.Contents) (happenings : List Happening) : cache.Contents :=
  happenings.foldl cache.step contents

def answers (contents : cache.Contents) : List Happening → List Resp.Value
  | [] => []
  | .told command :: rest =>
      cache.answer command (contents command.key) ::
        answers (cache.step contents (.told command)) rest
  | .lapsed key :: rest => answers (cache.step contents (.lapsed key)) rest

variable {cache} {contents other : cache.Contents} {happenings : List Happening} {key : Bytes}
  {command : Command}

theorem step_agree (agree : ∀ k, k ≠ key → contents k = other k) (happening : Happening) :
    ∀ k, k ≠ key → cache.step contents happening k = cache.step other happening k := by
  intro k ne
  cases happening with
  | told command =>
      by_cases own : k = command.key
      · subst own
        simp only [step, Function.update_self, agree _ ne]
      · simp only [step, Function.update_of_ne own, agree k ne]
  | lapsed gone =>
      by_cases own : k = gone
      · subst own
        simp only [step, Function.update_self]
      · simp only [step, Function.update_of_ne own, agree k ne]

theorem step_renews (agree : ∀ k, k ≠ command.key → contents k = other k)
    (renews : command.renews = true) :
    cache.step contents (.told command) = cache.step other (.told command) := by
  funext k
  by_cases own : k = command.key
  · subst own
    simp only [step, Function.update_self]
    exact cache.renewed command renews _ _
  · exact step_agree agree (.told command) k own

theorem after_eq_of_renewed (agree : ∀ k, k ≠ command.key → contents k = other k)
    (renews : command.renews = true) (told : .told command ∈ happenings) :
    cache.after contents happenings = cache.after other happenings := by
  induction happenings generalizing contents other with
  | nil => cases told
  | cons happening rest ih =>
      rcases List.mem_cons.mp told with rfl | later
      · exact congrArg (cache.after · rest) (step_renews agree renews)
      · exact ih (step_agree agree happening) later

theorem after_append (contents : cache.Contents) (happenings more : List Happening) :
    cache.after contents (happenings ++ more) = cache.after (cache.after contents happenings) more :=
  List.foldl_append

theorem answers_append (contents : cache.Contents) (happenings more : List Happening) :
    cache.answers contents (happenings ++ more) =
      cache.answers contents happenings ++ cache.answers (cache.after contents happenings) more := by
  induction happenings generalizing contents with
  | nil => rfl
  | cons happening rest ih =>
      cases happening with
      | told command => exact congrArg (cache.answer command _ :: ·) (ih _)
      | lapsed key => exact ih _

theorem length_answers (contents : cache.Contents) (happenings : List Happening) :
    (cache.answers contents happenings).length =
      (happenings.filterMap Happening.command?).length := by
  induction happenings generalizing contents with
  | nil => rfl
  | cons happening rest ih =>
      cases happening with
      | told command => exact congrArg (· + 1) (ih _)
      | lapsed key => exact ih _

theorem after_of_other {commands : List Command} (others : ∀ command ∈ commands, command.key ≠ key) :
    cache.after contents (commands.map .told) key = contents key := by
  induction commands generalizing contents with
  | nil => rfl
  | cons command rest ih =>
      obtain ⟨ne, others⟩ := List.forall_mem_cons.mp others
      have later := @ih (cache.step contents (.told command)) others
      exact later.trans (Function.update_of_ne (Ne.symm ne) _ _)

end Server

inductive Held where
  | value (value : Bytes)
  | members (members : List Bytes)
  deriving DecidableEq, Repr

def Server.keeping : Server where
  Copy := Held
  exec
    | .set _ value _, _ => some (.value value)
    | .sadd _ members, none => some (.members members)
    | .sadd _ members, some (.members held) =>
        some (.members (held ++ Members.without members held))
    | .pexpire _ ttl, copy => if ttl = 0 then none else copy
    | .del _, _ => none
    | _, copy => copy
  answer
    | .set .., _ => .simple (ascii "OK")
    | .get _, none => .nilBulk
    | .get _, some (.value value) => .bulk value
    | .sadd _ members, none => .integer (Int64.ofNat members.length)
    | .sadd _ members, some (.members held) =>
        .integer (Int64.ofNat (Members.without members held).length)
    | .pexpire .., copy | .del _, copy => .integer (if copy.isSome then 1 else 0)
    | .smembers _, none => .array []
    | .smembers _, some (.members held) => .array (held.map .bulk)
    | .sismember .., none | .scard _, none => .integer 0
    | .sismember _ member, some (.members held) => .integer (if member ∈ held then 1 else 0)
    | .scard _, some (.members held) => .integer (Int64.ofNat held.length)
    | _, some _ => .error (ascii "WRONGTYPE")
  renewed := by
    intro command renews copy other
    cases command with
    | set | del => rfl
    | pexpire key ttl => simp_all [Command.renews]
    | _ => cases renews

end ReadThrough.Cache
