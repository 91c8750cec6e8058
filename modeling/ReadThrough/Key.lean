import ReadThrough.Failure

namespace ReadThrough

structure Key where
  ns : Option Bytes
  bucket : Bytes
  name : Bytes
  deriving DecidableEq, Repr

namespace Key

def separator : UInt8 := 58

def defaultNamespace : Bytes := ascii "default"

def make (ns : Option Bytes) (bucket name : Bytes) : Key :=
  { ns := ns.filter (· ≠ []), bucket, name }

def hasBucket (key : Key) : Bool :=
  key.bucket ≠ []

def namespaceOrDefault (key : Key) : Bytes :=
  key.ns.getD defaultNamespace

def spell (ns : Option Bytes) (bucket name : Bytes) : Bytes :=
  match ns.filter (· ≠ []) with
  | some ns => ns ++ separator :: bucket ++ separator :: name
  | none => if bucket = [] then name else bucket ++ separator :: name

def join (key : Key) : Bytes :=
  spell key.ns key.bucket key.name

def requireBucket (key : Key) : Except Failure Key :=
  if key.hasBucket then .ok key else .error (.noBucket key.name)

def parts (raw : Bytes) : Bytes × Bytes × Bytes :=
  match cut separator raw with
  | (first, none) => (first, [], [])
  | (first, some rest) =>
      match cut separator rest with
      | (second, none) => (first, second, [])
      | (second, some third) => (first, second, third)

def settle : Bytes × Bytes × Bytes → Option Key
  | (ns, bucket, name) =>
      if name ≠ [] then some (make (some ns) bucket name)
      else if bucket ≠ [] then some (make none ns bucket)
      else if ns ≠ [] then some (make none [] ns)
      else none

def split (raw : Bytes) : Except Failure Key :=
  if raw.all isBlank then .error .emptyKey
  else
    match settle (parts raw) with
    | some key => .ok key
    | none => .error (.noKeyComponent raw)

theorem requireBucket_eq_ok {key key' : Key} (h : key.requireBucket = .ok key') :
    key' = key ∧ key.hasBucket = true := by
  unfold requireBucket at h
  split at h
  · next hb => exact ⟨(Except.ok.inj h).symm, hb⟩
  · simp at h

theorem name_ne_nil_of_settle {p : Bytes × Bytes × Bytes} {key : Key} (h : settle p = some key) :
    key.name ≠ [] := by
  obtain ⟨ns, bucket, name⟩ := p
  by_cases hn : name = []
  · by_cases hb : bucket = []
    · by_cases hs : ns = []
      · simp [settle, hn, hb, hs] at h
      · simp only [settle, hn, hb, hs, ne_eq, not_true_eq_false, not_false_eq_true, if_true,
          if_false, Option.some.injEq] at h
        simpa [← h, make] using hs
    · simp only [settle, hn, hb, ne_eq, not_true_eq_false, not_false_eq_true, if_true, if_false,
        Option.some.injEq] at h
      simpa [← h, make] using hb
  · simp only [settle, hn, ne_eq, not_false_eq_true, if_true, Option.some.injEq] at h
    simpa [← h, make] using hn

theorem name_ne_nil_of_split {raw : Bytes} {key : Key} (h : split raw = .ok key) :
    key.name ≠ [] := by
  unfold split at h
  split at h
  · simp at h
  · split at h
    · next hs => cases h; exact name_ne_nil_of_settle hs
    · simp at h

end Key

structure Address where
  raw : Bytes
  key : Key
  deriving DecidableEq, Repr

namespace Address

def parse (raw : Bytes) : Except Failure Address :=
  (Key.split raw).map fun key => { raw, key }

def hasBucket (address : Address) : Bool :=
  address.key.hasBucket

end Address

end ReadThrough
