import ReadThrough.Bytes

namespace ReadThrough

structure Buffer where
  bytes : Bytes := []
  deriving DecidableEq, Repr

namespace Buffer

def append (buffer : Buffer) (data : Bytes) : Buffer :=
  ⟨buffer.bytes ++ data⟩

def consume (buffer : Buffer) (count : Nat) : Buffer :=
  ⟨buffer.bytes.drop count⟩

def extract (buffer : Buffer) (count : Nat) : Bytes × Buffer :=
  (buffer.bytes.take count, buffer.consume count)

def clear (_ : Buffer) : Buffer :=
  {}

theorem extract_fst_append_snd (buffer : Buffer) (count : Nat) :
    (buffer.extract count).1 ++ (buffer.extract count).2.bytes = buffer.bytes := by
  simp [extract, consume]

end Buffer

end ReadThrough
