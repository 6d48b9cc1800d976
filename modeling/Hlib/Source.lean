import Hlib.Memory

namespace Hlib

/-- `Source`: the bytes behind `data()` and how many of them were consumed. -/
structure Source where
  data : List Byte
  progress : Nat := 0
  deriving DecidableEq, Repr

namespace Source

def size (s : Source) : Nat := s.data.length

def available (s : Source) : Checked Nat := do
  require (s.progress ≤ s.size) .assertion
  .ok (s.size - s.progress)

def empty (s : Source) : Checked Bool := do
  require (s.progress ≤ s.size) .assertion
  .ok (s.progress = s.size)

/-- The pointer `peek` gives, as the bytes it points at. -/
def peek (s : Source) (size : Nat) : Checked (List Byte) := do
  require (s.progress + size ≤ s.size) .assertion
  .ok ((s.data.drop s.progress).take size)

def consume (s : Source) (size : Nat) : Checked (List Byte × Source) := do
  let data ← s.peek size
  .ok (data, { s with progress := s.progress + size })

def remaining (s : Source) : List Byte := s.data.drop s.progress

def Valid (s : Source) : Prop := s.progress ≤ s.size

instance (s : Source) : Decidable s.Valid := inferInstanceAs (Decidable (_ ≤ _))

theorem remaining_length (s : Source) : s.remaining.length = s.size - s.progress := by
  rw [remaining, List.length_drop, size]

theorem available_ok {s : Source} {n : Nat} (h : s.available = .ok n) :
    s.Valid ∧ n = s.remaining.length := by
  obtain ⟨_, hr, h⟩ := bind_ok h
  exact ⟨require_ok hr, by rw [remaining_length]; exact (Except.ok.inj h).symm⟩

theorem peek_available {s : Source} (hv : s.Valid) :
    s.peek s.remaining.length = .ok s.remaining := by
  have room : s.progress + (s.size - s.progress) ≤ s.size := by
    have : s.progress ≤ s.size := hv
    omega
  rw [peek, remaining_length, require_of room, ok_bind, ← remaining_length, ← remaining,
    List.take_length]

theorem consume_of_le {s : Source} {n : Nat} (hv : s.Valid) (h : n ≤ s.remaining.length) :
    s.consume n = .ok (s.remaining.take n, { s with progress := s.progress + n }) := by
  have valid : s.progress ≤ s.size := hv
  have room : s.progress + n ≤ s.size := by
    rw [remaining_length] at h
    omega
  rw [consume, peek, require_of room, ok_bind, ok_bind, remaining]

theorem empty_of_valid {s : Source} (hv : s.Valid) :
    s.empty = .ok (decide (s.remaining = [])) := by
  have valid : s.progress ≤ s.size := hv
  have same : (s.progress = s.size) ↔ s.remaining = [] := by
    rw [← List.length_eq_zero_iff, remaining_length]
    omega
  rw [empty, require_of valid, ok_bind]
  exact congrArg Except.ok (decide_eq_decide.mpr same)

theorem valid_advance {s : Source} {n : Nat} (hv : s.Valid) (h : n ≤ s.remaining.length) :
    ({ s with progress := s.progress + n } : Source).Valid := by
  have valid : s.progress ≤ s.size := hv
  rw [remaining_length] at h
  show s.progress + n ≤ s.size
  omega

theorem remaining_advance (s : Source) (n : Nat) :
    ({ s with progress := s.progress + n } : Source).remaining = s.remaining.drop n := by
  rw [remaining, remaining, List.drop_drop]

end Source

end Hlib
