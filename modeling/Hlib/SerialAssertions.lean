import Hlib.SerialRoundTrip

namespace Hlib

namespace Serial

variable {floats : Floats} {order : Order}

/-- Where the check of the type fails, nothing is read. -/
theorem deserialize_fails {source : Source} (valid : source.Valid) {field : Field} {rest : List Byte}
    (h : source.remaining = encode floats order field ++ rest) (short : ¬field.Fits rest.length) :
    deserialize floats order true source field.type = .error .assertion := by
  have length := congrArg List.length h
  rw [List.length_append, encode_length] at length
  cases field with
  | value T U x =>
    have missing : source.remaining.length < T.sizeof := by
      rw [length]
      exact Nat.lt_of_not_le short
    unfold deserialize
    change (assertAvailable true source T.sizeof >>= _) = _
    rw [assertAvailable_fails valid missing]
    rfl
  | blob data => exact absurd trivial short
  | cString text => exact absurd trivial short

/-- Up to the first field whose check fails the fields are read back. -/
theorem deserializeAll_fails {fields : List Field} {source : Source} (valid : source.Valid)
    (h : source.remaining = encodeAll floats order fields) (short : ¬Room fields) :
    deserializeAll floats order true source (fields.map Field.type) = .error .assertion := by
  induction fields generalizing source with
  | nil => exact absurd trivial short
  | cons field fields ih =>
    have front : source.remaining = encode floats order field ++ encodeAll floats order fields := h
    have length : (encodeAll floats order fields).length = total fields := encodeAll_length fields
    rw [List.map_cons, deserializeAll]
    by_cases fits : field.Fits (total fields)
    · rw [← length] at fits
      have behind := behind_front valid front
      rw [encode_length] at behind
      have later : ¬Room fields := by
        intro room
        rw [length] at fits
        exact short ⟨fits, room⟩
      rw [deserialize_encode valid front fun _ => fits, ok_bind]
      dsimp only
      rw [ih behind.1 behind.2 later]
      rfl
    · rw [← length] at fits
      rw [deserialize_fails valid front fits]
      rfl

/-- No check fails while a list is read back if and only if at each field `T` is no larger than `U` and all
that follows. -/
theorem assertions_hold_iff (floats : Floats) (order : Order) (fields : List Field) :
    ((∃ read, deserializeAll floats order true { data := encodeAll floats order fields }
          (fields.map Field.type) = .ok read) ↔ Room fields) ∧
      (¬Room fields → deserializeAll floats order true { data := encodeAll floats order fields }
        (fields.map Field.type) = .error .assertion) := by
  have valid : ({ data := encodeAll floats order fields } : Source).Valid := Nat.zero_le _
  have fails := fun short => @deserializeAll_fails floats order fields _ valid rfl short
  refine ⟨⟨?_, ?_⟩, fails⟩
  · rintro ⟨read, succeeds⟩
    by_contra short
    rw [fails short] at succeeds
    cases succeeds
  · intro room
    exact ⟨_, deserializeAll_encode valid rfl fun _ => room⟩

/-- An enumeration of 32 bits, sent as one byte and nothing behind it. -/
def lastNarrow : List Field := [.value (.integer (.int false .w32)) (.integer (.int false .w8)) 1]

theorem lastNarrow_fails :
    ¬∀ (floats : Floats) (order : Order) (fields : List Field),
      (∀ field ∈ fields, field.Sound floats) →
        ∃ read, deserializeAll floats order true { data := encodeAll floats order fields }
          (fields.map Field.type) = .ok read := by
  intro h
  have sound : ∀ field ∈ lastNarrow, field.Sound noFloats := by
    intro field hf
    obtain rfl := List.mem_singleton.mp hf
    constructor
    · decide
    · decide
  obtain ⟨read, succeeds⟩ := h noFloats .big lastNarrow sound
  have failed : deserializeAll noFloats .big true { data := encodeAll noFloats .big lastNarrow }
      (lastNarrow.map Field.type) = .error .assertion := rfl
  rw [failed] at succeeds
  cases succeeds

end Serial

end Hlib
