import Mathlib.Data.List.Basic

namespace Overwrite

variable {α : Type*}

/-- `xs` with the entries from `offset` on replaced by `ys`. -/
def overwrite (xs : List α) (offset : Nat) (ys : List α) : List α :=
  xs.take offset ++ ys ++ xs.drop (offset + ys.length)

@[simp] theorem overwrite_nil (xs : List α) (offset : Nat) : overwrite xs offset [] = xs := by
  simp [overwrite]

theorem mem_overwrite {xs ys : List α} {offset : Nat} {x : α} (h : x ∈ overwrite xs offset ys) :
    x ∈ xs ∨ x ∈ ys := by
  rcases List.mem_append.mp h with front | rest
  · rcases List.mem_append.mp front with before | stored
    · exact Or.inl (List.mem_of_mem_take before)
    · exact Or.inr stored
  · exact Or.inl (List.mem_of_mem_drop rest)

theorem overwrite_length {xs ys : List α} {offset : Nat} (room : offset + ys.length ≤ xs.length) :
    (overwrite xs offset ys).length = xs.length := by
  simp only [overwrite, List.length_append, List.length_take, List.length_drop]
  omega

theorem overwrite_before {xs ys : List α} {offset i : Nat} (room : offset + ys.length ≤ xs.length)
    (hi : i < offset) : (overwrite xs offset ys)[i]? = xs[i]? := by
  rw [overwrite, List.append_assoc, List.getElem?_append_left (by simp; omega)]
  exact List.getElem?_take_of_lt hi

theorem overwrite_inside {xs ys : List α} {offset i : Nat} (room : offset + ys.length ≤ xs.length)
    (low : offset ≤ i) (high : i < offset + ys.length) :
    (overwrite xs offset ys)[i]? = ys[i - offset]? := by
  have hl : (xs.take offset).length = offset := by
    rw [List.length_take]
    omega
  rw [overwrite, List.getElem?_append_left (by simp only [List.length_append, hl]; omega),
    List.getElem?_append_right (by omega), hl]

theorem overwrite_take {xs ys : List α} {offset : Nat} (room : offset + ys.length ≤ xs.length) :
    (overwrite xs offset ys).take (offset + ys.length) = xs.take offset ++ ys := by
  have hl : (xs.take offset ++ ys).length = offset + ys.length := by
    simp only [List.length_append, List.length_take]
    omega
  rw [overwrite, ← hl, List.take_left']
  rfl

theorem overwrite_drop {xs ys : List α} {offset : Nat} (room : offset + ys.length ≤ xs.length) :
    (overwrite xs offset ys).drop (offset + ys.length) = xs.drop (offset + ys.length) := by
  have hl : (xs.take offset ++ ys).length = offset + ys.length := by
    simp only [List.length_append, List.length_take]
    omega
  rw [overwrite, List.drop_left' hl]

theorem overwrite_last {xs junk ys : List α} (h : junk.length = ys.length) :
    overwrite (xs ++ junk) xs.length ys = xs ++ ys := by
  have rest : (xs ++ junk).drop (xs.length + ys.length) = [] := by
    apply List.drop_eq_nil_of_le
    rw [List.length_append]
    omega
  rw [overwrite, List.take_left, rest, List.append_nil]

/-- A store behind an entry leaves what comes up to it. -/
theorem overwrite_behind {xs ys zs : List α} {y : α} {offset : Nat} (h : xs.length < offset) :
    overwrite (xs ++ y :: ys) offset zs = xs ++ y :: overwrite ys (offset - xs.length - 1) zs := by
  obtain ⟨n, rfl⟩ := Nat.exists_eq_add_of_lt h
  have before : xs.length + n + 1 - xs.length - 1 = n := by omega
  have split : xs.length + n + 1 = xs.length + (n + 1) := by omega
  have rest : xs.length + n + 1 + zs.length = xs.length + (n + zs.length + 1) := by omega
  rw [before, overwrite, overwrite, rest, split, List.take_length_add_append, List.drop_length_add_append,
    List.take_succ_cons, List.drop_succ_cons]
  simp only [List.append_assoc, List.cons_append]

/-- Two stores, the second where the first ends, are one store. -/
theorem overwrite_append (xs ys zs : List α) (offset : Nat)
    (room : offset + ys.length + zs.length ≤ xs.length) :
    overwrite (overwrite xs offset ys) (offset + ys.length) zs = overwrite xs offset (ys ++ zs) := by
  have hd : (overwrite xs offset ys).drop (offset + ys.length + zs.length) =
      xs.drop (offset + ys.length + zs.length) := by
    rw [← List.drop_drop, overwrite_drop (by omega), List.drop_drop]
  rw [overwrite, overwrite_take (by omega), hd]
  simp [overwrite, Nat.add_assoc]

theorem overwrite_take_of_le {xs ys : List α} {offset n : Nat} (h : offset + ys.length ≤ n)
    (hn : n ≤ xs.length) : (overwrite xs offset ys).take n = overwrite (xs.take n) offset ys := by
  have front : (xs.take offset ++ ys).length = offset + ys.length := by
    simp only [List.length_append, List.length_take]
    omega
  rw [overwrite, overwrite, List.take_append, List.take_of_length_le (by omega), front,
    List.take_take, Nat.min_eq_left (by omega), List.drop_take]

/-- The entries between `offset` and `size`, moved up to make room, and others stored in the gap: the
two lists are spliced. -/
theorem overwrite_splice {xs ys : List α} {offset size : Nat} (inside : offset ≤ size)
    (room : size + ys.length ≤ xs.length) :
    (overwrite (overwrite xs (offset + ys.length) ((xs.drop offset).take (size - offset))) offset ys).take
        (size + ys.length) =
      (xs.take size).take offset ++ ys ++ (xs.take size).drop offset := by
  have tail : ((xs.drop offset).take (size - offset)).length = size - offset := by
    rw [List.length_take, List.length_drop]
    omega
  have fits : offset + ys.length + ((xs.drop offset).take (size - offset)).length ≤ xs.length := by
    omega
  have moved := overwrite_take fits
  have count : offset + ys.length + (size - offset) = size + ys.length := by omega
  rw [tail, count] at moved
  have low : (xs.take (offset + ys.length)).length = offset + ys.length := by
    rw [List.length_take]
    omega
  have before : (xs.take (offset + ys.length) ++ (xs.drop offset).take (size - offset)).take offset =
      xs.take offset := by
    rw [List.take_append_of_le_length (by omega), List.take_take, Nat.min_eq_left (by omega)]
  rw [overwrite_take_of_le (by omega) (by rw [overwrite_length fits]; exact room), moved, overwrite,
    before, List.drop_left' low, List.take_take, Nat.min_eq_left inside, List.drop_take]

/-- The entries behind a gap, moved down to close it: the gap is deleted. -/
theorem overwrite_delete {xs : List α} {offset gap size : Nat} (inside : offset + gap ≤ size)
    (room : size ≤ xs.length) :
    (overwrite xs offset ((xs.drop (offset + gap)).take (size - (offset + gap)))).take (size - gap) =
      (xs.take size).take offset ++ (xs.take size).drop (offset + gap) := by
  have tail : ((xs.drop (offset + gap)).take (size - (offset + gap))).length = size - (offset + gap) := by
    rw [List.length_take, List.length_drop]
    omega
  have fits : offset + ((xs.drop (offset + gap)).take (size - (offset + gap))).length ≤ xs.length := by
    omega
  have stored := overwrite_take fits
  have count : offset + (size - (offset + gap)) = size - gap := by omega
  rw [tail, count] at stored
  rw [stored, List.take_take, Nat.min_eq_left (by omega), List.drop_take]

end Overwrite
