import Mathlib.Logic.Function.Basic
import Mathlib.Data.List.Basic
import Mathlib.Algebra.Order.Ring.Int

namespace DescriptorTable

open Function (update update_self update_of_ne)

/-- An entry of the table: an open file, and whether `exec` closes it. -/
structure Descriptor (φ : Type) where
  file : φ
  cloexec : Bool := false
  deriving DecidableEq, Repr

/-- The descriptors of a process. -/
abbrev Table (φ : Type) := ℤ → Option (Descriptor φ)

variable {φ : Type}

/-- The lowest descriptor that is not in use, below the limit of the process. -/
def lowest (limit : Nat) (t : Table φ) : Option ℤ :=
  ((List.range limit).find? fun n : Nat => (t n).isNone).map Int.ofNat

def close (t : Table φ) (fd : ℤ) : Table φ := update t fd none

/-- A descriptor for both ends of a new pipe, or `none` where the limit is reached. -/
def pipe (limit : Nat) (reader writer : φ) (t : Table φ) : Option ((ℤ × ℤ) × Table φ) := do
  let r ← lowest limit t
  let t := update t r (some { file := reader })
  let w ← lowest limit t
  some ((r, w), update t w (some { file := writer }))

/-- `none` where it fails with `EBADF`. -/
def dup2 (limit : Nat) (t : Table φ) (old new : ℤ) : Option (Table φ) :=
  match t old with
  | none => none
  | some descriptor =>
    if new < 0 ∨ limit ≤ new then none
    else if old = new then some t
    else some (update t new (some { file := descriptor.file }))

def exec (t : Table φ) : Table φ := fun fd => (t fd).filter fun descriptor => !descriptor.cloexec

/-- Just the descriptors that are `gone` have been closed. -/
def Shut (gone : ℤ → Prop) (t t' : Table φ) : Prop :=
  ∀ fd, (gone fd → t' fd = none) ∧ (¬gone fd → t' fd = t fd)

/-- Some descriptor refers to the file. -/
def Holds (t : Table φ) (file : φ) : Prop := ∃ fd descriptor, t fd = some descriptor ∧ descriptor.file = file

variable {t : Table φ} {limit : Nat}

theorem lowest_ok {fd : ℤ} (h : lowest limit t = some fd) :
    0 ≤ fd ∧ fd < limit ∧ t fd = none ∧ ∀ lower, 0 ≤ lower → lower < fd → t lower ≠ none := by
  obtain ⟨n, found, rfl⟩ := Option.map_eq_some_iff.mp h
  obtain ⟨closed, i, bound, at_i, before⟩ := List.find?_eq_some_iff_getElem.mp found
  rw [List.length_range] at bound
  rw [List.getElem_range] at at_i
  subst at_i
  refine ⟨Int.natCast_nonneg i, Int.ofNat_lt.mpr bound, Option.isNone_iff_eq_none.mp closed, ?_⟩
  intro lower nonneg below
  obtain ⟨k, rfl⟩ := Int.eq_ofNat_of_zero_le nonneg
  have passed := before k (Int.ofNat_lt.mp below)
  rw [List.getElem_range] at passed
  intro unused
  simp [unused] at passed

/-- A pipe takes two descriptors that were not in use, the lowest ones. -/
theorem pipe_ok {reader writer : φ} {r w : ℤ} {t' : Table φ}
    (h : pipe limit reader writer t = some ((r, w), t')) :
    t' = update (update t r (some { file := reader })) w (some { file := writer }) ∧
      (0 ≤ r ∧ r < limit ∧ t r = none ∧ ∀ lower, 0 ≤ lower → lower < r → t lower ≠ none) ∧
      0 ≤ w ∧ w < limit ∧ t w = none ∧ r ≠ w := by
  obtain ⟨r', first, h⟩ := Option.bind_eq_some_iff.mp h
  obtain ⟨w', second, h⟩ := Option.bind_eq_some_iff.mp h
  cases h
  obtain ⟨nonneg, below, closed, _⟩ := lowest_ok second
  have ne : r ≠ w := by
    rintro rfl
    rw [update_self] at closed
    cases closed
  rw [update_of_ne ne.symm] at closed
  exact ⟨rfl, lowest_ok first, nonneg, below, closed, ne⟩

/-- A descriptor that `exec` leaves open, also where it is the new one already. -/
theorem dup2_of_open {old new : ℤ} {file : φ} (found : t old = some { file }) (nonneg : 0 ≤ new)
    (below : new < limit) : dup2 limit t old new = some (update t new (some { file })) := by
  have inside : ¬(new < 0 ∨ (limit : ℤ) ≤ new) := by omega
  simp only [dup2, found, if_neg inside]
  split
  next same =>
    rw [← same, ← found, Function.update_eq_self]
  next => rfl

theorem exec_apply (fd : ℤ) : exec t fd = (t fd).filter fun descriptor => !descriptor.cloexec := rfl

theorem exec_eq_none {fd : ℤ} (h : t fd = none) : exec t fd = none := by
  rw [exec_apply, h]
  rfl

theorem Shut.trans {gone gone' : ℤ → Prop} {t t' t'' : Table φ} (h : Shut gone t t')
    (h' : Shut gone' t' t'') : Shut (fun fd => gone fd ∨ gone' fd) t t'' := by
  intro fd
  by_cases later : gone' fd
  · exact ⟨fun _ => (h' fd).1 later, fun other => absurd (Or.inr later) other⟩
  · rw [(h' fd).2 later]
    refine ⟨fun any => (h fd).1 ?_, fun other => (h fd).2 fun now => other (Or.inl now)⟩
    exact any.resolve_right later

theorem Shut.congr {gone gone' : ℤ → Prop} {t t' : Table φ} (h : Shut gone t t')
    (same : ∀ fd, gone fd ↔ gone' fd) : Shut gone' t t' := by
  intro fd
  rw [← same fd]
  exact h fd

end DescriptorTable
