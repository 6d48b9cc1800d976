import Mathlib.Algebra.BigOperators.Group.Finset.Basic

namespace Holdings

open Function (update update_self update_of_ne)

variable {ι α M : Type*} [Fintype ι] [AddCommMonoid M]

/-- What a finite family of holders has together. -/
def total (amount : α → M) (holders : ι → α) : M := ∑ i, amount (holders i)

theorem total_zero {amount : α → M} {holders : ι → α} (h : ∀ i, amount (holders i) = 0) :
    total amount holders = 0 :=
  Finset.sum_eq_zero fun i _ => h i

variable [DecidableEq ι]

/-- One holder changes: the family then has what it had, less what this one had and more what it has. -/
theorem total_update (amount : α → M) (holders : ι → α) (i : ι) (a : α) :
    total amount (update holders i a) + amount (holders i) = total amount holders + amount a := by
  have others : ∑ j ∈ Finset.univ.erase i, amount (update holders i a j) =
      ∑ j ∈ Finset.univ.erase i, amount (holders j) := by
    refine Finset.sum_congr rfl fun j hj => ?_
    rw [update_of_ne (Finset.ne_of_mem_erase hj)]
  have new := Finset.add_sum_erase Finset.univ (fun j => amount (update holders i a j))
    (Finset.mem_univ i)
  have old := Finset.add_sum_erase Finset.univ (fun j => amount (holders j)) (Finset.mem_univ i)
  rw [update_self, others] at new
  unfold total
  rw [← new, ← old]
  ac_rfl

theorem total_update_same {amount : α → M} {holders : ι → α} {i : ι} {a : α}
    (same : amount a = amount (holders i)) :
    total amount (update holders i a) = total amount holders := by
  refine Finset.sum_congr rfl fun j _ => ?_
  by_cases own : j = i
  · rw [own, update_self, same]
  · rw [update_of_ne own]

end Holdings
