import Mathlib.Data.List.Basic

namespace FlagMask

variable {w : Nat} {m n e : BitVec w}

/-- The mask `m` and the set `e` share a flag. -/
def Meets (m e : BitVec w) : Prop := m &&& e ≠ 0

instance : Decidable (Meets m e) := inferInstanceAs (Decidable (_ ≠ _))

theorem meets_zero : ¬Meets m 0#w := by
  simp [Meets]

theorem meets_set (hm : m ≠ 0) : Meets m (e ||| m) := by
  have absorb : m &&& (e ||| m) = m := by
    ext i hi
    simp only [BitVec.getElem_and, BitVec.getElem_or]
    cases m[i] <;> simp
  simpa [Meets, absorb] using hm

theorem meets_clear : ¬Meets m (e &&& ~~~m) := by
  have empty : m &&& (e &&& ~~~m) = 0#w := by
    ext i hi
    simp only [BitVec.getElem_and, BitVec.getElem_not, BitVec.getElem_zero]
    cases m[i] <;> simp
  simp [Meets, empty]

/-- Setting the flags of `n` is not noticed through a mask apart from `n`. -/
theorem meets_set_other (apart : m &&& n = 0) : Meets m (e ||| n) ↔ Meets m e := by
  have same : m &&& (e ||| n) = m &&& e := by
    ext i hi
    have hi' := congrArg (fun b : BitVec w => b[i]) apart
    simp only [BitVec.getElem_and, BitVec.getElem_or, BitVec.ofNat_eq_ofNat, BitVec.getElem_zero] at hi' ⊢
    revert hi'
    cases m[i] <;> cases n[i] <;> simp
  simp [Meets, same]

theorem meets_clear_other (apart : m &&& n = 0) : Meets m (e &&& ~~~n) ↔ Meets m e := by
  have same : m &&& (e &&& ~~~n) = m &&& e := by
    ext i hi
    have hi' := congrArg (fun b : BitVec w => b[i]) apart
    simp only [BitVec.getElem_and, BitVec.getElem_not, BitVec.ofNat_eq_ofNat, BitVec.getElem_zero] at hi' ⊢
    revert hi'
    cases m[i] <;> cases n[i] <;> simp
  simp [Meets, same]

end FlagMask
