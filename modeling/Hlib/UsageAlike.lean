import Hlib.Usage

namespace Hlib

open Loop

namespace Usage

variable {δ : Type}

section Alike

variable {strtod : List Byte → δ × Nat × Bool} {options options' : List (UsageOption δ)} {argv : List CString}

/-- The pass from `s` on converts `value` for the option. -/
def Converts (options : List (UsageOption δ)) (argv : List CString) (s : Turn δ) (option : UsageOption δ)
    (value : List Byte) : Prop :=
  ∃ arg written i, MeetsOption argv s arg written ∧ options[findOption options arg]? = some option ∧
    option.argName ≠ [] ∧ takeValue argv (findOption options arg) written s.i = .ok (some (value, i))

/-- A pass makes one conversion at most. -/
theorem Converts.unique {s : Turn δ} {option option' : UsageOption δ} {value value' : List Byte}
    (h : Converts options argv s option value) (h' : Converts options argv s option' value') : option = option' := by
  obtain ⟨arg, written, i, meets, found, _⟩ := h
  obtain ⟨arg', written', i', meets', found', _⟩ := h'
  obtain ⟨rfl, rfl⟩ := meets.unique meets'
  exact Option.some.inj (found.symm.trans found')

/-- The flags and the values that are stored for the options. -/
abbrev Stored (δ : Type) := List Bool × List (UsageValue δ)

/-- Two turns at the same element, with related flags and values. -/
structure Related (E : Stored δ → Stored δ → Prop) (s t : Turn δ) : Prop where
  i : s.i = t.i
  stored : E (s.set, s.values) (t.set, t.values)

/-- The same result, with related flags and values. -/
def RelatedResult (E : Stored δ → Stored δ → Prop) (r r' : Except UsageError Unit × Turn δ) : Prop :=
  r.1 = r'.1 ∧ Related E r.2 r'.2

theorem Related.meets {E : Stored δ → Stored δ → Prop} {s t : Turn δ} (related : Related E s t)
    {arg value : List Byte} : MeetsOption argv t arg value ↔ MeetsOption argv s arg value := by
  unfold MeetsOption
  rw [related.i]

/-- The flag and the value of an option may be stored at the one index and at the other. -/
structure Keeps (E : Stored δ → Stored δ → Prop) (index index' : Nat) : Prop where
  set : ∀ {x y}, E x y → E (x.1.set index true, x.2) (y.1.set index' true, y.2)
  values : ∀ {x y}, E x y → ∀ v, E (x.1, x.2.set index v) (y.1, y.2.set index' v)

/-- The passes over two tables are alike, if they find the same option, take the same argument for it and
convert that with the same result; `Q` is what is known of `errno` then. -/
theorem parseOption_alike {E : Stored δ → Stored δ → Prop} {Q : Errno → Errno → Prop} {s t : Turn δ}
    (related : Related E s t)
    (table : ∀ arg value, MeetsOption argv s arg value →
      options'[findOption options' arg]? = options[findOption options arg]? ∧
        Keeps E (findOption options arg) (findOption options' arg))
    (taking : ∀ arg value option, MeetsOption argv s arg value →
      options[findOption options arg]? = some option → option.argName ≠ [] →
        takeValue argv (findOption options' arg) value t.i = takeValue argv (findOption options arg) value s.i)
    (unused : (∀ option value, ¬Converts options argv s option value) → Q s.errno t.errno)
    (used : ∀ option value arg, Converts options argv s option value →
      (convert strtod option.argValue arg value s.errno).1 = (convert strtod option.argValue arg value t.errno).1 ∧
        ∀ v, (convert strtod option.argValue arg value s.errno).1 = .ok v →
          Q (convert strtod option.argValue arg value s.errno).2
            (convert strtod option.argValue arg value t.errno).2) :
    Alike (fun s' t' => Related E s' t' ∧ Q s'.errno t'.errno) (RelatedResult E)
      (parseOption strtod options argv s) (parseOption strtod options' argv t) := by
  rcases parseOption_cases strtod options argv s with
    ⟨left, other⟩ | ⟨arg, written, meets, unknown | ⟨option, found⟩⟩
  · rcases parseOption_cases strtod options' argv t with ⟨left', _⟩ | ⟨arg, written, meets, _⟩
    · rw [left, left']
      exact .leaves ⟨rfl, related⟩
    · exact absurd (related.meets.mp meets) (other arg written)
  · obtain ⟨same, _⟩ := table arg written meets
    rw [parseOption_unknown meets unknown, parseOption_unknown (related.meets.mpr meets) (same.trans unknown)]
    exact .leaves ⟨rfl, related⟩
  · obtain ⟨same, keeps⟩ := table arg written meets
    rw [parseOption_found meets found, parseOption_found (related.meets.mpr meets) (same.trans found)]
    have marked := keeps.set related.stored
    by_cases flag : option.argName = []
    · rw [parseFound_flag flag, parseFound_flag flag]
      refine .goes ⟨⟨by rw [related.i], marked⟩, unused ?_⟩
      rintro option' value ⟨arg', written', i, meets', found', takes, _⟩
      obtain ⟨rfl, rfl⟩ := meets.unique meets'
      cases found.symm.trans found'
      exact takes flag
    · have here := taking arg written option meets found flag
      cases taken : takeValue argv (findOption options arg) written s.i with
      | error fault =>
        rw [parseFound, parseFound, if_neg flag, if_neg flag, here, taken]
        exact .faults fault
      | ok given =>
        cases given with
        | none =>
          rw [parseFound_missing flag taken, parseFound_missing flag (here.trans taken)]
          exact .leaves ⟨rfl, related.i, marked⟩
        | some given =>
          obtain ⟨value, i⟩ := given
          rw [parseFound_taken flag taken, parseFound_taken flag (here.trans taken)]
          obtain ⟨equal, known⟩ := used option value arg ⟨arg, written, i, meets, found, flag, taken⟩
          cases converted : convert strtod option.argValue arg value s.errno with
          | mk result errno =>
            cases converted' : convert strtod option.argValue arg value t.errno with
            | mk result' errno' =>
              rw [converted, converted'] at equal
              rw [converted, converted'] at known
              cases equal
              cases result with
              | error e =>
                rw [storeValue_refused (s := { s.mark _ with i }) converted,
                  storeValue_refused (s := { t.mark _ with i }) converted']
                exact .leaves ⟨rfl, rfl, marked⟩
              | ok v =>
                rw [storeValue_converted (s := { s.mark _ with i }) converted,
                  storeValue_converted (s := { t.mark _ with i }) converted']
                exact .goes ⟨⟨rfl, keeps.values marked v⟩, known v rfl⟩

end Alike

end Usage

end Hlib
