import Hlib.UsagePermuted

namespace Hlib

open Loop

namespace Usage

variable {δ : Type}

section Sizes

variable {strtod : List Byte → δ × Nat × Bool} {options : List (UsageOption δ)} {argv : List CString}
  {errno : Errno}

/-- There is a flag and a value for each option. -/
structure Sized (options : List (UsageOption δ)) (set : List Bool) (values : List (UsageValue δ)) : Prop where
  set : set.length = options.length
  values : values.length = options.length

theorem parseFound_sized {index : Nat} {option : UsageOption δ} {arg value : List Byte} {s : Turn δ}
    (h : Sized options s.set s.values) {next : Turn δ ⊕ (Except UsageError Unit × Turn δ)}
    (pass : parseFound strtod argv index option arg value s = .ok next) :
    Sized options (next.elim Turn.set fun r => r.2.set) (next.elim Turn.values fun r => r.2.values) := by
  have marked : Sized options (s.mark index).set (s.mark index).values :=
    ⟨by rw [Turn.mark, List.length_set]; exact h.set, h.values⟩
  rcases parseFound_cases pass with ⟨_, rfl⟩ | ⟨_, _, rfl⟩ | ⟨value', i, _, _, rfl⟩
  · exact ⟨marked.set, marked.values⟩
  · exact marked
  · rcases storeValue_cases strtod index option arg value' { s.mark index with i } with
      ⟨e, errno, _, stored⟩ | ⟨v, errno, _, stored⟩
    · rw [stored]
      exact ⟨marked.set, marked.values⟩
    · rw [stored]
      exact ⟨marked.set, by simpa using marked.values⟩

theorem parseOption_sized {s : Turn δ} (h : Sized options s.set s.values)
    {next : Turn δ ⊕ (Except UsageError Unit × Turn δ)} (pass : parseOption strtod options argv s = .ok next) :
    Sized options (next.elim Turn.set fun r => r.2.set) (next.elim Turn.values fun r => r.2.values) := by
  rcases parseOption_cases strtod options argv s with ⟨left, _⟩ | ⟨arg, value, meets, unknown | ⟨option, found⟩⟩
  · cases left.symm.trans pass
    exact h
  · cases (parseOption_unknown meets unknown).symm.trans pass
    exact h
  · exact parseFound_sized h ((parseOption_found meets found).symm.trans pass)

theorem parseOptions_sized {s t : Turn δ} {result : Except UsageError Unit} (h : Sized options s.set s.values)
    (parsed : parseOptions strtod options argv s = .ok (result, t)) : Sized options t.set t.values := by
  refine loop_induction (P := fun (s : Turn δ) (outcome : Checked (Except UsageError Unit × Turn δ)) =>
    Sized options s.set s.values → ∀ result t, outcome = .ok (result, t) → Sized options t.set t.values)
    (parseOption_descends strtod options argv) ?_ ?_ ?_ s h result t parsed
  · intro s fault _ _ result t equal
    cases equal
  · intro s r pass h result t equal
    cases equal
    exact parseOption_sized h pass
  · intro s next outcome pass ih h result t equal
    exact ih (parseOption_sized h pass) result t equal

/-- After a parse, successful or not, `has` and `get` find a flag and a value for each option. -/
theorem parse_sized {u u' : Usage δ} {result : Except UsageError Nat} {left : Errno}
    (h : parse strtod u argv errno = .ok (result, u', left)) :
    Sized u'.options u'.optionSet u'.optionValues := by
  have fresh : Sized u.options (reset u.options errno).set (reset u.options errno).values :=
    ⟨List.length_replicate, List.length_map _⟩
  obtain ⟨⟨parsed, t⟩, loop, rest⟩ := bind_ok h
  have sized := parseOptions_sized fresh loop
  cases parsed <;> cases rest <;> exact sized

end Sizes

section Queries

variable {u w : Usage δ} {p : UsageOption δ → Bool}

theorem Sized.zip_set (sized : Sized u.options u.optionSet u.optionValues) :
    u.options.zip u.optionSet =
      (entries u.options u.optionSet u.optionValues).map (Prod.map id Prod.fst) := by
  rw [entries, ← List.zip_map_right, List.map_fst_zip (by rw [sized.set, sized.values])]

theorem Sized.zip_values (sized : Sized u.options u.optionSet u.optionValues) :
    u.options.zip u.optionValues =
      (entries u.options u.optionSet u.optionValues).map (Prod.map id Prod.snd) := by
  rw [entries, ← List.zip_map_right, List.map_snd_zip (by rw [sized.set, sized.values])]

theorem Sized.options_eq (sized : Sized u.options u.optionSet u.optionValues) :
    (entries u.options u.optionSet u.optionValues).map Prod.fst = u.options := by
  rw [entries, List.map_fst_zip]
  rw [List.length_zip, sized.set, sized.values, Nat.min_self]

/-- `has` asks for an option of the name that is set, in any order of the table. -/
theorem hasOption_perm (sized : Sized u.options u.optionSet u.optionValues)
    (sized' : Sized w.options w.optionSet w.optionValues)
    (perm : (entries w.options w.optionSet w.optionValues).Perm (entries u.options u.optionSet u.optionValues)) :
    w.hasOption p = u.hasOption p := by
  rw [hasOption, hasOption, if_neg (not_not.mpr sized'.values.symm), if_neg (not_not.mpr sized.values.symm),
    sized.zip_set, sized'.zip_set]
  exact (perm.map _).any_eq

/-- `get` gives the value of the one option of the name, in any order of the table. -/
theorem getOption_perm (one : AtMostOne p u.options) (sized : Sized u.options u.optionSet u.optionValues)
    (sized' : Sized w.options w.optionSet w.optionValues)
    (perm : (entries w.options w.optionSet w.optionValues).Perm (entries u.options u.optionSet u.optionValues)) :
    w.getOption p = u.getOption p := by
  have single : AtMostOne (fun e : UsageOption δ × UsageValue δ => p e.1)
      ((entries u.options u.optionSet u.optionValues).map (Prod.map id Prod.snd)) := by
    rw [← sized.options_eq] at one
    exact List.pairwise_map.mpr (List.pairwise_map.mp one)
  rw [getOption, getOption, if_neg (not_not.mpr sized'.values.symm), if_neg (not_not.mpr sized.values.symm),
    sized.zip_values, sized'.zip_values, single.find?_perm (perm.map _)]

variable {strtod : List Byte → δ × Nat × Bool} {argv : List CString} {errno : Errno}

theorem DistinctNames.brief (distinct : DistinctNames u.options) {brief : Byte}
    (given : brief ≠ 0) : AtMostOne (fun option : UsageOption δ => brief = option.brief) u.options := by
  refine distinct.briefs.imp ?_
  rintro a b missing ⟨ha, hb⟩
  have same := of_decide_eq_true ha
  exact given (same.trans (missing (same.symm.trans (of_decide_eq_true hb))))

theorem DistinctNames.extended (distinct : DistinctNames u.options) {extended : List Byte}
    (given : extended ≠ []) : AtMostOne (fun option : UsageOption δ => extended = option.extended) u.options := by
  refine distinct.extendeds.imp ?_
  rintro a b missing ⟨ha, hb⟩
  have same := of_decide_eq_true ha
  exact given (same.trans (missing (same.symm.trans (of_decide_eq_true hb))))

/-- Where the demands fit, what `has` and `get` tell after a parse does not depend on the order of the table. -/
theorem queries_permuted (distinct : DistinctNames u.options) (bare : BareFits strtod argv errno u.options)
    (fit : DemandsFit strtod argv errno u.options) {options' : List (UsageOption δ)}
    (perm : options'.Perm u.options) :
    ∃ result left left' u' w', parse strtod u argv errno = .ok (result, u', left) ∧
      parse strtod { u with options := options' } argv errno = .ok (result, w', left') ∧
      (∀ brief, brief ≠ 0 → w'.hasBrief brief = u'.hasBrief brief ∧ w'.getBrief brief = u'.getBrief brief) ∧
      ∀ extended, extended ≠ [] →
        w'.hasExtended extended = u'.hasExtended extended ∧ w'.getExtended extended = u'.getExtended extended := by
  obtain ⟨result, left, left', u', w', parsed, parsed', same, _⟩ := fit.sameOutcome (bare.namesOne distinct) perm
  have sized := parse_sized parsed
  have sized' := parse_sized parsed'
  have kept := (parse_keeps parsed).1
  refine ⟨result, left, left', u', w', parsed, parsed', ?_, ?_⟩
  · intro brief given
    have one := distinct.brief given
    rw [← kept] at one
    exact ⟨hasOption_perm sized sized' same, getOption_perm one sized sized' same⟩
  · intro extended given
    have one := distinct.extended given
    rw [← kept] at one
    exact ⟨hasOption_perm sized sized' same, getOption_perm one sized sized' same⟩

end Queries

end Usage

end Hlib
