import Hlib.Usage

namespace Hlib

namespace Usage

variable {δ : Type}

section Arguments

variable {arguments : List UsageArgument} {varargs : Bool}

/-- The loop takes an element for each argument, while there are both. -/
theorem fillArguments_eq (arguments : List UsageArgument) (texts : List (List Byte)) (optional : Bool) :
    fillArguments arguments texts optional =
      (texts.take arguments.length, arguments.drop texts.length, texts.drop arguments.length,
        optional || (arguments.take texts.length).any UsageArgument.optional) := by
  induction arguments generalizing texts optional with
  | nil => cases texts <;> simp [fillArguments]
  | cons argument arguments ih =>
    cases texts with
    | nil => simp [fillArguments]
    | cons text texts =>
      rw [fillArguments, ih]
      simp [Bool.or_assoc]

/-- An argument is missing where it stands before the first optional one. -/
theorem missing_iff (arguments : List UsageArgument) (n : Nat) :
    (∃ argument, (arguments.drop n).head?.filter (fun argument =>
        !((arguments.take n).any UsageArgument.optional || argument.optional)) = some argument) ↔
      n < arguments.findIdx UsageArgument.optional := by
  induction arguments generalizing n with
  | nil => simp
  | cons argument arguments ih =>
    cases optional : argument.optional with
    | true => cases n <;> simp [List.findIdx_cons, optional]
    | false =>
      cases n with
      | zero => simp [List.findIdx_cons, optional]
      | succ n => simpa [List.findIdx_cons, optional] using ih n

/-- As many elements are needed as there are arguments before the first optional one, and more than there
are arguments only with `varargs`. -/
theorem parseArguments_rule (arguments : List UsageArgument) (varargs : Bool) (texts : List (List Byte)) :
    ((∃ k, (parseArguments arguments varargs texts).1 = .ok k) ↔
        arguments.findIdx UsageArgument.optional ≤ texts.length ∧
          (texts.length ≤ arguments.length ∨ varargs = true)) ∧
      ∀ k, (parseArguments arguments varargs texts).1 = .ok k →
        k = texts.length ∧ (parseArguments arguments varargs texts).2 = texts := by
  have missing := missing_iff arguments texts.length
  unfold parseArguments
  rw [fillArguments_eq, Bool.false_or]
  dsimp only
  cases absent : (arguments.drop texts.length).head?.filter (fun argument =>
      !((arguments.take texts.length).any UsageArgument.optional || argument.optional)) with
  | some argument =>
    rw [absent] at missing
    have short := missing.mp ⟨argument, rfl⟩
    refine ⟨iff_of_false ?_ ?_, ?_⟩
    · rintro ⟨k, h⟩
      cases h
    · rintro ⟨enough, _⟩
      omega
    · intro k h
      cases h
  | none =>
    rw [absent] at missing
    have enough : arguments.findIdx UsageArgument.optional ≤ texts.length := by
      by_contra short
      obtain ⟨argument, found⟩ := missing.mpr (by omega)
      cases found
    dsimp only
    by_cases all : texts.drop arguments.length = []
    · have fits := List.drop_eq_nil_iff.mp all
      rw [if_neg (not_not.mpr all), List.take_of_length_le fits]
      refine ⟨iff_of_true ⟨_, rfl⟩ ⟨enough, Or.inl fits⟩, ?_⟩
      intro k h
      cases h
      exact ⟨rfl, rfl⟩
    · have more : arguments.length < texts.length := by
        by_contra within
        exact all (List.drop_eq_nil_iff.mpr (by omega))
      rw [if_pos all]
      cases varargs with
      | false =>
        refine ⟨iff_of_false ?_ ?_, ?_⟩
        · rintro ⟨k, h⟩
          cases h
        · rintro ⟨_, few | flag⟩
          · omega
          · cases flag
        · intro k h
          cases h
      | true =>
        refine ⟨iff_of_true ⟨_, rfl⟩ ⟨enough, Or.inr rfl⟩, ?_⟩
        intro k h
        cases h
        refine ⟨?_, List.take_append_drop _ _⟩
        rw [← List.length_append, List.take_append_drop]

theorem parseArguments_error {texts : List (List Byte)} {e : UsageError}
    (h : (parseArguments arguments varargs texts).1 = .error e) : (∃ name, e = .missing name) ∨ e = .tooMany := by
  unfold parseArguments at h
  dsimp only at h
  split at h
  next =>
    cases h
    exact Or.inl ⟨_, rfl⟩
  next =>
    split at h
    next =>
      split at h <;> cases h
      exact Or.inr rfl
    next => cases h

end Arguments

section Rule

/-- The elements that are left behind the options. -/
def positional (argv : List CString) (s : Turn δ) : List (List Byte) := (argv.drop s.i).map Subtype.val

/-- If the options parse, then the elements left are accepted exactly as the arguments are declared. -/
def PositionalRule (strtod : List Byte → δ × Nat × Bool) (u : Usage δ) (argv : List CString) (errno : Errno) :
    Prop :=
  ∀ s, parseOptions strtod u.options argv (reset u.options errno) = .ok (.ok (), s) →
    ∃ result u' errno', parse strtod u argv errno = .ok (result, u', errno') ∧
      ((∃ k, result = .ok k) ↔
        u.arguments.findIdx UsageArgument.optional ≤ (positional argv s).length ∧
          ((positional argv s).length ≤ u.arguments.length ∨ u.varargs = true)) ∧
      ∀ k, result = .ok k → k = (positional argv s).length ∧
        ∀ i, u'.has i = decide (i < (positional argv s).length) ∧
          ∀ text, (positional argv s)[i]? = some text → u'.get i = text

theorem parse_of_options {strtod : List Byte → δ × Nat × Bool} {u : Usage δ} {argv : List CString} {errno : Errno}
    {s : Turn δ} (parsed : parseOptions strtod u.options argv (reset u.options errno) = .ok (.ok (), s)) :
    parse strtod u argv errno =
      .ok ((parseArguments u.arguments u.varargs (positional argv s)).1,
        { u with
          optionSet := s.set
          optionValues := s.values
          argumentValues := (parseArguments u.arguments u.varargs (positional argv s)).2 }, s.errno) := by
  rw [parse, parsed]
  rfl

theorem parse_of_error {strtod : List Byte → δ × Nat × Bool} {u : Usage δ} {argv : List CString} {errno : Errno}
    {e : UsageError} {s : Turn δ}
    (failed : parseOptions strtod u.options argv (reset u.options errno) = .ok (.error e, s)) :
    parse strtod u argv errno =
      .ok (.error e, { u with optionSet := s.set, optionValues := s.values, argumentValues := [] }, s.errno) := by
  rw [parse, failed]
  rfl

theorem parse_keeps {strtod : List Byte → δ × Nat × Bool} {argv : List CString} {errno : Errno} {u u' : Usage δ}
    {result : Except UsageError Nat} {left : Errno}
    (h : parse strtod u argv errno = .ok (result, u', left)) :
    u'.options = u.options ∧ u'.arguments = u.arguments ∧ u'.varargs = u.varargs := by
  obtain ⟨⟨parsed, s⟩, _, h⟩ := bind_ok h
  cases parsed <;> cases h <;> exact ⟨rfl, rfl, rfl⟩

theorem positionalRule (strtod : List Byte → δ × Nat × Bool) (u : Usage δ) (argv : List CString) (errno : Errno) :
    PositionalRule strtod u argv errno := by
  intro s parsed
  obtain ⟨accepted, kept⟩ := parseArguments_rule u.arguments u.varargs (positional argv s)
  refine ⟨_, _, _, parse_of_options parsed, accepted, ?_⟩
  intro k returned
  obtain ⟨count, values⟩ := kept k returned
  refine ⟨count, ?_⟩
  intro i
  constructor
  · rw [has, values]
  · intro text found
    rw [get, values, found]
    rfl

end Rule

end Usage

end Hlib
