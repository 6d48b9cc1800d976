import Hlib.UsageAlike
import Hlib.UsageArguments

namespace Hlib

open Loop

namespace Usage

variable {δ : Type}

section Passes

variable (strtod : List Byte → δ × Nat × Bool) (options : List (UsageOption δ)) (argv : List CString)

def IsFloat : UsageValue δ → Prop
  | .float _ => True
  | _ => False

def IsInteger : UsageValue δ → Prop
  | .integer _ => True
  | _ => False

/-- The pass from `s` on converts the argument of an option of type `Float`. -/
def ConvertsFloat (s : Turn δ) : Prop :=
  ∃ option value, Converts options argv s option value ∧ IsFloat option.argValue

def ConvertsInteger (s : Turn δ) : Prop :=
  ∃ option value, Converts options argv s option value ∧ IsInteger option.argValue

/-- The first number that is converted is the argument of an option of type `Float`. -/
def FloatFirst (errno : Errno) : Prop :=
  ∃ s, Visits (parseOption strtod options argv)
      (fun s => ¬ConvertsFloat options argv s ∧ ¬ConvertsInteger options argv s) (reset options errno) s ∧
    ConvertsFloat options argv s

/-- Of neither `errno` a conversion can tell that it is not the other one. -/
def Agree (errno other : Errno) : Prop := errno = other ∨ (errno ≠ ERANGE ∧ other ≠ ERANGE)

variable {strtod options argv}

/-- Turns that differ in `errno` at most are passed alike, if the conversion that is made, if any, gives the
same for either `errno`. -/
theorem parseOption_errno {s t : Turn δ} (same : Related Eq s t) {Q : Errno → Errno → Prop}
    (unused : (∀ option value, ¬Converts options argv s option value) → Q s.errno t.errno)
    (used : ∀ option value arg, Converts options argv s option value →
      (convert strtod option.argValue arg value s.errno).1 = (convert strtod option.argValue arg value t.errno).1 ∧
        ∀ v, (convert strtod option.argValue arg value s.errno).1 = .ok v →
          Q (convert strtod option.argValue arg value s.errno).2
            (convert strtod option.argValue arg value t.errno).2) :
    Alike (fun s' t' => Related Eq s' t' ∧ Q s'.errno t'.errno) (RelatedResult Eq)
      (parseOption strtod options argv s) (parseOption strtod options argv t) := by
  refine parseOption_alike same ?_ ?_ unused used
  · intro arg value _
    refine ⟨rfl, ⟨?_, ?_⟩⟩
    · rintro x _ rfl
      rfl
    · rintro x _ rfl v
      rfl
  · intro arg value option _ _ _
    rw [same.i]

end Passes

section Conversions

variable {strtod : List Byte → δ × Nat × Bool} {type : UsageValue δ} {arg value : List Byte} {errno other : Errno}

/-- What is not a number is converted the same for any `errno`, and leaves it alone. -/
theorem convert_plain (h : ¬IsFloat type) (h' : ¬IsInteger type) (errno other : Errno) :
    (convert strtod type arg value errno).1 = (convert strtod type arg value other).1 ∧
      (convert strtod type arg value other).2 = other := by
  cases type with
  | none => exact ⟨rfl, rfl⟩
  | string _ => exact ⟨rfl, rfl⟩
  | integer _ => exact absurd trivial h'
  | float _ => exact absurd trivial h
  | boolean _ =>
    unfold convert
    cases stob value with
    | none => exact ⟨rfl, rfl⟩
    | some b => exact ⟨rfl, rfl⟩

theorem given_agree {α : Type} {alternative : α → UsageValue δ} {r r' : Option α × Errno} (equal : r.1 = r'.1)
    {Q : Errno → Errno → Prop} (known : ∀ a, r.1 = some a → Q r.2 r'.2) :
    (convert.given arg value alternative r).1 = (convert.given arg value alternative r').1 ∧
      ∀ v, (convert.given arg value alternative r).1 = .ok v →
        Q (convert.given arg value alternative r).2 (convert.given arg value alternative r').2 := by
  obtain ⟨a, errno⟩ := r
  obtain ⟨a', errno'⟩ := r'
  cases equal
  cases a with
  | none => exact ⟨rfl, fun v h => by cases h⟩
  | some a => exact ⟨rfl, fun v _ => known a rfl⟩

theorem convert_integer (h : IsInteger type) (errno other : Errno) :
    (convert strtod type arg value errno).1 = (convert strtod type arg value other).1 ∧
      ∀ v, (convert strtod type arg value errno).1 = .ok v →
        Agree (convert strtod type arg value errno).2 (convert strtod type arg value other).2 := by
  cases type with
  | integer _ =>
    obtain ⟨equal, zero⟩ := stoi64_errno value 0 errno other
    obtain ⟨_, zero'⟩ := stoi64_errno value 0 other errno
    refine given_agree equal ?_
    intro r h
    left
    rw [zero r h, zero' r (equal.symm.trans h)]
  | none => exact h.elim
  | string _ => exact h.elim
  | float _ => exact h.elim
  | boolean _ => exact h.elim

theorem convert_float (h : IsFloat type) (fine : errno ≠ ERANGE) (fine' : other ≠ ERANGE) :
    (convert strtod type arg value errno).1 = (convert strtod type arg value other).1 ∧
      ∀ v, (convert strtod type arg value errno).1 = .ok v →
        Agree (convert strtod type arg value errno).2 (convert strtod type arg value other).2 := by
  cases type with
  | float _ =>
    obtain ⟨equal, kept⟩ := stof64_fine strtod value fine fine'
    obtain ⟨_, kept'⟩ := stof64_fine strtod value fine' fine
    refine given_agree equal ?_
    intro r h
    rw [kept r h, kept' r (equal.symm.trans h)]
    exact Or.inr ⟨fine, fine'⟩
  | none => exact h.elim
  | string _ => exact h.elim
  | integer _ => exact h.elim
  | boolean _ => exact h.elim

theorem convert_agree (agree : Agree errno other) :
    (convert strtod type arg value errno).1 = (convert strtod type arg value other).1 ∧
      ∀ v, (convert strtod type arg value errno).1 = .ok v →
        Agree (convert strtod type arg value errno).2 (convert strtod type arg value other).2 := by
  rcases agree with rfl | ⟨fine, fine'⟩
  · exact ⟨rfl, fun v _ => Or.inl rfl⟩
  · by_cases integer : IsInteger type
    · exact convert_integer integer errno other
    · by_cases float : IsFloat type
      · exact convert_float float fine fine'
      · obtain ⟨equal, kept'⟩ := @convert_plain δ strtod type arg value float integer errno other
        obtain ⟨_, kept⟩ := @convert_plain δ strtod type arg value float integer other errno
        refine ⟨equal, fun v _ => ?_⟩
        rw [kept, kept']
        exact Or.inr ⟨fine, fine'⟩

/-- With `ERANGE` left in `errno`, no argument of type `Float` is accepted. -/
theorem convert_stale (h : IsFloat type) :
    (convert strtod type arg value ERANGE).1 = .error (.invalidArgument arg value) := by
  cases type with
  | float _ =>
    have stale := stof64_stale strtod value
    unfold convert
    generalize stof64 strtod value ERANGE = converted at stale ⊢
    obtain ⟨r, errno⟩ := converted
    cases stale
    rfl
  | none => exact h.elim
  | string _ => exact h.elim
  | integer _ => exact h.elim
  | boolean _ => exact h.elim

end Conversions

section Reparse

variable (strtod : List Byte → δ × Nat × Bool)

/-- The next parse on the same object, with the `errno` that was left. -/
def parseAgain (left : Usage δ × Errno) (argv : List CString) : Checked (Usage δ × Errno) := do
  let (_, u, errno) ← parse strtod left.1 argv left.2
  return (u, errno)

/-- What the caller of `parse` sees: the result and the object. -/
def outcome (parsed : Checked (Except UsageError Nat × Usage δ × Errno)) :
    Checked (Except UsageError Nat × Usage δ) :=
  parsed.map fun r => (r.1, r.2.1)

def OptionsParse (u : Usage δ) (argv : List CString) (errno : Errno) : Prop :=
  ∃ s, parseOptions strtod u.options argv (reset u.options errno) = .ok (.ok (), s)

/-- After any earlier parses, the positional arguments are accepted as they are declared, and the outcome is
the one that it would be without the earlier parses. -/
def AcceptsAsDeclared (u : Usage δ) (errno : Errno) (earlier : List (List CString)) (argv : List CString) : Prop :=
  ∀ u' errno', earlier.foldlM (parseAgain strtod) (u, errno) = .ok (u', errno') →
    PositionalRule strtod u' argv errno' ∧
      (OptionsParse strtod u argv errno ∨ OptionsParse strtod u' argv errno' →
        outcome (parse strtod u' argv errno') = outcome (parse strtod u argv errno))

variable {strtod} {options : List (UsageOption δ)} {argv : List CString} {errno other : Errno}

theorem parseOptions_alike (h : Agree errno other ∨ ¬FloatFirst strtod options argv errno) :
    AlikeOutcome (RelatedResult Eq) (parseOptions strtod options argv (reset options errno))
      (parseOptions strtod options argv (reset options other)) := by
  have first : Related Eq (reset options errno) (reset options other) := ⟨rfl, rfl⟩
  rcases h with agree | h
  · refine loop_alike (R := fun s t => Related Eq s t ∧ Agree s.errno t.errno) _ _ ?_ ⟨first, agree⟩
    rintro s t _ ⟨same, agree⟩
    exact parseOption_errno same (fun _ => agree) fun option value arg _ => convert_agree agree
  · refine loop_alike (R := fun s t => Related Eq s t ∧ (Agree s.errno t.errno ∨
      Visits (parseOption strtod options argv)
        (fun s => ¬ConvertsFloat options argv s ∧ ¬ConvertsInteger options argv s) (reset options errno) s)) _ _ ?_
      ⟨first, Or.inr Visits.start⟩
    rintro s t _ ⟨same, agree | v⟩
    · have pass : Alike (fun s' t' => Related Eq s' t' ∧ Agree s'.errno t'.errno) (RelatedResult Eq)
          (parseOption strtod options argv s) (parseOption strtod options argv t) :=
        parseOption_errno same (fun _ => agree) fun option value arg _ => convert_agree agree
      exact pass.imp fun s' t' _ related => ⟨related.1, Or.inl related.2⟩
    · have plain : ¬ConvertsFloat options argv s := fun float => h ⟨s, v, float⟩
      by_cases integer : ConvertsInteger options argv s
      · obtain ⟨option, value, converts, number⟩ := integer
        have pass : Alike (fun s' t' => Related Eq s' t' ∧ Agree s'.errno t'.errno) (RelatedResult Eq)
            (parseOption strtod options argv s) (parseOption strtod options argv t) := by
          refine parseOption_errno same (fun none => absurd converts (none option value)) ?_
          intro option' value' arg converts'
          cases converts.unique converts'
          exact convert_integer number _ _
        exact pass.imp fun s' t' _ related => ⟨related.1, Or.inl related.2⟩
      · have pass : Alike (fun s' t' => Related Eq s' t' ∧ True) (RelatedResult Eq)
            (parseOption strtod options argv s) (parseOption strtod options argv t) := by
          refine parseOption_errno (Q := fun _ _ => True) same (fun _ => trivial) ?_
          intro option value arg converts
          refine ⟨?_, fun v _ => trivial⟩
          exact (convert_plain (fun float => plain ⟨option, value, converts, float⟩)
            (fun number => integer ⟨option, value, converts, number⟩) _ _).1
        exact pass.imp fun s' t' goes related => ⟨related.1, Or.inr (v.next ⟨plain, integer⟩ goes)⟩

/-- Where a `Float` comes first, a parse that finds `ERANGE` in `errno` fails with it. -/
theorem parseOptions_stale (h : FloatFirst strtod options argv errno) :
    ∃ arg value t, parseOptions strtod options argv (reset options ERANGE) =
      .ok (.error (.invalidArgument arg value), t) := by
  obtain ⟨s, v, option, value, converts, float⟩ := h
  have followed : ∃ t, Reaches (parseOption strtod options argv) (reset options ERANGE) t ∧
      Related Eq s t ∧ t.errno = ERANGE := by
    refine v.follow (R := fun s t => Related Eq s t ∧ t.errno = ERANGE) (S := RelatedResult Eq) ?_ ⟨⟨rfl, rfl⟩, rfl⟩
    rintro s t _ _ ⟨noFloat, noInteger⟩ ⟨same, stale⟩
    refine parseOption_errno (Q := fun _ errno => errno = ERANGE) same (fun _ => stale) ?_
    intro option' value' arg converts'
    obtain ⟨equal, kept⟩ := @convert_plain δ strtod option'.argValue arg value'
      (fun float => noFloat ⟨option', value', converts', float⟩)
      (fun number => noInteger ⟨option', value', converts', number⟩) s.errno t.errno
    exact ⟨equal, fun v _ => kept.trans stale⟩
  obtain ⟨t, reached, same, stale⟩ := followed
  obtain ⟨arg, written, i, meets, found, takes, taken⟩ := converts
  rw [same.i] at taken
  have refused := @convert_stale δ strtod option.argValue arg value float
  have pass := @parseOption_found δ strtod options argv t arg written (same.meets.mpr meets) option found
  rw [parseFound_taken takes taken] at pass
  rw [← stale] at refused
  cases converted : convert strtod option.argValue arg value t.errno with
  | mk result left =>
    rw [converted] at refused
    cases refused
    rw [storeValue_refused (s := { t.mark _ with i }) converted] at pass
    exact ⟨arg, value, _, (reached.loop_eq _).trans (loop_leaves pass)⟩

theorem parse_outcome {u : Usage δ}
    (alike : AlikeOutcome (RelatedResult Eq) (parseOptions strtod u.options argv (reset u.options errno))
      (parseOptions strtod u.options argv (reset u.options other))) :
    outcome (parse strtod u argv errno) = outcome (parse strtod u argv other) := by
  unfold parse
  generalize parseOptions strtod u.options argv (reset u.options errno) = x at alike ⊢
  generalize parseOptions strtod u.options argv (reset u.options other) = y at alike ⊢
  cases alike with
  | faults fault => rfl
  | @returns r r' same =>
    obtain ⟨result, s⟩ := r
    obtain ⟨result', t⟩ := r'
    obtain ⟨equal, same⟩ := same
    obtain ⟨set, values⟩ := Prod.mk.inj same.stored
    cases equal
    cases result with
    | error e =>
      show Except.ok _ = Except.ok _
      rw [set, values]
    | ok u' =>
      show Except.ok _ = Except.ok _
      rw [set, values, same.i]

/-- `parse` resets all the members that it changes. -/
theorem parse_resets {u u' : Usage δ} (options : u'.options = u.options) (arguments : u'.arguments = u.arguments)
    (varargs : u'.varargs = u.varargs) (argv : List CString) (errno : Errno) :
    parse strtod u' argv errno = parse strtod u argv errno := by
  unfold parse
  rw [options, arguments, varargs]

theorem parseAgain_keeps {earlier : List (List CString)} {u u' : Usage δ} {errno' : Errno}
    (h : earlier.foldlM (parseAgain strtod) (u, errno) = .ok (u', errno')) :
    u'.options = u.options ∧ u'.arguments = u.arguments ∧ u'.varargs = u.varargs := by
  induction earlier generalizing u errno with
  | nil =>
    cases h
    exact ⟨rfl, rfl, rfl⟩
  | cons argv earlier ih =>
    rw [List.foldlM_cons] at h
    obtain ⟨⟨w, left⟩, again, h⟩ := bind_ok h
    obtain ⟨⟨_, _, _⟩, parsed, again⟩ := bind_ok again
    cases again
    obtain ⟨options, arguments, varargs⟩ := ih h
    obtain ⟨options', arguments', varargs'⟩ := parse_keeps parsed
    exact ⟨options.trans options', arguments.trans arguments', varargs.trans varargs'⟩

theorem outcome_ne {u : Usage δ} (parses : OptionsParse strtod u argv errno)
    (fails : ∃ arg value t, parseOptions strtod u.options argv (reset u.options other) =
      .ok (.error (.invalidArgument arg value), t)) :
    outcome (parse strtod u argv errno) ≠ outcome (parse strtod u argv other) := by
  intro same
  obtain ⟨s, parsed⟩ := parses
  obtain ⟨arg, value, t, failed⟩ := fails
  have result := parse_of_options parsed
  rw [result, parse, failed] at same
  rcases parseArguments_error (congrArg Prod.fst (Except.ok.inj same)) with ⟨_, other⟩ | other <;> cases other

/-- The positional arguments are always accepted as declared. Earlier parses have no influence, unless one of
them makes a difference in whether `errno` is `ERANGE` and the first number of `argv` is a `Float`. -/
theorem acceptsAsDeclared_iff (strtod : List Byte → δ × Nat × Bool) (u : Usage δ) (errno : Errno)
    (earlier : List (List CString)) (argv : List CString) :
    AcceptsAsDeclared strtod u errno earlier argv ↔
      ∀ u' errno', earlier.foldlM (parseAgain strtod) (u, errno) = .ok (u', errno') →
        OptionsParse strtod u argv errno ∨ OptionsParse strtod u' argv errno' →
          (errno = ERANGE ↔ errno' = ERANGE) ∨ ¬FloatFirst strtod u.options argv errno := by
  constructor
  · intro all u' errno' run parses
    obtain ⟨options, arguments, varargs⟩ := parseAgain_keeps run
    have same := (all u' errno' run).2 parses
    rw [parse_resets options arguments varargs] at same
    unfold OptionsParse at parses
    rw [options] at parses
    by_contra differ
    rw [not_or, not_not] at differ
    obtain ⟨differ, float⟩ := differ
    have stale := parseOptions_stale float
    have fails : ¬∃ s, parseOptions strtod u.options argv (reset u.options ERANGE) = .ok (.ok (), s) := by
      rintro ⟨s, parsed⟩
      obtain ⟨_, _, _, failed⟩ := stale
      cases parsed.symm.trans failed
    by_cases range : errno = ERANGE
    · subst range
      exact outcome_ne (parses.resolve_left fails) stale same
    · have range' : errno' = ERANGE := by
        by_contra other
        exact differ ⟨fun h => absurd h range, fun h => absurd h other⟩
      subst range'
      exact outcome_ne (parses.resolve_right fails) stale same.symm
  · intro all u' errno' run
    refine ⟨positionalRule strtod u' argv errno', fun parses => ?_⟩
    obtain ⟨options, arguments, varargs⟩ := parseAgain_keeps run
    rw [parse_resets options arguments varargs]
    refine (parse_outcome (parseOptions_alike ?_)).symm
    rcases all u' errno' run parses with agree | plain
    · left
      by_cases range : errno = ERANGE
      · exact Or.inl (range.trans (agree.mp range).symm)
      · exact Or.inr ⟨range, fun range' => range (agree.mpr range')⟩
    · exact Or.inr plain

def sample : Usage Nat where
  options := [{ brief := ascii 'i', argName := [ascii 'n'], argValue := .integer 0 },
    { brief := ascii 'f', argName := [ascii 'x'], argValue := .float 0 }]

/-- The element `p`. -/
def plainElement : CString := ⟨[ascii 'p'], by decide⟩

/-- The element `-f=1`. -/
def floatElement : CString := ⟨[ascii '-', ascii 'f', ascii '=', ascii '1'], by decide⟩

/-- The elements `p` and `-i=99999999999999999999`. -/
def overflow : List CString :=
  [plainElement, ⟨[ascii '-', ascii 'i', ascii '='] ++ List.replicate 20 (ascii '9'), by decide⟩]

/-- The elements `p` and `-f=1`. -/
def one : List CString := [plainElement, floatElement]

/-- What `strtod` gives for `1`. -/
def readOne (text : List Byte) : Nat × Nat × Bool := (1, text.length, false)

theorem overflow_fails : ∃ u, [overflow].foldlM (parseAgain readOne) (sample, 0) = .ok (u, ERANGE) := by
  have failed : ∃ e t, parseOptions readOne sample.options overflow (reset sample.options 0) = .ok (.error e, t) ∧
      t.errno = ERANGE := ⟨_, _, loop_leaves rfl, rfl⟩
  obtain ⟨e, t, failed, range⟩ := failed
  rw [List.foldlM_cons, parseAgain, parse, failed, ← range]
  exact ⟨_, rfl⟩

theorem one_parses : OptionsParse readOne sample one 0 :=
  ⟨_, (loop_goes rfl).trans (loop_leaves rfl)⟩

theorem one_fails : ∃ arg value t, parseOptions readOne sample.options one (reset sample.options ERANGE) =
    .ok (.error (.invalidArgument arg value), t) :=
  ⟨_, _, _, loop_leaves rfl⟩

/-- `-i=99999999999999999999` fails, and leaves `ERANGE` behind: then `-f=1` fails as well. -/
theorem float_after_overflow :
    ¬∀ (u : Usage Nat) (earlier : List (List CString)) (argv : List CString),
      AcceptsAsDeclared readOne u 0 earlier argv := by
  intro h
  obtain ⟨u', run⟩ := overflow_fails
  obtain ⟨options, arguments, varargs⟩ := parseAgain_keeps run
  have same := (h sample [overflow] one u' ERANGE run).2 (Or.inl one_parses)
  rw [parse_resets options arguments varargs] at same
  exact outcome_ne one_parses one_fails same.symm

end Reparse

end Usage

end Hlib
