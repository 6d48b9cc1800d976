import Hlib.StringScan
import Hlib.UsageReparse

namespace Hlib

namespace StringTo

section Floats

variable {φ δ : Type}

/-- `strtof` or `strtod` as a scanner. It knows no base, and `*endptr` is always set. -/
def floating (strtod : List Byte → δ × Nat × Bool) : Scanner δ := fun text _ =>
  let (r, pos, range) := strtod text
  { value := r, pos := some pos, errno := if range then some ERANGE else none }

/-- `stof32(value, std::nothrow)`. -/
def stof32 (strtof : List Byte → φ × Nat × Bool) (value : List Byte) (errno : Errno) : Option φ × Errno :=
  convert (floating strtof) false (fun _ errno => ERANGE = errno) value 0 errno

/-- `stof64(value, std::nothrow)`. -/
def stof64 (strtod : List Byte → δ × Nat × Bool) (value : List Byte) (errno : Errno) : Option δ × Errno :=
  convert (floating strtod) false (fun _ errno => ERANGE = errno) value 0 errno

def stof32OrThrow (strtof : List Byte → φ × Nat × Bool) (value : List Byte) (errno : Errno) :
    Except NumberError φ × Errno :=
  convertOrThrow (floating strtof) false (fun _ errno => ERANGE = errno) "stof32" value 0 errno

def stof64OrThrow (strtod : List Byte → δ × Nat × Bool) (value : List Byte) (errno : Errno) :
    Except NumberError δ × Errno :=
  convertOrThrow (floating strtod) false (fun _ errno => ERANGE = errno) "stof64" value 0 errno

/-- The value is a number that can be represented, and nothing else. -/
def Readable (strtod : List Byte → δ × Nat × Bool) (value : List Byte) : Prop :=
  (∃ front ∈ value.head?, ¬isSpace front) ∧
    (strtod (cString value)).2.1 = (cString value).length ∧ (strtod (cString value)).2.2 = false

/-- What the four conversions return or throw is the same for either `errno`. -/
structure ErrnoFree (strtof : List Byte → φ × Nat × Bool) (strtod : List Byte → δ × Nat × Bool)
    (value : List Byte) (errno other : Errno) : Prop where
  stof32 : (stof32 strtof value errno).1 = (stof32 strtof value other).1
  stof64 : (stof64 strtod value errno).1 = (stof64 strtod value other).1
  stof32OrThrow : (stof32OrThrow strtof value errno).1 = (stof32OrThrow strtof value other).1
  stof64OrThrow : (stof64OrThrow strtod value errno).1 = (stof64OrThrow strtod value other).1

variable (strtod : List Byte → δ × Nat × Bool) (what : String) (value : List Byte) (errno : Errno)

/-- The conversion of the arguments of type `Float`. -/
theorem stof64_eq : stof64 strtod value errno = Hlib.stof64 strtod value errno := by
  unfold stof64 convert Hlib.stof64
  cases value with
  | nil => rfl
  | cons front value =>
    dsimp only
    by_cases space : isSpace front
    · rw [if_pos space, if_pos space]
    · rw [if_neg space, if_neg space]
      unfold floating Incomplete
      cases scanned : strtod (cString (front :: value)) with
      | mk r scan =>
        obtain ⟨pos, range⟩ := scan
        cases range with
        | true => simp
        | false => simp [eq_comm]

/-- A number that can be read is refused only for what `errno` was before. -/
theorem readable_thrown (readable : Readable strtod value) :
    (convertOrThrow (floating strtod) false (fun _ errno => ERANGE = errno) what value 0 errno).1 =
      if errno = ERANGE then .error (.rangeError (literal what)) else .ok (strtod (cString value)).1 := by
  obtain ⟨⟨front, first, space⟩, complete, range⟩ := readable
  cases value with
  | nil => cases first
  | cons front' value =>
    cases first
    have whole : ¬Incomplete (floating strtod (cString (front :: value)) 0) (cString (front :: value)) :=
      not_not.mpr (congrArg some complete)
    have left : (floating strtod (cString (front :: value)) 0).errno = none := by
      show (if (strtod (cString (front :: value))).2.2 then some ERANGE else none) = none
      rw [range]
      rfl
    unfold convertOrThrow
    dsimp only
    rw [if_neg space, if_neg whole, left]
    show (if decide (ERANGE = errno) then _ else _ : Except NumberError δ × Errno).1 = _
    by_cases stale : errno = ERANGE
    · rw [if_pos stale, if_pos (decide_eq_true stale.symm)]
    · rw [if_neg stale, if_neg (fun h => stale (of_decide_eq_true h).symm)]
      rfl

/-- What is not `Readable` is refused for the same reason with any `errno`. -/
theorem unreadable_thrown (unreadable : ¬Readable strtod value) (other : Errno) :
    (convertOrThrow (floating strtod) false (fun _ errno => ERANGE = errno) what value 0 errno).1 =
      (convertOrThrow (floating strtod) false (fun _ errno => ERANGE = errno) what value 0 other).1 := by
  unfold convertOrThrow
  cases value with
  | nil => rfl
  | cons front value =>
    dsimp only
    by_cases space : isSpace front
    · rw [if_pos space, if_pos space]
    · rw [if_neg space, if_neg space]
      by_cases incomplete : Incomplete (floating strtod (cString (front :: value)) 0) (cString (front :: value))
      · rw [if_pos incomplete, if_pos incomplete]
      · rw [if_neg incomplete, if_neg incomplete]
        cases range : (strtod (cString (front :: value))).2.2 with
        | true =>
          have left : (floating strtod (cString (front :: value)) 0).errno = some ERANGE := by
            show (if (strtod (cString (front :: value))).2.2 then some ERANGE else none) = some ERANGE
            rw [range]
            rfl
          rw [left]
          rfl
        | false =>
          have complete := Option.some.inj (not_not.mp incomplete)
          exact absurd ⟨⟨front, rfl, space⟩, complete, range⟩ unreadable

/-- Two values that differ are told apart by whether `errno` is `ERANGE`. -/
theorem stale_iff {β : Type} {refused accepted : β} (differ : refused ≠ accepted) (errno other : Errno) :
    (if errno = ERANGE then refused else accepted) = (if other = ERANGE then refused else accepted) ↔
      (errno = ERANGE ↔ other = ERANGE) := by
  by_cases stale : errno = ERANGE
  · by_cases stale' : other = ERANGE
    · rw [if_pos stale, if_pos stale']
      exact iff_of_true rfl (iff_of_true stale stale')
    · rw [if_pos stale, if_neg stale']
      exact iff_of_false differ fun same => stale' (same.mp stale)
  · by_cases stale' : other = ERANGE
    · rw [if_neg stale, if_pos stale']
      exact iff_of_false differ.symm fun same => stale (same.mpr stale')
    · rw [if_neg stale, if_neg stale']
      exact iff_of_true rfl (iff_of_false stale stale')

/-- Of what cannot be read, `errno` makes no difference. -/
theorem thrown_errno_iff (other : Errno) :
    (convertOrThrow (floating strtod) false (fun _ errno => ERANGE = errno) what value 0 errno).1 =
        (convertOrThrow (floating strtod) false (fun _ errno => ERANGE = errno) what value 0 other).1 ↔
      (errno = ERANGE ↔ other = ERANGE) ∨ ¬Readable strtod value := by
  by_cases readable : Readable strtod value
  · have differ : (.error (.rangeError (literal what)) : Except NumberError δ) ≠ .ok (strtod (cString value)).1 := nofun
    rw [readable_thrown strtod what value errno readable, readable_thrown strtod what value other readable,
      stale_iff differ, or_iff_left (not_not.mpr readable)]
  · exact iff_of_true (unreadable_thrown strtod what value errno readable other) (Or.inr readable)

theorem returned_errno_iff (other : Errno) :
    (convert (floating strtod) false (fun _ errno => ERANGE = errno) value 0 errno).1 =
        (convert (floating strtod) false (fun _ errno => ERANGE = errno) value 0 other).1 ↔
      (errno = ERANGE ↔ other = ERANGE) ∨ ¬Readable strtod value := by
  have returned (errno : Errno) := (convert_agrees (floating strtod) false (fun _ errno => ERANGE = errno) "stof64"
    value 0 errno).1.toOption
  rw [returned errno, returned other]
  by_cases readable : Readable strtod value
  · have differ : none ≠ some (strtod (cString value)).1 := nofun
    rw [readable_thrown strtod _ value errno readable, readable_thrown strtod _ value other readable,
      apply_ite Except.toOption, apply_ite Except.toOption, or_iff_left (not_not.mpr readable)]
    exact stale_iff differ errno other
  · exact iff_of_true (congrArg Except.toOption (unreadable_thrown strtod _ value errno readable other))
      (Or.inr readable)

theorem errnoFree_iff (strtof : List Byte → φ × Nat × Bool) (other : Errno) :
    ErrnoFree strtof strtod value errno other ↔
      (errno = ERANGE ↔ other = ERANGE) ∨ ¬Readable strtof value ∧ ¬Readable strtod value := by
  rw [or_and_left]
  constructor
  · intro free
    exact ⟨(returned_errno_iff strtof value errno other).mp free.stof32,
      (returned_errno_iff strtod value errno other).mp free.stof64⟩
  · rintro ⟨single, double⟩
    exact ⟨(returned_errno_iff strtof value errno other).mpr single,
      (returned_errno_iff strtod value errno other).mpr double,
      (thrown_errno_iff strtof "stof32" value errno other).mpr single,
      (thrown_errno_iff strtod "stof64" value errno other).mpr double⟩

end Floats

end StringTo

open Loop StringTo

namespace Usage

section Order

variable {φ δ : Type} {strtod : List Byte → δ × Nat × Bool} {options : List (UsageOption δ)} {argv : List CString}

/-- A pass that goes on has converted the argument of its option, if it takes one. -/
theorem parseOption_left {s t : Turn δ} (h : parseOption strtod options argv s = .ok (.inl t)) :
    ((∀ option value, ¬Converts options argv s option value) ∧ t.errno = s.errno) ∨
      ∃ option value arg v, Converts options argv s option value ∧
        convert strtod option.argValue arg value s.errno = (.ok v, t.errno) := by
  rcases parseOption_cases strtod options argv s with ⟨left, _⟩ | ⟨arg, value, meets, unknown | ⟨option, found⟩⟩
  · cases left.symm.trans h
  · cases (parseOption_unknown meets unknown).symm.trans h
  · rcases parseFound_cases ((parseOption_found meets found).symm.trans h) with
      ⟨flag, next⟩ | ⟨_, _, next⟩ | ⟨value', i, takes, taken, next⟩
    · left
      cases next
      refine ⟨?_, rfl⟩
      rintro option' value' ⟨arg', written', i', meets', found', takes', _⟩
      obtain ⟨rfl, rfl⟩ := meets.unique meets'
      cases found.symm.trans found'
      exact takes' flag
    · cases next
    · right
      refine ⟨option, value', arg, ?_⟩
      rcases storeValue_cases strtod (findOption options arg) option arg value'
        { s.mark (findOption options arg) with i } with ⟨e, errno, _, stored⟩ | ⟨v, errno, converted, stored⟩
      · cases next.trans stored
      · cases next.trans stored
        exact ⟨v, ⟨arg, value, i, meets, found, takes, taken⟩, converted⟩

theorem given_ok {α : Type} {alternative : α → UsageValue δ} {arg value : List Byte} {r : Option α × Errno}
    {v : UsageValue δ} {left : Errno} (h : convert.given arg value alternative r = (.ok v, left)) :
    ∃ a, r = (some a, left) := by
  obtain ⟨a, errno⟩ := r
  cases a with
  | none => cases h
  | some a =>
    cases h
    exact ⟨a, rfl⟩

/-- A conversion that succeeds does not put `ERANGE` into `errno`, and only that of an integer takes it out. -/
theorem convert_left {type : UsageValue δ} {arg value : List Byte} {errno left : Errno} {v : UsageValue δ}
    (h : convert strtod type arg value errno = (.ok v, left)) :
    (IsInteger type → left ≠ ERANGE) ∧ (¬IsInteger type → left = errno ∧ (IsFloat type → errno ≠ ERANGE)) := by
  cases type with
  | integer _ =>
    obtain ⟨r, converted⟩ := given_ok h
    have zero := (stoi64_errno value 0 errno errno).2 r (congrArg Prod.fst converted)
    rw [converted] at zero
    cases zero
    exact ⟨fun _ => nofun, fun plain => absurd trivial plain⟩
  | float _ =>
    have fine : errno ≠ ERANGE := by
      rintro rfl
      have stale := @convert_stale δ strtod (.float ‹δ›) arg value trivial
      rw [h] at stale
      cases stale
    obtain ⟨r, converted⟩ := given_ok h
    have kept := (stof64_fine strtod value fine fine).2 r (congrArg Prod.fst converted)
    rw [converted] at kept
    exact ⟨nofun, fun _ => ⟨kept, fun _ => fine⟩⟩
  | none => cases h
  | string _ =>
    cases h
    exact ⟨nofun, fun _ => ⟨rfl, nofun⟩⟩
  | boolean _ =>
    obtain ⟨b, converted⟩ := given_ok h
    exact ⟨nofun, fun _ => ⟨(congrArg Prod.snd converted).symm, nofun⟩⟩

/-- A pass that goes on does with `errno` what its conversion does, if it makes one. -/
theorem parseOption_errno_left {s t : Turn δ} (h : parseOption strtod options argv s = .ok (.inl t)) :
    (ConvertsInteger options argv s → t.errno ≠ ERANGE) ∧
      (¬ConvertsInteger options argv s → t.errno = s.errno) := by
  rcases parseOption_left h with ⟨none, kept⟩ | ⟨option, value, arg, v, converts, converted⟩
  · refine ⟨?_, fun _ => kept⟩
    rintro ⟨option, value, converts, _⟩
    exact absurd converts (none option value)
  · obtain ⟨taken, kept⟩ := convert_left converted
    constructor
    · rintro ⟨option', value', converts', integer⟩
      cases converts.unique converts'
      exact taken integer
    · intro none
      exact (kept fun integer => none ⟨option, value, converts, integer⟩).1

/-- Only integers take `ERANGE` out of `errno`, and no option that is accepted puts it there. -/
theorem reaches_errno {errno : Errno} {s : Turn δ}
    (reached : Reaches (parseOption strtod options argv) (reset options errno) s) :
    s.errno = ERANGE ↔ errno = ERANGE ∧
      Visits (parseOption strtod options argv) (fun s => ¬ConvertsInteger options argv s) (reset options errno) s := by
  constructor
  · intro stale
    induction reached with
    | start => exact ⟨stale, Visits.start⟩
    | @next s t _ _ goes ih =>
      obtain ⟨taken, kept⟩ := parseOption_errno_left goes
      have plain : ¬ConvertsInteger options argv s := fun integer => taken integer stale
      obtain ⟨first, visits⟩ := ih ((kept plain).symm.trans stale)
      exact ⟨first, visits.next plain goes⟩
  · rintro ⟨first, visits⟩
    clear reached
    induction visits with
    | start => exact first
    | next _ plain goes ih => exact ((parseOption_errno_left goes).2 plain).trans ih

/-- In every run, an argument of type `Float` is converted as it would be with no option before it. -/
def FloatsAlone (strtod : List Byte → δ × Nat × Bool) (options : List (UsageOption δ)) (argv : List CString)
    (errno : Errno) : Prop :=
  ∀ s, Reaches (parseOption strtod options argv) (reset options errno) s →
    ∀ option value, Converts options argv s option value → IsFloat option.argValue →
      ∀ arg, (convert strtod option.argValue arg value s.errno).1 =
        (convert strtod option.argValue arg value errno).1

/-- No number of type `Float` comes behind an integer. -/
def NoIntegerBefore (strtod : List Byte → δ × Nat × Bool) (options : List (UsageOption δ)) (argv : List CString)
    (errno : Errno) : Prop :=
  ∀ s, Reaches (parseOption strtod options argv) (reset options errno) s →
    ∀ option value, Converts options argv s option value → IsFloat option.argValue → Readable strtod value →
      Visits (parseOption strtod options argv) (fun s => ¬ConvertsInteger options argv s) (reset options errno) s

theorem given_injective {α : Type} {alternative : α → UsageValue δ} (injective : Function.Injective alternative)
    {arg value : List Byte} {r r' : Option α × Errno}
    (h : (convert.given arg value alternative r).1 = (convert.given arg value alternative r').1) : r.1 = r'.1 := by
  obtain ⟨a, errno⟩ := r
  obtain ⟨a', errno'⟩ := r'
  cases a with
  | none =>
    cases a' with
    | none => rfl
    | some _ => cases h
  | some a =>
    cases a' with
    | none => cases h
    | some a' => exact congrArg some (injective (Except.ok.inj h))

theorem convert_float_iff {type : UsageValue δ} (float : IsFloat type) (value : List Byte) (errno other : Errno) :
    (∀ arg, (convert strtod type arg value errno).1 = (convert strtod type arg value other).1) ↔
      (errno = ERANGE ↔ other = ERANGE) ∨ ¬Readable strtod value := by
  cases type with
  | float _ =>
    rw [← returned_errno_iff strtod value errno other]
    show _ ↔ (StringTo.stof64 strtod value errno).1 = (StringTo.stof64 strtod value other).1
    rw [stof64_eq, stof64_eq]
    constructor
    · intro same
      exact given_injective (fun _ _ => UsageValue.float.inj) (same [])
    · intro same arg
      exact (given_agree same (Q := fun _ _ => True) fun _ _ => trivial).1
  | none => exact float.elim
  | string _ => exact float.elim
  | integer _ => exact float.elim
  | boolean _ => exact float.elim

theorem floatsAlone_iff (options : List (UsageOption δ)) (argv : List CString) (errno : Errno) :
    FloatsAlone strtod options argv errno ↔ errno ≠ ERANGE ∨ NoIntegerBefore strtod options argv errno := by
  constructor
  · intro alone
    refine or_iff_not_imp_left.mpr fun stale => ?_
    rw [not_not] at stale
    intro s reached option value converts float readable
    have agree := ((convert_float_iff float value s.errno errno).mp
      (alone s reached option value converts float)).resolve_right (not_not.mpr readable)
    exact ((reaches_errno reached).mp (agree.mpr stale)).2
  · intro h s reached option value converts float
    refine (convert_float_iff float value s.errno errno).mpr ?_
    by_cases readable : Readable strtod value
    · left
      rw [reaches_errno reached]
      refine ⟨And.left, fun stale => ⟨stale, ?_⟩⟩
      exact (h.resolve_left (not_not.mpr stale)) s reached option value converts float readable
    · exact Or.inr readable

/-- The outcome of a conversion to a floating-point number depends on `errno` where it goes from or to `ERANGE`
and the value could be read. In a parse that makes a difference where it begins with `ERANGE`, as only an
integer takes that away. -/
theorem floats_free_iff (strtof : List Byte → φ × Nat × Bool) (strtod : List Byte → δ × Nat × Bool) :
    (∀ value errno other, ErrnoFree strtof strtod value errno other ↔
      (errno = ERANGE ↔ other = ERANGE) ∨ ¬Readable strtof value ∧ ¬Readable strtod value) ∧
    ∀ (options : List (UsageOption δ)) argv errno,
      FloatsAlone strtod options argv errno ↔ errno ≠ ERANGE ∨ NoIntegerBefore strtod options argv errno :=
  ⟨fun value errno other => errnoFree_iff strtod value errno strtof other, floatsAlone_iff⟩

/-- The elements `p`, `-i=1` and `-f=1`. -/
def integerAndFloat : List CString :=
  [plainElement, ⟨[ascii '-', ascii 'i', ascii '=', ascii '1'], by decide⟩, floatElement]

/-- Behind `stoi64` of 99999999999999999999 the conversions refuse 1, and a parse accepts `-f=1` only if an
integer comes before it. -/
theorem stale_errno :
    (Hlib.stoi64 (List.replicate 20 (ascii '9')) 0 0).2 = ERANGE ∧
      ¬ErrnoFree readOne readOne (literal "1") 0 ERANGE ∧
      ¬FloatsAlone readOne sample.options integerAndFloat ERANGE := by
  refine ⟨by decide, fun free => ?_, fun alone => ?_⟩
  · exact absurd free.stof64 (by decide)
  · have reached : ∃ s, Reaches (parseOption readOne sample.options integerAndFloat)
        (reset sample.options ERANGE) s ∧ s.i = 2 ∧ s.errno = 0 := ⟨_, Visits.start.next trivial rfl, rfl, rfl⟩
    obtain ⟨s, reached, second, cleared⟩ := reached
    have converts : Converts sample.options integerAndFloat s
        { brief := ascii 'f', argName := [ascii 'x'], argValue := .float 0 } [ascii '1'] := by
      have here : integerAndFloat[s.i]? = some floatElement := by
        rw [second]
        rfl
      have taken : takeValue integerAndFloat 1 [ascii '1'] s.i = .ok (some ([ascii '1'], s.i)) := rfl
      exact ⟨[ascii '-', ascii 'f'], [ascii '1'], s.i, ⟨_, here, rfl, by decide⟩, rfl, nofun, taken⟩
    have same := alone s reached _ _ converts trivial []
    rw [cleared] at same
    cases same

end Order

end Usage

end Hlib
