import Hlib.AtMostOne
import Hlib.UsageAlike
import Hlib.UsageArguments

namespace Hlib

open Loop

namespace Usage

variable {δ : Type}

section Entries

/-- Each option, whether it is set, and its value. -/
def entries (options : List (UsageOption δ)) (set : List Bool) (values : List (UsageValue δ)) :
    List (UsageOption δ × Bool × UsageValue δ) :=
  options.zip (set.zip values)

variable {options options' : List (UsageOption δ)} {arg : List Byte}

theorem findOption_find? (options : List (UsageOption δ)) (arg : List Byte) :
    options[findOption options arg]? = options.find? (named arg) := by
  rw [findOption_eq, List.find?_eq_getElem?_findIdx]

theorem entries_set (one : AtMostOne (named arg) options) (set : List Bool) (values : List (UsageValue δ)) :
    entries options (set.set (findOption options arg) true) values =
      (entries options set values).map fun e => if named arg e.1 then (e.1, true, e.2.2) else e := by
  rw [entries, AtMostOne.set_zip, findOption_eq, one.zip_modify]
  rfl

theorem entries_values (one : AtMostOne (named arg) options) (set : List Bool) (values : List (UsageValue δ))
    (v : UsageValue δ) :
    entries options set (values.set (findOption options arg) v) =
      (entries options set values).map fun e => if named arg e.1 then (e.1, e.2.1, v) else e := by
  rw [entries, AtMostOne.zip_set, findOption_eq, one.zip_modify]
  rfl

/-- Each option has the same entry, in the one table and in the other. -/
def SameEntries (options options' : List (UsageOption δ)) (x y : Stored δ) : Prop :=
  (entries options' y.1 y.2).Perm (entries options x.1 x.2)

theorem sameEntries_keeps (one : AtMostOne (named arg) options) (perm : options'.Perm options) :
    Keeps (SameEntries options options') (findOption options arg) (findOption options' arg) := by
  have one' := one.perm perm
  constructor
  · intro x y same
    unfold SameEntries
    rw [entries_set one, entries_set one']
    exact List.Perm.map _ same
  · intro x y same v
    unfold SameEntries
    rw [entries_values one, entries_values one']
    exact List.Perm.map _ same

end Entries

section Passes

variable {strtod : List Byte → δ × Nat × Bool} {options options' : List (UsageOption δ)} {argv : List CString}

/-- The pass from `s` on needs an argument for the option, and none is written behind `=`. -/
def Demands (options : List (UsageOption δ)) (argv : List CString) (s : Turn δ) : Prop :=
  ∃ arg option, MeetsOption argv s arg [] ∧ options[findOption options arg]? = some option ∧ option.argName ≠ []

/-- Turns in which each option has the same entry, and `errno` is the same. -/
def Permuted (options options' : List (UsageOption δ)) (s t : Turn δ) : Prop :=
  Related (SameEntries options options') s t ∧ s.errno = t.errno

theorem reset_permuted (perm : options'.Perm options) (errno : Errno) :
    Permuted options options' (reset options errno) (reset options' errno) := by
  refine ⟨⟨rfl, ?_⟩, rfl⟩
  have fresh (options : List (UsageOption δ)) :
      entries options (reset options errno).set (reset options errno).values =
        options.map fun option => (option, false, option.argValue) := by
    unfold entries reset
    induction options with
    | nil => rfl
    | cons option options ih =>
      simp only [List.length_cons, List.replicate_succ, List.map_cons, List.zip_cons_cons]
      exact congrArg _ ih
  unfold SameEntries
  rw [fresh, fresh]
  exact perm.map _

abbrev PermutedResult (options options' : List (UsageOption δ)) :
    Except UsageError Unit × Turn δ → Except UsageError Unit × Turn δ → Prop :=
  RelatedResult (SameEntries options options')

/-- The two tables are passed alike, if an option that demands an argument stands early in both. -/
theorem parseOption_early (perm : options'.Perm options) {s t : Turn δ}
    (permuted : Permuted options options' s t)
    (one : ∀ arg value, MeetsOption argv s arg value → AtMostOne (named arg) options)
    (early : ∀ arg option, MeetsOption argv s arg [] → options[findOption options arg]? = some option →
      options'[findOption options' arg]? = some option → option.argName ≠ [] →
        findOption options arg + 1 < argv.length ∧ findOption options' arg + 1 < argv.length) :
    Alike (Permuted options options') (PermutedResult options options') (parseOption strtod options argv s)
      (parseOption strtod options' argv t) := by
  obtain ⟨related, left⟩ := permuted
  have found_same : ∀ arg value, MeetsOption argv s arg value →
      options'[findOption options' arg]? = options[findOption options arg]? := by
    intro arg value meets
    rw [findOption_find?, findOption_find?]
    exact (one arg value meets).find?_perm perm
  refine parseOption_alike related ?_ ?_ (fun _ => left) ?_
  · intro arg value meets
    exact ⟨found_same arg value meets, sameEntries_keeps (one arg value meets) perm⟩
  · intro arg value option meets found takes
    rw [related.i]
    by_cases given : value = []
    · subst given
      obtain ⟨here, there⟩ := early arg option meets found ((found_same arg [] meets).trans found) takes
      rw [takeValue_next here, takeValue_next there]
    · rw [takeValue_given given, takeValue_given given]
  · intro option value arg _
    rw [left]
    exact ⟨rfl, fun v _ => rfl⟩

/-- The two tables are passed alike, unless an argument is demanded, of which the index in the table would
say whether there is one. -/
theorem parseOption_permuted (perm : options'.Perm options) {s t : Turn δ}
    (permuted : Permuted options options' s t)
    (one : ∀ arg value, MeetsOption argv s arg value → AtMostOne (named arg) options)
    (fits : Demands options argv s → options.length < argv.length) :
    Alike (Permuted options options') (PermutedResult options options') (parseOption strtod options argv s)
      (parseOption strtod options' argv t) := by
  refine parseOption_early perm permuted one ?_
  intro arg option meets found found' takes
  have room := fits ⟨arg, option, meets, found, takes⟩
  have inside := (List.getElem?_eq_some_iff.mp found).1
  have inside' := (List.getElem?_eq_some_iff.mp found').1
  rw [perm.length_eq] at inside'
  omega

end Passes

section Names

/-- The names are pairwise distinct; a brief of 0 and an empty extended name are none. -/
structure DistinctNames (options : List (UsageOption δ)) : Prop where
  briefs : options.Pairwise fun a b => a.brief = b.brief → a.brief = 0
  extendeds : options.Pairwise fun a b => a.extended = b.extended → a.extended = []

variable (strtod : List Byte → δ × Nat × Bool) (argv : List CString) (errno : Errno)
  (options : List (UsageOption δ))

/-- An element `--` is met, up to its `=`, and is taken for the first option without an extended name. -/
def MeetsBare (argv : List CString) (s : Turn δ) : Prop :=
  ∃ value, MeetsOption argv s [ascii '-', ascii '-'] value

/-- An element `--` is only reached if at most one option has no extended name. -/
def BareFits : Prop :=
  (∀ s, Reaches (parseOption strtod options argv) (reset options errno) s → ¬MeetsBare argv s) ∨
    AtMostOne (fun option => option.extended = []) options

/-- Each element that is reached names one option at most. -/
def NamesOne : Prop :=
  ∀ s, Reaches (parseOption strtod options argv) (reset options errno) s → ∀ arg value,
    MeetsOption argv s arg value → AtMostOne (named arg) options

variable {strtod argv errno options}

/-- But for `--`, an element names one option at most. -/
theorem DistinctNames.one (distinct : DistinctNames options) {s : Turn δ} {arg value : List Byte}
    (meets : MeetsOption argv s arg value) (other : arg ≠ [ascii '-', ascii '-']) :
    AtMostOne (named arg) options := by
  refine (distinct.briefs.and distinct.extendeds).imp ?_
  rintro a b ⟨briefs, extendeds⟩ ⟨ha, hb⟩
  rcases meets.named_cases ha with ⟨given, form, single⟩ | form
  · rcases meets.named_cases hb with ⟨_, form', _⟩ | form'
    · have same := List.cons.inj (List.cons.inj (form.symm.trans form')).2
      exact given (briefs same.1)
    · have same := List.cons.inj (List.cons.inj (form.symm.trans form')).2
      exact single (by rw [form, same.1])
  · rcases meets.named_cases hb with ⟨_, form', single⟩ | form'
    · have same := List.cons.inj (List.cons.inj (form'.symm.trans form)).2
      exact single (by rw [form', same.1])
    · have same := (List.cons.inj (List.cons.inj (form.symm.trans form')).2).2
      exact other (by rw [form, extendeds same])

theorem named_bare (option : UsageOption δ) :
    named [ascii '-', ascii '-'] option = decide (option.extended = []) := rfl

theorem BareFits.namesOne (bare : BareFits strtod argv errno options) (distinct : DistinctNames options) :
    NamesOne strtod argv errno options := by
  intro s reached arg value meets
  by_cases other : arg = [ascii '-', ascii '-']
  · subst other
    rcases bare with never | one
    · exact absurd ⟨value, meets⟩ (never s reached)
    · exact one
  · exact distinct.one meets other

end Names

section Tables

variable (strtod : List Byte → δ × Nat × Bool) (argv : List CString) (errno : Errno)

/-- Of `argv`, only the elements behind the first are read, and none behind the last. -/
def ReadsInside (u : Usage δ) : Prop :=
  (∃ r, parse strtod u argv errno = .ok r) ∧
    ∀ program, parse strtod u (argv.set 0 program) errno = parse strtod u argv errno

/-- An option that takes an argument and is written without `=` is given the next element, which is consumed;
if there is none, then `parse` fails as the option requires an argument. -/
def GivesNext (u : Usage δ) : Prop :=
  ∀ s, Reaches (parseOption strtod u.options argv) (reset u.options errno) s →
    ∀ (text : CString) option, argv[s.i]? = some text → text.val.head? = some (ascii '-') → ascii '=' ∉ text.val →
      u.options[findOption u.options text.val]? = some option → option.argName ≠ [] →
        (∀ next : CString, argv[s.i + 1]? = some next →
          parseOption strtod u.options argv s =
            .ok (storeValue strtod (findOption u.options text.val) option text.val next.val
              { s.mark (findOption u.options text.val) with i := s.i + 1 })) ∧
          (argv.length ≤ s.i + 1 →
            ∃ t, parseOption strtod u.options argv s = .ok (.inr (.error (.requiresArgument text.val), t)))

/-- The outcome is the same: the result, for each option whether it is set and which value it has, and the
positional arguments. -/
def SameOutcome (u w : Usage δ) : Prop :=
  ∃ result left left' u' w', parse strtod u argv errno = .ok (result, u', left) ∧
    parse strtod w argv errno = .ok (result, w', left') ∧
    (entries w'.options w'.optionSet w'.optionValues).Perm (entries u'.options u'.optionSet u'.optionValues) ∧
    w'.argumentValues = u'.argumentValues

/-- Arguments are taken from `argv` correctly, wherever the options stand in the table. -/
def TakesArguments (u : Usage δ) : Prop :=
  ∀ options', options'.Perm u.options →
    ReadsInside strtod argv errno { u with options := options' } ∧
      GivesNext strtod argv errno { u with options := options' } ∧
      SameOutcome strtod argv errno u { u with options := options' }

/-- Where an argument is demanded there is an element left, and there are more elements than options. -/
def DemandsFit (options : List (UsageOption δ)) : Prop :=
  ∀ s, Reaches (parseOption strtod options argv) (reset options errno) s → Demands options argv s →
    s.i + 1 < argv.length ∧ options.length < argv.length

variable {strtod argv errno}

theorem element_program {i : Nat} (h : 1 ≤ i) (program : CString) :
    element (argv.set 0 program) i = element argv i := by
  rw [element, element, List.getElem?_set_ne (by omega)]

theorem takeValue_program (program : CString) (index i : Nat) (value : List Byte) :
    takeValue (argv.set 0 program) index value i = takeValue argv index value i := by
  rw [takeValue, takeValue, List.length_set, element_program (Nat.le_add_left 1 i)]

theorem parseOption_program (options : List (UsageOption δ)) (program : CString) {s : Turn δ} (h : 1 ≤ s.i) :
    parseOption strtod options (argv.set 0 program) s = parseOption strtod options argv s := by
  unfold parseOption parseFound
  simp only [List.length_set, element_program h, takeValue_program]

theorem parseOptions_program (options : List (UsageOption δ)) (program : CString) {s : Turn δ} (h : 1 ≤ s.i) :
    parseOptions strtod options (argv.set 0 program) s = parseOptions strtod options argv s := by
  refine (loop_alike (R := fun s t => s = t ∧ 1 ≤ s.i) (S := Eq) _ _ ?_ ⟨rfl, h⟩).eq
  rintro s t _ ⟨rfl, h⟩
  rw [parseOption_program options program h]
  cases pass : parseOption strtod options argv s with
  | error fault => exact .faults fault
  | ok next =>
    cases next with
    | inr result => exact .leaves rfl
    | inl t =>
      have forward := (parseOption_goes pass).2
      exact .goes ⟨rfl, by omega⟩

/-- The loop over the options ends where it stands or further on. -/
theorem parseOptions_le {options : List (UsageOption δ)} {s t : Turn δ}
    (h : parseOptions strtod options argv s = .ok (.ok (), t)) : s.i ≤ t.i := by
  refine loop_induction (P := fun (s : Turn δ) (outcome : Checked (Except UsageError Unit × Turn δ)) =>
    ∀ t, outcome = .ok (.ok (), t) → s.i ≤ t.i) _ ?_ ?_ ?_ s t h
  · intro s fault _ t equal
    cases equal
  · intro s result pass t equal
    cases equal
    rw [parseOption_leaves pass]
  · intro s next result pass ih t equal
    have forward := (parseOption_goes pass).2
    have behind := ih t equal
    omega

/-- The first element is not read: all indices are at least one. -/
theorem parse_program (u : Usage δ) (program : CString) :
    parse strtod u (argv.set 0 program) errno = parse strtod u argv errno := by
  have first : 1 ≤ (reset u.options errno).i := Nat.le_refl 1
  unfold parse
  rw [parseOptions_program u.options program first]
  cases parsed : parseOptions strtod u.options argv (reset u.options errno) with
  | error fault => rfl
  | ok r =>
    obtain ⟨result, t⟩ := r
    cases result with
    | error e => rfl
    | ok _ =>
      have behind : 1 ≤ t.i := parseOptions_le parsed
      have rest : (argv.set 0 program).drop t.i = argv.drop t.i := List.drop_set_of_lt (by omega)
      rw [ok_bind, ok_bind]
      dsimp only
      rw [rest]

/-- An option for which an argument is missing stands late in the table. -/
theorem parseOptions_requires {options : List (UsageOption δ)} {s t : Turn δ} {arg : List Byte}
    (h : parseOptions strtod options argv s = .ok (.error (.requiresArgument arg), t)) :
    argv.length ≤ findOption options arg + 1 := by
  refine loop_induction (P := fun (_ : Turn δ) (outcome : Checked (Except UsageError Unit × Turn δ)) =>
    ∀ t, outcome = .ok (.error (.requiresArgument arg), t) → argv.length ≤ findOption options arg + 1)
    (parseOption_descends strtod options argv) ?_ ?_ ?_ s t h
  · intro s fault _ t equal
    cases equal
  · intro s result pass t equal
    cases equal
    rcases parseOption_cases strtod options argv s with ⟨left, _⟩ | ⟨arg', value, meets, unknown | ⟨option, found⟩⟩
    · cases left.symm.trans pass
    · cases (parseOption_unknown meets unknown).symm.trans pass
    · rw [parseOption_found meets found] at pass
      rcases parseFound_cases pass with ⟨_, next⟩ | ⟨_, missing, next⟩ | ⟨value', i, _, _, next⟩
      · cases next
      · cases next
        exact takeValue_none missing
      · rcases storeValue_cases strtod (findOption options arg') option arg' value'
          { s.mark (findOption options arg') with i } with ⟨e, errno, converted, stored⟩ | ⟨v, errno, _, stored⟩
        · cases next.trans stored
          rcases convert_error (congrArg Prod.fst converted) with other | other <;> cases other
        · cases next.trans stored
  · intro s next outcome _ ih t equal
    exact ih t equal

variable {u : Usage δ}

theorem Demands.of_found {s : Turn δ} {arg value : List Byte} {option : UsageOption δ}
    (meets : MeetsOption argv s arg value) (found : u.options[findOption u.options arg]? = some option)
    (takes : option.argName ≠ []) (none_given : value = []) : Demands u.options argv s :=
  ⟨arg, option, none_given ▸ meets, found, takes⟩

/-- A pass reads no element but its own and the next one, and that only where it demands it. -/
theorem parseOption_fine {s : Turn δ} (fit : Demands u.options argv s → s.i + 1 < argv.length) (fault : Fault) :
    parseOption strtod u.options argv s ≠ .error fault := by
  intro faulted
  rcases parseOption_cases strtod u.options argv s with ⟨left, _⟩ | ⟨arg, value, meets, unknown | ⟨option, found⟩⟩
  · cases left.symm.trans faulted
  · cases (parseOption_unknown meets unknown).symm.trans faulted
  · rw [parseOption_found meets found] at faulted
    by_cases flag : option.argName = []
    · rw [parseFound_flag flag] at faulted
      cases faulted
    · by_cases given : value = []
      · have inside := fit (Demands.of_found meets found flag given)
        subst given
        by_cases late : findOption u.options arg + 1 ≥ argv.length
        · rw [parseFound_missing flag (takeValue_requires late s.i)] at faulted
          cases faulted
        · have taken := takeValue_next (Nat.lt_of_not_le late) s.i
          rw [element, List.getElem?_eq_getElem inside, ok_bind] at taken
          rw [parseFound_taken flag taken] at faulted
          cases faulted
      · rw [parseFound_taken flag (takeValue_given given _ _)] at faulted
        cases faulted

theorem DemandsFit.alike (one : NamesOne strtod argv errno u.options)
    (fit : DemandsFit strtod argv errno u.options) {options' : List (UsageOption δ)}
    (perm : options'.Perm u.options) (s t : Turn δ)
    (reached : Reaches (parseOption strtod u.options argv) (reset u.options errno) s)
    (related : Permuted u.options options' s t) :
    Alike (Permuted u.options options') (PermutedResult u.options options')
      (parseOption strtod u.options argv s) (parseOption strtod options' argv t) := by
  refine parseOption_permuted perm related (one s reached) ?_
  exact fun demands => (fit s reached demands).2

theorem DemandsFit.sameOutcome (one : NamesOne strtod argv errno u.options)
    (fit : DemandsFit strtod argv errno u.options) {options' : List (UsageOption δ)}
    (perm : options'.Perm u.options) : SameOutcome strtod argv errno u { u with options := options' } := by
  obtain ⟨r, parsed⟩ := loop_returns (parseOption_descends strtod u.options argv)
    fun s reached fault => parseOption_fine (fun demands => (fit s reached demands).1) fault
  have outcome := loop_alike (parseOption_descends strtod u.options argv)
    (parseOption_descends strtod options' argv) (fit.alike one perm) (reset_permuted perm errno)
  rw [parsed] at outcome
  cases parsed' : loop (parseOption strtod options' argv) _ (parseOption_descends strtod options' argv)
      (reset options' errno) with
  | error fault =>
    rw [parsed'] at outcome
    cases outcome
  | ok r' =>
    rw [parsed'] at outcome
    obtain ⟨result, s⟩ := r
    obtain ⟨result', t⟩ := r'
    cases outcome with
    | returns same =>
      obtain ⟨equal, related⟩ := same
      cases equal
      cases result with
      | error e =>
        have again := parse_of_error (u := { u with options := options' }) parsed'
        exact ⟨_, _, _, _, _, parse_of_error parsed, again, related.stored, rfl⟩
      | ok _ =>
        have again := parse_of_options (u := { u with options := options' }) parsed'
        have here : s.i = t.i := related.i
        rw [positional, ← here] at again
        exact ⟨_, _, _, _, _, parse_of_options parsed, again, related.stored, rfl⟩

theorem DemandsFit.givesNext (one : NamesOne strtod argv errno u.options)
    (fit : DemandsFit strtod argv errno u.options) {options' : List (UsageOption δ)}
    (perm : options'.Perm u.options) : GivesNext strtod argv errno { u with options := options' } := by
  intro t reached' text option here dash plain found takes
  dsimp only at reached' found ⊢
  obtain ⟨s, reached, related, _⟩ := Visits.followed reached' (fit.alike one perm) (reset_permuted perm errno)
  have meets' : MeetsOption argv t text.val [] := ⟨text, here, dash, splitValue_plain plain⟩
  have meets := related.meets.mp meets'
  have same : u.options[findOption u.options text.val]? = some option := by
    rw [findOption_find?] at found ⊢
    exact ((one s reached _ _ meets).find?_perm perm).symm.trans found
  obtain ⟨inside, room⟩ := fit s reached ⟨text.val, option, meets, same, takes⟩
  have index := (List.getElem?_eq_some_iff.mp found).1
  rw [perm.length_eq] at index
  rw [related.i] at inside
  constructor
  · intro next after
    have taken := takeValue_next (show findOption options' text.val + 1 < argv.length by omega) t.i
    rw [element, after, ok_bind] at taken
    rw [parseOption_found meets' found, parseFound_taken takes taken]
  · intro last
    omega

/-- All is as claimed where the demands fit, for any order of the table. -/
theorem takesArguments_of_fit (one : NamesOne strtod argv errno u.options)
    (fit : DemandsFit strtod argv errno u.options) : TakesArguments strtod argv errno u := by
  intro options' perm
  have same := fit.sameOutcome one perm
  refine ⟨⟨?_, fun program => parse_program _ program⟩, fit.givesNext one perm, same⟩
  obtain ⟨_, _, _, _, _, _, parsed, _⟩ := same
  exact ⟨_, parsed⟩

theorem perm_back {α : Type} (before after : List α) (x : α) :
    (before ++ after ++ [x]).Perm (before ++ x :: after) := by
  have front : (before ++ after ++ [x]).Perm (x :: (before ++ after)) := List.perm_append_comm
  exact front.trans List.perm_middle.symm

/-- In a table that begins with the option, an argument for it is looked for in `argv`. -/
theorem not_requires_first {option : UsageOption δ} {others : List (UsageOption δ)} {arg : List Byte}
    (hn : named arg option = true) (more : 2 ≤ argv.length) {s t : Turn δ} :
    parseOptions strtod (option :: others) argv s ≠ .ok (.error (.requiresArgument arg), t) := by
  intro failed
  have late := parseOptions_requires failed
  rw [findOption_eq, List.findIdx_cons, hn] at late
  change argv.length ≤ 0 + 1 at late
  omega

/-- With at least as many options as elements, the option that demands an argument first is refused one where
it ends the table. -/
theorem requires_last (one : NamesOne strtod argv errno u.options) {before after : List (UsageOption δ)}
    {option : UsageOption δ} (table : u.options = before ++ option :: after)
    (many : argv.length ≤ u.options.length) {s : Turn δ}
    (v : Visits (parseOption strtod u.options argv) (fun s => ¬Demands u.options argv s) (reset u.options errno) s)
    {arg : List Byte} (meets : MeetsOption argv s arg [])
    (found : u.options[findOption u.options arg]? = some option) (takes : option.argName ≠ []) :
    ∃ t, parseOptions strtod (before ++ after ++ [option]) argv (reset (before ++ after ++ [option]) errno) =
      .ok (.error (.requiresArgument arg), t) := by
  have perm : (before ++ after ++ [option]).Perm u.options := by
    rw [table]
    exact perm_back before after option
  have single := one s v.reaches arg [] meets
  have followed : ∃ t, Reaches (parseOption strtod (before ++ after ++ [option]) argv)
      (reset (before ++ after ++ [option]) errno) t ∧ Permuted u.options (before ++ after ++ [option]) s t := by
    refine v.follow (S := PermutedResult u.options (before ++ after ++ [option])) ?_ (reset_permuted perm errno)
    intro s t reached _ quiet related
    exact parseOption_permuted perm related (one s reached)
      fun demands => absurd demands quiet
  obtain ⟨t, reached, related, _⟩ := followed
  have index : findOption (before ++ after ++ [option]) arg = (before ++ after).length := by
    rw [findOption_eq]
    exact (single.perm perm).findIdx_append_cons (findOption_named found)
  have found' : (before ++ after ++ [option])[findOption (before ++ after ++ [option]) arg]? = some option := by
    rw [findOption_find?] at found ⊢
    exact (single.find?_perm perm).trans found
  have late : argv.length ≤ findOption (before ++ after ++ [option]) arg + 1 := by
    rw [index]
    have length := perm.length_eq
    simp only [List.length_append, List.length_singleton] at length ⊢
    omega
  have pass := @parseOption_found δ strtod _ argv t arg [] (related.meets.mpr meets) option found'
  rw [parseFound_missing takes (takeValue_requires late t.i)] at pass
  exact ⟨_, (reached.loop_eq _).trans (loop_leaves pass)⟩

theorem reaches_le {s : Turn δ} (reached : Reaches (parseOption strtod u.options argv) (reset u.options errno) s) :
    1 ≤ s.i := by
  refine reached.invariant (fun s => 1 ≤ s.i) (Nat.le_refl 1) ?_
  intro s t h pass
  have forward := (parseOption_goes pass).2
  omega

theorem parse_requires {u' : Usage δ} {left : Errno} {arg : List Byte}
    (h : parse strtod u argv errno = .ok (.error (.requiresArgument arg), u', left)) :
    ∃ t, parseOptions strtod u.options argv (reset u.options errno) = .ok (.error (.requiresArgument arg), t) := by
  obtain ⟨⟨result, t⟩, parsed, _⟩ := bind_ok h
  cases result with
  | error e =>
    cases (parse_of_error parsed).symm.trans h
    exact ⟨t, parsed⟩
  | ok _ =>
    have returned := Except.ok.inj ((parse_of_options parsed).symm.trans h)
    rcases parseArguments_error (congrArg Prod.fst returned) with ⟨_, other⟩ | other <;> cases other

/-- Demands that do not fit go wrong in the table, or in an order of it. -/
theorem fit_of_takesArguments (one : NamesOne strtod argv errno u.options)
    (takes : TakesArguments strtod argv errno u) : DemandsFit strtod argv errno u.options := by
  intro s reached demands
  by_contra unfit
  by_cases many : argv.length ≤ u.options.length
  · have first : ∃ s, Visits (parseOption strtod u.options argv) (fun s => ¬Demands u.options argv s)
        (reset u.options errno) s ∧ ¬¬Demands u.options argv s := Visits.first reached (not_not.mpr demands)
    obtain ⟨s, v, demands⟩ := first
    rw [not_not] at demands
    obtain ⟨arg, option, meets, found, takes'⟩ := demands
    obtain ⟨before, after, table⟩ := List.append_of_mem (List.mem_of_getElem? found)
    have more : 2 ≤ argv.length := by
      obtain ⟨text, here, _⟩ := meets
      have inside := (List.getElem?_eq_some_iff.mp here).1
      have first := reaches_le v.reaches
      omega
    have front : (option :: (before ++ after)).Perm u.options := by
      rw [table]
      exact List.perm_middle.symm
    have back : (before ++ after ++ [option]).Perm u.options := by
      rw [table]
      exact perm_back before after option
    obtain ⟨t, failed⟩ := requires_last one table many v meets found takes'
    have last := parse_of_error (u := { u with options := before ++ after ++ [option] }) failed
    obtain ⟨_, _, result, _, _, _, _, parsed, again, _⟩ := takes _ back
    obtain ⟨_, _, result', _, _, _, _, parsed', again', _⟩ := takes _ front
    cases last.symm.trans again
    cases parsed.symm.trans parsed'
    obtain ⟨t, failed⟩ := parse_requires again'
    exact not_requires_first (findOption_named found) more failed
  · obtain ⟨arg, option, meets, found, takes'⟩ := demands
    obtain ⟨⟨⟨r, parsed⟩, _⟩, _⟩ := takes u.options (List.Perm.refl _)
    have index := (List.getElem?_eq_some_iff.mp found).1
    have beyond : argv[s.i + 1]? = none := List.getElem?_eq_none_iff.mpr (by omega)
    have faulted := takeValue_next (show findOption u.options arg + 1 < argv.length by omega) s.i
    rw [element, beyond] at faulted
    have pass := @parseOption_found δ strtod u.options argv s arg [] meets option found
    rw [parseFound, if_neg takes', faulted] at pass
    obtain ⟨_, failed, _⟩ := bind_ok parsed
    cases ((reached.loop_eq (parseOption_descends strtod u.options argv)).trans (loop_faults pass)).symm.trans failed

end Tables

end Usage

end Hlib
