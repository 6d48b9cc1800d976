import Hlib.UsageQueries

namespace Hlib

open Loop

namespace Usage

variable {δ : Type} {strtod : List Byte → δ × Nat × Bool} {argv : List CString} {errno : Errno}

section Parsed

variable {options options' : List (UsageOption δ)} {e e' : Turn δ}

/-- Where the options parse, one that demands an argument stands early in the table. -/
theorem early_of_parsed (parsed : parseOptions strtod options argv (reset options errno) = .ok (.ok (), e))
    {s : Turn δ} (reached : Reaches (parseOption strtod options argv) (reset options errno) s) {arg : List Byte}
    {option : UsageOption δ} (meets : MeetsOption argv s arg [])
    (found : options[findOption options arg]? = some option) (takes : option.argName ≠ []) :
    findOption options arg + 1 < argv.length := by
  by_contra late
  have pass := @parseOption_found δ strtod options argv s arg [] meets option found
  rw [parseFound_missing takes (takeValue_requires (Nat.le_of_not_lt late) s.i)] at pass
  have failed := (reached.loop_eq (parseOption_descends strtod options argv)).trans (loop_leaves pass)
  cases failed.symm.trans parsed

/-- Two orders of the table that parse are passed alike up to an element `--`. -/
theorem parsed_alike (distinct : DistinctNames options) (perm : options'.Perm options)
    (parsed : parseOptions strtod options argv (reset options errno) = .ok (.ok (), e))
    (parsed' : parseOptions strtod options' argv (reset options' errno) = .ok (.ok (), e')) {s t : Turn δ}
    (reached : Reaches (parseOption strtod options argv) (reset options errno) s)
    (reached' : Reaches (parseOption strtod options' argv) (reset options' errno) t)
    (plain : ¬MeetsBare argv s) (related : Permuted options options' s t) :
    Alike (Permuted options options') (PermutedResult options options') (parseOption strtod options argv s)
      (parseOption strtod options' argv t) := by
  refine parseOption_early perm related ?_ ?_
  · intro arg value meets
    refine distinct.one meets ?_
    rintro rfl
    exact plain ⟨value, meets⟩
  · intro arg option meets found found' takes
    exact ⟨early_of_parsed parsed reached meets found takes,
      early_of_parsed parsed' reached' (related.1.meets.mpr meets) found' takes⟩

/-- An option that is set stays so. -/
theorem stays_set {i : Nat} {t : Turn δ} (parsed : parseOptions strtod options argv t = .ok (.ok (), e))
    (set : t.set[i]? = some true) : e.set[i]? = some true := by
  have keep : ∀ s s' : Turn δ, s.set[i]? = some true → parseOption strtod options argv s = .ok (.inl s') →
      s'.set[i]? = some true := by
    intro s s' stays pass
    rcases parseOption_cases strtod options argv s with ⟨left, _⟩ | ⟨arg, value, meets, unknown | ⟨option, found⟩⟩
    · cases left.symm.trans pass
    · cases (parseOption_unknown meets unknown).symm.trans pass
    · rw [(parseFound_goes ((parseOption_found meets found).symm.trans pass)).2]
      by_cases same : findOption options arg = i
      · rw [same, List.getElem?_set_self (List.getElem?_eq_some_iff.mp stays).1]
      · rw [List.getElem?_set_ne same]
        exact stays
  have returned := (returns_iff (parseOption_descends strtod options argv)).mpr parsed
  obtain ⟨s, stays, left⟩ := returned.invariant (fun s => s.set[i]? = some true) set keep
  rwa [parseOption_leaves left]

/-- Where the options parse, an element `--` sets the first of them, if it has no extended name. -/
theorem first_set {option : UsageOption δ} (unnamed : option.extended = [])
    (parsed : parseOptions strtod (option :: options) argv (reset (option :: options) errno) = .ok (.ok (), e))
    {s : Turn δ} (reached : Reaches (parseOption strtod (option :: options) argv) (reset (option :: options) errno) s)
    (bare : MeetsBare argv s) : e.set[0]? = some true := by
  obtain ⟨value, meets⟩ := bare
  have index : findOption (option :: options) [ascii '-', ascii '-'] = 0 := by
    rw [findOption_eq, List.findIdx_cons, named_bare, decide_eq_true unnamed]
    rfl
  have found : (option :: options)[findOption (option :: options) [ascii '-', ascii '-']]? = some option := by
    rw [index]
    rfl
  have sized : Sized (option :: options) s.set s.values := by
    refine reached.invariant (fun s => Sized (option :: options) s.set s.values) ?_ ?_
    · exact ⟨List.length_replicate, List.length_map _⟩
    · exact fun s t h pass => parseOption_sized h pass
  have here := (reached.loop_eq (parseOption_descends strtod (option :: options) argv)).symm.trans parsed
  have pass := @parseOption_found δ strtod (option :: options) argv s _ value meets option found
  cases next : parseOption strtod (option :: options) argv s with
  | error fault => cases (loop_faults next).symm.trans here
  | ok went =>
    rw [next] at pass
    cases went with
    | inr r =>
      cases (loop_leaves next).symm.trans here
      obtain ⟨_, failed⟩ := parseFound_leaves pass.symm
      cases failed
    | inl t =>
      refine stays_set ((loop_goes next).symm.trans here) ?_
      rw [(parseFound_goes pass.symm).2, index]
      exact List.getElem?_set_self (by rw [sized.set]; exact Nat.succ_pos _)

end Parsed

section Orders

variable {u : Usage δ}

theorem parse_succeeds {u' : Usage δ} {n : Nat} {left : Errno}
    (h : parse strtod u argv errno = .ok (.ok n, u', left)) :
    ∃ e, parseOptions strtod u.options argv (reset u.options errno) = .ok (.ok (), e) ∧
      u'.optionSet = e.set := by
  obtain ⟨⟨result, e⟩, parsed, rest⟩ := bind_ok h
  cases result with
  | error e => cases rest
  | ok _ =>
    have returned := Except.ok.inj ((parse_of_options parsed).symm.trans h)
    exact ⟨e, parsed, (congrArg (fun r => r.2.1.optionSet) returned).symm⟩

/-- In every order of the table, an element `--` sets the first option without an extended name: where the
outcome is the same for all, each of these has been set. -/
theorem set_of_bare (distinct : DistinctNames u.options) (takes : TakesArguments strtod argv errno u) {s : Turn δ}
    (reached : Reaches (parseOption strtod u.options argv) (reset u.options errno) s) (bare : MeetsBare argv s)
    {n : Nat} {u' : Usage δ} {left : Errno} (parsed : parse strtod u argv errno = .ok (.ok n, u', left))
    {option : UsageOption δ} (among : option ∈ u.options) (unnamed : option.extended = []) :
    ∃ v, (option, true, v) ∈ entries u'.options u'.optionSet u'.optionValues := by
  obtain ⟨before, after, table⟩ := List.append_of_mem among
  have perm : (option :: (before ++ after)).Perm u.options := by
    rw [table]
    exact List.perm_middle.symm
  obtain ⟨_, _, _, _, _, _, w, again, parsed', same, _⟩ := takes _ perm
  cases parsed.symm.trans again
  obtain ⟨e, options, _⟩ := parse_succeeds parsed
  obtain ⟨e', options', set⟩ := parse_succeeds parsed'
  have earliest : ∃ t, Visits (parseOption strtod u.options argv) (fun s => ¬MeetsBare argv s)
      (reset u.options errno) t ∧ ¬¬MeetsBare argv t := Visits.first reached (not_not.mpr bare)
  obtain ⟨s₀, v, first⟩ := earliest
  obtain ⟨t, reached', related⟩ := v.follow
    (S := PermutedResult u.options (option :: (before ++ after)))
    (fun s t hs ht plain related => parsed_alike distinct perm options options' hs ht plain related)
    (reset_permuted perm errno)
  obtain ⟨value, meets⟩ := not_not.mp first
  have marked := first_set unnamed options' reached' ⟨value, related.1.meets.mpr meets⟩
  rw [← set] at marked
  have sized := parse_sized parsed'
  have kept : w.options = option :: (before ++ after) := (parse_keeps parsed').1
  obtain ⟨v, stored⟩ : ∃ v, w.optionValues[0]? = some v := by
    have inside : 0 < w.optionValues.length := by
      rw [sized.values, kept]
      exact Nat.succ_pos _
    exact ⟨_, List.getElem?_eq_getElem inside⟩
  refine ⟨v, same.mem_iff.mp (List.mem_iff_getElem?.mpr ⟨0, ?_⟩)⟩
  rw [entries, kept]
  exact List.getElem?_zip_eq_some.mpr ⟨rfl, List.getElem?_zip_eq_some.mpr ⟨marked, stored⟩⟩

/-- Arguments are taken from `argv` correctly, in every order of the table, if each that is demanded has an
element, there are fewer options than elements, and `--` stands for one option at most; it is only `--` that
leaves a choice, and then all that it can stand for have been set if the order does not matter. -/
theorem takesArguments_iff (distinct : DistinctNames u.options) :
    (TakesArguments strtod argv errno u ∧ BareFits strtod argv errno u.options ↔
      DemandsFit strtod argv errno u.options ∧ BareFits strtod argv errno u.options) ∧
      (TakesArguments strtod argv errno u → ¬BareFits strtod argv errno u.options →
        ∀ n u' left, parse strtod u argv errno = .ok (.ok n, u', left) →
          ∀ option ∈ u.options, option.extended = [] →
            ∃ v, (option, true, v) ∈ entries u'.options u'.optionSet u'.optionValues) := by
  constructor
  · constructor
    · exact fun ⟨takes, bare⟩ => ⟨fit_of_takesArguments (bare.namesOne distinct) takes, bare⟩
    · exact fun ⟨fit, bare⟩ => ⟨takesArguments_of_fit (bare.namesOne distinct) fit, bare⟩
  · intro takes unfit n u' left parsed option among unnamed
    have found : ∃ s, Reaches (parseOption strtod u.options argv) (reset u.options errno) s ∧ MeetsBare argv s := by
      by_contra never
      exact unfit (Or.inl fun s reached bare => never ⟨s, reached, bare⟩)
    obtain ⟨s, reached, bare⟩ := found
    exact set_of_bare distinct takes reached bare parsed among unnamed

/-- One option `-s`, with an argument. -/
def stringOption : Usage Nat where
  options := [{ brief := ascii 's', argName := [ascii 's'] }]

theorem stringOption_distinct : DistinctNames stringOption.options :=
  ⟨List.pairwise_singleton _ _, List.pairwise_singleton _ _⟩

/-- `-s x`. -/
theorem takesArguments_iff_next :
    TakesArguments (fun text => (0, text.length, false))
      [⟨[ascii 'p'], by decide⟩, ⟨[ascii '-', ascii 's'], by decide⟩, ⟨[ascii 'x'], by decide⟩] 0 stringOption := by
  refine ((takesArguments_iff stringOption_distinct).1.mpr ⟨?_, Or.inr (List.pairwise_singleton _ _)⟩).1
  rintro s _ ⟨arg, option, ⟨text, here, dash, _⟩, _⟩
  have inside := (List.getElem?_eq_some_iff.mp here).1
  have second : s.i = 1 := by
    rcases hi : s.i with _ | _ | _ | i
    · rw [hi] at here
      cases here
      exact absurd (Option.some.inj dash) (by decide)
    · rfl
    · rw [hi] at here
      cases here
      exact absurd (Option.some.inj dash) (by decide)
    · rw [hi] at inside
      simp only [List.length_cons, List.length_nil] at inside
      omega
  rw [second]
  exact ⟨by decide, by decide⟩

/-- `-s` at the end: the index of the option in the table is small enough, and `argv[argc]` is read. -/
theorem last_reads_null :
    ¬∀ (u : Usage Nat) (argv : List CString),
      DistinctNames u.options → TakesArguments (fun text => (0, text.length, false)) argv 0 u := by
  intro h
  obtain ⟨⟨⟨r, parsed⟩, _⟩, _⟩ := h stringOption [⟨[ascii 'p'], by decide⟩, ⟨[ascii '-', ascii 's'], by decide⟩]
    stringOption_distinct _ (List.Perm.refl _)
  obtain ⟨_, returned, _⟩ := bind_ok parsed
  have faulted : parseOptions (fun text => (0, text.length, false)) stringOption.options
      [⟨[ascii 'p'], by decide⟩, ⟨[ascii '-', ascii 's'], by decide⟩] (reset stringOption.options 0) =
        .error .outOfBounds := loop_faults rfl
  cases faulted.symm.trans returned

end Orders

end Usage

end Hlib
