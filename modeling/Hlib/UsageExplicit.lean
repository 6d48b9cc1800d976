import Hlib.Usage

namespace Hlib

namespace Usage

variable {δ : Type}

section Explicit

variable (strtod : List Byte → δ × Nat × Bool) (options : List (UsageOption δ)) (argv : List CString)

/-- The pass from `s` on meets `name=v`, where `name` is that of an option that takes an argument. -/
structure Explicit (s : Turn δ) (name v : List Byte) (option : UsageOption δ) : Prop where
  element : ∃ text : CString, argv[s.i]? = some text ∧ text.val = name ++ ascii '=' :: v
  plain : ascii '=' ∉ name
  dash : name.head? = some (ascii '-')
  found : options[findOption options name]? = some option
  takes : option.argName ≠ []

/-- One element is consumed and `v` is converted, and what follows is parsed as behind any other element. -/
structure TakesExplicit (s : Turn δ) (name v : List Byte) (option : UsageOption δ) : Prop where
  pass : parseOption strtod options argv s =
    .ok (match convert strtod option.argValue name v s.errno with
      | (.error e, errno) => .inr (.error e, { s.mark (findOption options name) with errno })
      | (.ok value, errno) =>
        .inl ⟨s.i + 1, s.set.set (findOption options name) true,
          s.values.set (findOption options name) value, errno⟩)
  rest : parseOptions strtod options argv s =
    match convert strtod option.argValue name v s.errno with
    | (.error e, errno) => .ok (.error e, { s.mark (findOption options name) with errno })
    | (.ok value, errno) =>
      parseOptions strtod options argv ⟨s.i + 1, s.set.set (findOption options name) true,
        s.values.set (findOption options name) value, errno⟩

/-- Every argument that is written behind `=` is the one that its option is given. -/
def SelfContained (errno : Errno) : Prop :=
  ∀ s, Loop.Reaches (parseOption strtod options argv) (reset options errno) s →
    ∀ name v option, Explicit options argv s name v option → TakesExplicit strtod options argv s name v option

variable {strtod options argv}

theorem Explicit.parseOption_eq {s : Turn δ} {name v : List Byte} {option : UsageOption δ}
    (h : Explicit options argv s name v option) :
    parseOption strtod options argv s =
      parseFound strtod argv (findOption options name) option name v s := by
  obtain ⟨text, here, form⟩ := h.element
  have split := splitValue_explicit h.plain v
  have dash : text.val.head? = some (ascii '-') := by
    rw [form, List.head?_append, h.dash]
    rfl
  rw [parseOption_dash here dash, form, split]
  simp only [h.found]

theorem parseFound_given {index : Nat} {option : UsageOption δ} (takes : option.argName ≠ [])
    {value : List Byte} (given : value ≠ []) (arg : List Byte) (s : Turn δ) :
    parseFound strtod argv index option arg value s =
      .ok (storeValue strtod index option arg value (s.mark index)) :=
  parseFound_taken takes (takeValue_given given index s.i) arg

theorem takesExplicit_of_given {s : Turn δ} {name v : List Byte} {option : UsageOption δ}
    (h : Explicit options argv s name v option) (given : v ≠ []) :
    TakesExplicit strtod options argv s name v option := by
  have pass := @Explicit.parseOption_eq δ strtod options argv s name v option h
  rw [parseFound_given h.takes given, storeValue] at pass
  refine ⟨pass, ?_⟩
  unfold parseOptions
  change parseOption strtod options argv s = .ok (match convert strtod option.argValue name v s.errno with
    | (.error e, errno) => _
    | (.ok value, errno) => _) at pass
  generalize convert strtod option.argValue name v s.errno = converted at pass ⊢
  obtain ⟨_ | value, errno⟩ := converted
  · exact Loop.loop_leaves pass
  · exact Loop.loop_goes pass

/-- An empty argument is taken for a missing one: either the next element is consumed as well, or the pass
does not get as far as the conversion. -/
theorem not_takesExplicit {s : Turn δ} {name : List Byte} {option : UsageOption δ}
    (h : Explicit options argv s name [] option) : ¬TakesExplicit strtod options argv s name [] option := by
  rintro ⟨takes, _⟩
  rw [h.parseOption_eq, parseFound, if_neg h.takes] at takes
  obtain ⟨taken, ht, takes⟩ := bind_ok takes
  have failure := @convert_error δ strtod option.argValue name [] s.errno
  cases taken with
  | none =>
    have left := Except.ok.inj takes
    generalize convert strtod option.argValue name [] s.errno = converted at left failure
    obtain ⟨e | value, errno⟩ := converted
    · have same := (Prod.mk.inj (Sum.inr.inj left)).1
      rcases failure rfl with rfl | rfl <;> cases same
    · cases left
  | some taken =>
    obtain ⟨value', i⟩ := taken
    have next := takeValue_empty ht
    have left := Except.ok.inj takes
    unfold storeValue at left
    generalize convert strtod option.argValue name [] s.errno = converted at left
    split at left <;> obtain ⟨e | value, errno⟩ := converted
    · have same := congrArg Turn.i (Prod.mk.inj (Sum.inr.inj left)).2
      change i = s.i at same
      omega
    · cases left
    · cases left
    · have same := congrArg Turn.i (Sum.inl.inj left)
      change i + 1 = s.i + 1 at same
      omega

theorem selfContained_iff (errno : Errno) :
    SelfContained strtod options argv errno ↔
      ∀ s, Loop.Reaches (parseOption strtod options argv) (reset options errno) s →
        ∀ name v option, Explicit options argv s name v option → v ≠ [] := by
  constructor
  · rintro all s reached name v option h rfl
    exact not_takesExplicit h (all s reached name [] option h)
  · intro all s reached name v option h
    exact takesExplicit_of_given h (all s reached name v option h)

/-- `-s= x`: the value is not the empty one, and `x` is no argument of its own. -/
theorem empty_takes_next :
    ¬∀ (options : List (UsageOption Nat)) (argv : List CString),
      SelfContained (fun text => (0, text.length, false)) options argv 0 := by
  intro h
  have takes := h [{ brief := ascii 's', argName := [ascii 's'] }]
    [⟨[ascii 'p'], by decide⟩, ⟨[ascii '-', ascii 's', ascii '='], by decide⟩, ⟨[ascii 'x'], by decide⟩] _
    Loop.Visits.start [ascii '-', ascii 's'] [] _ ⟨⟨_, rfl, rfl⟩, by decide, rfl, rfl, by decide⟩
  have moved := congrArg (fun pass => pass.toOption.map fun pass => pass.getLeft?.map Turn.i) takes.pass
  exact absurd moved (by decide)

end Explicit

end Usage

end Hlib
