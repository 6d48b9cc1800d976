import Hlib.Usage

namespace Hlib

namespace Usage

variable {δ : Type}

section Declared

variable (strtod : List Byte → δ × Nat × Bool) (options : List (UsageOption δ)) (argv : List CString)

/-- `arg` is `-c` or `--name` for a name that the option has. -/
def Declares (option : UsageOption δ) (arg : List Byte) : Prop :=
  (option.brief ≠ 0 ∧ arg = [ascii '-', option.brief]) ∨
    (option.extended ≠ [] ∧ arg = ascii '-' :: ascii '-' :: option.extended)

/-- The option that is set declares what it is called by. -/
def SetsDeclared (arg : List Byte) : Prop :=
  ∃ option, options[findOption options arg]? = some option ∧ Declares option arg

/-- What is accepted sets an option that declares it, and everything else makes `parse` fail. -/
def OnlyDeclared (errno : Errno) : Prop :=
  ∀ s, Loop.Reaches (parseOption strtod options argv) (reset options errno) s →
    ∀ arg value, MeetsOption argv s arg value →
      (∀ t, parseOption strtod options argv s = .ok (.inl t) →
        SetsDeclared options arg ∧ t.set = s.set.set (findOption options arg) true) ∧
      (¬SetsDeclared options arg → ∃ e t, parseOption strtod options argv s = .ok (.inr (.error e, t)))

/-- The option takes an argument that is missing, or that its type does not allow. -/
def Refused (s : Turn δ) (index : Nat) (option : UsageOption δ) (arg value : List Byte) : Prop :=
  option.argName ≠ [] ∧
    (takeValue argv index value s.i = .ok none ∨
      ∃ value' i e, takeValue argv index value s.i = .ok (some (value', i)) ∧
        (convert strtod option.argValue arg value' s.errno).1 = .error e)

variable {strtod options argv}

theorem parseFound_refused_iff {s : Turn δ} {index : Nat} {option : UsageOption δ} {arg value : List Byte} :
    (∃ e t, parseFound strtod argv index option arg value s = .ok (.inr (.error e, t))) ↔
      Refused strtod argv s index option arg value := by
  constructor
  · rintro ⟨e, t, h⟩
    rcases parseFound_cases h with ⟨_, next⟩ | ⟨takes, missing, _⟩ | ⟨value', i, takes, taken, next⟩
    · cases next
    · exact ⟨takes, Or.inl missing⟩
    · rcases storeValue_cases strtod index option arg value' { s.mark index with i } with
        ⟨e', errno, converted, _⟩ | ⟨v, errno, _, stored⟩
      · exact ⟨takes, Or.inr ⟨value', i, e', taken, congrArg Prod.fst converted⟩⟩
      · cases next.trans stored
  · rintro ⟨takes, missing | ⟨value', i, e, taken, refused⟩⟩
    · exact ⟨_, _, parseFound_missing takes missing arg⟩
    · cases converted : convert strtod option.argValue arg value' s.errno with
      | mk result errno =>
        rw [converted] at refused
        cases refused
        refine ⟨e, { s.mark index with i, errno }, ?_⟩
        rw [parseFound_taken takes taken, storeValue_refused (s := { s.mark index with i }) converted]

/-- Only `--` is not of one of the two forms: it is what an option without an extended name is found by. -/
theorem declares_of_named {s : Turn δ} {arg value : List Byte} (h : MeetsOption argv s arg value)
    {option : UsageOption δ} (hn : named arg option = true) :
    Declares option arg ∨ (arg = [ascii '-', ascii '-'] ∧ option.extended = []) := by
  rcases h.named_cases hn with ⟨brief, form, _⟩ | form
  · exact Or.inl (Or.inl ⟨brief, form⟩)
  · by_cases missing : option.extended = []
    · rw [missing] at form
      exact Or.inr ⟨form, missing⟩
    · exact Or.inl (Or.inr ⟨missing, form⟩)

/-- What is accepted as an option is declared, and all else refused, where no `--` is taken for the first
option that has no extended name. -/
theorem onlyDeclared_iff (errno : Errno) :
    OnlyDeclared strtod options argv errno ↔
      ∀ s, Loop.Reaches (parseOption strtod options argv) (reset options errno) s →
        ∀ value, MeetsOption argv s [ascii '-', ascii '-'] value →
          ∀ option, options[findOption options [ascii '-', ascii '-']]? = some option →
            option.brief = ascii '-' ∨
              Refused strtod argv s (findOption options [ascii '-', ascii '-']) option [ascii '-', ascii '-']
                value := by
  constructor
  · intro all s reached value meets option found
    by_cases declared : SetsDeclared options [ascii '-', ascii '-']
    · left
      obtain ⟨other, found', hd⟩ := declared
      cases found.symm.trans found'
      rcases hd with ⟨_, form⟩ | ⟨given, form⟩
      · exact (List.cons.inj (List.cons.inj form).2).1.symm
      · exact absurd (List.cons.inj (List.cons.inj form).2).2.symm given
    · right
      obtain ⟨e, t, failed⟩ := (all s reached _ value meets).2 declared
      rw [parseOption_found meets found] at failed
      exact parseFound_refused_iff.mp ⟨e, t, failed⟩
  · intro all s reached arg value meets
    cases found : options[findOption options arg]? with
    | none =>
      have failed := @parseOption_unknown δ strtod options argv s arg value meets found
      constructor
      · intro t accepted
        cases failed.symm.trans accepted
      · intro _
        exact ⟨_, _, failed⟩
    | some option =>
      have pass := @parseOption_found δ strtod options argv s arg value meets option found
      rcases declares_of_named meets (findOption_named found) with declares | ⟨rfl, missing⟩
      · constructor
        · intro t accepted
          exact ⟨⟨option, found, declares⟩, (parseFound_goes (pass.symm.trans accepted)).2⟩
        · intro other
          exact absurd ⟨option, found, declares⟩ other
      · rcases all s reached value meets option found with minus | refused
        · have declares : Declares option [ascii '-', ascii '-'] := Or.inl ⟨by rw [minus]; decide, by rw [minus]⟩
          constructor
          · intro t accepted
            exact ⟨⟨option, found, declares⟩, (parseFound_goes (pass.symm.trans accepted)).2⟩
          · intro other
            exact absurd ⟨option, found, declares⟩ other
        · obtain ⟨e, t, failed⟩ := parseFound_refused_iff.mpr refused
          have failed := pass.trans failed
          constructor
          · intro t' accepted
            cases failed.symm.trans accepted
          · intro _
            exact ⟨e, t, failed⟩

/-- `--` sets an option that is declared as `-f` only. -/
theorem bare_sets_brief :
    ¬∀ (options : List (UsageOption Nat)) (argv : List CString),
      OnlyDeclared (fun text => (0, text.length, false)) options argv 0 := by
  intro h
  have meets := h [{ brief := ascii 'f' }] [⟨[ascii 'p'], by decide⟩, ⟨[ascii '-', ascii '-'], by decide⟩] _
    Loop.Visits.start [ascii '-', ascii '-'] [] ⟨_, rfl, rfl, rfl⟩
  obtain ⟨⟨option, found, declares⟩, _⟩ := meets.1 _ rfl
  cases found
  rcases declares with ⟨_, form⟩ | ⟨given, _⟩
  · exact absurd form (by decide)
  · exact given rfl

end Declared

end Usage

end Hlib
