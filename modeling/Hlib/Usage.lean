import Hlib.Loop
import Hlib.StringValue

namespace Hlib

/-- The characters of a C string. -/
abbrev CString := { text : List Byte // 0 ∉ text }

/-- `Usage::Value`; `δ` is `double`. -/
inductive UsageValue (δ : Type)
  | none
  | string (text : List Byte)
  | integer (n : Int)
  | float (d : δ)
  | boolean (b : Bool)
  deriving DecidableEq, Repr

/-- `Usage::Option`: a `brief` of 0 and an empty `extended` are missing names, and an option without an
`argName` takes no argument. -/
structure UsageOption (δ : Type) where
  brief : Byte := 0
  extended : List Byte := []
  argName : List Byte := []
  argValue : UsageValue δ := .string []
  deriving DecidableEq, Repr

structure UsageArgument where
  name : List Byte
  optional : Bool := false
  deriving DecidableEq, Repr

inductive UsageError
  | invalidOption (arg : List Byte)
  | requiresArgument (arg : List Byte)
  | doesNotTake (arg : List Byte)
  | invalidArgument (arg value : List Byte)
  | missing (name : List Byte)
  | tooMany
  deriving DecidableEq, Repr

/-- What the format string of an error makes of its arguments. -/
def UsageError.text : UsageError → List Byte
  | invalidOption arg => literal "invalid option '" ++ cString arg ++ literal "'"
  | requiresArgument arg => literal "option '" ++ cString arg ++ literal "' requires an argument"
  | doesNotTake arg => literal "option '" ++ cString arg ++ literal "' does not take an argument"
  | invalidArgument arg value =>
    literal "invalid '" ++ cString arg ++ literal "' argument '" ++ cString value ++ literal "'"
  | missing name => literal "missing argument '" ++ cString name ++ literal "'"
  | tooMany => literal "too many arguments"

def UsageError.what (e : UsageError) : List Byte := format e.text

/-- What an error is about: the option as it is written, or the name of the argument. -/
def UsageError.subject : UsageError → List Byte
  | invalidOption arg | requiresArgument arg | doesNotTake arg | invalidArgument arg _ => arg
  | missing name => name
  | tooMany => []

/-- An error names what it is about, unless its text is longer than `format` can make it. -/
theorem UsageError.what_names {e : UsageError} (short : e.text.length < 2 ^ 31) :
    cString e.subject <:+: e.what := by
  rw [what, format_short short]
  cases e with
  | invalidOption arg => exact ⟨_, _, rfl⟩
  | requiresArgument arg => exact ⟨_, _, rfl⟩
  | doesNotTake arg => exact ⟨_, _, rfl⟩
  | invalidArgument arg value =>
    refine ⟨literal "invalid '", literal "' argument '" ++ cString value ++ literal "'", ?_⟩
    simp only [text, subject, List.append_assoc]
  | missing name => exact ⟨_, _, rfl⟩
  | tooMany => exact List.nil_infix

structure Usage (δ : Type) where
  options : List (UsageOption δ) := []
  arguments : List UsageArgument := []
  varargs : Bool := false
  optionSet : List Bool := []
  optionValues : List (UsageValue δ) := []
  argumentValues : List (List Byte) := []
  deriving DecidableEq, Repr

namespace Usage

variable {δ : Type}

section Parse

/-- A `std::string` made from `argv[i]`; `argv[argc]` is a null pointer, of which none can be made. -/
def element (argv : List CString) (i : Nat) : Checked (List Byte) :=
  match argv[i]? with
  | some text => .ok text.val
  | none => .error .outOfBounds

/-- `arg` up to its first `=`, and the `value` behind it, which is empty if there is no `=`. -/
def splitValue (arg : List Byte) : List Byte × List Byte :=
  match arg.findIdx? fun c => c = ascii '=' with
  | some index => (arg.take index, arg.drop (index + 1))
  | none => (arg, [])

/-- The index of the option that `arg` names, or the number of options. -/
def findOption (options : List (UsageOption δ)) (arg : List Byte) : Nat :=
  if [ascii '-', ascii '-'].isPrefixOf arg = false then
    if arg.length = 2 then options.findIdx fun option => some option.brief = arg.getLast?
    else options.length
  else options.findIdx fun option => option.extended = arg.drop 2

/-- Where the loop over the options stands. -/
structure Turn (δ : Type) where
  i : Nat
  set : List Bool
  values : List (UsageValue δ)
  errno : Errno
  deriving DecidableEq, Repr

/-- The argument of the option at `index`, with `i` as it is left: `none` where an argument is required. -/
def takeValue (argv : List CString) (index : Nat) (value : List Byte) (i : Nat) :
    Checked (Option (List Byte × Nat)) :=
  if value = [] then
    if index + 1 ≥ argv.length then .ok none
    else do return some (← element argv (i + 1), i + 1)
  else .ok (some (value, i))

/-- The `switch` over the type of `m_options[index].arg_value`. -/
def convert (strtod : List Byte → δ × Nat × Bool) (type : UsageValue δ) (arg value : List Byte)
    (errno : Errno) : Except UsageError (UsageValue δ) × Errno :=
  match type with
  | .none => (.error (.doesNotTake arg), errno)
  | .string _ => (.ok (.string value), errno)
  | .integer _ => given UsageValue.integer (stoi64 value 0 errno)
  | .float _ => given UsageValue.float (stof64 strtod value errno)
  | .boolean _ => given UsageValue.boolean (stob value, errno)
where
  given {α : Type} (alternative : α → UsageValue δ) :
      Option α × Errno → Except UsageError (UsageValue δ) × Errno
    | (some r, errno) => (.ok (alternative r), errno)
    | (none, errno) => (.error (.invalidArgument arg value), errno)

/-- The rest of a pass, once there is an argument for the option. -/
def storeValue (strtod : List Byte → δ × Nat × Bool) (index : Nat) (option : UsageOption δ)
    (arg value : List Byte) (s : Turn δ) : Turn δ ⊕ (Except UsageError Unit × Turn δ) :=
  match convert strtod option.argValue arg value s.errno with
  | (.error e, errno) => .inr (.error e, { s with errno })
  | (.ok v, errno) => .inl { s with i := s.i + 1, values := s.values.set index v, errno }

/-- `m_option_set[index] = true`. -/
def Turn.mark (s : Turn δ) (index : Nat) : Turn δ := { s with set := s.set.set index true }

/-- A pass of the loop over the options, once the option is found. -/
def parseFound (strtod : List Byte → δ × Nat × Bool) (argv : List CString) (index : Nat)
    (option : UsageOption δ) (arg value : List Byte) (s : Turn δ) :
    Checked (Turn δ ⊕ (Except UsageError Unit × Turn δ)) :=
  if option.argName = [] then .ok (.inl { s.mark index with i := s.i + 1 })
  else do
    match ← takeValue argv index value s.i with
    | none => return .inr (.error (.requiresArgument arg), s.mark index)
    | some (value, i) => return storeValue strtod index option arg value { s.mark index with i }

/-- A pass of the loop over the options. -/
def parseOption (strtod : List Byte → δ × Nat × Bool) (options : List (UsageOption δ)) (argv : List CString) :
    Loop.Body (Turn δ) (Except UsageError Unit × Turn δ) Fault := fun s =>
  if s.i < argv.length then do
    let text ← element argv s.i
    if text.head? ≠ some (ascii '-') then return .inr (.ok (), s)
    let (arg, value) := splitValue text
    let index := findOption options arg
    match options[index]? with
    | none => return .inr (.error (.invalidOption arg), s)
    | some option => parseFound strtod argv index option arg value s
  else return .inr (.ok (), s)

/-- The loop over the arguments: their values, the arguments and the elements left, and `optional`. -/
def fillArguments : List UsageArgument → List (List Byte) → Bool →
    List (List Byte) × List UsageArgument × List (List Byte) × Bool
  | argument :: arguments, text :: texts, optional =>
    let (values, rest) := fillArguments arguments texts (optional || argument.optional)
    (text :: values, rest)
  | arguments, texts, optional => ([], arguments, texts, optional)

/-- What follows the loop over the options, from `argv[i]` on. -/
def parseArguments (arguments : List UsageArgument) (varargs : Bool) (texts : List (List Byte)) :
    Except UsageError Nat × List (List Byte) :=
  let (values, left, texts, optional) := fillArguments arguments texts false
  match left.head?.filter fun argument => !(optional || argument.optional) with
  | some argument => (.error (.missing argument.name), values)
  | none =>
    if texts ≠ [] then
      if varargs = false then (.error .tooMany, values)
      else (.ok (values.length + texts.length), values ++ texts)
    else (.ok values.length, values)

end Parse

section Names

theorem splitValue_plain {text : List Byte} (h : ascii '=' ∉ text) : splitValue text = (text, []) := by
  have absent : (text.findIdx? fun c => c = ascii '=') = none := by
    rw [List.findIdx?_eq_none_iff]
    intro c hc
    rw [decide_eq_false_iff_not]
    rintro rfl
    exact h hc
  rw [splitValue, absent]

theorem splitValue_explicit {name : List Byte} (h : ascii '=' ∉ name) (v : List Byte) :
    splitValue (name ++ ascii '=' :: v) = (name, v) := by
  have first : ((name ++ ascii '=' :: v).findIdx? fun c => c = ascii '=') = some name.length := by
    rw [List.findIdx?_append, List.findIdx?_eq_none_iff.mpr, List.findIdx?_cons]
    · simp
    · intro c hc
      rw [decide_eq_false_iff_not]
      rintro rfl
      exact h hc
  rw [splitValue, first]
  simp

/-- The two forms of an element. -/
theorem splitValue_cases (text : List Byte) :
    (ascii '=' ∉ text ∧ splitValue text = (text, [])) ∨
      ∃ name v, text = name ++ ascii '=' :: v ∧ ascii '=' ∉ name ∧ splitValue text = (name, v) := by
  by_cases h : ascii '=' ∈ text
  · obtain ⟨name, v, rfl, plain⟩ := List.eq_append_cons_of_mem h
    exact Or.inr ⟨name, v, rfl, plain, splitValue_explicit plain v⟩
  · exact Or.inl ⟨h, splitValue_plain h⟩

/-- `arg` names the option. -/
def named (arg : List Byte) (option : UsageOption δ) : Bool :=
  if [ascii '-', ascii '-'].isPrefixOf arg = false then decide (arg.length = 2 ∧ some option.brief = arg.getLast?)
  else decide (option.extended = arg.drop 2)

theorem findOption_eq (options : List (UsageOption δ)) (arg : List Byte) :
    findOption options arg = options.findIdx (named arg) := by
  unfold findOption named
  split
  · split
    next two => simp [two]
    next other =>
      have none_named : (options.findIdx fun _ => false) = options.length := by simp
      simp only [other, false_and, decide_false]
      exact none_named.symm
  · rfl

theorem findOption_named {options : List (UsageOption δ)} {arg : List Byte} {option : UsageOption δ}
    (h : options[findOption options arg]? = some option) : named arg option = true := by
  rw [findOption_eq] at h
  obtain ⟨inside, rfl⟩ := List.getElem?_eq_some_iff.mp h
  exact List.findIdx_getElem

end Names

section Passes

variable {strtod : List Byte → δ × Nat × Bool} {options : List (UsageOption δ)} {argv : List CString}

/-- A conversion fails for the type of the option or for its argument. -/
theorem convert_error {type : UsageValue δ} {arg value : List Byte} {errno : Errno} {e : UsageError}
    (h : (convert strtod type arg value errno).1 = .error e) :
    e = .doesNotTake arg ∨ e = .invalidArgument arg value := by
  have refused {α : Type} {alternative : α → UsageValue δ} (r : Option α × Errno)
      (h : (convert.given arg value alternative r).1 = .error e) : e = .invalidArgument arg value := by
    obtain ⟨_ | r, _⟩ := r <;> cases h
    rfl
  cases type with
  | none =>
    cases h
    exact Or.inl rfl
  | string _ => cases h
  | integer _ => exact Or.inr (refused _ h)
  | float _ => exact Or.inr (refused _ h)
  | boolean _ => exact Or.inr (refused _ h)

theorem storeValue_converted {index : Nat} {option : UsageOption δ} {arg value : List Byte} {s : Turn δ}
    {v : UsageValue δ} {errno : Errno} (h : convert strtod option.argValue arg value s.errno = (.ok v, errno)) :
    storeValue strtod index option arg value s =
      .inl { s with i := s.i + 1, values := s.values.set index v, errno } := by
  unfold storeValue
  split
  next failed =>
    cases h.symm.trans failed
  next converted =>
    cases h.symm.trans converted
    rfl

theorem storeValue_refused {index : Nat} {option : UsageOption δ} {arg value : List Byte} {s : Turn δ}
    {e : UsageError} {errno : Errno} (h : convert strtod option.argValue arg value s.errno = (.error e, errno)) :
    storeValue strtod index option arg value s = .inr (.error e, { s with errno }) := by
  unfold storeValue
  split
  next failed =>
    cases h.symm.trans failed
    rfl
  next converted =>
    cases h.symm.trans converted

theorem storeValue_goes {index : Nat} {option : UsageOption δ} {arg value : List Byte} {s t : Turn δ}
    (h : storeValue strtod index option arg value s = .inl t) : t.i = s.i + 1 ∧ t.set = s.set := by
  unfold storeValue at h
  split at h <;> cases h
  exact ⟨rfl, rfl⟩

theorem takeValue_given {value : List Byte} (given : value ≠ []) (index i : Nat) :
    takeValue argv index value i = .ok (some (value, i)) :=
  if_neg given

theorem takeValue_requires {index : Nat} (h : index + 1 ≥ argv.length) (i : Nat) :
    takeValue argv index [] i = .ok none := by
  rw [takeValue, if_pos rfl, if_pos h]

theorem takeValue_next {index : Nat} (h : index + 1 < argv.length) (i : Nat) :
    takeValue argv index [] i = element argv (i + 1) >>= fun value => .ok (some (value, i + 1)) := by
  rw [takeValue, if_pos rfl, if_neg (by omega)]
  rfl

theorem takeValue_none {index i : Nat} {value : List Byte} (h : takeValue argv index value i = .ok none) :
    argv.length ≤ index + 1 := by
  unfold takeValue at h
  split at h
  next =>
    split at h
    next late => exact late
    next =>
      obtain ⟨_, _, h⟩ := bind_ok h
      cases h
  next => cases h

theorem takeValue_empty {index i i' : Nat} {value' : List Byte}
    (h : takeValue argv index [] i = .ok (some (value', i'))) : i' = i + 1 := by
  unfold takeValue at h
  rw [if_pos rfl] at h
  split at h
  next => cases h
  next =>
    obtain ⟨_, _, h⟩ := bind_ok h
    cases h
    rfl

theorem takeValue_le {index i i' : Nat} {value value' : List Byte}
    (h : takeValue argv index value i = .ok (some (value', i'))) : i ≤ i' := by
  by_cases given : value = []
  · rw [given] at h
    have next := takeValue_empty h
    omega
  · rw [takeValue_given given] at h
    cases h
    exact Nat.le_refl i

theorem parseFound_flag {index : Nat} {option : UsageOption δ} (flag : option.argName = []) (arg value : List Byte)
    (s : Turn δ) :
    parseFound strtod argv index option arg value s = .ok (.inl { s.mark index with i := s.i + 1 }) :=
  if_pos flag

theorem parseFound_missing {index : Nat} {option : UsageOption δ} {value : List Byte} {s : Turn δ}
    (takes : option.argName ≠ []) (missing : takeValue argv index value s.i = .ok none) (arg : List Byte) :
    parseFound strtod argv index option arg value s = .ok (.inr (.error (.requiresArgument arg), s.mark index)) := by
  rw [parseFound, if_neg takes, missing]
  rfl

theorem parseFound_taken {index i : Nat} {option : UsageOption δ} {value value' : List Byte} {s : Turn δ}
    (takes : option.argName ≠ []) (taken : takeValue argv index value s.i = .ok (some (value', i)))
    (arg : List Byte) :
    parseFound strtod argv index option arg value s =
      .ok (storeValue strtod index option arg value' { s.mark index with i }) := by
  rw [parseFound, if_neg takes, taken]
  rfl

/-- What a pass may make of an option that is found: all but the fault of a `takeValue`. -/
theorem parseFound_cases {index : Nat} {option : UsageOption δ} {arg value : List Byte} {s : Turn δ}
    {next : Turn δ ⊕ (Except UsageError Unit × Turn δ)}
    (h : parseFound strtod argv index option arg value s = .ok next) :
    (option.argName = [] ∧ next = .inl { s.mark index with i := s.i + 1 }) ∨
      (option.argName ≠ [] ∧ takeValue argv index value s.i = .ok none ∧
        next = .inr (.error (.requiresArgument arg), s.mark index)) ∨
      ∃ value' i, option.argName ≠ [] ∧ takeValue argv index value s.i = .ok (some (value', i)) ∧
        next = storeValue strtod index option arg value' { s.mark index with i } := by
  by_cases flag : option.argName = []
  · rw [parseFound_flag flag] at h
    exact Or.inl ⟨flag, (Except.ok.inj h).symm⟩
  · cases taken : takeValue argv index value s.i with
    | error fault =>
      rw [parseFound, if_neg flag, taken] at h
      cases h
    | ok given =>
      cases given with
      | none =>
        rw [parseFound_missing flag taken] at h
        exact Or.inr (Or.inl ⟨flag, rfl, (Except.ok.inj h).symm⟩)
      | some given =>
        obtain ⟨value', i⟩ := given
        rw [parseFound_taken flag taken] at h
        exact Or.inr (Or.inr ⟨value', i, flag, rfl, (Except.ok.inj h).symm⟩)

/-- What the conversion of an argument may lead to. -/
theorem storeValue_cases (strtod : List Byte → δ × Nat × Bool) (index : Nat) (option : UsageOption δ)
    (arg value : List Byte) (s : Turn δ) :
    (∃ e errno, convert strtod option.argValue arg value s.errno = (.error e, errno) ∧
        storeValue strtod index option arg value s = .inr (.error e, { s with errno })) ∨
      ∃ v errno, convert strtod option.argValue arg value s.errno = (.ok v, errno) ∧
        storeValue strtod index option arg value s =
          .inl { s with i := s.i + 1, values := s.values.set index v, errno } := by
  cases converted : convert strtod option.argValue arg value s.errno with
  | mk result errno =>
    cases result with
    | error e => exact Or.inl ⟨e, errno, rfl, storeValue_refused converted⟩
    | ok v => exact Or.inr ⟨v, errno, rfl, storeValue_converted converted⟩

/-- A pass that goes on has moved forward, and has set its option. -/
theorem parseFound_goes {index : Nat} {option : UsageOption δ} {arg value : List Byte} {s t : Turn δ}
    (h : parseFound strtod argv index option arg value s = .ok (.inl t)) :
    s.i < t.i ∧ t.set = s.set.set index true := by
  rcases parseFound_cases h with ⟨_, next⟩ | ⟨_, _, next⟩ | ⟨value', i, _, taken, next⟩
  · cases next
    exact ⟨Nat.lt_succ_self _, rfl⟩
  · cases next
  · obtain ⟨moved, same⟩ := storeValue_goes next.symm
    have forward := takeValue_le taken
    change t.i = i + 1 at moved
    exact ⟨by omega, same⟩

/-- A pass that leaves the loop with an option has failed. -/
theorem parseFound_leaves {index : Nat} {option : UsageOption δ} {arg value : List Byte} {s : Turn δ}
    {r : Except UsageError Unit × Turn δ} (h : parseFound strtod argv index option arg value s = .ok (.inr r)) :
    ∃ e, r.1 = .error e := by
  rcases parseFound_cases h with ⟨_, next⟩ | ⟨_, _, next⟩ | ⟨value', i, _, _, next⟩
  · cases next
  · cases next
    exact ⟨_, rfl⟩
  · rcases storeValue_cases strtod index option arg value' { s.mark index with i } with
      ⟨e, errno, _, stored⟩ | ⟨v, errno, _, stored⟩
    · cases next.trans stored
      exact ⟨e, rfl⟩
    · cases next.trans stored

theorem parseOption_end {s : Turn δ} (h : argv.length ≤ s.i) :
    parseOption strtod options argv s = .ok (.inr (.ok (), s)) :=
  if_neg (Nat.not_lt.mpr h)

theorem parseOption_positional {s : Turn δ} {text : CString} (here : argv[s.i]? = some text)
    (h : text.val.head? ≠ some (ascii '-')) :
    parseOption strtod options argv s = .ok (.inr (.ok (), s)) := by
  have inside : s.i < argv.length := (List.getElem?_eq_some_iff.mp here).1
  rw [parseOption, if_pos inside, element, here, ok_bind, if_pos h]
  rfl

theorem parseOption_dash {s : Turn δ} {text : CString} (here : argv[s.i]? = some text)
    (h : text.val.head? = some (ascii '-')) :
    parseOption strtod options argv s =
      match options[findOption options (splitValue text.val).1]? with
      | none => .ok (.inr (.error (.invalidOption (splitValue text.val).1), s))
      | some option =>
        parseFound strtod argv (findOption options (splitValue text.val).1) option (splitValue text.val).1
          (splitValue text.val).2 s := by
  have inside : s.i < argv.length := (List.getElem?_eq_some_iff.mp here).1
  rw [parseOption, if_pos inside, element, here, ok_bind, if_neg (not_not.mpr h)]
  rfl

/-- The pass from `s` on meets an element that starts with `-`, which is `arg` up to its first `=`. -/
def MeetsOption (argv : List CString) (s : Turn δ) (arg value : List Byte) : Prop :=
  ∃ text, argv[s.i]? = some text ∧ text.val.head? = some (ascii '-') ∧ splitValue text.val = (arg, value)

theorem MeetsOption.unique {s : Turn δ} {arg arg' value value' : List Byte} (h : MeetsOption argv s arg value)
    (h' : MeetsOption argv s arg' value') : arg = arg' ∧ value = value' := by
  obtain ⟨text, here, _, split⟩ := h
  obtain ⟨text', here', _, split'⟩ := h'
  cases here.symm.trans here'
  cases split.symm.trans split'
  exact ⟨rfl, rfl⟩

theorem MeetsOption.shape {s : Turn δ} {arg value : List Byte} (h : MeetsOption argv s arg value) :
    arg.head? = some (ascii '-') ∧ 0 ∉ arg := by
  obtain ⟨text, _, dash, split⟩ := h
  rcases splitValue_cases text.val with ⟨_, whole⟩ | ⟨name, v, form, _, parts⟩
  · cases split.symm.trans whole
    exact ⟨dash, text.property⟩
  · cases split.symm.trans parts
    constructor
    · rw [form] at dash
      cases arg with
      | nil => exact absurd (Option.some.inj dash) (by decide)
      | cons c arg => exact dash
    · intro zero
      have inside : 0 ∈ text.val := by
        rw [form]
        exact List.mem_append_left _ zero
      exact text.property inside

/-- What an option is named by: `-c`, which is not `--`, or `--` and its extended name, if there is one. -/
theorem MeetsOption.named_cases {s : Turn δ} {arg value : List Byte} (h : MeetsOption argv s arg value)
    {option : UsageOption δ} (hn : named arg option = true) :
    (option.brief ≠ 0 ∧ arg = [ascii '-', option.brief] ∧ arg ≠ [ascii '-', ascii '-']) ∨
      arg = ascii '-' :: ascii '-' :: option.extended := by
  obtain ⟨first, nonzero⟩ := h.shape
  unfold named at hn
  split at hn
  next single =>
    obtain ⟨two, last⟩ := of_decide_eq_true hn
    match arg, two, first, last, nonzero with
    | [c, d], _, first, last, nonzero =>
      cases first
      cases last
      refine Or.inl ⟨?_, rfl, ?_⟩
      · intro zero
        exact nonzero (by simp [zero])
      · intro double
        rw [double] at single
        exact absurd single (by decide)
  next double =>
    have same := of_decide_eq_true hn
    rw [Bool.not_eq_false, List.isPrefixOf_iff_prefix] at double
    obtain ⟨rest, rfl⟩ := double
    change option.extended = rest at same
    exact Or.inr (by rw [same]; rfl)

theorem parseOption_found {s : Turn δ} {arg value : List Byte} (h : MeetsOption argv s arg value)
    {option : UsageOption δ} (found : options[findOption options arg]? = some option) :
    parseOption strtod options argv s = parseFound strtod argv (findOption options arg) option arg value s := by
  obtain ⟨text, here, dash, split⟩ := h
  rw [parseOption_dash here dash, split]
  simp only [found]

theorem parseOption_unknown {s : Turn δ} {arg value : List Byte} (h : MeetsOption argv s arg value)
    (unknown : options[findOption options arg]? = none) :
    parseOption strtod options argv s = .ok (.inr (.error (.invalidOption arg), s)) := by
  obtain ⟨text, here, dash, split⟩ := h
  rw [parseOption_dash here dash, split]
  simp only [unknown]

/-- What a pass may meet: the end of the elements or one that is not an option, one that names no option, or
one that names an option. -/
theorem parseOption_cases (strtod : List Byte → δ × Nat × Bool) (options : List (UsageOption δ))
    (argv : List CString) (s : Turn δ) :
    (parseOption strtod options argv s = .ok (.inr (.ok (), s)) ∧ ∀ arg value, ¬MeetsOption argv s arg value) ∨
    ∃ arg value, MeetsOption argv s arg value ∧
      (options[findOption options arg]? = none ∨ ∃ option, options[findOption options arg]? = some option) := by
  cases here : argv[s.i]? with
  | none =>
    refine Or.inl ⟨parseOption_end (List.getElem?_eq_none_iff.mp here), ?_⟩
    rintro arg value ⟨text, found, _⟩
    cases here.symm.trans found
  | some text =>
    by_cases h : text.val.head? = some (ascii '-')
    · refine Or.inr ⟨(splitValue text.val).1, (splitValue text.val).2, ⟨text, here, h, rfl⟩, ?_⟩
      cases options[findOption options (splitValue text.val).1]? with
      | none => exact Or.inl rfl
      | some option => exact Or.inr ⟨option, rfl⟩
    · refine Or.inl ⟨parseOption_positional here h, ?_⟩
      rintro arg value ⟨other, found, dash, _⟩
      cases here.symm.trans found
      exact h dash

/-- Where the options parse, the loop is left as it is entered for the last time. -/
theorem parseOption_leaves {s t : Turn δ} (h : parseOption strtod options argv s = .ok (.inr (.ok (), t))) :
    t = s := by
  rcases parseOption_cases strtod options argv s with ⟨left, _⟩ | ⟨arg, value, meets, unknown | ⟨option, found⟩⟩
  · cases left.symm.trans h
    rfl
  · cases (parseOption_unknown meets unknown).symm.trans h
  · obtain ⟨e, failed⟩ := parseFound_leaves ((parseOption_found meets found).symm.trans h)
    cases failed

/-- A pass that goes on has moved forward, from an element that there is. -/
theorem parseOption_goes {s t : Turn δ} (h : parseOption strtod options argv s = .ok (.inl t)) :
    s.i < argv.length ∧ s.i < t.i := by
  rcases parseOption_cases strtod options argv s with ⟨left, _⟩ | ⟨arg, value, meets, unknown | ⟨option, found⟩⟩
  · cases left.symm.trans h
  · cases (parseOption_unknown meets unknown).symm.trans h
  · have forward := (parseFound_goes ((parseOption_found meets found).symm.trans h)).1
    obtain ⟨text, here, _⟩ := meets
    exact ⟨(List.getElem?_eq_some_iff.mp here).1, forward⟩

theorem parseOption_descends (strtod : List Byte → δ × Nat × Bool) (options : List (UsageOption δ))
    (argv : List CString) :
    Loop.Descends (parseOption strtod options argv) fun s => argv.length - s.i := by
  intro s t h
  obtain ⟨inside, forward⟩ := parseOption_goes h
  show argv.length - t.i < argv.length - s.i
  omega

end Passes

section Parse

variable (strtod : List Byte → δ × Nat × Bool)

/-- The loop over the options, from the pass that begins in `s` on. -/
def parseOptions (options : List (UsageOption δ)) (argv : List CString) (s : Turn δ) :
    Checked (Except UsageError Unit × Turn δ) :=
  Loop.loop (parseOption strtod options argv) _ (parseOption_descends strtod options argv) s

/-- The members as `parse` resets them. -/
def reset (options : List (UsageOption δ)) (errno : Errno) : Turn δ where
  i := 1
  set := List.replicate options.length false
  values := options.map UsageOption.argValue
  errno := errno

/-- `parse(argc, argv)`, with the object and `errno` as it leaves them. -/
def parse (u : Usage δ) (argv : List CString) (errno : Errno) :
    Checked (Except UsageError Nat × Usage δ × Errno) := do
  let (result, s) ← parseOptions strtod u.options argv (reset u.options errno)
  let u := { u with optionSet := s.set, optionValues := s.values, argumentValues := [] }
  match result with
  | .error e => return (.error e, u, s.errno)
  | .ok () =>
    let (result, values) := parseArguments u.arguments u.varargs ((argv.drop s.i).map Subtype.val)
    return (result, { u with argumentValues := values }, s.errno)

end Parse

section Queries

/-- `has(brief)` and `has(extended)`: some option of that name is set. -/
def hasOption (u : Usage δ) (named : UsageOption δ → Bool) : Bool :=
  if u.options.length ≠ u.optionValues.length then false
  else (u.options.zip u.optionSet).any fun entry => named entry.1 && entry.2

def hasBrief (u : Usage δ) (brief : Byte) : Bool := u.hasOption fun option => brief = option.brief

def hasExtended (u : Usage δ) (extended : List Byte) : Bool := u.hasOption fun option => extended = option.extended

/-- `get(brief)` and `get(extended)`, of the first option of that name, before `to<T>`. -/
def getOption (u : Usage δ) (named : UsageOption δ → Bool) : Option (UsageValue δ) :=
  if u.options.length ≠ u.optionValues.length then none
  else ((u.options.zip u.optionValues).find? fun entry => named entry.1).map Prod.snd

def getBrief (u : Usage δ) (brief : Byte) : Option (UsageValue δ) := u.getOption fun option => brief = option.brief

def getExtended (u : Usage δ) (extended : List Byte) : Option (UsageValue δ) :=
  u.getOption fun option => extended = option.extended

/-- `has(argument_index)`. -/
def has (u : Usage δ) (i : Nat) : Bool := i < u.argumentValues.length

/-- `get(index)`. -/
def get (u : Usage δ) (index : Nat) : List Byte := (u.argumentValues[index]?).getD []

end Queries

end Usage

end Hlib
