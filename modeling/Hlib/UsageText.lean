import Hlib.Synopsis
import Hlib.UsageArguments

namespace Hlib

namespace Usage

variable {δ : Type}

def newline : Byte := ascii '\n'

/-- `fill_right`. -/
def fillRight (string : List Byte) (length : Nat) (c : Byte) : List Byte :=
  let length := max string.length length
  string ++ List.replicate (length - string.length) c

/-- The texts of a usage, of its options and of its arguments, which only `toString` reads. -/
structure Descriptions (u : Usage δ) where
  description : List Byte
  options : List (List Byte)
  arguments : List (List Byte)
  options_length : options.length = u.options.length
  arguments_length : arguments.length = u.arguments.length

section Print

/-- A pass of the loop over the arguments: what is written, and `optional`. -/
def synopsisPass (s : List Byte × Nat) (argument : UsageArgument) : List Byte × Nat :=
  if argument.optional then (s.1 ++ literal " [" ++ argument.name, s.2 + 1)
  else (s.1 ++ literal " " ++ argument.name, s.2)

/-- The arguments in the first line of `toString`. -/
def synopsis (u : Usage δ) : List Byte :=
  if u.arguments = [] then []
  else
    let s := u.arguments.foldl synopsisPass ([], 0)
    s.1 ++ (if u.varargs then literal "..." else []) ++ List.replicate s.2 (ascii ']')

/-- The lambda `prefix` of `toString`. -/
def optionNames (option : UsageOption δ) : List Byte :=
  let str := if option.brief ≠ 0 then format (literal "-" ++ [option.brief]) else literal "  "
  let str :=
    if option.extended = [] then str
    else
      str ++ (if option.brief ≠ 0 then literal ", " else literal "  ") ++
        format (literal "--" ++ cString option.extended)
  if option.argName = [] then str else str ++ format (literal "=" ++ cString option.argName)

/-- The greatest length, as the loops of `toString` find it. -/
def widest (names : List (List Byte)) : Nat := names.foldl (fun length name => max name.length length) 0

def row (length : Nat) (entry : List Byte × List Byte) : List Byte :=
  literal "  " ++ fillRight entry.1 (length + 1) (ascii ' ') ++ entry.2 ++ [newline]

/-- The lines for the options, and those for the arguments. -/
def table (title : List Byte) (names descriptions : List (List Byte)) : List Byte :=
  if names = [] then []
  else [newline] ++ title ++ [newline] ++ (names.zip descriptions).flatMap (row (widest names))

/-- `toString(executable)`. -/
def toString (u : Usage δ) (texts : Descriptions u) (executable : List Byte) : List Byte :=
  literal "Usage: " ++ executable ++ (if u.options = [] then [] else literal " [OPTIONS]") ++ synopsis u ++
    [newline] ++
    (if texts.description = [] then []
      else [newline] ++ literal "Description:" ++ [newline] ++ literal "    " ++ texts.description ++ [newline]) ++
    table (literal "Options:") (u.options.map optionNames) texts.options ++
    table (literal "Arguments:") (u.arguments.map UsageArgument.name) texts.arguments

end Print

section Rows

theorem widest_le (names : List (List Byte)) (length : Nat) :
    length ≤ names.foldl (fun length name => max name.length length) length ∧
      ∀ name ∈ names, name.length ≤ names.foldl (fun length name => max name.length length) length := by
  induction names generalizing length with
  | nil => exact ⟨Nat.le_refl _, nofun⟩
  | cons name names ih =>
    obtain ⟨least, others⟩ := ih (max name.length length)
    refine ⟨by rw [List.foldl_cons]; omega, fun other h => ?_⟩
    rw [List.foldl_cons]
    rcases List.mem_cons.mp h with rfl | h
    · omega
    · exact others other h

/-- In every row the description stands in the same column, behind a blank. -/
theorem row_column {names : List (List Byte)} {entry : List Byte × List Byte} (h : entry.1 ∈ names) :
    ∃ blanks, row (widest names) entry =
      literal "  " ++ entry.1 ++ ascii ' ' :: List.replicate blanks (ascii ' ') ++ entry.2 ++ [newline] ∧
        entry.1.length + blanks = widest names := by
  have within : entry.1.length ≤ widest names := (widest_le names 0).2 _ h
  refine ⟨widest names - entry.1.length, ?_, by omega⟩
  unfold row fillRight
  have width : max entry.1.length (widest names + 1) - entry.1.length =
      widest names - entry.1.length + 1 := by omega
  dsimp only
  rw [width, List.replicate_succ]
  simp only [List.append_assoc, List.cons_append]

end Rows

section Agreement

/-- The characters with a meaning in the first line. -/
def marks : Synopsis.Marks Byte where
  space := ascii ' '
  opening := ascii '['
  closing := ascii ']'
  dot := ascii '.'
  distinct := by decide

def listed (arguments : List UsageArgument) : List (List Byte × Bool) :=
  arguments.map fun argument => (argument.name, argument.optional)

/-- The first line of the help text offers `n` arguments behind the options. -/
def Advertised (u : Usage δ) (texts : Descriptions u) (executable : List Byte) (n : Nat) : Prop :=
  ∃ offer, (toString u texts executable).takeWhile (· ≠ newline) =
    literal "Usage: " ++ executable ++ (if u.options = [] then [] else literal " [OPTIONS]") ++ offer ∧
      marks.Offers offer n

/-- `parse` accepts the elements. -/
def Accepts (strtod : List Byte → δ × Nat × Bool) (u : Usage δ) (argv : List CString) (errno : Errno) : Prop :=
  ∃ k u' left, parse strtod u argv errno = .ok (.ok k, u', left)

theorem synopsisPass_text (more : Bool) (arguments : List UsageArgument) (s : List Byte × Nat) :
    (arguments.foldl synopsisPass s).1 ++ (if more then literal "..." else []) ++
        List.replicate (arguments.foldl synopsisPass s).2 (ascii ']') =
      s.1 ++ marks.text more (listed arguments) ++ List.replicate s.2 (ascii ']') := by
  induction arguments generalizing s with
  | nil =>
    cases more with
    | false => rfl
    | true => rfl
  | cons argument arguments ih =>
    rw [List.foldl_cons, ih]
    obtain ⟨name, optional⟩ := argument
    cases optional with
    | false =>
      change s.1 ++ literal " " ++ name ++ marks.text more (listed arguments) ++ List.replicate s.2 (ascii ']') =
        s.1 ++ (ascii ' ' :: (name ++ marks.text more (listed arguments))) ++ List.replicate s.2 (ascii ']')
      simp [literal]
    | true =>
      change s.1 ++ literal " [" ++ name ++ marks.text more (listed arguments) ++
          List.replicate (s.2 + 1) (ascii ']') =
        s.1 ++ (ascii ' ' :: ascii '[' :: (name ++ (marks.text more (listed arguments) ++ [ascii ']']))) ++
          List.replicate s.2 (ascii ']')
      rw [List.replicate_succ]
      simp [literal]

/-- The brackets that are closed at the end are those that were opened. -/
theorem synopsis_text (u : Usage δ) :
    synopsis u = marks.text (u.varargs && decide (u.arguments ≠ [])) (listed u.arguments) := by
  unfold synopsis
  split
  next none =>
    rw [none, decide_eq_false (not_not.mpr rfl), Bool.and_false]
    rfl
  next some =>
    have whole := synopsisPass_text u.varargs u.arguments ([], 0)
    rw [decide_eq_true some, Bool.and_true]
    dsimp only at whole ⊢
    rw [whole]
    exact List.append_nil _

theorem text_lines {arguments : List UsageArgument} (lines : ∀ argument ∈ arguments, newline ∉ argument.name)
    (more : Bool) : newline ∉ marks.text more (listed arguments) := by
  induction arguments with
  | nil => cases more <;> decide
  | cons argument arguments ih =>
    have rest := ih fun argument h => lines argument (List.mem_cons_of_mem _ h)
    have first := lines argument List.mem_cons_self
    obtain ⟨name, optional⟩ := argument
    have marked : newline ≠ marks.space ∧ newline ≠ marks.opening ∧ newline ≠ marks.closing := by decide
    cases optional with
    | false =>
      change newline ∉ marks.space :: (name ++ marks.text more (listed arguments))
      simp only [List.mem_cons, List.mem_append, not_or]
      exact ⟨marked.1, first, rest⟩
    | true =>
      change newline ∉
        marks.space :: marks.opening :: (name ++ (marks.text more (listed arguments) ++ [marks.closing]))
      simp only [List.mem_cons, List.mem_append, List.not_mem_nil, not_or, not_false_eq_true, and_true]
      exact ⟨marked.1, marked.2.1, first, rest, marked.2.2⟩

theorem advertised_iff {u : Usage δ} (texts : Descriptions u) {executable : List Byte} (line : newline ∉ executable)
    (plain : ∀ argument ∈ u.arguments, marks.Plain argument.name ∧ newline ∉ argument.name) (n : Nat) :
    Advertised u texts executable n ↔
      Synopsis.Meant (u.varargs && decide (u.arguments ≠ [])) (listed u.arguments) n := by
  have names : ∀ entry ∈ listed u.arguments, marks.Plain entry.1 := by
    intro entry h
    obtain ⟨argument, given, rfl⟩ := List.mem_map.mp h
    exact (plain argument given).1
  have first : (toString u texts executable).takeWhile (· ≠ newline) =
      literal "Usage: " ++ executable ++ (if u.options = [] then [] else literal " [OPTIONS]") ++ synopsis u := by
    have inside : ∀ c ∈ literal "Usage: " ++ executable ++ (if u.options = [] then [] else literal " [OPTIONS]") ++
        synopsis u, decide (c ≠ newline) = true := by
      intro c hc
      rw [decide_eq_true_eq]
      rintro rfl
      rw [synopsis_text] at hc
      have offer := text_lines (fun argument h => (plain argument h).2) (u.varargs && decide (u.arguments ≠ []))
      simp only [List.mem_append] at hc
      rcases hc with ((hc | hc) | hc) | hc
      · exact absurd hc (by decide)
      · exact line hc
      · split at hc
        · cases hc
        · exact absurd hc (by decide)
      · exact offer hc
    unfold toString
    simp only [List.append_assoc _ _ (table _ _ _), List.append_assoc _ [newline]]
    rw [List.takeWhile_append_of_pos inside, List.singleton_append,
      List.takeWhile_cons_of_neg (by simp), List.append_nil]
  rw [← Synopsis.Marks.offers_text _ names, ← synopsis_text]
  unfold Advertised
  rw [first]
  constructor
  · rintro ⟨offer, same, offers⟩
    rwa [List.append_cancel_left same]
  · exact fun offers => ⟨_, rfl, offers⟩

theorem listed_findIdx (arguments : List UsageArgument) :
    (listed arguments).findIdx Prod.snd = arguments.findIdx UsageArgument.optional := by
  unfold listed
  rw [List.findIdx_map]
  rfl

/-- The numbers of arguments that are meant and accepted, where dots stand only behind an argument. -/
theorem listed_accepted_iff (varargs : Bool) (arguments : List UsageArgument) :
    (∀ n, Synopsis.Meant (varargs && decide (arguments ≠ [])) (listed arguments) n ↔
        Synopsis.Accepted varargs (listed arguments) n) ↔
      (∀ argument ∈ arguments.drop (arguments.findIdx UsageArgument.optional), argument.optional = true) ∧
        (arguments = [] → varargs = false) := by
  by_cases none : arguments = []
  · subst none
    constructor
    · intro same
      refine ⟨fun argument h => absurd h List.not_mem_nil, fun _ => ?_⟩
      by_contra more
      have all := (same 1).mpr ⟨Nat.zero_le _, Or.inr (eq_true_of_ne_false more)⟩
      rw [decide_eq_false (not_not.mpr rfl), Bool.and_false] at all
      rcases all with zero | more
      · cases zero
      · cases more
    · rintro ⟨_, more⟩
      rw [more rfl]
      exact (Synopsis.meant_accepted_iff false (listed [])).mpr fun argument h => absurd h List.not_mem_nil
  · rw [decide_eq_true none, Bool.and_true, Synopsis.meant_accepted_iff, listed_findIdx]
    unfold listed
    rw [← List.map_drop]
    constructor
    · exact fun all => ⟨fun argument h => all _ (List.mem_map_of_mem h), fun empty => absurd empty none⟩
    · rintro ⟨all, _⟩ entry h
      obtain ⟨argument, given, rfl⟩ := List.mem_map.mp h
      exact all argument given

theorem accepts_iff {strtod : List Byte → δ × Nat × Bool} {u : Usage δ} {argv : List CString} {errno : Errno}
    {s : Turn δ} (parsed : parseOptions strtod u.options argv (reset u.options errno) = .ok (.ok (), s)) :
    Accepts strtod u argv errno ↔
      Synopsis.Accepted u.varargs (listed u.arguments) (positional argv s).length := by
  have rule := (parseArguments_rule u.arguments u.varargs (positional argv s)).1
  unfold Synopsis.Accepted
  rw [listed_findIdx, show (listed u.arguments).length = u.arguments.length from List.length_map _, ← rule]
  unfold Accepts
  rw [parse_of_options parsed]
  constructor
  · rintro ⟨k, _, _, same⟩
    exact ⟨k, congrArg Prod.fst (Except.ok.inj same)⟩
  · rintro ⟨k, ok⟩
    rw [ok]
    exact ⟨k, _, _, rfl⟩

/-- Any number of elements may follow, without options before them. -/
theorem plain_elements (strtod : List Byte → δ × Nat × Bool) (u : Usage δ) (errno : Errno) (n : Nat) :
    ∃ argv s, parseOptions strtod u.options argv (reset u.options errno) = .ok (.ok (), s) ∧
      (positional argv s).length = n := by
  have element : (0 : Byte) ∉ [ascii 'x'] := by decide
  refine ⟨List.replicate (n + 1) ⟨[ascii 'x'], element⟩, reset u.options errno, Loop.loop_leaves ?_, ?_⟩
  · cases n with
    | zero => exact parseOption_end (Nat.le_refl _)
    | succ n =>
      have here : (List.replicate (n + 1 + 1) (⟨[ascii 'x'], element⟩ : CString))[1]? =
          some ⟨[ascii 'x'], element⟩ := rfl
      have plain : [ascii 'x'].head? ≠ some (ascii '-') := by decide
      exact parseOption_positional here plain
  · unfold positional
    rw [List.length_map, List.length_drop, List.length_replicate]
    exact Nat.add_sub_cancel n 1

/-- The help text and `parse` agree if every argument behind an optional one is optional, and no more arguments
than none are accepted where none are named. -/
theorem help_agrees_iff (strtod : List Byte → δ × Nat × Bool) (u : Usage δ) (texts : Descriptions u)
    (executable : List Byte) (line : newline ∉ executable)
    (plain : ∀ argument ∈ u.arguments, marks.Plain argument.name ∧ newline ∉ argument.name) :
    (∀ argv errno s, parseOptions strtod u.options argv (reset u.options errno) = .ok (.ok (), s) →
        (Accepts strtod u argv errno ↔ Advertised u texts executable (positional argv s).length)) ↔
      (∀ argument ∈ u.arguments.drop (u.arguments.findIdx UsageArgument.optional), argument.optional = true) ∧
        (u.arguments = [] → u.varargs = false) := by
  rw [← listed_accepted_iff]
  constructor
  · intro same n
    obtain ⟨argv, s, parsed, rfl⟩ := plain_elements strtod u 0 n
    rw [← advertised_iff texts line plain, ← same argv 0 s parsed, accepts_iff parsed]
  · intro same argv errno s parsed
    rw [advertised_iff texts line plain, same, accepts_iff parsed]

/-- `copy source [target...]`. -/
def copyUsage : Usage Nat where
  arguments := [⟨literal "source", false⟩, ⟨literal "target", true⟩]
  varargs := true

def copyTexts : Descriptions copyUsage where
  description := literal "Copies files."
  options := []
  arguments := [literal "What is copied.", literal "Where to."]
  options_length := rfl
  arguments_length := rfl

def copyAlone : List CString := [⟨literal "copy", by decide⟩]

theorem help_agrees_copy : ¬Advertised copyUsage copyTexts (literal "copy") 0 := by
  intro advertised
  have parsed : parseOptions (fun _ => (0, 0, false)) copyUsage.options copyAlone (reset copyUsage.options 0) =
      .ok (.ok (), reset copyUsage.options 0) := Loop.loop_leaves (parseOption_end (Nat.le_refl _))
  have agrees := (help_agrees_iff (fun _ => (0, 0, false)) copyUsage copyTexts (literal "copy") (by decide)
    (by decide)).mpr (by decide) copyAlone 0 _ parsed
  obtain ⟨k, u', left, accepted⟩ := agrees.mpr advertised
  rw [parse_of_options parsed] at accepted
  cases accepted

end Agreement

end Usage

end Hlib
