import Hlib.CpuMonitor

namespace Hlib.CpuMonitor

open StringTo

variable {m m' : CpuMonitor} {line content : List Byte} {s : Statistics}

section Evaluation

variable {α β : Type}

theorem evaluated_bind {x : Evaluated α} {f : α → Evaluated β} {b : β} (h : x >>= f = .ok b) :
    ∃ a, x = .ok a ∧ f a = .ok b := by
  cases x with
  | error stop => cases h
  | ok a => exact ⟨a, rfl, h⟩

theorem evaluated_ok (a : α) (f : α → Evaluated β) : (Except.ok a >>= f) = f a := rfl

theorem lift_require_iff {c : Prop} [Decidable c] {fault : Fault} : lift (require c fault) = .ok () ↔ c := by
  unfold require
  split
  next holds => exact iff_of_true rfl holds
  next fails => exact iff_of_false nofun fails

theorem int64T_ok_iff {n v : Int} : int64T n = .ok v ↔ int64 n = some v := by
  unfold int64T
  cases int64 n with
  | none => exact iff_of_false nofun nofun
  | some other => rw [Except.ok.injEq, Option.some.injEq]

theorem index_ok_iff {vector : List α} {i : Nat} {element : α} :
    index vector i = .ok element ↔ vector[i]? = some element := by
  unfold index
  cases vector[i]? with
  | none => exact iff_of_false nofun nofun
  | some other => rw [Except.ok.injEq, Option.some.injEq]

theorem assign_ok {vector : List α} {i : Nat} (within : i < vector.length) (element : α) :
    assign vector i element = .ok (vector.set i element) := if_pos within

end Evaluation

section Parse

/-- What `string_to` makes of a text that is not empty: the decimal number in front of the first zero, or 0 where
nothing stands there. -/
def Holds (text : List Byte) (number : Int) : Prop :=
  cString text = [] ∧ number = 0 ∨ Denotes (cString text) number ∧ SignedRange .eight number

theorem holds_iff {text : List Byte} (given : text ≠ []) {number : Int} :
    (signedOrThrow Libc.strtol Libc.strtoll .eight text 10 0).1 = .ok number ↔ Holds text number := by
  rw [(signed_agrees Libc.strtol Libc.strtoll .eight text 10 0).value number]
  by_cases front : cString text = []
  · have undenoted : ¬Denotes (cString text) number := by
      rw [front]
      intro denotes
      cases denotes with
      | plain decimal => exact decimal.1 rfl
    rw [signed_zero given front, Option.some.injEq, Holds, or_iff_left fun h => undenoted h.1, eq_comm]
    exact (and_iff_right front).symm
  · rw [signed_cString front, signed_some_iff (zero_not_mem_cString text), Holds, or_iff_right fun h => front h.1]

/-- These numbers stand in the columns from the `i`th. -/
def Columns (columns : List (List Byte)) : Nat → List Int → Prop
  | _, [] => True
  | i, number :: numbers => (∃ text, columns[i]? = some text ∧ Holds text number) ∧ Columns columns (i + 1) numbers

/-- `total += result.value()`. -/
def accumulate (total number : Int) : Option Int := int64 (total + number)

theorem parseNumber_ok_iff {columns : List (List Byte)} (given : ∀ text ∈ columns, text ≠ []) {i : Nat}
    {before number after : Int} :
    parseNumber columns i before = .ok (number, after) ↔
      (∃ text, columns[i]? = some text ∧ Holds text number) ∧ accumulate before number = some after := by
  constructor
  · intro h
    obtain ⟨text, at_i, h⟩ := evaluated_bind h
    rw [index_ok_iff] at at_i
    split at h
    next => cases h
    next number' converted =>
      obtain ⟨total, sum, h⟩ := evaluated_bind h
      cases h
      exact ⟨⟨text, at_i, (holds_iff (given text (List.mem_of_getElem? at_i))).mp converted⟩, int64T_ok_iff.mp sum⟩
  · rintro ⟨⟨text, at_i, holds⟩, sum⟩
    have converted := (holds_iff (given text (List.mem_of_getElem? at_i))).mpr holds
    rw [parseNumber, index_ok_iff.mpr at_i, evaluated_ok, converted]
    dsimp only
    rw [int64T_ok_iff.mpr sum, evaluated_ok]

def numbers (s : Statistics) : List Int :=
  [s.user, s.nice, s.system, s.idle, s.iowait, s.irq, s.softirq, s.steal, s.guestNice]

/-- Behind its first column a line holds these numbers, whose total does not overflow at any of them. -/
structure Shows (line : List Byte) (s : Statistics) : Prop where
  columns : Columns (splitDelimiter line (ascii ' ') true) 1 (numbers s)
  total : (numbers s).foldlM accumulate 0 = some s.total

theorem splitDelimiter_given {string : List Byte} {delimiter : Byte} :
    ∀ text ∈ splitDelimiter string delimiter true, text ≠ [] := by
  intro text member
  rw [splitDelimiter, split_eq] at member
  split at member
  next => cases member
  next =>
    have kept : keeps true text = true := List.of_mem_filter member
    exact (of_decide_eq_true kept).resolve_right Bool.true_eq_false.mp

theorem parse_ok_iff : parse line = .ok s ↔ Shows line s := by
  have column {i : Nat} {before number after : Int} :=
    @parseNumber_ok_iff (splitDelimiter line (ascii ' ') true) splitDelimiter_given i before number after
  constructor
  · intro h
    obtain ⟨⟨user, t₁⟩, h₁, h⟩ := evaluated_bind h
    obtain ⟨⟨nice, t₂⟩, h₂, h⟩ := evaluated_bind h
    obtain ⟨⟨system, t₃⟩, h₃, h⟩ := evaluated_bind h
    obtain ⟨⟨idle, t₄⟩, h₄, h⟩ := evaluated_bind h
    obtain ⟨⟨iowait, t₅⟩, h₅, h⟩ := evaluated_bind h
    obtain ⟨⟨irq, t₆⟩, h₆, h⟩ := evaluated_bind h
    obtain ⟨⟨softirq, t₇⟩, h₇, h⟩ := evaluated_bind h
    obtain ⟨⟨steal, t₈⟩, h₈, h⟩ := evaluated_bind h
    obtain ⟨⟨guestNice, t₉⟩, h₉, h⟩ := evaluated_bind h
    cases h
    obtain ⟨c₁, s₁⟩ := column.mp h₁
    obtain ⟨c₂, s₂⟩ := column.mp h₂
    obtain ⟨c₃, s₃⟩ := column.mp h₃
    obtain ⟨c₄, s₄⟩ := column.mp h₄
    obtain ⟨c₅, s₅⟩ := column.mp h₅
    obtain ⟨c₆, s₆⟩ := column.mp h₆
    obtain ⟨c₇, s₇⟩ := column.mp h₇
    obtain ⟨c₈, s₈⟩ := column.mp h₈
    obtain ⟨c₉, s₉⟩ := column.mp h₉
    refine ⟨⟨c₁, c₂, c₃, c₄, c₅, c₆, c₇, c₈, c₉, trivial⟩, ?_⟩
    simp only [numbers, List.foldlM_cons, List.foldlM_nil, s₁, s₂, s₃, s₄, s₅, s₆, s₇, s₈, s₉,
      Option.bind_eq_bind, Option.bind_some, Option.pure_def]
  · rintro ⟨⟨c₁, c₂, c₃, c₄, c₅, c₆, c₇, c₈, c₉, _⟩, total⟩
    simp only [numbers, List.foldlM_cons, List.foldlM_nil, Option.bind_eq_bind, Option.bind_eq_some_iff,
      Option.pure_def, Option.some.injEq] at total
    obtain ⟨t₁, s₁, t₂, s₂, t₃, s₃, t₄, s₄, t₅, s₅, t₆, s₆, t₇, s₇, t₈, s₈, t₉, s₉, rfl⟩ := total
    rw [parse, column.mpr ⟨c₁, s₁⟩, evaluated_ok]
    dsimp only
    rw [column.mpr ⟨c₂, s₂⟩, evaluated_ok]
    dsimp only
    rw [column.mpr ⟨c₃, s₃⟩, evaluated_ok]
    dsimp only
    rw [column.mpr ⟨c₄, s₄⟩, evaluated_ok]
    dsimp only
    rw [column.mpr ⟨c₅, s₅⟩, evaluated_ok]
    dsimp only
    rw [column.mpr ⟨c₆, s₆⟩, evaluated_ok]
    dsimp only
    rw [column.mpr ⟨c₇, s₇⟩, evaluated_ok]
    dsimp only
    rw [column.mpr ⟨c₈, s₈⟩, evaluated_ok]
    dsimp only
    rw [column.mpr ⟨c₉, s₉⟩, evaluated_ok]

end Parse

section Update

/-- What `split(file, '\n')` gives. -/
def fileLines (content : List Byte) : List (List Byte) := splitDelimiter content (ascii '\n') false

/-- The line at a position shows these statistics. -/
def LineShows (content : List Byte) (i : Nat) (s : Statistics) : Prop :=
  ∃ line, (fileLines content)[i]? = some line ∧ Shows line s

/-- The statistics of all processors, and of each of them. -/
structure Table where
  total : Statistics
  cpus : List Statistics
  deriving DecidableEq, Repr

/-- A file with a line for all processors and one for each of so many. -/
structure Lists (content : List Byte) (count : Nat) (table : Table) : Prop where
  total : LineShows content 0 table.total
  length : table.cpus.length = count
  cpus : ∀ cpu s, table.cpus[cpu]? = some s → LineShows content (cpu + 1) s

/-- The vectors are as long as there are processors. -/
structure Fitted (m : CpuMonitor) : Prop where
  previous : m.cpuPrevious.length = m.count
  current : m.cpuCurrent.length = m.count

def shift (m : CpuMonitor) (table : Table) : CpuMonitor :=
  { m with
    totalPrevious := m.totalCurrent
    totalCurrent := table.total
    cpuPrevious := m.cpuCurrent
    cpuCurrent := table.cpus }

theorem set_behind {front vector : List Statistics} {k : Nat} (length : front.length = k)
    (inside : k < vector.length) (x : Statistics) :
    (front ++ vector.drop k).set k x = front ++ [x] ++ vector.drop (k + 1) := by
  subst length
  rw [List.set_append_right _ _ (Nat.le_refl _), Nat.sub_self, List.drop_eq_getElem_cons inside, List.set_cons_zero,
    List.append_assoc]
  rfl

theorem parse_line_iff {i : Nat} :
    (∃ line, index (fileLines content) i = .ok line ∧ parse line = .ok s) ↔ LineShows content i s :=
  exists_congr fun _ => and_congr index_ok_iff parse_ok_iff

/-- The first passes of the loop. -/
def passed (m : CpuMonitor) (cpus : List Statistics) : CpuMonitor :=
  { m with
    cpuPrevious := m.cpuCurrent.take cpus.length ++ m.cpuPrevious.drop cpus.length
    cpuCurrent := cpus ++ m.cpuCurrent.drop cpus.length }

theorem updateCpu_ok_iff (fitted : Fitted m) {cpus : List Statistics} (bound : cpus.length < m.count) :
    updateCpu (fileLines content) (passed m cpus) cpus.length = .ok m' ↔
      ∃ s, LineShows content (cpus.length + 1) s ∧ m' = passed m (cpus ++ [s]) := by
  have within : cpus.length < m.cpuCurrent.length := by rw [fitted.current]; exact bound
  have within' : cpus.length < m.cpuPrevious.length := by rw [fitted.previous]; exact bound
  have found : (passed m cpus).cpuCurrent[cpus.length]? = some m.cpuCurrent[cpus.length] := by
    rw [passed, List.getElem?_append_right (Nat.le_refl _), Nat.sub_self, List.getElem?_drop, Nat.add_zero,
      List.getElem?_eq_getElem within]
  have front : (m.cpuCurrent.take cpus.length).length = cpus.length := by
    rw [List.length_take]
    exact Nat.min_eq_left (Nat.le_of_lt within)
  have moved : assign (passed m cpus).cpuPrevious cpus.length m.cpuCurrent[cpus.length] =
      .ok (m.cpuCurrent.take (cpus.length + 1) ++ m.cpuPrevious.drop (cpus.length + 1)) := by
    rw [assign_ok]
    · rw [passed, set_behind front within' m.cpuCurrent[cpus.length], List.take_add_one,
        List.getElem?_eq_getElem within]
      rfl
    · rw [passed, List.length_append, front, List.length_drop]
      omega
  have stored (s : Statistics) : assign (passed m cpus).cpuCurrent cpus.length s =
      .ok (cpus ++ [s] ++ m.cpuCurrent.drop (cpus.length + 1)) := by
    rw [assign_ok]
    · rw [passed, set_behind rfl within s]
    · rw [passed, List.length_append, List.length_drop]
      omega
  have after (s : Statistics) : ({ passed m cpus with
      cpuPrevious := m.cpuCurrent.take (cpus.length + 1) ++ m.cpuPrevious.drop (cpus.length + 1)
      cpuCurrent := cpus ++ [s] ++ m.cpuCurrent.drop (cpus.length + 1) } : CpuMonitor) =
      passed m (cpus ++ [s]) := by
    rw [passed, passed, List.length_append, List.length_singleton]
  rw [updateCpu, index_ok_iff.mpr found, evaluated_ok, moved, evaluated_ok]
  constructor
  · intro h
    obtain ⟨line, hl, h⟩ := evaluated_bind h
    obtain ⟨s, hp, h⟩ := evaluated_bind h
    rw [stored, evaluated_ok] at h
    cases h
    exact ⟨s, parse_line_iff.mp ⟨line, hl, hp⟩, after s⟩
  · rintro ⟨s, shows_, rfl⟩
    obtain ⟨line, hl, hp⟩ := parse_line_iff.mpr shows_
    rw [hl, evaluated_ok, hp, evaluated_ok, stored, evaluated_ok, after]

/-- The loop, after so many passes. -/
theorem updateCpus_ok_iff (fitted : Fitted m) {k : Nat} (bound : k ≤ m.count) :
    (List.range k).foldlM (updateCpu (fileLines content)) m = .ok m' ↔
      ∃ cpus : List Statistics, cpus.length = k ∧
        (∀ cpu s, cpus[cpu]? = some s → LineShows content (cpu + 1) s) ∧ m' = passed m cpus := by
  induction k generalizing m' with
  | zero =>
    have unchanged : passed m [] = m := rfl
    constructor
    · intro h
      cases h
      exact ⟨[], rfl, nofun, unchanged.symm⟩
    · rintro ⟨cpus, length, _, rfl⟩
      rw [List.eq_nil_of_length_eq_zero length, unchanged]
      rfl
  | succ k ih =>
    have earlier : k ≤ m.count := Nat.le_of_lt bound
    rw [List.range_succ, List.foldlM_append]
    constructor
    · intro h
      obtain ⟨m'', front, h⟩ := evaluated_bind h
      obtain ⟨cpus, rfl, shown, rfl⟩ := (ih earlier).mp front
      rw [List.foldlM_cons] at h
      obtain ⟨m₃, step, h⟩ := evaluated_bind h
      cases h
      obtain ⟨s, shows_, rfl⟩ := (updateCpu_ok_iff fitted bound).mp step
      refine ⟨cpus ++ [s], List.length_append, fun cpu t at_cpu => ?_, rfl⟩
      by_cases inside : cpu < cpus.length
      · rw [List.getElem?_append_left inside] at at_cpu
        exact shown cpu t at_cpu
      · have last : cpu = cpus.length := by
          have := (List.getElem?_eq_some_iff.mp at_cpu).1
          rw [List.length_append, List.length_singleton] at this
          omega
        subst last
        rw [List.getElem?_concat_length] at at_cpu
        cases at_cpu
        exact shows_
    · rintro ⟨cpus, length, shown, rfl⟩
      obtain ⟨front, s, rfl⟩ := (List.eq_nil_or_concat' cpus).resolve_left (by rintro rfl; cases length)
      rw [List.length_append, List.length_singleton, Nat.add_right_cancel_iff] at length
      subst length
      have before := (ih earlier).mpr ⟨front, rfl, fun cpu t at_cpu => ?_, rfl⟩
      · rw [before, evaluated_ok, List.foldlM_cons,
          (updateCpu_ok_iff fitted bound).mpr ⟨s, shown front.length s List.getElem?_concat_length, rfl⟩]
        rfl
      · refine shown cpu t ?_
        rw [List.getElem?_append_left (List.getElem?_eq_some_iff.mp at_cpu).1]
        exact at_cpu

/-- A file that lists the processors makes the statistics the previous ones, and its own the current ones. No
other content is read. -/
theorem update_content_iff {ε : Type} (fitted : Fitted m) {r : Except ε Unit} :
    update (.ok content) m = .ok (r, m') ↔
      r = .ok () ∧ ∃ table, Lists content m.count table ∧ m' = shift m table := by
  have whole {cpus : List Statistics} (total : Statistics) (length : cpus.length = m.count) :
      passed { m with totalPrevious := m.totalCurrent, totalCurrent := total } cpus = shift m ⟨total, cpus⟩ := by
    have previous := fitted.previous
    have current := fitted.current
    rw [passed, shift, length, ← current, List.take_length, List.drop_length, List.append_nil, current, ← previous,
      List.drop_length, List.append_nil]
  have fitted' (total : Statistics) :
      Fitted { m with totalPrevious := m.totalCurrent, totalCurrent := total } := ⟨fitted.previous, fitted.current⟩
  have enough {table : Table} (listed : Lists content m.count table) :
      m.count + 1 ≤ (fileLines content).length := by
    by_cases none_ : m.count = 0
    · obtain ⟨line, first, _⟩ := listed.total
      have := (List.getElem?_eq_some_iff.mp first).1
      omega
    · have last : m.count - 1 < table.cpus.length := by rw [listed.length]; omega
      obtain ⟨line, at_last, _⟩ := listed.cpus _ _ (List.getElem?_eq_getElem last)
      have := (List.getElem?_eq_some_iff.mp at_last).1
      omega
  constructor
  · intro h
    obtain ⟨_, _, h⟩ := evaluated_bind h
    obtain ⟨line, first, h⟩ := evaluated_bind h
    obtain ⟨total, parsed, h⟩ := evaluated_bind h
    obtain ⟨m'', loop, h⟩ := evaluated_bind h
    cases h
    obtain ⟨cpus, length, shown, rfl⟩ := (updateCpus_ok_iff (fitted' total) (Nat.le_refl _)).mp loop
    exact ⟨rfl, ⟨total, cpus⟩, ⟨parse_line_iff.mp ⟨line, first, parsed⟩, length, shown⟩, whole total length⟩
  · rintro ⟨rfl, table, listed, rfl⟩
    obtain ⟨line, first, parsed⟩ := parse_line_iff.mpr listed.total
    have loop := (updateCpus_ok_iff (fitted' table.total) (Nat.le_refl _)).mpr
      ⟨table.cpus, listed.length, listed.cpus, rfl⟩
    have required : lift (require ((fileLines content).length ≥ m.count + 1) .assertion) = .ok () :=
      lift_require_iff.mpr (enough listed)
    rw [whole table.total listed.length] at loop
    change (do
      lift (require ((fileLines content).length ≥ m.count + 1) .assertion)
      let line ← index (fileLines content) 0
      let total ← parse line
      let m ← (List.range m.count).foldlM (updateCpu (fileLines content))
        { m with totalPrevious := m.totalCurrent, totalCurrent := total }
      .ok (.ok (), m) : Evaluated (Except ε Unit × CpuMonitor)) = _
    rw [required, evaluated_ok, first, evaluated_ok, parsed, evaluated_ok, loop, evaluated_ok]

end Update

end Hlib.CpuMonitor
