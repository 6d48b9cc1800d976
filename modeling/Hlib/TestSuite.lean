import Hlib.StringNumber
import Hlib.StringSplit
import Mathlib.Data.List.DropRight
import Mathlib.Logic.Function.Basic

namespace Hlib

namespace TestSuite

/-- The characters that `trim` removes. -/
def blanks : List Byte := [ascii ' ', ascii '\t', 11, 12, ascii '\r', ascii '\n']

def trimLeft (string : List Byte) : List Byte := string.dropWhile blanks.contains

def trimRight (string : List Byte) : List Byte := string.rdropWhile blanks.contains

def trim (string : List Byte) : List Byte := trimRight (trimLeft string)

/-- `container::for_each` with a function that works on an element in place; what the function returns is
dropped. -/
def forEach {α β : Type} (container : List α) (function : α → α × β) : List α :=
  container.map fun value => (function value).1

/-- `parse_tags`; the lambda returns what `trim` makes of its argument and leaves the argument as it is. -/
def parseTags (tags : List Byte) : List (List Byte) :=
  forEach (splitDelimiter tags (ascii ',') false) fun tag => (tag, trim tag)

/-- A case by the tag list that it was registered with. -/
structure Case where
  tagList : List Byte

def Case.tags (c : Case) : List (List Byte) := parseTags c.tagList

/-- One execution of the function of a case: how many assertions it comes to, and whether it returns. -/
structure Execution where
  assertions : Nat
  passes : Bool

/-- Each of type `std::uint32_t`. -/
structure Statistics where
  cases : Nat := 0
  casesFailed : Nat := 0
  assertions : Nat := 0
  assertionsFailed : Nat := 0

/-- The suite while it runs, with the executions so far and whether they returned. -/
structure Suite where
  statistics : Statistics := {}
  currentTag : List Byte := []
  currentCase : Option Nat := none
  assessed : Nat → Bool := fun _ => false
  executed : List (Nat × Bool) := []

namespace Suite

/-- What each case does in its first, second and further executions. -/
abbrev Executions := Nat → Nat → Execution

variable (behaviour : Executions)

def times (s : Suite) (i : Nat) : Nat := (s.executed.map Prod.fst).count i

/-- `Suite::run(std::string, Case*)`, by the position of the case. -/
def runCase (s : Suite) (tag : List Byte) (i : Nat) : Suite :=
  let execution := behaviour i (s.times i)
  let s := { s with
    statistics := { s.statistics with
      cases := (s.statistics.cases + 1) % 2 ^ 32
      assertions := (s.statistics.assertions + execution.assertions) % 2 ^ 32 }
    currentTag := tag
    currentCase := some i
    executed := s.executed ++ [(i, execution.passes)] }
  if execution.passes then { s with assessed := Function.update s.assessed i true, currentCase := none }
  else { s with
    statistics := { s.statistics with
      assertionsFailed := (s.statistics.assertionsFailed + 1) % 2 ^ 32
      casesFailed := (s.statistics.casesFailed + 1) % 2 ^ 32 } }

/-- The body of the inner loop. -/
def visitTag (c : Case) (i : Nat) (s : Suite) (tag : List Byte) : Suite :=
  if s.assessed i = false ∧ tag ∈ c.tags then s.runCase behaviour tag i else s

/-- The outer loop, from a position on. -/
def visitCases (visit : Case → Nat → Suite → Suite) : List Case → Nat → Suite → Suite
  | [], _, s => s
  | c :: cases, i, s => visitCases visit cases (i + 1) (visit c i s)

/-- What an earlier run left behind is cleared, the history included. -/
def reset (s : Suite) : Suite :=
  { s with statistics := {}, currentTag := [], currentCase := none, assessed := fun _ => false, executed := [] }

/-- `Suite::run(std::vector<std::string> const&)` for the registered cases. -/
def run (s : Suite) (cases : List Case) (requested : List (List Byte)) : Suite :=
  if requested = [] then visitCases (fun _ i s => s.runCase behaviour [ascii '*'] i) cases 0 s.reset
  else visitCases (fun c i s => requested.foldl (visitTag behaviour c i) s) cases 0 s.reset

end Suite

open Suite

/-- The tags of a case, without the blanks around them. -/
def Case.intended (c : Case) : List (List Byte) := (splitDelimiter c.tagList (ascii ',') false).map trim

/-- The case has a requested tag, or none is requested. -/
def Selected (requested : List (List Byte)) (c : Case) : Prop := requested = [] ∨ ∃ tag ∈ requested, tag ∈ c.intended

instance (requested : List (List Byte)) (c : Case) : Decidable (Selected requested c) :=
  inferInstanceAs (Decidable (_ ∨ _))

/-- Each selected case has been executed once and no other at all, and the statistics say so. -/
structure RunsOnce (cases : List Case) (requested : List (List Byte)) (s : Suite) : Prop where
  once : ∀ i c, cases[i]? = some c → s.times i = if Selected requested c then 1 else 0
  others : ∀ entry ∈ s.executed, entry.1 < cases.length
  counted : s.statistics.cases = cases.countP (Selected requested ·)
  failed : s.statistics.casesFailed =
    cases.zipIdx.countP fun entry => Selected requested entry.1 ∧ (entry.2, false) ∈ s.executed

/-- How many of the requested tags meet a case by the tags it is registered with. -/
def entries (requested : List (List Byte)) (c : Case) : Nat :=
  if requested = [] then 1 else requested.countP (· ∈ c.tags)

/-- Each selected case is met once, or else it passes at the first execution; no other is met. -/
structure Orderly (behaviour : Executions) (cases : List Case) (requested : List (List Byte)) : Prop where
  selected : ∀ i c, cases[i]? = some c → Selected requested c →
    entries requested c = 1 ∨ 0 < entries requested c ∧ (behaviour i 0).passes = true
  others : ∀ c ∈ cases, ¬Selected requested c → entries requested c = 0
  count : cases.countP (Selected requested ·) < 2 ^ 32

section Trail

variable (behaviour : Executions) (i : Nat)

/-- The executions of a case that is met a number of times: they end with the first that passes. -/
def trail : Nat → Nat → List (Nat × Bool)
  | _, 0 => []
  | n, entries + 1 =>
    if (behaviour i n).passes then [(i, true)] else (i, false) :: trail (n + 1) entries

theorem trail_case {n entries : Nat} {entry : Nat × Bool} (h : entry ∈ trail behaviour i n entries) : entry.1 = i := by
  induction entries generalizing n with
  | zero => cases h
  | succ entries ih =>
    rw [trail] at h
    split at h
    next => cases List.mem_singleton.mp h; rfl
    next =>
      rcases List.mem_cons.mp h with rfl | later
      · rfl
      · exact ih later

theorem trail_empty {n entries : Nat} : trail behaviour i n entries = [] ↔ entries = 0 := by
  cases entries with
  | zero => exact iff_of_true rfl rfl
  | succ entries =>
    rw [trail]
    split <;> simp

theorem trail_one {entries : Nat} :
    (trail behaviour i 0 entries).length = 1 ↔ entries = 1 ∨ 0 < entries ∧ (behaviour i 0).passes = true := by
  cases entries with
  | zero => simp [trail]
  | succ entries =>
    rw [trail]
    split
    next passes => simp [passes]
    next fails =>
      rw [List.length_cons, Nat.add_eq_right, List.length_eq_zero_iff, trail_empty]
      simp [fails]

theorem trail_once {entries : Nat} (once : (trail behaviour i 0 entries).length = 1) :
    trail behaviour i 0 entries = [(i, (behaviour i 0).passes)] := by
  cases entries with
  | zero => cases once
  | succ entries =>
    rw [trail] at once ⊢
    split
    next passes => rw [passes]
    next fails =>
      rw [if_neg fails, List.length_cons, Nat.add_eq_right, List.length_eq_zero_iff] at once
      rw [once, eq_false_of_ne_true fails]

/-- The executions of all cases from a position on. -/
def trails (requested : List (List Byte)) : List Case → Nat → List (Nat × Bool)
  | [], _ => []
  | c :: cases, i => trail behaviour i 0 (entries requested c) ++ trails requested cases (i + 1)

variable {requested : List (List Byte)} {cases : List Case}

theorem trails_from {i : Nat} {entry : Nat × Bool} (h : entry ∈ trails behaviour requested cases i) :
    ∃ k c, cases[k]? = some c ∧ entry.1 = i + k ∧ entry ∈ trail behaviour (i + k) 0 (entries requested c) := by
  induction cases generalizing i with
  | nil => cases h
  | cons c cases ih =>
    rcases List.mem_append.mp h with own | later
    · exact ⟨0, c, rfl, trail_case behaviour i own, own⟩
    · obtain ⟨k, d, at_, position, member⟩ := ih later
      have shifted : i + 1 + k = i + (k + 1) := by omega
      rw [shifted] at position member
      exact ⟨k + 1, d, at_, position, member⟩

theorem trails_mem {i k : Nat} {c : Case} (h : cases[k]? = some c) {entry : Nat × Bool}
    (member : entry ∈ trail behaviour (i + k) 0 (entries requested c)) :
    entry ∈ trails behaviour requested cases i := by
  induction cases generalizing i k with
  | nil => cases h
  | cons d cases ih =>
    cases k with
    | zero =>
      cases h
      exact List.mem_append_left _ member
    | succ k =>
      have shifted : i + (k + 1) = i + 1 + k := by omega
      rw [shifted] at member
      exact List.mem_append_right _ (ih h member)

/-- A case occurs among the executions as often as in its own trail. -/
theorem trails_count {i k : Nat} {c : Case} (h : cases[k]? = some c) :
    ((trails behaviour requested cases i).map Prod.fst).count (i + k) =
      (trail behaviour (i + k) 0 (entries requested c)).length := by
  induction cases generalizing i k with
  | nil => cases h
  | cons d cases ih =>
    rw [trails, List.map_append, List.count_append]
    cases k with
    | zero =>
      cases h
      have absent : i + 0 ∉ (trails behaviour requested cases (i + 1)).map Prod.fst := by
        intro member
        obtain ⟨entry, inside, same⟩ := List.mem_map.mp member
        obtain ⟨k, _, _, position, _⟩ := trails_from behaviour inside
        omega
      have own : ∀ j ∈ (trail behaviour i 0 (entries requested c)).map Prod.fst, i + 0 = j := by
        intro j member
        obtain ⟨entry, inside, rfl⟩ := List.mem_map.mp member
        exact (trail_case behaviour i inside).symm
      rw [List.count_eq_zero_of_not_mem absent, List.count_eq_length.mpr own, List.length_map]
      rfl
    | succ k =>
      have absent : i + (k + 1) ∉ (trail behaviour i 0 (entries requested d)).map Prod.fst := by
        intro member
        obtain ⟨entry, inside, same⟩ := List.mem_map.mp member
        have own := trail_case behaviour i inside
        omega
      have shifted : i + (k + 1) = i + 1 + k := by omega
      rw [List.count_eq_zero_of_not_mem absent, Nat.zero_add, shifted]
      exact ih h

/-- If every selected case is executed once and no other, the counts are those of the selected cases. -/
theorem trails_counts (i : Nat) (single : ∀ k c, cases[k]? = some c →
      trail behaviour (i + k) 0 (entries requested c) =
        if Selected requested c then [(i + k, (behaviour (i + k) 0).passes)] else []) :
    (trails behaviour requested cases i).length = cases.countP (Selected requested ·) ∧
      (trails behaviour requested cases i).countP (fun entry => entry.2 = false) =
        (cases.zipIdx i).countP fun entry =>
          Selected requested entry.1 ∧ (behaviour entry.2 0).passes = false := by
  induction cases generalizing i with
  | nil => exact ⟨rfl, rfl⟩
  | cons c cases ih =>
    have own := single 0 c rfl
    obtain ⟨length, failing⟩ := ih (i + 1) fun k d at_ => by
      have shifted : i + 1 + k = i + (k + 1) := by omega
      rw [shifted]
      exact single (k + 1) d at_
    rw [Nat.add_zero] at own
    rw [trails, List.length_append, List.countP_append, length, failing, own, List.zipIdx_cons, List.countP_cons,
      List.countP_cons]
    by_cases selected : Selected requested c
    · cases passes : (behaviour i 0).passes <;> simp [selected, Nat.add_comm]
    · simp [selected]

end Trail

section Runs

variable (behaviour : Executions)

/-- Both counters follow the executions. -/
def Counted (s : Suite) : Prop :=
  s.statistics.cases = s.executed.length % 2 ^ 32 ∧
    s.statistics.casesFailed = (s.executed.countP fun entry => entry.2 = false) % 2 ^ 32

/-- One execution, by what it leaves behind. -/
theorem runCase_spec (s : Suite) (tag : List Byte) (i : Nat) :
    let passes := (behaviour i (s.times i)).passes
    (s.runCase behaviour tag i).executed = s.executed ++ [(i, passes)] ∧
      (s.runCase behaviour tag i).assessed = if passes then Function.update s.assessed i true else s.assessed := by
  unfold runCase
  dsimp only
  split
  next passes => rw [passes]; exact ⟨rfl, rfl⟩
  next fails => rw [eq_false_of_ne_true fails]; exact ⟨rfl, rfl⟩

theorem runCase_counted {s : Suite} (counted : Counted s) (tag : List Byte) (i : Nat) :
    Counted (s.runCase behaviour tag i) := by
  obtain ⟨cases_, failed⟩ := counted
  unfold runCase
  dsimp only
  split
  next passes =>
    refine ⟨?_, ?_⟩
    · simp only [List.length_append, List.length_singleton]
      omega
    · simp [passes, failed]
  next fails =>
    refine ⟨?_, ?_⟩
    · simp only [List.length_append, List.length_singleton]
      omega
    · simp [eq_false_of_ne_true fails, failed]

theorem times_append (s : Suite) {after : Suite} {i j : Nat} {passes : Bool}
    (h : after.executed = s.executed ++ [(i, passes)]) : after.times j = s.times j + if i = j then 1 else 0 := by
  unfold times
  rw [h, List.map_append, List.count_append]
  by_cases own : i = j <;> simp [own]

/-- The inner loop: nothing happens to an assessed case, another one is executed until it passes. -/
theorem visitTags_spec (c : Case) (i : Nat) (requested : List (List Byte)) (s : Suite) :
    let after := requested.foldl (visitTag behaviour c i) s
    after.executed = s.executed ++
        (if s.assessed i then [] else trail behaviour i (s.times i) (requested.countP (· ∈ c.tags))) ∧
      (∀ j, j ≠ i → after.assessed j = s.assessed j) ∧ (Counted s → Counted after) := by
  induction requested generalizing s with
  | nil => simp [trail]
  | cons tag requested ih =>
    rw [List.foldl_cons]
    by_cases meets : s.assessed i = false ∧ tag ∈ c.tags
    · obtain ⟨pending, member⟩ := meets
      have visited : visitTag behaviour c i s tag = s.runCase behaviour tag i := if_pos ⟨pending, member⟩
      obtain ⟨ran, marked⟩ := runCase_spec behaviour s tag i
      obtain ⟨executed, others, counted⟩ := ih (s.runCase behaviour tag i)
      have entries_ : (tag :: requested).countP (· ∈ c.tags) = requested.countP (· ∈ c.tags) + 1 :=
        List.countP_cons_of_pos (decide_eq_true member)
      rw [visited]
      refine ⟨?_, fun j other => ?_, fun before => counted (runCase_counted behaviour before tag i)⟩
      · rw [executed, ran, marked, times_append s ran, pending, entries_, trail, List.append_assoc]
        by_cases passes : (behaviour i (s.times i)).passes = true
        · simp [passes]
        · simp [passes, pending]
      · rw [others j other, marked]
        split
        next => exact Function.update_of_ne other _ _
        next => rfl
    · have visited : visitTag behaviour c i s tag = s := if_neg meets
      obtain ⟨executed, others, counted⟩ := ih s
      rw [visited]
      refine ⟨?_, others, counted⟩
      rw [executed]
      cases pending : s.assessed i with
      | true => rfl
      | false =>
        have absent : ¬decide (tag ∈ c.tags) = true := fun member => meets ⟨pending, of_decide_eq_true member⟩
        have skipped : (tag :: requested).countP (· ∈ c.tags) = requested.countP (· ∈ c.tags) :=
          List.countP_cons_of_neg absent
        rw [skipped]

/-- What one pass of the outer loop does to the suite, whether tags are requested or not. -/
structure Visits (behaviour : Executions) (requested : List (List Byte)) (visit : Case → Nat → Suite → Suite) : Prop where
  executed : ∀ c i s, s.assessed i = false → s.times i = 0 →
    (visit c i s).executed = s.executed ++ trail behaviour i 0 (entries requested c)
  assessed : ∀ c i s j, j ≠ i → (visit c i s).assessed j = s.assessed j
  counted : ∀ c i s, Counted s → Counted (visit c i s)

theorem visits_all : Visits behaviour [] fun _ i s => s.runCase behaviour [ascii '*'] i := by
  constructor
  case executed =>
    intro c i s pending fresh
    rw [(runCase_spec behaviour s _ i).1, fresh]
    cases passes : (behaviour i 0).passes <;> simp [entries, trail, passes]
  case assessed =>
    intro c i s j other
    rw [(runCase_spec behaviour s _ i).2]
    split
    next => exact Function.update_of_ne other _ _
    next => rfl
  case counted => exact fun c i s before => runCase_counted behaviour before _ i

theorem visits_requested {requested : List (List Byte)} (given : requested ≠ []) :
    Visits behaviour requested fun c i s => requested.foldl (visitTag behaviour c i) s := by
  constructor
  case executed =>
    intro c i s pending fresh
    rw [(visitTags_spec behaviour c i requested s).1, pending, fresh, entries, if_neg given]
    rfl
  case assessed => exact fun c i s => (visitTags_spec behaviour c i requested s).2.1
  case counted => exact fun c i s => (visitTags_spec behaviour c i requested s).2.2

/-- The outer loop, over cases that have been neither assessed nor executed. -/
theorem visitCases_spec {requested : List (List Byte)} {visit : Case → Nat → Suite → Suite}
    (visits : Visits behaviour requested visit) (cases : List Case) (i : Nat) (s : Suite)
    (fresh : ∀ j, i ≤ j → s.assessed j = false ∧ s.times j = 0) (counted : Counted s) :
    (visitCases visit cases i s).executed = s.executed ++ trails behaviour requested cases i ∧
      Counted (visitCases visit cases i s) := by
  induction cases generalizing i s with
  | nil => exact ⟨(List.append_nil _).symm, counted⟩
  | cons c cases ih =>
    obtain ⟨pending, none_⟩ := fresh i (Nat.le_refl i)
    have executed := visits.executed c i s pending none_
    have later (j : Nat) (above : i + 1 ≤ j) : (visit c i s).assessed j = false ∧ (visit c i s).times j = 0 := by
      refine ⟨?_, ?_⟩
      · rw [visits.assessed c i s j (by omega)]
        exact (fresh j (by omega)).1
      · have absent : j ∉ (trail behaviour i 0 (entries requested c)).map Prod.fst := by
          intro member
          obtain ⟨entry, inside, rfl⟩ := List.mem_map.mp member
          have own := trail_case behaviour i inside
          omega
        unfold times
        rw [executed, List.map_append, List.count_append, List.count_eq_zero_of_not_mem absent]
        exact (fresh j (by omega)).2
    obtain ⟨ran, kept⟩ := ih (i + 1) (visit c i s) later (visits.counted c i s counted)
    refine ⟨?_, kept⟩
    rw [visitCases, ran, executed, trails, List.append_assoc]

theorem run_spec (s : Suite) (cases : List Case) (requested : List (List Byte)) :
    (s.run behaviour cases requested).executed = trails behaviour requested cases 0 ∧
      Counted (s.run behaviour cases requested) := by
  have start : Counted s.reset := ⟨rfl, rfl⟩
  unfold run
  split
  next none_ => exact none_ ▸ visitCases_spec behaviour (visits_all behaviour) cases 0 s.reset (fun _ _ => ⟨rfl, rfl⟩) start
  next given =>
    exact visitCases_spec behaviour (visits_requested behaviour given) cases 0 s.reset (fun _ _ => ⟨rfl, rfl⟩) start

variable {behaviour} {s : Suite} {cases : List Case} {requested : List (List Byte)}

theorem run_times {i : Nat} {c : Case} (h : cases[i]? = some c) :
    (s.run behaviour cases requested).times i = (trail behaviour i 0 (entries requested c)).length := by
  have counted := @trails_count behaviour requested cases 0 i c h
  rwa [Nat.zero_add, ← (run_spec behaviour s cases requested).1] at counted

theorem Orderly.single (orderly : Orderly behaviour cases requested) {i : Nat} {c : Case} (h : cases[i]? = some c) :
    trail behaviour i 0 (entries requested c) =
      if Selected requested c then [(i, (behaviour i 0).passes)] else [] := by
  split
  next selected => exact trail_once behaviour i ((trail_one behaviour i).mpr (orderly.selected i c h selected))
  next other => exact (trail_empty behaviour i).mpr (orderly.others c (List.mem_of_getElem? h) other)

theorem threw_iff (orderly : Orderly behaviour cases requested) {i : Nat} {c : Case} (h : cases[i]? = some c)
    (selected : Selected requested c) :
    (i, false) ∈ (s.run behaviour cases requested).executed ↔ (behaviour i 0).passes = false := by
  have own := orderly.single h
  rw [if_pos selected] at own
  rw [(run_spec behaviour s cases requested).1]
  constructor
  · intro member
    obtain ⟨k, d, at_, position, inside⟩ := trails_from behaviour member
    obtain rfl : i = k := by omega
    cases h.symm.trans at_
    rw [Nat.zero_add, own] at inside
    exact (congrArg Prod.snd (List.mem_singleton.mp inside)).symm
  · intro throws
    refine trails_mem behaviour h ?_
    rw [Nat.zero_add, own, throws]
    exact List.mem_singleton_self _

theorem Orderly.of_runsOnce (right : RunsOnce cases requested (s.run behaviour cases requested)) :
    Orderly behaviour cases requested := by
  constructor
  case selected =>
    intro i c h selected
    have once := right.once i c h
    rw [run_times h, if_pos selected] at once
    exact (trail_one behaviour i).mp once
  case others =>
    intro c member other
    obtain ⟨i, h⟩ := List.mem_iff_getElem?.mp member
    have never := right.once i c h
    rw [run_times h, if_neg other, List.length_eq_zero_iff] at never
    exact (trail_empty behaviour i).mp never
  case count =>
    rw [← right.counted, (run_spec behaviour s cases requested).2.1]
    exact Nat.mod_lt _ (by decide)

/-- The cases that have thrown are the selected ones that do not return from their first execution. -/
theorem threw_count (orderly : Orderly behaviour cases requested) :
    cases.zipIdx.countP (fun entry => Selected requested entry.1 ∧
        (entry.2, false) ∈ (s.run behaviour cases requested).executed) =
      cases.zipIdx.countP fun entry => Selected requested entry.1 ∧ (behaviour entry.2 0).passes = false := by
  refine List.countP_congr fun entry member => ?_
  have h := List.mk_mem_zipIdx_iff_getElem?.mp member
  rw [decide_eq_true_eq, decide_eq_true_eq]
  exact and_congr_right fun selected => threw_iff orderly h selected

theorem failing_le (behaviour : Executions) (cases : List Case) (requested : List (List Byte)) :
    cases.zipIdx.countP (fun entry => Selected requested entry.1 ∧ (behaviour entry.2 0).passes = false) ≤
      cases.countP (Selected requested ·) := by
  have positions := List.countP_map (p := fun c => Selected requested c) (f := Prod.fst) (l := cases.zipIdx)
  rw [List.zipIdx_map_fst] at positions
  rw [positions]
  refine List.countP_mono_left fun entry _ both => ?_
  exact decide_eq_true (of_decide_eq_true both).1

theorem Orderly.runsOnce (orderly : Orderly behaviour cases requested) :
    RunsOnce cases requested (s.run behaviour cases requested) := by
  obtain ⟨executed, cases_, failed⟩ := run_spec behaviour s cases requested
  obtain ⟨length, failing⟩ := trails_counts behaviour 0 fun k c h => by
    rw [Nat.zero_add]
    exact orderly.single h
  constructor
  case once =>
    intro i c h
    rw [run_times h, orderly.single h]
    split <;> rfl
  case others =>
    intro entry member
    rw [executed] at member
    obtain ⟨k, c, h, position, _⟩ := trails_from behaviour member
    obtain ⟨inside, _⟩ := List.getElem?_eq_some_iff.mp h
    omega
  case counted =>
    rw [cases_, executed, length]
    exact Nat.mod_eq_of_lt orderly.count
  case failed =>
    have fewer := failing_le behaviour cases requested
    have small := orderly.count
    rw [failed, executed, failing, ← executed, threw_count orderly]
    exact Nat.mod_eq_of_lt (by omega)

/-- A suite runs each selected case once if and only if the requested tags meet the cases in order. -/
theorem runsOnce_iff (behaviour : Executions) (s : Suite) (cases : List Case) (requested : List (List Byte)) :
    RunsOnce cases requested (s.run behaviour cases requested) ↔ Orderly behaviour cases requested :=
  ⟨Orderly.of_runsOnce, fun orderly => orderly.runsOnce⟩

end Runs

/-- A tag behind a blank is not found, and a case that throws is executed for each of its requested tags. -/
theorem runsOnce_fails :
    let spaced : Case := ⟨literal "a, b"⟩
    let throwing : Case := ⟨literal "a,b"⟩
    ¬RunsOnce [spaced] [literal "b"] (run (fun _ _ => ⟨0, true⟩) {} [spaced] [literal "b"]) ∧
      ¬RunsOnce [throwing] [literal "a", literal "b"]
        (run (fun _ _ => ⟨1, false⟩) {} [throwing] [literal "a", literal "b"]) := by
  constructor
  · intro right
    have once := right.once 0 _ rfl
    rw [if_pos (by decide)] at once
    exact absurd once (by decide)
  · intro right
    have once := right.once 0 _ rfl
    rw [if_pos (by decide)] at once
    exact absurd once (by decide)

end TestSuite

end Hlib
