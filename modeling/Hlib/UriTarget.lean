import Hlib.UriParsed

namespace Hlib

open Delimiter

namespace Uri

/-- `std::string::find`. -/
def find (string : List Byte) (c : Byte) (pos : Nat) : Option Nat :=
  ((string.drop pos).findIdx? fun c' => c' = c).map (pos + ·)

/-- `target_get_path`. -/
def targetGetPath (target : List Byte) : List Byte :=
  match target.findIdx? fun c => c = question ∨ c = hash with
  | none => target
  | some stop => target.take stop

/-- `target_get_query`. -/
def targetGetQuery (target : List Byte) : List Byte :=
  match find target question 0 with
  | none => []
  | some start =>
    let start := start + 1
    let stop := (find target hash start).getD target.length
    (target.drop start).take (stop - start)

/-- `target_get_fragment`. -/
def targetGetFragment (target : List Byte) : List Byte :=
  match find target hash 0 with
  | none => []
  | some start => target.drop (start + 1)

/-- A request target by its parts, as RFC 3986 separates them. -/
structure Target where
  path : List Byte
  query : Option (List Byte)
  fragment : Option (List Byte)
  path_inside : ∀ c ∈ path, inPath c = true
  query_inside : ∀ q ∈ query, ∀ c ∈ q, inQuery c = true

namespace Target

def queryText (t : Target) : List Byte := t.query.elim [] (question :: ·)

def fragmentText (t : Target) : List Byte := t.fragment.elim [] (hash :: ·)

def text (t : Target) : List Byte := t.path ++ (t.queryText ++ t.fragmentText)

/-- The path begins with a slash, and not with two. -/
def Absolute (t : Target) : Prop := ∃ rest, t.path = slash :: rest ∧ rest.head? ≠ some slash

/-- The helpers give the parts, and so does `uri_parse` where the path is absolute. -/
structure Split (t : Target) : Prop where
  path : targetGetPath t.text = t.path
  query : targetGetQuery t.text = t.query.getD []
  fragment : targetGetFragment t.text = t.fragment.getD []
  parsed : t.Absolute → ∃ uri, parse t.text = some uri ∧ uri.path = targetGetPath t.text ∧
    uri.query = targetGetQuery t.text ∧ uri.fragment = targetGetFragment t.text

/-- Without a query, no text follows the first `?` of the fragment, up to a `#`. -/
def QueryClear (t : Target) : Prop :=
  t.query = none → ∀ f ∈ t.fragment, ∀ cut ∈ cutFirst question f,
    cut.2 = [] ∨ cut.2.head? = some hash

/-- Where `uri_parse` is asked, it can read the fragment. -/
def FragmentClear (t : Target) : Prop := t.Absolute → ∀ f ∈ t.fragment, 0 ∉ f

end Target

section Helpers

theorem find_cutFirst (string : List Byte) (c : Byte) :
    find string c 0 = (cutFirst c string).map fun cut => cut.1.length := by
  unfold find
  rw [List.drop_zero, findIdx_cutFirst, Option.map_map]
  congr 1
  funext cut
  exact Nat.zero_add _

theorem targetGetPath_eq (target : List Byte) : targetGetPath target = target.takeWhile inPath := by
  have same : (fun c => decide (c = question ∨ c = hash)) = fun c => !inPath c := by
    funext c
    simp only [inPath, ne_eq, Bool.decide_and, Bool.decide_or, decide_not, Bool.not_and, Bool.not_not]
  rw [← findIdx_run, ← same]
  unfold targetGetPath
  cases target.findIdx? fun c => c = question ∨ c = hash with
  | none => rfl
  | some stop => rfl

theorem targetGetFragment_eq (target : List Byte) :
    targetGetFragment target = (cutFirst hash target).elim [] (·.2) := by
  unfold targetGetFragment
  rw [find_cutFirst]
  cases found : cutFirst hash target with
  | none => rfl
  | some cut =>
    obtain ⟨rfl, _⟩ := cutFirst_some found
    show (cut.1 ++ hash :: cut.2).drop (cut.1.length + 1) = cut.2
    rw [← List.drop_drop, List.drop_left, List.drop_one, List.tail_cons]

theorem inQuery_run (text : List Byte) : text.takeWhile inQuery = (cutFirst hash text).elim text (·.1) := by
  have same : (fun c => decide (c = hash)) = fun c => !inQuery c := by
    funext c
    simp [inQuery]
  rw [← findIdx_run, ← same, findIdx_cutFirst]
  cases found : cutFirst hash text with
  | none => rfl
  | some cut =>
    obtain ⟨rfl, _⟩ := cutFirst_some found
    exact List.take_left

theorem targetGetQuery_eq (target : List Byte) :
    targetGetQuery target = (cutFirst question target).elim [] (·.2.takeWhile inQuery) := by
  unfold targetGetQuery
  rw [find_cutFirst]
  cases found : cutFirst question target with
  | none => rfl
  | some cut =>
    obtain ⟨rfl, _⟩ := cutFirst_some found
    have behind : (cut.1 ++ question :: cut.2).drop (cut.1.length + 1) = cut.2 := by
      rw [← List.drop_drop, List.drop_left, List.drop_one, List.tail_cons]
    simp only [Option.map_some, Option.elim_some, find, behind, inQuery_run, findIdx_cutFirst]
    cases later : cutFirst hash cut.2 with
    | none =>
      apply List.take_of_length_le
      simp only [Option.map_none, Option.getD_none, List.length_append, List.length_cons]
      omega
    | some cut' =>
      obtain ⟨whole, _⟩ := cutFirst_some later
      have length : cut.1.length + 1 + cut'.1.length - (cut.1.length + 1) = cut'.1.length := by omega
      simp only [Option.map_some, Option.getD_some, Option.elim_some, length]
      rw [whole, List.take_left]

end Helpers

namespace Target

variable (t : Target)

theorem question_path : question ∉ t.path := fun h => absurd (t.path_inside question h) (by decide)

theorem hash_path : hash ∉ t.path := fun h => absurd (t.path_inside hash h) (by decide)

theorem tail_stop : ∀ c ∈ (t.queryText ++ t.fragmentText).head?, inPath c = false := by
  unfold queryText fragmentText
  cases t.query with
  | some q =>
    rintro c ⟨⟩
    decide
  | none =>
    cases t.fragment with
    | some f =>
      rintro c ⟨⟩
      decide
    | none => exact nofun

theorem fragment_stop : ∀ c ∈ t.fragmentText.head?, inQuery c = false := by
  unfold fragmentText
  cases t.fragment with
  | some f =>
    rintro c ⟨⟩
    decide
  | none => exact nofun

theorem hash_queryText : hash ∉ t.queryText := by
  unfold queryText
  cases hq : t.query with
  | none => exact List.not_mem_nil
  | some q =>
    intro h
    rcases List.mem_cons.mp h with same | inside
    · exact absurd same (by decide)
    · exact absurd (t.query_inside q hq hash inside) (by decide)

theorem path_split : targetGetPath t.text = t.path := by
  rw [targetGetPath_eq]
  exact (run_append t.path_inside t.tail_stop).1

theorem fragment_split : targetGetFragment t.text = t.fragment.getD [] := by
  have fresh : hash ∉ t.path ++ t.queryText := by
    rw [List.mem_append, not_or]
    exact ⟨t.hash_path, t.hash_queryText⟩
  rw [targetGetFragment_eq, text, ← List.append_assoc, cutFirst_behind fresh, fragmentText]
  cases t.fragment with
  | none => rfl
  | some f =>
    show ((cutFirst hash (hash :: f)).map _).elim [] _ = f
    rw [cutFirst, if_pos rfl]
    rfl

/-- The helper looks for the `?` in the fragment too. -/
theorem query_text : targetGetQuery t.text =
    t.query.getD ((t.fragment.bind (cutFirst question)).elim [] (·.2.takeWhile inQuery)) := by
  rw [targetGetQuery_eq, text, cutFirst_behind t.question_path]
  cases hq : t.query with
  | some q =>
    have front : cutFirst question (t.queryText ++ t.fragmentText) = some ([], q ++ t.fragmentText) := by
      rw [queryText, hq]
      exact if_pos rfl
    rw [front]
    exact (run_append (t.query_inside q hq) t.fragment_stop).1
  | none =>
    have front : t.queryText = [] := by
      rw [queryText, hq]
      rfl
    rw [front, List.nil_append, fragmentText]
    cases t.fragment with
    | none => rfl
    | some f =>
      have other : hash ≠ question := by decide
      show ((cutFirst question (hash :: f)).map _).elim [] _ = ((some f).bind _).elim [] _
      rw [cutFirst, if_neg other, Option.bind_some]
      cases cutFirst question f with
      | none => rfl
      | some cut => rfl

theorem query_split_iff : targetGetQuery t.text = t.query.getD [] ↔ t.QueryClear := by
  rw [query_text]
  cases hq : t.query with
  | some q => exact iff_of_true rfl fun absent => absurd (hq.symm.trans absent) nofun
  | none =>
    have clear : t.QueryClear ↔ ∀ f ∈ t.fragment, ∀ cut ∈ cutFirst question f,
        cut.2 = [] ∨ cut.2.head? = some hash := ⟨fun h => h hq, fun h _ => h⟩
    rw [clear, Option.getD_none, Option.getD_none]
    cases t.fragment with
    | none => exact iff_of_true rfl nofun
    | some f =>
      rw [Option.bind_some]
      cases found : cutFirst question f with
      | none =>
        refine iff_of_true rfl ?_
        rintro f' ⟨⟩ cut hcut
        rw [found] at hcut
        cases hcut
      | some cut =>
        have stops : cut.2.takeWhile inQuery = [] ↔ cut.2 = [] ∨ cut.2.head? = some hash := by
          cases cut.2 with
          | nil => exact iff_of_true rfl (Or.inl rfl)
          | cons c after => simp [List.takeWhile_eq_nil_iff, inQuery]
        show cut.2.takeWhile inQuery = [] ↔ _
        rw [stops]
        constructor
        · rintro stop f' ⟨⟩ cut' hcut
          rw [found] at hcut
          cases hcut
          exact stop
        · exact fun h => h f rfl cut found

theorem matchQuery_tail (t : Target) : matchQuery (t.queryText ++ t.fragmentText) = (t.query.getD [], t.fragmentText) := by
  unfold queryText
  cases hq : t.query with
  | some q =>
    obtain ⟨taken, dropped⟩ := run_append (t.query_inside q hq) t.fragment_stop
    show matchQuery (question :: (q ++ t.fragmentText)) = (q, t.fragmentText)
    unfold matchQuery
    simp only [if_true, taken, dropped]
  | none =>
    show matchQuery t.fragmentText = ([], t.fragmentText)
    unfold fragmentText
    cases t.fragment with
    | none => rfl
    | some f =>
      have other : hash ≠ question := by decide
      show matchQuery (hash :: f) = ([], hash :: f)
      unfold matchQuery
      exact if_neg other

theorem matchFragment_tail (t : Target) (clear : ∀ f ∈ t.fragment, 0 ∉ f) :
    matchFragment t.fragmentText = some (t.fragment.getD []) := by
  unfold fragmentText
  cases hf : t.fragment with
  | none => rfl
  | some f =>
    show matchFragment (hash :: f) = some f
    unfold matchFragment
    exact if_pos ⟨rfl, all_inFragment_iff.mpr (clear f hf)⟩

/-- The parts of the text as `uri_parse` reads them. -/
theorem parse_text (h : t.Absolute) (clear : ∀ f ∈ t.fragment, 0 ∉ f) :
    ∃ uri, parse t.text = some uri ∧ uri.path = t.path ∧ uri.query = t.query.getD [] ∧
      uri.fragment = t.fragment.getD [] := by
  obtain ⟨rest, front, single⟩ := h
  have begins : t.text = slash :: (rest ++ (t.queryText ++ t.fragmentText)) := by
    rw [text, front, List.cons_append]
  have scheme : matchScheme t.text = ([], t.text) := by
    rw [begins]
    exact matchScheme_delimited not_inScheme_slash _
  have authority : matchAuthority t.text = ([], t.text) := by
    have absent : matchAuthority t.path = ([], t.path) := by
      rw [front]
      apply matchAuthority_absent
      rintro ⟨more, whole⟩
      cases whole
      exact single rfl
    rw [text, matchAuthority_append _ t.tail_stop, absent]
  obtain ⟨taken, dropped⟩ := run_append t.path_inside t.tail_stop
  have found : regexMatch t.text = some ⟨[], [], t.path, t.query.getD [], t.fragment.getD []⟩ := by
    unfold regexMatch
    simp only [scheme, authority]
    rw [show t.text = t.path ++ (t.queryText ++ t.fragmentText) from rfl, taken, dropped]
    simp only [t.matchQuery_tail, t.matchFragment_tail clear, Option.map_some]
  have given : t.path ≠ [] := by
    rw [front]
    exact List.cons_ne_nil _ _
  unfold parse
  rw [found]
  exact ⟨_, rfl, if_neg given, rfl, rfl⟩

/-- The helpers split a target as RFC 3986 does, and `uri_parse` with them, if its fragment offers no query in
place of an absent one and `uri_parse` can read it. -/
theorem split_iff : t.Split ↔ t.QueryClear ∧ t.FragmentClear := by
  constructor
  · intro h
    refine ⟨t.query_split_iff.mp h.query, fun absolute f hf => ?_⟩
    obtain ⟨uri, read, _, _, fragment⟩ := h.parsed absolute
    have clear := (Uri.parsed read).fragment
    rwa [fragment, t.fragment_split, Option.mem_def.mp hf, Option.getD_some] at clear
  · rintro ⟨query, clear⟩
    have query := t.query_split_iff.mpr query
    refine ⟨t.path_split, query, t.fragment_split, fun absolute => ?_⟩
    obtain ⟨uri, read, path, query', fragment⟩ := t.parse_text absolute (clear absolute)
    exact ⟨uri, read, path.trans t.path_split.symm, query'.trans query.symm, fragment.trans t.fragment_split.symm⟩

/-- The target `p#a?b` has no query. -/
def fragmentOnly : Target where
  path := literal "p"
  query := none
  fragment := some (literal "a?b")
  path_inside := by decide
  query_inside := nofun

theorem query_of_fragment : ¬fragmentOnly.Split := by
  intro h
  have empty : targetGetQuery fragmentOnly.text = [] := h.query
  exact absurd empty (by decide)

end Target

end Uri

end Hlib
