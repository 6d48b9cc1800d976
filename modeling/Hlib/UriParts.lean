import Hlib.Uri

namespace Hlib

open Delimiter

namespace Uri

theorem not_inScheme_colon : inScheme colon = false := by decide

theorem not_inScheme_slash : inScheme slash = false := by decide

/-- A delimiter of the path ends the scheme and the authority too. -/
theorem delimiter_path {c : Byte} (h : inPath c = false) :
    inScheme c = false ∧ inAuthority c = false ∧ c ≠ colon ∧ c ≠ slash := by
  have delimiter : c = question ∨ c = hash := by
    by_contra other
    obtain ⟨hq, hh⟩ := not_or.mp other
    simp [inPath, hq, hh] at h
  rcases delimiter with rfl | rfl <;> decide

theorem all_inFragment_iff {string : List Byte} : string.all inFragment = true ↔ 0 ∉ string := by
  rw [List.all_eq_true]
  constructor
  · intro inside member
    exact of_decide_eq_true (inside 0 member) rfl
  · intro outside c member
    refine decide_eq_true ?_
    rintro rfl
    exact outside member

section Scheme

theorem matchScheme_name {name : List Byte} (inside : ∀ c ∈ name, inScheme c = true) (given : name ≠ [])
    (rest : List Byte) : matchScheme (name ++ colon :: rest) = (name, rest) := by
  have stop : ∀ c ∈ (colon :: rest).head?, inScheme c = false := by
    rintro c ⟨⟩
    exact not_inScheme_colon
  obtain ⟨taken, dropped⟩ := run_append inside stop
  unfold matchScheme
  rw [dropped, taken]
  exact if_pos ⟨rfl, given⟩

theorem matchScheme_cases (string : List Byte) :
    matchScheme string = ([], string) ∨
      ∃ name rest, name ≠ [] ∧ (∀ c ∈ name, inScheme c = true) ∧ string = name ++ colon :: rest ∧
        matchScheme string = (name, rest) := by
  have whole : string.takeWhile inScheme ++ string.dropWhile inScheme = string :=
    List.takeWhile_append_dropWhile
  cases dropped : string.dropWhile inScheme with
  | nil =>
    left
    unfold matchScheme
    rw [dropped]
  | cons c rest =>
    by_cases named : c = colon ∧ string.takeWhile inScheme ≠ []
    · right
      obtain ⟨rfl, given⟩ := named
      have inside : ∀ c ∈ string.takeWhile inScheme, inScheme c = true :=
        fun c hc => List.mem_takeWhile_imp hc
      rw [dropped] at whole
      refine ⟨_, rest, given, inside, whole.symm, ?_⟩
      have named := matchScheme_name inside given rest
      rwa [whole] at named
    · left
      unfold matchScheme
      rw [dropped]
      exact if_neg named

theorem matchScheme_delimited {c : Byte} (h : inScheme c = false) (rest : List Byte) :
    matchScheme (c :: rest) = ([], c :: rest) := by
  rcases matchScheme_cases (c :: rest) with plain | ⟨name, after, given, inside, whole, _⟩
  · exact plain
  · cases name with
    | nil => exact absurd rfl given
    | cons first name =>
      cases whole
      cases h.symm.trans (inside c List.mem_cons_self)

/-- What a text does not begin with, no beginning of it does. -/
theorem matchScheme_of_append {before after : List Byte}
    (h : matchScheme (before ++ after) = ([], before ++ after)) :
    matchScheme before = ([], before) := by
  rcases matchScheme_cases before with plain | ⟨name, rest, given, inside, rfl, _⟩
  · exact plain
  · have named := matchScheme_name inside given (rest ++ after)
    rw [List.append_assoc, List.cons_append, named] at h
    exact absurd (congrArg Prod.fst h) given

theorem matchScheme_none {string : List Byte} (h : (matchScheme string).1 = []) :
    matchScheme string = ([], string) := by
  rcases matchScheme_cases string with plain | ⟨name, rest, named, _, rfl, cut⟩
  · exact plain
  · rw [cut] at h
    exact absurd h named

end Scheme

section Authority

theorem matchAuthority_present {authority after : List Byte}
    (inside : ∀ c ∈ authority, inAuthority c = true)
    (stop : ∀ c ∈ after.head?, inAuthority c = false) :
    matchAuthority (slash :: slash :: (authority ++ after)) = (authority, after) := by
  obtain ⟨taken, dropped⟩ := run_append inside stop
  unfold matchAuthority
  simp only [and_self, ↓reduceIte, taken, dropped]

theorem matchAuthority_absent {string : List Byte} (h : ¬[slash, slash] <+: string) :
    matchAuthority string = ([], string) := by
  unfold matchAuthority
  split
  next c c' rest =>
    refine if_neg ?_
    rintro ⟨rfl, rfl⟩
    exact h ⟨rest, rfl⟩
  next => rfl

theorem matchAuthority_cases (string : List Byte) :
    matchAuthority string = ([], string) ∨
      ∃ rest, string = slash :: slash :: rest ∧
        matchAuthority string = (rest.takeWhile inAuthority, rest.dropWhile inAuthority) := by
  by_cases h : [slash, slash] <+: string
  · obtain ⟨rest, rfl⟩ := h
    refine Or.inr ⟨rest, rfl, ?_⟩
    change matchAuthority (slash :: slash :: rest) = _
    unfold matchAuthority
    exact if_pos ⟨rfl, rfl⟩
  · exact Or.inl (matchAuthority_absent h)

theorem matchAuthority_append (path : List Byte) {after : List Byte}
    (stop : ∀ c ∈ after.head?, inPath c = false) :
    matchAuthority (path ++ after) = ((matchAuthority path).1, (matchAuthority path).2 ++ after) := by
  by_cases h : [slash, slash] <+: path
  · obtain ⟨rest, rfl⟩ := h
    have whole : rest.takeWhile inAuthority ++ rest.dropWhile inAuthority = rest :=
      List.takeWhile_append_dropWhile
    have inside : ∀ c ∈ rest.takeWhile inAuthority, inAuthority c = true :=
      fun c hc => List.mem_takeWhile_imp hc
    have short := matchAuthority_present inside (run_stop inAuthority rest)
    have ends : ∀ c ∈ (rest.dropWhile inAuthority ++ after).head?, inAuthority c = false := by
      cases dropped : rest.dropWhile inAuthority with
      | nil => exact fun c hc => (delimiter_path (stop c hc)).2.1
      | cons c more =>
        have := run_stop inAuthority rest
        rwa [dropped] at this
    have long := matchAuthority_present inside ends
    rw [← List.append_assoc, whole] at long
    rw [whole] at short
    change matchAuthority (slash :: slash :: (rest ++ after)) =
      ((matchAuthority (slash :: slash :: rest)).1, (matchAuthority (slash :: slash :: rest)).2 ++ after)
    rw [long, short]
  · rw [matchAuthority_absent h]
    apply matchAuthority_absent
    rintro ⟨rest, whole⟩
    rcases List.append_eq_append_iff.mp whole with ⟨more, hp, _⟩ | ⟨more, hs, ha⟩
    · exact h ⟨more, hp.symm⟩
    · cases more with
      | nil =>
        rw [List.append_nil] at hs
        exact h ⟨[], by rw [hs, List.append_nil]⟩
      | cons c more =>
        have second : c ∈ [slash, slash] := hs ▸ List.mem_append_right path List.mem_cons_self
        have outside := (delimiter_path (stop c (ha ▸ rfl))).2.2.2
        simp only [List.mem_cons, List.not_mem_nil, or_false, or_self] at second
        exact absurd second outside

end Authority

section Authorities

theorem userInfoOf_append {userInfo : List Byte} (h : at_ ∉ userInfo) (rest : List Byte) :
    userInfoOf (userInfo ++ at_ :: rest) = (userInfo, rest) := by
  unfold userInfoOf
  rw [cutFirst_append h]

theorem userInfoOf_none {authority : List Byte} (h : at_ ∉ authority) :
    userInfoOf authority = ([], authority) := by
  unfold userInfoOf
  rw [cutFirst_none.mpr h]

theorem userInfoOf_cases (authority : List Byte) :
    (at_ ∉ authority ∧ userInfoOf authority = ([], authority)) ∨
      ∃ userInfo rest, at_ ∉ userInfo ∧ authority = userInfo ++ at_ :: rest ∧
        userInfoOf authority = (userInfo, rest) := by
  cases cut : cutFirst at_ authority with
  | none =>
    have absent := cutFirst_none.mp cut
    exact Or.inl ⟨absent, userInfoOf_none absent⟩
  | some parts =>
    obtain ⟨whole, fresh⟩ := cutFirst_some cut
    refine Or.inr ⟨parts.1, parts.2, fresh, whole, ?_⟩
    rw [whole, userInfoOf_append fresh]

theorem hostPortOf_cases (authority : List Byte) :
    hostPortOf authority = (authority, 0) ∨
      ∃ host digits port, authority = host ++ colon :: digits ∧ stoui16 digits 10 = some port ∧
        hostPortOf authority = (host, port) := by
  unfold hostPortOf
  cases cut : cutLast colon authority with
  | none => exact Or.inl rfl
  | some parts =>
    obtain ⟨host, digits⟩ := parts
    cases parsed : stoui16 digits 10 with
    | none =>
      left
      simp only [parsed]
    | some port =>
      right
      refine ⟨host, digits, port, cutLast_some cut, parsed, ?_⟩
      simp only [parsed]

theorem hostPortOf_begins (authority : List Byte) : (hostPortOf authority).1 <+: authority := by
  rcases hostPortOf_cases authority with plain | ⟨host, digits, port, rfl, _, cut⟩
  · exact ⟨[], by rw [plain, List.append_nil]⟩
  · rw [cut]
    exact List.prefix_append _ _

theorem stoui16_lt {value : List Byte} {base port : Nat} (h : stoui16 value base = some port) :
    port < 2 ^ 16 := by
  unfold stoui16 at h
  split at h
  next => cases h
  next =>
    split at h
    next => cases h
    next =>
      simp only at h
      split at h
      next => cases h
      next fits =>
        cases h
        omega

end Authorities

end Uri

end Hlib
