import Hlib.UriParts

namespace Hlib

open Delimiter

namespace Uri

/-- The parts of a text, before the port and the path are filled in. -/
def partsOf (string : List Byte) : Option Uri :=
  (regexMatch string).map fun found =>
    let (userInfo, authority) := userInfoOf found.authority
    let (host, port) := hostPortOf authority
    { scheme := found.scheme, userInfo, host, port, path := found.path, query := found.query,
      fragment := found.fragment }

def filled (uri : Uri) : Uri :=
  { uri with
    port := if uri.port = 0 then getDefaultPortForScheme uri.scheme else uri.port
    path := if uri.path = [] then [slash] else uri.path }

theorem parse_eq (string : List Byte) : parse string = (partsOf string).map filled := by
  unfold parse partsOf
  rw [Option.map_map]
  rfl

theorem parse_some {string : List Byte} {uri : Uri} (h : parse string = some uri) :
    ∃ parts, partsOf string = some parts ∧ filled parts = uri := by
  rw [parse_eq] at h
  exact Option.map_eq_some_iff.mp h

section Parsed

/-- What can stand behind an authority. -/
def Delimited (path : List Byte) : Prop := path.head? = some slash ∨ path.head? = some backslash

instance (path : List Byte) : Decidable (Delimited path) := inferInstanceAs (Decidable (_ ∨ _))

theorem Delimited.front {path : List Byte} (h : Delimited path) :
    ∃ c rest, path = c :: rest ∧ inAuthority c = false ∧ inScheme c = false ∧ c ≠ 0 := by
  rcases h with h | h
  · obtain ⟨rest, whole⟩ := List.head?_eq_some_iff.mp h
    exact ⟨slash, rest, whole, by decide⟩
  · obtain ⟨rest, whole⟩ := List.head?_eq_some_iff.mp h
    exact ⟨backslash, rest, whole, by decide⟩

structure Parsed (uri : Uri) : Prop where
  scheme : ∀ c ∈ uri.scheme, inScheme c = true
  userInfo : ∀ c ∈ uri.userInfo, inAuthority c = true
  first : at_ ∉ uri.userInfo
  host : ∀ c ∈ uri.host, inAuthority c = true
  port : uri.port < 2 ^ 16
  usual : uri.port = 0 → getDefaultPortForScheme uri.scheme = 0
  path : ∀ c ∈ uri.path, inPath c = true
  nonempty : uri.path ≠ []
  absolute : uri.host ≠ [] → Delimited uri.path
  relative : uri.scheme = [] → matchScheme uri.path = ([], uri.path)
  query : ∀ c ∈ uri.query, inQuery c = true
  fragment : 0 ∉ uri.fragment

theorem matchScheme_inside (string : List Byte) : ∀ c ∈ (matchScheme string).1, inScheme c = true := by
  rcases matchScheme_cases string with plain | ⟨name, rest, _, inside, _, cut⟩
  · rw [plain]
    exact nofun
  · rwa [cut]

theorem matchAuthority_inside (string : List Byte) :
    ∀ c ∈ (matchAuthority string).1, inAuthority c = true := by
  rcases matchAuthority_cases string with absent | ⟨rest, _, cut⟩
  · rw [absent]
    exact nofun
  · rw [cut]
    exact fun c hc => List.mem_takeWhile_imp hc

theorem matchQuery_inside (string : List Byte) : ∀ c ∈ (matchQuery string).1, inQuery c = true := by
  unfold matchQuery
  split
  next => exact nofun
  next =>
    split
    next => exact fun c hc => List.mem_takeWhile_imp hc
    next => exact nofun

/-- Behind an authority, the path is empty or begins with a slash or a backslash. -/
theorem path_behind (rest : List Byte) :
    (rest.dropWhile inAuthority).takeWhile inPath = [] ∨
      Delimited ((rest.dropWhile inAuthority).takeWhile inPath) := by
  have stop := run_stop inAuthority rest
  cases dropped : rest.dropWhile inAuthority with
  | nil => exact Or.inl rfl
  | cons c more =>
    rw [dropped] at stop
    have outside := stop c rfl
    by_cases hc : inPath c = true
    · right
      have same : c = slash ∨ c = backslash := by
        by_contra other
        rw [not_or] at other
        simp only [inPath, decide_eq_true_eq] at hc
        simp [inAuthority, other, hc] at outside
      rw [List.takeWhile_cons_of_pos hc]
      exact same.imp (congrArg some) (congrArg some)
    · left
      exact List.takeWhile_cons_of_neg hc

theorem matchFragment_inside {string fragment : List Byte} (h : matchFragment string = some fragment) :
    0 ∉ fragment := by
  unfold matchFragment at h
  split at h
  next =>
    cases h
    exact List.not_mem_nil
  next =>
    split at h
    next read =>
      cases h
      exact all_inFragment_iff.mp read.2
    next => cases h

theorem userInfoOf_inside {authority : List Byte} (h : ∀ c ∈ authority, inAuthority c = true) :
    at_ ∉ (userInfoOf authority).1 ∧ (∀ c ∈ (userInfoOf authority).1, inAuthority c = true) ∧
      ∀ c ∈ (userInfoOf authority).2, inAuthority c = true := by
  rcases userInfoOf_cases authority with ⟨_, plain⟩ | ⟨userInfo, rest, fresh, rfl, cut⟩
  · rw [plain]
    exact ⟨List.not_mem_nil, nofun, h⟩
  · rw [cut]
    refine ⟨fresh, fun c hc => h c ?_, fun c hc => h c ?_⟩
    · exact List.mem_append_left _ hc
    · exact List.mem_append_right _ (List.mem_cons_of_mem _ hc)

theorem hostPortOf_lt (authority : List Byte) : (hostPortOf authority).2 < 2 ^ 16 := by
  rcases hostPortOf_cases authority with plain | ⟨host, digits, port, _, parsed, cut⟩
  · rw [plain]
    change 0 < 2 ^ 16
    omega
  · rw [cut]
    exact stoui16_lt parsed

theorem defaultPorts_lt (scheme : List Byte) : getDefaultPortForScheme scheme < 2 ^ 16 := by
  have bounded : ∀ entry ∈ defaultPorts, entry.2 < 2 ^ 16 := by decide
  unfold getDefaultPortForScheme
  cases found : UnorderedMap.find defaultPorts scheme with
  | none =>
    change 0 < 2 ^ 16
    omega
  | some port => exact bounded _ (UnorderedMap.mem_of_find found)

theorem matchScheme_behind {path : List Byte} (h : path = [] ∨ Delimited path) :
    matchScheme path = ([], path) := by
  rcases h with rfl | h
  · rfl
  · obtain ⟨c, rest, rfl, _, outside, _⟩ := h.front
    exact matchScheme_delimited outside rest

section Parts

variable {string : List Byte} {parts : Uri} (h : partsOf string = some parts)

include h

/-- The parts by what the expression leaves for each. -/
theorem parts_of : ∃ fragment, 0 ∉ fragment ∧
    parts =
      { scheme := (matchScheme string).1
        userInfo := (userInfoOf (matchAuthority (matchScheme string).2).1).1
        host := (hostPortOf (userInfoOf (matchAuthority (matchScheme string).2).1).2).1
        port := (hostPortOf (userInfoOf (matchAuthority (matchScheme string).2).1).2).2
        path := (matchAuthority (matchScheme string).2).2.takeWhile inPath
        query := (matchQuery ((matchAuthority (matchScheme string).2).2.dropWhile inPath)).1
        fragment } := by
  unfold partsOf regexMatch at h
  rw [Option.map_map] at h
  obtain ⟨fragment, read, whole⟩ := Option.map_eq_some_iff.mp h
  exact ⟨fragment, matchFragment_inside read, whole.symm⟩

theorem parts_absolute (hosted : parts.host ≠ []) : parts.path = [] ∨ Delimited parts.path := by
  obtain ⟨fragment, _, rfl⟩ := parts_of h
  rcases matchAuthority_cases (matchScheme string).2 with absent | ⟨rest, _, cut⟩
  · dsimp only at hosted
    rw [absent] at hosted
    exact absurd rfl hosted
  · dsimp only
    rw [cut]
    exact path_behind rest

theorem parts_relative (bare : parts.scheme = []) : matchScheme parts.path = ([], parts.path) := by
  obtain ⟨fragment, _, rfl⟩ := parts_of h
  have plain : matchScheme string = ([], string) := matchScheme_none bare
  dsimp only
  rcases matchAuthority_cases (matchScheme string).2 with absent | ⟨rest, _, cut⟩
  · rw [absent, plain]
    have whole : matchScheme (string.takeWhile inPath ++ string.dropWhile inPath) =
        ([], string.takeWhile inPath ++ string.dropWhile inPath) := by
      rwa [List.takeWhile_append_dropWhile]
    exact matchScheme_of_append whole
  · rw [cut]
    exact matchScheme_behind (path_behind rest)

theorem parsed_filled : Parsed (filled parts) := by
  have absolute := parts_absolute h
  have relative := parts_relative h
  obtain ⟨fragment, clear, whole⟩ := parts_of h
  have authority := matchAuthority_inside (matchScheme string).2
  obtain ⟨first, userInfo, rest⟩ := userInfoOf_inside authority
  have host : ∀ c ∈ parts.host, inAuthority c = true := by
    rw [whole]
    exact fun c hc => rest c ((hostPortOf_begins _).subset hc)
  have path : ∀ c ∈ parts.path, inPath c = true := by
    rw [whole]
    exact fun c hc => List.mem_takeWhile_imp hc
  have query : ∀ c ∈ parts.query, inQuery c = true := by
    rw [whole]
    exact matchQuery_inside _
  have port : parts.port < 2 ^ 16 := by
    rw [whole]
    exact hostPortOf_lt _
  have scheme : ∀ c ∈ parts.scheme, inScheme c = true := by
    rw [whole]
    exact matchScheme_inside string
  have fragment : 0 ∉ parts.fragment := by
    rw [whole]
    exact clear
  have user : at_ ∉ parts.userInfo ∧ ∀ c ∈ parts.userInfo, inAuthority c = true := by
    rw [whole]
    exact ⟨first, userInfo⟩
  have known := defaultPorts_lt parts.scheme
  clear whole
  refine ⟨scheme, user.2, user.1, host, ?_, ?_, ?_, ?_, fun hosted => ?_, fun bare => ?_, query, fragment⟩
  · unfold filled
    dsimp only
    split
    next => exact known
    next => exact port
  · unfold filled
    dsimp only
    split
    next => exact id
    next given => exact fun zero => absurd zero given
  · unfold filled
    dsimp only
    split
    next => decide
    next => exact path
  · unfold filled
    dsimp only
    split
    next => decide
    next given => exact given
  · unfold filled
    dsimp only
    split
    next => decide
    next given => exact (absolute hosted).resolve_left given
  · unfold filled
    dsimp only
    split
    next => exact matchScheme_behind (Or.inr (Or.inl rfl))
    next => exact relative bare

end Parts

theorem parsed {string : List Byte} {uri : Uri} (h : parse string = some uri) : Parsed uri := by
  obtain ⟨parts, found, rfl⟩ := parse_some h
  exact parsed_filled found

end Parsed

end Uri

end Hlib
