import Hlib.SockAddrReuse

namespace Hlib

namespace SockAddr

section Failure

variable {sa : SockAddr} {string : List Byte} {mask : Mask}

/-- Whether an address is stored before the text turns out to be a path at most. -/
def Form.afterAddress : Form → Bool
  | .unixAfterInet6 _ => true
  | .unixAfterInet _ => true
  | _ => false

/-- A path that is refused leaves the family as it was, unless the mask refuses it. -/
theorem toUnix_cases (sa : SockAddr) (string : List Byte) (mask : Mask) :
    (0 = Unix &&& mask ∧ sa.toUnix string mask = (false, sa.clear)) ∨
    (0 ≠ Unix &&& mask ∧ string.length + 1 > sizeofSunPath ∧ sa.toUnix string mask = (false, sa)) ∨
      (0 ≠ Unix &&& mask ∧ string.length + 1 ≤ sizeofSunPath ∧
        sa.toUnix string mask = (true, sa.storePath string)) := by
  unfold toUnix
  by_cases refused : 0 = Unix &&& mask
  · rw [if_pos refused]
    exact Or.inl ⟨refused, rfl⟩
  · rw [if_neg refused]
    by_cases long : string.length + 1 > sizeofSunPath
    · rw [if_pos long]
      exact Or.inr (Or.inl ⟨refused, long, rfl⟩)
    · rw [if_neg long]
      exact Or.inr (Or.inr ⟨refused, Nat.le_of_not_lt long, rfl⟩)

def empty (sa : SockAddr) : Bool := AF_UNSPEC = sa.family

theorem empty_iff (sa : SockAddr) : sa.empty = true ↔ sa.family = AF_UNSPEC := by
  unfold empty
  rw [decide_eq_true_iff, eq_comm]

theorem clear_empty (sa : SockAddr) : sa.clear.empty = true := rfl

/-- A call that fails leaves no address behind. -/
def FailsEmpty (call : Bool × SockAddr) : Prop := call.1 = false → call.2.empty = true

theorem toUnix_failsEmpty_iff (sa : SockAddr) (string : List Byte) (mask : Mask) :
    FailsEmpty (sa.toUnix string mask) ↔
      ¬(Unix &&& mask ≠ 0 ∧ string.length + 1 > sizeofSunPath) ∨ sa.empty = true := by
  rcases toUnix_cases sa string mask with ⟨refused, unix⟩ | ⟨given, long, unix⟩ | ⟨_, short, unix⟩
  · rw [unix]
    exact iff_of_true (fun _ => clear_empty sa) (Or.inl fun h => h.1 refused.symm)
  · rw [unix, or_iff_right (not_not.mpr ⟨given.symm, long⟩)]
    exact ⟨fun empty => empty rfl, fun empty _ => empty⟩
  · rw [unix]
    exact iff_of_true nofun (Or.inl fun h => Nat.not_lt.mpr short h.2)

theorem finish_failsEmpty_iff (unspecified : sa.empty = true) (string : List Byte) (mask : Mask) (form : Form) :
    FailsEmpty (form.finish sa string mask) ↔
      ¬(Unix &&& mask ≠ 0 ∧ string.length + 1 > sizeofSunPath ∧ form.afterAddress = true) := by
  have after (sa' : SockAddr) (stored : sa'.family ≠ AF_UNSPEC) : FailsEmpty (sa'.toUnix string mask) ↔
      ¬(Unix &&& mask ≠ 0 ∧ string.length + 1 > sizeofSunPath ∧ true = true) := by
    rw [toUnix_failsEmpty_iff, or_iff_left (mt (empty_iff sa').mp stored), eq_self, and_true]
  cases form with
  | inet6 addr port => exact iff_of_true nofun fun h => Bool.false_ne_true h.2.2
  | inet addr port => exact iff_of_true nofun fun h => Bool.false_ne_true h.2.2
  | unix =>
    refine iff_of_true ?_ fun h => Bool.false_ne_true h.2.2
    exact (toUnix_failsEmpty_iff sa string mask).mpr (Or.inr unspecified)
  | unixAfterInet6 addr =>
    refine after (sa.storeIn6 addr) ?_
    rw [storeIn6_family]
    decide
  | unixAfterInet addr =>
    refine after (sa.storeIn addr) ?_
    rw [storeIn_family]
    decide

/-- A parse that fails leaves the object empty, but not where the text begins with an address that the mask
allows, has no port behind it, and is too long for a path that would be allowed as well. -/
theorem parse_failsEmpty_iff (inet : Inet) (sa : SockAddr) (string : List Byte) (mask : Mask) :
    FailsEmpty (sa.parse inet string mask) ↔
      ¬(allowed string mask ∧ Unix &&& mask ≠ 0 ∧ string.length + 1 > sizeofSunPath ∧
        (form inet string).afterAddress = true) := by
  rcases parse_form inet sa string mask with ⟨looks, parsed⟩ | ⟨refused, parsed⟩
  · have unspecified := (empty_iff _).mpr (setFamily_family sa (by decide : AF_UNSPEC < 2 ^ 16))
    rw [parsed, finish_failsEmpty_iff unspecified]
    exact not_congr (and_iff_right looks).symm
  · rw [parsed]
    exact iff_of_true (fun _ => clear_empty sa) fun h => refused h.1

/-- An address in brackets, and 110 characters instead of a port. -/
def overlong : List Byte := ascii '[' :: sampleText ++ [ascii ']', ascii ':'] ++ List.replicate 110 (ascii 'x')

theorem address_left_behind :
    ¬∀ (inet : Inet) (sa : SockAddr) (string : List Byte) (mask : Mask), FailsEmpty (sa.parse inet string mask) := by
  intro h
  have failed : (parse sampleInet (fun _ => 0) overlong All).1 = false := by decide +kernel
  have kept : (parse sampleInet (fun _ => 0) overlong All).2.empty = false := by decide +kernel
  have empty := h sampleInet (fun _ => 0) overlong All failed
  rw [kept] at empty
  cases empty

end Failure

section Selection

variable {sa : SockAddr} {string : List Byte} {mask : Mask}

/-- A family of those that the mask selects. -/
def InMask (family : Nat) (mask : Mask) : Prop := (1 <<< family : Mask) &&& mask ≠ 0

/-- What is accepted has a family in the mask, and a path that fits is accepted where paths are. -/
structure Selects (inet : Inet) (sa : SockAddr) (string : List Byte) (mask : Mask) : Prop where
  selected : (sa.parse inet string mask).1 = true → InMask (sa.parse inet string mask).2.family mask
  path : Unix &&& mask ≠ 0 → string.length + 1 ≤ sizeofSunPath → (sa.parse inet string mask).1 = true

theorem toUnix_selected (h : (sa.toUnix string mask).1 = true) : InMask (sa.toUnix string mask).2.family mask := by
  rcases toUnix_cases sa string mask with ⟨_, unix⟩ | ⟨_, _, unix⟩ | ⟨given, short, unix⟩
  · rw [unix] at h
    cases h
  · rw [unix] at h
    cases h
  · unfold sizeofSunPath at short
    rw [unix, storePath_family (by omega)]
    exact given.symm

/-- An address is stored only if the mask allows what the text looks like. -/
theorem form_allowed {inet : Inet} (looks : allowed string mask) :
    (∀ addr port, form inet string = .inet6 addr port → IPv6 &&& mask ≠ 0) ∧
      ∀ addr port, form inet string = .inet addr port → IPv4 &&& mask ≠ 0 := by
  unfold allowed at looks
  unfold form
  by_cases colons : count string (ascii ':') ≥ 2
  · rw [if_pos colons] at looks
    rw [if_pos colons]
    refine ⟨fun _ _ _ => looks, fun addr port read => ?_⟩
    dsimp only at read
    generalize (if startsWith string (ascii '[') then 1 else 0) = start at read
    split at read
    next => cases read
    next =>
      split at read
      next => cases read
      next =>
        split at read
        next =>
          split at read
          next => cases read
          next => cases read
        next => cases read
  · rw [if_neg colons] at looks
    rw [if_neg colons]
    by_cases dots : 3 = count string (ascii '.')
    · rw [if_pos dots] at looks
      rw [if_pos dots]
      refine ⟨fun addr port read => ?_, fun _ _ _ => looks⟩
      dsimp only at read
      split at read
      next => cases read
      next =>
        split at read
        next =>
          split at read
          next => cases read
          next => cases read
        next => cases read
    · rw [if_neg dots]
      refine ⟨fun _ _ read => ?_, fun _ _ read => ?_⟩ <;> cases read

theorem parse_selected (inet : Inet) (h : (sa.parse inet string mask).1 = true) :
    InMask (sa.parse inet string mask).2.family mask := by
  rcases parse_form inet sa string mask with ⟨looks, parsed⟩ | ⟨_, parsed⟩
  · rw [parsed] at h ⊢
    obtain ⟨inet6, inet4⟩ := @form_allowed string mask inet looks
    cases read : form inet string with
    | inet6 addr port =>
      show InMask (((sa.setFamily AF_UNSPEC).storeIn6 addr).storePort port).family mask
      rw [storePort_family, storeIn6_family]
      exact inet6 addr port read
    | inet addr port =>
      show InMask (((sa.setFamily AF_UNSPEC).storeIn addr).storePort port).family mask
      rw [storePort_family, storeIn_family]
      exact inet4 addr port read
    | unix =>
      rw [read] at h
      exact toUnix_selected h
    | unixAfterInet6 addr =>
      rw [read] at h
      exact toUnix_selected h
    | unixAfterInet addr =>
      rw [read] at h
      exact toUnix_selected h
  · rw [parsed] at h
    cases h

theorem finish_path (sa : SockAddr) (unix : Unix &&& mask ≠ 0) (short : string.length + 1 ≤ sizeofSunPath)
    (form : Form) : (form.finish sa string mask).1 = true := by
  have taken (sa : SockAddr) : (sa.toUnix string mask).1 = true := by
    rcases toUnix_cases sa string mask with ⟨refused, _⟩ | ⟨_, long, _⟩ | ⟨_, _, stored⟩
    · exact absurd refused.symm unix
    · exact absurd long (Nat.not_lt.mpr short)
    · rw [stored]
  cases form with
  | inet6 addr port => rfl
  | inet addr port => rfl
  | unix => exact taken sa
  | unixAfterInet6 addr => exact taken (sa.storeIn6 addr)
  | unixAfterInet addr => exact taken (sa.storeIn addr)

/-- The mask selects, and a path is accepted unless it looks like an address that is not allowed. -/
theorem selects_iff (inet : Inet) (sa : SockAddr) (string : List Byte) (mask : Mask) :
    Selects inet sa string mask ↔
      (Unix &&& mask ≠ 0 → string.length + 1 ≤ sizeofSunPath → allowed string mask) := by
  constructor
  · intro h unix short
    rcases parse_form inet sa string mask with ⟨looks, _⟩ | ⟨_, parsed⟩
    · exact looks
    · have accepted := h.path unix short
      rw [parsed] at accepted
      cases accepted
  · intro h
    refine ⟨parse_selected inet, fun unix short => ?_⟩
    rcases parse_form inet sa string mask with ⟨_, parsed⟩ | ⟨refused, _⟩
    · rw [parsed]
      exact finish_path _ unix short _
    · exact absurd (h unix short) refused

/-- `a:b:c` is no path if paths are all that is allowed. -/
theorem path_refused :
    ¬∀ (inet : Inet) (sa : SockAddr) (string : List Byte) (mask : Mask), Selects inet sa string mask := by
  intro h
  have accepted := (h sampleInet (fun _ => 0) (literal "a:b:c") Unix).path (by decide) (by decide)
  exact absurd accepted (by decide)

end Selection

end SockAddr

end Hlib
