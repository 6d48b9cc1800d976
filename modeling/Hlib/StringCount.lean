import Hlib.BufferContents
import Hlib.Loop
import Hlib.Occurrences
import Hlib.SockAddr

namespace Hlib

open Loop Delimiter Occurrences

section Passes

/-- `std::string::find(character, pos)`. -/
def findCharacter (string : List Byte) (character : Byte) (pos : Nat) : Option Nat :=
  (List.range string.length).find? fun i => pos ≤ i ∧ string[i]? = some character

/-- A pass of the loop in `count(string, substring)`, in the state of `count` and `pos`. -/
def countPass (string substring : List Byte) : Body (Nat × Nat) Nat Fault := fun (count, pos) =>
  match Buffer.find string substring pos with
  | none => .ok (.inr count)
  | some pos => .ok (.inl (count + 1, pos + substring.length))

/-- A pass of the loop in `count(string, character)`. -/
def countCharacterPass (string : List Byte) (character : Byte) : Body (Nat × Nat) Nat Fault := fun (count, pos) =>
  match findCharacter string character pos with
  | none => .ok (.inr count)
  | some pos => .ok (.inl (count + 1, pos + 1))

/-- `count(string, substring)` returns `n`. -/
def Counts (string substring : List Byte) (n : Nat) : Prop := Returns (countPass string substring) (0, 0) n

/-- `count(string, character)` returns `n`. -/
def CountsCharacter (string : List Byte) (character : Byte) (n : Nat) : Prop :=
  Returns (countCharacterPass string character) (0, 0) n

end Passes

section Substring

variable {string substring : List Byte}

theorem find_inside (given : substring ≠ []) {pos position : Nat}
    (h : Buffer.find string substring pos = some position) :
    pos ≤ position ∧ position + substring.length ≤ string.length := by
  have positive := List.length_pos_iff.mpr given
  obtain ⟨before, after, rfl, whole, _⟩ := Buffer.find_some h
  have length := congrArg List.length whole
  rw [List.length_drop, List.length_append, List.length_append] at length
  omega

/-- A pass is left where nothing is found, and goes on behind what is found. -/
theorem countPass_cases (string substring : List Byte) (s : Nat × Nat) :
    (Buffer.find string substring s.2 = none ∧ countPass string substring s = .ok (.inr s.1)) ∨
      ∃ position, Buffer.find string substring s.2 = some position ∧
        countPass string substring s = .ok (.inl (s.1 + 1, position + substring.length)) := by
  obtain ⟨count, pos⟩ := s
  dsimp only [countPass]
  cases Buffer.find string substring pos with
  | none => exact Or.inl ⟨rfl, rfl⟩
  | some position => exact Or.inr ⟨position, rfl, rfl⟩

theorem countPass_descends (given : substring ≠ []) :
    Descends (countPass string substring) fun s => string.length - s.2 := by
  intro s t h
  have positive := List.length_pos_iff.mpr given
  rcases countPass_cases string substring s with ⟨_, left⟩ | ⟨position, found, goes⟩
  · cases left.symm.trans h
  · cases goes.symm.trans h
    obtain ⟨forward, inside⟩ := find_inside given found
    show string.length - (position + substring.length) < string.length - s.2
    omega

theorem find_missing (given : substring ≠ []) {pos : Nat} (h : Buffer.find string substring pos = none) (n : Nat) :
    ¬substring <+: (string.drop pos).drop n := by
  intro occurs
  rw [List.drop_drop] at occurs
  have inside : pos + n < string.length := by
    by_contra past
    rw [List.drop_eq_nil_of_le (Nat.le_of_not_lt past)] at occurs
    exact given (List.prefix_nil.mp occurs)
  have missed := List.find?_range_eq_none.mp h (pos + n) (by omega)
  simp [occurs] at missed

/-- The loop takes the occurrences of the scan from the left, from `pos` on. -/
theorem count_greedy (given : substring ≠ []) (s : Nat × Nat) :
    loop (countPass string substring) _ (countPass_descends given) s =
      .ok (s.1 + (greedy substring 0 s.2 (string.drop s.2)).length) := by
  refine loop_induction
    (P := fun s outcome => outcome = .ok (s.1 + (greedy substring 0 s.2 (string.drop s.2)).length)) _ ?_ ?_ ?_ s
  · intro s fault h
    rcases countPass_cases string substring s with ⟨_, left⟩ | ⟨position, _, goes⟩
    · cases left.symm.trans h
    · cases goes.symm.trans h
  · intro s result h
    rcases countPass_cases string substring s with ⟨missing, left⟩ | ⟨position, _, goes⟩
    · cases left.symm.trans h
      rw [greedy_none (find_missing given missing)]
      rfl
    · cases goes.symm.trans h
  · intro s t outcome h rest
    rcases countPass_cases string substring s with ⟨_, left⟩ | ⟨position, found, goes⟩
    · cases left.symm.trans h
    · cases goes.symm.trans h
      obtain ⟨before, after, rfl, first⟩ := Buffer.find_some found
      have behind : string.drop (s.2 + before.length + substring.length) = after := by
        rw [Nat.add_assoc, ← List.drop_drop, first.whole, ← List.append_assoc, ← List.length_append, List.drop_left]
      rw [rest, greedy_first given first, List.length_cons, behind, Nat.add_right_comm, Nat.add_assoc]

theorem counts_iff (given : substring ≠ []) (n : Nat) :
    Counts string substring n ↔ n = (greedy substring 0 0 string).length := by
  rw [Counts, returns_iff (countPass_descends given), count_greedy given, Nat.zero_add, Except.ok.injEq, eq_comm]
  rfl

/-- The empty string is found where the search begins, and the loop stays there. -/
theorem count_nothing (string : List Byte) (n : Nat) : ¬Counts string [] n := by
  have found : Buffer.find string [] 0 = some 0 :=
    List.find?_range_eq_some.mpr ⟨decide_eq_true ⟨Nat.le_refl _, List.nil_prefix⟩, by simp, nofun⟩
  rintro ⟨s, v, left⟩
  have stays : s.2 = 0 := by
    refine v.invariant (fun s => s.2 = 0) rfl fun s t here h => ?_
    rcases countPass_cases string [] s with ⟨_, left⟩ | ⟨position, again, goes⟩
    · cases left.symm.trans h
    · cases goes.symm.trans h
      rw [here, found] at again
      cases again
      rfl
  rcases countPass_cases string [] s with ⟨missing, _⟩ | ⟨position, _, goes⟩
  · rw [stays, found] at missing
    cases missing
  · cases goes.symm.trans left

end Substring

section Character

variable (string : List Byte) (character : Byte)

theorem findCharacter_eq (pos : Nat) : findCharacter string character pos = Buffer.find string [character] pos := by
  have same (i : Nat) : string[i]? = some character ↔ [character] <+: string.drop i := by
    rw [← List.head?_drop]
    cases string.drop i with
    | nil => simp
    | cons c rest => simp [List.cons_prefix_cons, eq_comm]
  unfold findCharacter Buffer.find
  rw [List.range_succ, List.find?_append]
  simp [same]

theorem countCharacter_iff (n : Nat) : CountsCharacter string character n ↔ Counts string [character] n := by
  have same : countCharacterPass string character = countPass string [character] := by
    funext ⟨count, pos⟩
    rw [countCharacterPass, findCharacter_eq, countPass]
    rfl
  rw [CountsCharacter, same, Counts]

theorem greedy_character (i : Nat) : (greedy [character] 0 i string).length = string.count character := by
  induction string generalizing i with
  | nil => rfl
  | cons c string ih =>
    rw [greedy, List.count_cons]
    by_cases here : c = character
    · rw [if_pos (List.cons_prefix_cons.mpr ⟨here.symm, List.nil_prefix⟩), if_pos (beq_iff_eq.mpr here),
        List.length_cons]
      exact congrArg (· + 1) (ih (i + 1))
    · rw [if_neg fun occurs => here (List.cons_prefix_cons.mp occurs).1.symm,
        if_neg fun same => here (beq_iff_eq.mp same)]
      exact ih (i + 1)

/-- What `parse` of a socket address counts. -/
theorem countsCharacter_count (n : Nat) : CountsCharacter string character n ↔ n = SockAddr.count string character := by
  rw [countCharacter_iff, counts_iff (List.cons_ne_nil _ _), greedy_character]
  rfl

end Character

/-- `count(string, substring)` returns, and what it returns for a substring that is not empty is the number of
occurrences that the scan from the left takes, the greatest number of occurrences that do not overlap. For a
substring of one character it is what `count(string, character)` returns. -/
structure CountsOccurrences (string substring : List Byte) : Prop where
  terminates : ∃ n, Counts string substring n
  scanned : substring ≠ [] → ∀ n, Counts string substring n → n = (greedy substring 0 0 string).length
  greatest : substring ≠ [] → ∀ n, Counts string substring n →
    IsGreatest {k | ∃ P, Packing substring string P ∧ P.card = k} n
  character : ∀ character, substring = [character] →
    ∀ n, CountsCharacter string character n ↔ Counts string substring n

/-- Every substring but the empty one is counted. -/
theorem count_iff (string substring : List Byte) : CountsOccurrences string substring ↔ substring ≠ [] := by
  constructor
  · rintro h rfl
    obtain ⟨n, counted⟩ := h.terminates
    exact count_nothing string n counted
  · intro given
    refine ⟨⟨_, (counts_iff given _).mpr rfl⟩, fun _ n => (counts_iff given n).mp, fun _ n counted => ?_, ?_⟩
    · rw [(counts_iff given n).mp counted]
      exact greedy_isGreatest given string
    · rintro character rfl
      exact countCharacter_iff string character

/-- `count("", "")` does not return. -/
theorem count_diverges : ¬∀ string substring : List Byte, CountsOccurrences string substring := by
  intro h
  obtain ⟨n, counted⟩ := (h [] []).terminates
  exact count_nothing [] n counted

end Hlib
