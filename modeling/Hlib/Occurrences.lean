import Hlib.Delimiter
import Mathlib.Data.Finset.Max
import Mathlib.Order.Bounds.Basic

namespace Occurrences

open Delimiter

variable {α : Type*} {t whole : List α}

/-- Positions in `text` at which `t` occurs, no two of which overlap. -/
structure Packing (t text : List α) (P : Finset Nat) : Prop where
  occurs : ∀ i ∈ P, t <+: text.drop i
  apart : ∀ i ∈ P, ∀ j ∈ P, i < j → i + t.length ≤ j

/-- Where `t` stands, the first position of a packing may be exchanged for this one: the others lie behind it. -/
theorem Packing.rest {P : Finset Nat} (h : Packing t whole P) {i : Nat} (behind : ∀ j ∈ P, i ≤ j) :
    ∃ Q, Packing t whole Q ∧ P.card ≤ Q.card + 1 ∧ ∀ j ∈ Q, i + t.length ≤ j := by
  by_cases some : P.Nonempty
  · refine ⟨P.erase (P.min' some), ⟨fun j hj => h.occurs j (Finset.mem_of_mem_erase hj), ?_⟩, ?_, ?_⟩
    · intro j hj k hk
      exact h.apart j (Finset.mem_of_mem_erase hj) k (Finset.mem_of_mem_erase hk)
    · rw [Finset.card_erase_of_mem (P.min'_mem some)]
      omega
    · intro j hj
      have inside := Finset.mem_of_mem_erase hj
      have least := P.min'_lt_of_mem_erase_min' some hj
      have first := behind _ (P.min'_mem some)
      have apart := h.apart _ (P.min'_mem some) j inside least
      omega
  · rw [Finset.not_nonempty_iff_eq_empty] at some
    subst some
    exact ⟨∅, h, Nat.zero_le _, nofun⟩

variable [DecidableEq α]

/-- The occurrences that a scan from the left takes, in a text that begins at `i` and of which it skips the first
`skip` elements: whenever `t` stands where the scan is, it goes on behind that. -/
def greedy (t : List α) : Nat → Nat → List α → List Nat
  | _, _, [] => []
  | skip + 1, i, _ :: text => greedy t skip (i + 1) text
  | 0, i, c :: text =>
    if t <+: c :: text then i :: greedy t (t.length - 1) (i + 1) text else greedy t 0 (i + 1) text

theorem greedy_nil (skip i : Nat) : greedy t skip i [] = [] := by
  cases skip with
  | zero => rfl
  | succ skip => rfl

theorem greedy_skip (skip i : Nat) (text : List α) :
    greedy t skip i text = greedy t 0 (i + skip) (text.drop skip) := by
  induction skip generalizing i text with
  | zero => rfl
  | succ skip ih =>
    cases text with
    | nil => rfl
    | cons c text => rw [greedy, ih, List.drop_succ_cons, Nat.add_right_comm, Nat.add_assoc]

/-- The scan moves past what stands in front of the first occurrence, and past that. -/
theorem greedy_first (given : t ≠ []) {text before after : List α} (h : FirstAt t text before after) (i : Nat) :
    greedy t 0 i text =
      (i + before.length) :: greedy t 0 (i + before.length + t.length) after := by
  have positive := List.length_pos_iff.mpr given
  obtain ⟨rfl, first⟩ := h
  induction before generalizing i with
  | nil =>
    cases t with
    | nil => exact absurd rfl given
    | cons c t =>
      have here : c :: t <+: c :: (t ++ after) := List.prefix_append (c :: t) after
      have behind : i + 1 + ((c :: t).length - 1) = i + (c :: t).length := by omega
      rw [List.nil_append, List.cons_append, greedy, if_pos here, greedy_skip, behind]
      exact congrArg (fun rest => i :: greedy (c :: t) 0 (i + (c :: t).length) rest) List.drop_left
  | cons c before ih =>
    have here : ¬t <+: c :: (before ++ (t ++ after)) := first 0 (Nat.succ_pos _)
    have rest := ih (i + 1) fun n hn => first (n + 1) (Nat.succ_lt_succ hn)
    rw [List.cons_append, greedy, if_neg here, rest, List.length_cons]
    simp only [Nat.add_comm, Nat.add_left_comm]

theorem greedy_none {text : List α} (h : ∀ n, ¬t <+: text.drop n) (i : Nat) : greedy t 0 i text = [] := by
  induction text generalizing i with
  | nil => rfl
  | cons c text ih =>
    have here : ¬t <+: c :: text := h 0
    rw [greedy, if_neg here]
    exact ih (fun n => h (n + 1)) (i + 1)

/-- What the scan takes from a place on are occurrences behind it that do not overlap. -/
theorem greedy_sound (given : t ≠ []) (text : List α) {skip i : Nat} (here : whole.drop i = text) :
    (∀ j ∈ greedy t skip i text, i + skip ≤ j ∧ t <+: whole.drop j) ∧
      (greedy t skip i text).Pairwise (fun j k => j + t.length ≤ k) := by
  have positive := List.length_pos_iff.mpr given
  induction text generalizing skip i with
  | nil =>
    rw [greedy_nil]
    exact ⟨nofun, List.Pairwise.nil⟩
  | cons c text ih =>
    have next : whole.drop (i + 1) = text := by
      rw [← List.tail_drop, here]
      rfl
    cases skip with
    | succ skip =>
      obtain ⟨occur, apart⟩ := @ih skip (i + 1) next
      refine ⟨fun j hj => ?_, apart⟩
      obtain ⟨behind, occurs⟩ := occur j hj
      exact ⟨by omega, occurs⟩
    | zero =>
      rw [greedy]
      by_cases stands : t <+: c :: text
      · rw [if_pos stands]
        obtain ⟨occur, apart⟩ := @ih (t.length - 1) (i + 1) next
        constructor
        · intro j hj
          rcases List.mem_cons.mp hj with rfl | hj
          · exact ⟨Nat.le_refl _, here ▸ stands⟩
          · obtain ⟨behind, occurs⟩ := occur j hj
            exact ⟨by omega, occurs⟩
        · refine List.Pairwise.cons (fun j hj => ?_) apart
          have behind := (occur j hj).1
          omega
      · rw [if_neg stands]
        obtain ⟨occur, apart⟩ := @ih 0 (i + 1) next
        refine ⟨fun j hj => ?_, apart⟩
        obtain ⟨behind, occurs⟩ := occur j hj
        exact ⟨by omega, occurs⟩

/-- No packing has more positions from a place on than the scan takes there. -/
theorem greedy_most (given : t ≠ []) (text : List α) {skip i : Nat} (here : whole.drop i = text) {P : Finset Nat}
    (h : Packing t whole P) (behind : ∀ j ∈ P, i + skip ≤ j) : P.card ≤ (greedy t skip i text).length := by
  have positive := List.length_pos_iff.mpr given
  induction text generalizing skip i P with
  | nil =>
    have none : P = ∅ := by
      refine Finset.eq_empty_of_forall_notMem fun j hj => given ?_
      have occurs := h.occurs j hj
      have past : i ≤ j := Nat.le_of_add_right_le (behind j hj)
      rw [List.drop_eq_nil_of_le ((List.drop_eq_nil_iff.mp here).trans past)] at occurs
      exact List.prefix_nil.mp occurs
    rw [none]
    exact Nat.zero_le _
  | cons c text ih =>
    have next : whole.drop (i + 1) = text := by
      rw [← List.tail_drop, here]
      rfl
    cases skip with
    | succ skip => exact @ih skip (i + 1) next P h fun j hj => by have := behind j hj; omega
    | zero =>
      rw [greedy]
      by_cases stands : t <+: c :: text
      · obtain ⟨Q, packing, count, past⟩ := h.rest behind
        rw [if_pos stands, List.length_cons]
        have most := @ih (t.length - 1) (i + 1) next Q packing fun j hj => by
          have := past j hj
          omega
        omega
      · rw [if_neg stands]
        refine @ih 0 (i + 1) next P h fun j hj => ?_
        have past := behind j hj
        have other : j ≠ i := by
          rintro rfl
          exact stands (here ▸ h.occurs j hj)
        omega

/-- The scan from the left takes as many occurrences as there can be without an overlap. -/
theorem greedy_isGreatest (given : t ≠ []) (text : List α) :
    IsGreatest {n | ∃ P, Packing t text P ∧ P.card = n} (greedy t 0 0 text).length := by
  constructor
  · obtain ⟨occur, apart⟩ := @greedy_sound _ t text _ given text 0 0 rfl
    have positive := List.length_pos_iff.mpr given
    have distinct : (greedy t 0 0 text).Nodup := apart.imp fun {j k} h => by omega
    refine ⟨(greedy t 0 0 text).toFinset, ⟨fun j hj => ?_, fun j hj k hk before => ?_⟩,
      List.toFinset_card_of_nodup distinct⟩
    · exact (occur j (List.mem_toFinset.mp hj)).2
    · obtain ⟨a, ha, rfl⟩ := List.getElem_of_mem (List.mem_toFinset.mp hj)
      obtain ⟨b, hb, rfl⟩ := List.getElem_of_mem (List.mem_toFinset.mp hk)
      rcases Nat.lt_trichotomy a b with ordered | rfl | reversed
      · exact List.pairwise_iff_getElem.mp apart a b ha hb ordered
      · exact absurd before (Nat.lt_irrefl _)
      · have behind := List.pairwise_iff_getElem.mp apart b a hb ha reversed
        omega
  · rintro n ⟨P, packing, rfl⟩
    exact greedy_most given text rfl packing fun j _ => Nat.zero_le j

end Occurrences
