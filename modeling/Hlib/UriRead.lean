import Hlib.UriParts

namespace Hlib

open Delimiter

namespace Uri

section Print

/-- A component that `%s` prints as it is: without a NUL, and with its delimiter within `INT_MAX`. -/
def Shown (value : List Byte) : Prop := 0 ∉ value ∧ value.length + 1 ≤ 2 ^ 31 - 1

def shown (value : List Byte) : List Byte :=
  if (cString value).length + 1 ≤ 2 ^ 31 - 1 then cString value else []

/-- A component with its delimiter, which `to_string` leaves out with an empty component. -/
def part (value formatted : List Byte) : List Byte :=
  if value = [] then [] else formatTo [] formatted

theorem cString_all {value : List Byte} {keep : Byte → Bool} (h : ∀ c ∈ value, keep c = true) :
    ∀ c ∈ cString value, keep c = true :=
  fun c hc => h c ((cString_sublist value).subset hc)

theorem shown_all {value : List Byte} {keep : Byte → Bool} (h : ∀ c ∈ value, keep c = true) :
    ∀ c ∈ shown value, keep c = true := by
  unfold shown
  split
  next => exact cString_all h
  next => exact nofun

theorem part_front (value : List Byte) (delimiter : Byte) :
    part value (delimiter :: cString value) = delimiter :: shown value ∨
      part value (delimiter :: cString value) = [] ∧ shown value = [] := by
  unfold part shown formatTo
  by_cases empty : value = []
  · rw [if_pos empty, empty]
    exact Or.inr ⟨rfl, rfl⟩
  · rw [if_neg empty, List.length_cons]
    by_cases fits : (cString value).length + 1 ≤ 2 ^ 31 - 1
    · rw [if_pos fits, if_pos fits]
      exact Or.inl rfl
    · rw [if_neg fits, if_neg fits]
      exact Or.inr ⟨rfl, rfl⟩

def printedTail (query fragment : List Byte) : List Byte :=
  part query (question :: cString query) ++ part fragment (hash :: cString fragment)

end Print

section Tail

theorem part_front_head (value : List Byte) (delimiter : Byte) :
    ∀ c ∈ (part value (delimiter :: cString value)).head?, c = delimiter := by
  rcases part_front value delimiter with printed | ⟨absent, _⟩
  · rw [printed]
    rintro c ⟨⟩
    rfl
  · rw [absent]
    exact nofun

theorem tail_stop (query fragment : List Byte) :
    ∀ c ∈ (printedTail query fragment).head?, inPath c = false := by
  unfold printedTail
  rcases part_front query question with printed | ⟨absent, _⟩
  · rw [printed]
    rintro c ⟨⟩
    decide
  · rw [absent, List.nil_append]
    intro c hc
    rw [part_front_head fragment hash c hc]
    decide

end Tail

end Uri

end Hlib
