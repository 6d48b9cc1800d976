import Mathlib.Data.List.Nodup
import Mathlib.Data.List.Perm.Basic

namespace UnorderedMap

variable {κ ν : Type*}

def Distinct (m : List (κ × ν)) : Prop := (m.map Prod.fst).Nodup

theorem distinct_filter {m : List (κ × ν)} (hm : Distinct m) (keep : κ × ν → Bool) :
    Distinct (m.filter keep) :=
  hm.sublist (List.filter_sublist.map Prod.fst)

theorem distinct_perm {m m' : List (κ × ν)} (h : m.Perm m') (hm : Distinct m) : Distinct m' :=
  ((h.map Prod.fst).nodup_iff).mp hm

variable [DecidableEq κ]

/-- The value under a key, in a map given by its entries in some order. -/
def find : List (κ × ν) → κ → Option ν
  | [], _ => none
  | (k, v) :: m, key => if k = key then some v else find m key

/-- The map with a value put under a key, in the place of the old one if there is one. -/
def assign : List (κ × ν) → κ → ν → List (κ × ν)
  | [], key, value => [(key, value)]
  | (k, v) :: m, key, value => if k = key then (key, value) :: m else (k, v) :: assign m key value

/-- The map with a value put under a key that has none. -/
def emplace (m : List (κ × ν)) (key : κ) (value : ν) : List (κ × ν) :=
  if (find m key).isSome then m else (key, value) :: m

def erase (m : List (κ × ν)) (key : κ) : List (κ × ν) := m.filter fun entry => entry.1 ≠ key

theorem mem_of_find {m : List (κ × ν)} {key : κ} {value : ν} (h : find m key = some value) :
    (key, value) ∈ m := by
  induction m with
  | nil => cases h
  | cons entry m ih =>
    rw [find] at h
    split at h
    next own =>
      cases h
      exact own ▸ List.mem_cons_self
    next => exact List.mem_cons_of_mem _ (ih h)

theorem find_of_mem {m : List (κ × ν)} (hm : Distinct m) {key : κ} {value : ν}
    (h : (key, value) ∈ m) : find m key = some value := by
  induction m with
  | nil => cases h
  | cons entry m ih =>
    obtain ⟨fresh, hm⟩ := List.nodup_cons.mp hm
    rcases List.mem_cons.mp h with rfl | later
    · exact if_pos rfl
    · have other : entry.1 ≠ key := by
        rintro rfl
        exact fresh (List.mem_map.mpr ⟨_, later, rfl⟩)
      rw [find, if_neg other]
      exact ih hm later

theorem find_iff_mem {m : List (κ × ν)} (hm : Distinct m) {key : κ} {value : ν} :
    find m key = some value ↔ (key, value) ∈ m :=
  ⟨mem_of_find, find_of_mem hm⟩

@[simp] theorem find_assign_self (m : List (κ × ν)) (key : κ) (value : ν) :
    find (assign m key value) key = some value := by
  induction m with
  | nil => exact if_pos rfl
  | cons entry m ih =>
    rw [assign]
    split
    next => exact if_pos rfl
    next other => rw [find, if_neg other, ih]

theorem find_assign_of_ne (m : List (κ × ν)) {key other : κ} (value : ν) (h : other ≠ key) :
    find (assign m key value) other = find m other := by
  induction m with
  | nil => exact if_neg h.symm
  | cons entry m ih =>
    rw [assign]
    split
    next own => rw [find, if_neg h.symm, find, if_neg (own ▸ h.symm)]
    next => rw [find, find, ih]

theorem find_emplace (m : List (κ × ν)) (key : κ) (value : ν) (other : κ) :
    find (emplace m key value) other = (find m other).or (if key = other then some value else none) := by
  unfold emplace
  cases held : find m key with
  | none =>
    rw [if_neg (by simp), find]
    split
    next own => rw [← own, held, Option.none_or]
    next => rw [Option.or_none]
  | some old =>
    rw [if_pos (by simp)]
    split
    next own => rw [← own, held, Option.some_or]
    next => rw [Option.or_none]

/-- Of several values put under one key, the first is kept. -/
theorem find_emplace_all (m entries : List (κ × ν)) (key : κ) :
    find (entries.foldl (fun m entry => emplace m entry.1 entry.2) m) key =
      (find m key).or ((entries.find? fun entry => entry.1 = key).map Prod.snd) := by
  induction entries generalizing m with
  | nil => rw [List.foldl_nil, List.find?_nil, Option.map_none, Option.or_none]
  | cons entry entries ih =>
    rw [List.foldl_cons, ih, find_emplace, Option.or_assoc, List.find?_cons]
    by_cases own : entry.1 = key
    · rw [if_pos own, decide_eq_true own, Option.some_or]
      rfl
    · rw [if_neg own, decide_eq_false own, Option.none_or]

theorem keys_assign (m : List (κ × ν)) (key : κ) (value : ν) {other : κ} :
    other ∈ (assign m key value).map Prod.fst → other = key ∨ other ∈ m.map Prod.fst := by
  induction m with
  | nil => exact fun h => Or.inl (List.mem_singleton.mp h)
  | cons entry m ih =>
    rw [assign]
    split
    next => exact fun h => (List.mem_cons.mp h).imp id (List.mem_cons_of_mem _)
    next =>
      intro h
      rcases List.mem_cons.mp h with rfl | later
      · exact Or.inr List.mem_cons_self
      · exact (ih later).imp id (List.mem_cons_of_mem _)

theorem distinct_assign {m : List (κ × ν)} (hm : Distinct m) (key : κ) (value : ν) :
    Distinct (assign m key value) := by
  induction m with
  | nil => exact List.nodup_singleton key
  | cons entry m ih =>
    obtain ⟨fresh, hm⟩ := List.nodup_cons.mp hm
    rw [assign]
    split
    next own => exact List.nodup_cons.mpr ⟨own ▸ fresh, hm⟩
    next other =>
      refine List.nodup_cons.mpr ⟨fun h => ?_, ih hm⟩
      exact (keys_assign m key value h).elim other fresh

theorem find_filter {m : List (κ × ν)} (hm : Distinct m) (keep : κ × ν → Bool) (key : κ) :
    find (m.filter keep) key = (find m key).filter fun value => keep (key, value) := by
  ext value
  rw [find_iff_mem (distinct_filter hm keep), List.mem_filter, Option.filter_eq_some_iff,
    find_iff_mem hm]

theorem key_iff {m : List (κ × ν)} {key : κ} : key ∈ m.map Prod.fst ↔ find m key ≠ none := by
  induction m with
  | nil => simp [find]
  | cons entry m ih =>
    rw [List.map_cons, List.mem_cons, find, ih]
    by_cases own : entry.1 = key
    · simp [own]
    · simp [own, Ne.symm own]

theorem erase_absent {m : List (κ × ν)} {key : κ} (h : find m key = none) : erase m key = m := by
  apply List.filter_eq_self.mpr
  intro entry held
  apply decide_eq_true
  rintro rfl
  exact key_iff.mp (List.mem_map_of_mem held) h

theorem erase_emplace {m : List (κ × ν)} {key : κ} (h : find m key = none) (value : ν) :
    erase (emplace m key value) key = m := by
  have added : emplace m key value = (key, value) :: m := by simp [emplace, h]
  rw [added, erase, List.filter_cons_of_neg (by simp)]
  exact erase_absent h

theorem distinct_emplace {m : List (κ × ν)} (hm : Distinct m) {key : κ} (h : find m key = none)
    (value : ν) : Distinct (emplace m key value) := by
  have added : emplace m key value = (key, value) :: m := by simp [emplace, h]
  rw [added]
  refine List.nodup_cons.mpr ⟨?_, hm⟩
  intro held
  exact key_iff.mp held h

@[simp] theorem find_erase_self (m : List (κ × ν)) (key : κ) : find (erase m key) key = none := by
  cases h : find (erase m key) key with
  | none => rfl
  | some value =>
    have := (List.mem_filter.mp (mem_of_find h)).2
    simp at this

theorem find_erase_of_ne {m : List (κ × ν)} (hm : Distinct m) {key other : κ} (h : other ≠ key) :
    find (erase m key) other = find m other := by
  rw [erase, find_filter hm]
  cases find m other <;> simp [h]

end UnorderedMap
