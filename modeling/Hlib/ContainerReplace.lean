import Mathlib.Data.List.Sort
import Mathlib.Data.List.InsertIdx
import Hlib.UnorderedMap

namespace Hlib

/-- Where an associative container puts a new entry among its entries. -/
structure Placement (κ ν : Type) where
  insert : κ × ν → List (κ × ν) → List (κ × ν)
  perm : ∀ entry m, (insert entry m).Perm (entry :: m)

namespace Placement

variable {κ ν : Type}

/-- `std::map`: in the order of the keys. -/
def ordered [LinearOrder κ] : Placement κ ν where
  insert := List.orderedInsert fun entry other => entry.1 ≤ other.1
  perm := List.perm_orderedInsert _

/-- `std::unordered_map`: at the position that the buckets give. -/
def unordered (position : κ → List (κ × ν) → Nat) : Placement κ ν where
  insert entry m := m.insertIdx (min (position entry.1 m) m.length) entry
  perm entry m := List.perm_insertIdx entry m (Nat.min_le_right _ _)

end Placement

/-- The entries of an associative container in the order of its iterators. -/
structure AssociativeContainer (κ ν : Type) where
  entries : List (κ × ν)
  distinct : UnorderedMap.Distinct entries

inductive MapIterator (κ : Type)
  | end_
  | at_ (key : κ)
  deriving DecidableEq

/-- An iterator was dereferenced that points to no entry. -/
inductive IteratorFault
  | notDereferenceable
  deriving DecidableEq

namespace AssociativeContainer

variable {κ ν : Type} [DecidableEq κ]

/-- The mapped value of a key. -/
def at? (m : AssociativeContainer κ ν) (key : κ) : Option ν := UnorderedMap.find m.entries key

def find (m : AssociativeContainer κ ν) (key : κ) : MapIterator κ :=
  if (m.at? key).isSome then .at_ key else .end_

/-- `it->second`, by the key of the entry. -/
def second (m : AssociativeContainer κ ν) (it : MapIterator κ) : Except IteratorFault κ :=
  match it with
  | .end_ => .error .notDereferenceable
  | .at_ key => if (m.at? key).isSome then .ok key else .error .notDereferenceable

/-- `it->second = value`, by the key of the entry. -/
def assign (m : AssociativeContainer κ ν) (key : κ) (value : ν) : AssociativeContainer κ ν :=
  ⟨UnorderedMap.assign m.entries key value, UnorderedMap.distinct_assign m.distinct key value⟩

/-- `emplace_hint`; the hint is for speed only. -/
def emplaceHint (place : Placement κ ν) (m : AssociativeContainer κ ν) (_hint : MapIterator κ) (key : κ) (value : ν) :
    AssociativeContainer κ ν :=
  if absent : m.at? key = none then
    ⟨place.insert (key, value) m.entries, UnorderedMap.distinct_perm (place.perm _ _).symm
      (List.nodup_cons.mpr ⟨fun held => UnorderedMap.key_iff.mp held absent, m.distinct⟩)⟩
  else m

/-- `container::replace`, with the key whose mapped value the returned reference designates. -/
def replace (place : Placement κ ν) (m : AssociativeContainer κ ν) (key : κ) (value : ν) :
    Except IteratorFault (AssociativeContainer κ ν × κ) :=
  let it := m.find key
  if it = .end_ then
    -- the iterator still is the end of the container afterwards
    let stored := m.emplaceHint place it key value
    (stored.second it).map fun reference => (stored, reference)
  else do
    let own ← m.second it
    let stored := m.assign own value
    (stored.second it).map fun reference => (stored, reference)

/-- `container::find_or_default`. -/
def findOrDefault (m : AssociativeContainer κ ν) (key : κ) (default_ : ν) : ν :=
  if m.find key = .end_ then default_ else (m.at? key).getD default_

/-- A sequence of calls of `container::replace`. -/
def replaceAll (place : Placement κ ν) (m : AssociativeContainer κ ν) :
    List (κ × ν) → Except IteratorFault (AssociativeContainer κ ν)
  | [] => .ok m
  | (key, value) :: calls => do
    let (stored, _) ← m.replace place key value
    stored.replaceAll place calls

/-- The value of the last call for a key, or else the initial one, or else the default. -/
def expected (m : AssociativeContainer κ ν) (calls : List (κ × ν)) (key : κ) (default_ : ν) : ν :=
  ((calls.reverse.find? fun call => call.1 = key).map Prod.snd).getD ((m.at? key).getD default_)

/-- Every call returns a reference to the value that it stored, and the container is updated as a map. -/
structure Updates (place : Placement κ ν) (m : AssociativeContainer κ ν) (calls : List (κ × ν)) : Prop where
  designates : ∀ earlier call later, calls = earlier ++ call :: later → ∃ before after,
    m.replaceAll place earlier = .ok before ∧ before.replace place call.1 call.2 = .ok (after, call.1) ∧
      after.at? call.1 = some call.2
  afterwards : ∃ after, m.replaceAll place calls = .ok after ∧
    ∀ key default_, after.findOrDefault key default_ = m.expected calls key default_

variable (place : Placement κ ν) {m : AssociativeContainer κ ν}

theorem find_eq_end {key : κ} : m.find key = .end_ ↔ m.at? key = none := by
  unfold find
  cases m.at? key <;> simp

theorem findOrDefault_eq (m : AssociativeContainer κ ν) (key : κ) (default_ : ν) :
    m.findOrDefault key default_ = (m.at? key).getD default_ := by
  unfold findOrDefault
  split
  next absent => rw [find_eq_end.mp absent, Option.getD_none]
  next => rfl

theorem at_assign (m : AssociativeContainer κ ν) (key other : κ) (value : ν) :
    (m.assign key value).at? other = if other = key then some value else m.at? other := by
  split
  next own => rw [own]; exact UnorderedMap.find_assign_self _ _ _
  next different => exact UnorderedMap.find_assign_of_ne _ _ different

/-- An absent key is stored, but the call then dereferences the end of the container. -/
theorem replace_absent {key : κ} (absent : m.at? key = none) (value : ν) :
    m.replace place key value = .error .notDereferenceable := by
  have it := find_eq_end.mpr absent
  unfold replace
  rw [if_pos it, it]
  rfl

theorem replace_present {key : κ} (present : m.at? key ≠ none) (value : ν) :
    m.replace place key value = .ok (m.assign key value, key) := by
  have held : (m.at? key).isSome := Option.isSome_iff_ne_none.mpr present
  have it : m.find key = .at_ key := if_pos held
  have stored : ((m.assign key value).at? key).isSome := by rw [at_assign, if_pos rfl]; rfl
  have reached : m.second (.at_ key) = .ok key := if_pos held
  have designated : (m.assign key value).second (.at_ key) = .ok key := if_pos stored
  unfold replace
  rw [it, if_neg (by simp), reached]
  show ((m.assign key value).second (.at_ key)).map _ = _
  rw [designated]
  rfl

/-- After one call of a present key, the other keys are as before. -/
theorem expected_cons (m : AssociativeContainer κ ν) (key : κ) (value : ν) (calls : List (κ × ν)) (other : κ)
    (default_ : ν) :
    m.expected ((key, value) :: calls) other default_ = (m.assign key value).expected calls other default_ := by
  unfold expected
  rw [List.reverse_cons, List.find?_append, at_assign]
  by_cases own : key = other
  · cases calls.reverse.find? fun call => call.1 = other <;> simp [own]
  · cases calls.reverse.find? fun call => call.1 = other <;> simp [own, Ne.symm own]

theorem replaceAll_present {calls : List (κ × ν)} (present : ∀ call ∈ calls, m.at? call.1 ≠ none) :
    ∃ after, m.replaceAll place calls = .ok after ∧ (∀ key, after.at? key = none ↔ m.at? key = none) ∧
      ∀ key default_, after.findOrDefault key default_ = m.expected calls key default_ := by
  induction calls generalizing m with
  | nil => exact ⟨m, rfl, fun _ => Iff.rfl, findOrDefault_eq m⟩
  | cons call calls ih =>
    obtain ⟨first, rest⟩ := List.forall_mem_cons.mp present
    have kept (key : κ) : (m.assign call.1 call.2).at? key = none ↔ m.at? key = none := by
      rw [at_assign]
      split
      next own => simp [own, first]
      next => exact Iff.rfl
    obtain ⟨after, ran, keys, looked⟩ := ih fun later member => mt (kept _).mp (rest later member)
    refine ⟨after, ?_, fun key => (keys key).trans (kept key), fun key default_ => ?_⟩
    · rw [replaceAll, replace_present place first]
      exact ran
    · rw [looked, expected_cons]

/-- A key that is absent at its call was absent from the start, since no call adds one. -/
theorem present_of_replaceAll {calls : List (κ × ν)} {after : AssociativeContainer κ ν}
    (ran : m.replaceAll place calls = .ok after) : ∀ call ∈ calls, m.at? call.1 ≠ none := by
  induction calls generalizing m with
  | nil => exact List.forall_mem_nil _
  | cons call calls ih =>
    by_cases absent : m.at? call.1 = none
    · rw [replaceAll, replace_absent place absent] at ran
      cases ran
    · rw [replaceAll, replace_present place absent] at ran
      refine List.forall_mem_cons.mpr ⟨absent, fun later member missing => ?_⟩
      have held := ih ran later member
      rw [at_assign] at held
      split at held
      next own => exact absent (own ▸ missing)
      next => exact held missing

/-- The calls update the container as a map if and only if every replaced key was there from the start. -/
theorem replace_updates_iff (m : AssociativeContainer κ ν) (calls : List (κ × ν)) :
    Updates place m calls ↔ ∀ call ∈ calls, m.at? call.1 ≠ none := by
  constructor
  case mp =>
    intro updates
    obtain ⟨after, ran, -⟩ := updates.afterwards
    exact present_of_replaceAll place ran
  case mpr =>
    intro present
    refine ⟨?_, ?_⟩
    · rintro earlier call later rfl
      have prior (other : κ × ν) (member : other ∈ earlier) : m.at? other.1 ≠ none :=
        present other (List.mem_append_left _ member)
      obtain ⟨before, ran, keys, -⟩ := replaceAll_present place prior
      have own : before.at? call.1 ≠ none :=
        mt (keys call.1).mp (present call (List.mem_append_right _ List.mem_cons_self))
      refine ⟨before, before.assign call.1 call.2, ran, replace_present place own call.2, ?_⟩
      rw [at_assign, if_pos rfl]
    · obtain ⟨after, ran, -, looked⟩ := replaceAll_present place present
      exact ⟨after, ran, looked⟩

/-- The first `replace` on an empty map dereferences its end. -/
theorem replace_empty : ¬ Updates (Placement.ordered : Placement Nat Nat) ⟨[], List.nodup_nil⟩ [(1, 7)] := by
  intro updates
  obtain ⟨after, ran, -⟩ := updates.afterwards
  cases ran

end AssociativeContainer

end Hlib
