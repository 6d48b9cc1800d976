import Hlib.Memory
import Hlib.Holdings
import Hlib.Transition
import Mathlib.Algebra.BigOperators.Group.Finset.Basic
import Mathlib.Algebra.Order.Group.Multiset
import Mathlib.Logic.Equiv.Basic
import Mathlib.Tactic.Abel

namespace Hlib

open Function (update update_self update_of_ne)
open Holdings (total total_update total_update_same total_zero)
open Transition (Run Restrict)

/-- `Handle<T, invalid>`; `m_destructor` is `none` when the function is empty. -/
structure Handle (T δ : Type) where
  handle : T
  destructor : Option δ
  deriving DecidableEq, Repr

namespace Handle

variable {T δ : Type} [DecidableEq T] (invalid : T)

/-- `reset(handle)`, with the destructor call that it makes; a call of an empty function throws, which
`noexcept` turns into `std::terminate`. `reset()` is `reset(invalid_handle)`. -/
def reset (h : Handle T δ) (handle : T) : Checked (Handle T δ × List (δ × T)) :=
  if h.handle ≠ invalid then
    match h.destructor with
    | none => .error .terminate
    | some destructor => .ok ({ h with handle := handle }, [(destructor, h.handle)])
  else .ok ({ h with handle := handle }, [])

/-- `Handle(Handle&& that)`: the new handle and `that`. -/
def moveConstruct (that : Handle T δ) : Handle T δ × Handle T δ :=
  (that, ⟨invalid, none⟩)

/-- `operator=(Handle&& that)`: this handle, `that` and the destructor calls. -/
def moveAssign (h that : Handle T δ) : Checked ((Handle T δ × Handle T δ) × List (δ × T)) := do
  let (h, freed) ← h.reset invalid invalid
  .ok (({ handle := that.handle, destructor := that.destructor },
    { handle := h.handle, destructor := none }), freed)

/-- `release()`: the handle after it, and what it returns. -/
def release (h : Handle T δ) : Handle T δ × T :=
  ({ h with handle := invalid }, h.handle)

inductive Op (ι T δ : Type)
  | construct (i : ι) (handle : T) (destructor : δ)
  | constructEmpty (i : ι) (destructor : δ)
  | moveConstruct (i that : ι)
  | moveAssign (i that : ι)
  | reset (i : ι) (handle : T)
  | swap (i that : ι)
  | release (i : ι)
  | destroy (i : ι)

/-- An operation, the destructor calls it makes and the valid values it returns. -/
structure Label (ι T δ : Type) where
  op : Op ι T δ
  freed : List (δ × T)
  released : Multiset T

def valid (handle : T) : Multiset T := if handle = invalid then 0 else {handle}

def owns : Option (Handle T δ) → Multiset T
  | some h => valid invalid h.handle
  | none => 0

variable {ι : Type} [DecidableEq ι]

inductive Step : (ι → Option (Handle T δ)) → Label ι T δ → (ι → Option (Handle T δ)) → Prop
  | construct {objects i handle destructor} (absent : objects i = none) :
      Step objects ⟨.construct i handle destructor, [], 0⟩
        (update objects i (some ⟨handle, some destructor⟩))
  | constructEmpty {objects i destructor} (absent : objects i = none) :
      Step objects ⟨.constructEmpty i destructor, [], 0⟩
        (update objects i (some ⟨invalid, some destructor⟩))
  | moveConstruct {objects i that h} (absent : objects i = none) (present : objects that = some h) :
      Step objects ⟨.moveConstruct i that, [], 0⟩
        (update (update objects i (some (h.moveConstruct invalid).1)) that
          (some (h.moveConstruct invalid).2))
  | moveAssign {objects i that h h' g g' freed} (distinct : i ≠ that) (this : objects i = some h)
      (present : objects that = some g) (moved : h.moveAssign invalid g = .ok ((h', g'), freed)) :
      Step objects ⟨.moveAssign i that, freed, 0⟩ (update (update objects i (some h')) that (some g'))
  | reset {objects i handle h h' freed} (this : objects i = some h)
      (done : h.reset invalid handle = .ok (h', freed)) :
      Step objects ⟨.reset i handle, freed, 0⟩ (update objects i (some h'))
  | swap {objects i that h g} (this : objects i = some h) (present : objects that = some g) :
      Step objects ⟨.swap i that, [], 0⟩ (objects ∘ Equiv.swap i that)
  | release {objects i h} (this : objects i = some h) :
      Step objects ⟨.release i, [], valid invalid (h.release invalid).2⟩
        (update objects i (some (h.release invalid).1))
  | destroy {objects i h h' freed} (this : objects i = some h)
      (done : h.reset invalid invalid = .ok (h', freed)) :
      Step objects ⟨.destroy i, freed, 0⟩ (update objects i none)

def Label.given (label : Label ι T δ) : Multiset T :=
  match label.op with
  | .construct _ handle _ => valid invalid handle
  | .reset _ handle => valid invalid handle
  | _ => 0

def Label.destroyed (label : Label ι T δ) : Multiset T := (label.freed.map Prod.snd : List T)

variable {invalid}

theorem reset_ok {h h' : Handle T δ} {handle : T} {freed : List (δ × T)}
    (done : h.reset invalid handle = .ok (h', freed)) :
    h' = { h with handle := handle } ∧
      ((freed.map Prod.snd : List T) : Multiset T) = valid invalid h.handle := by
  unfold reset at done
  split at done
  next owning =>
    split at done
    next => cases done
    next =>
      cases done
      simp [valid, owning]
  next empty =>
    cases done
    simp [valid, not_not.mp empty]

/-- `reset` fails just on a valid value without a function to destroy it. -/
theorem reset_fault {h : Handle T δ} {handle : T} {fault : Fault}
    (failed : h.reset invalid handle = .error fault) : h.handle ≠ invalid ∧ h.destructor = none := by
  unfold reset at failed
  split at failed
  next owning =>
    split at failed
    next empty => exact ⟨owning, empty⟩
    next => cases failed
  next => cases failed

theorem moveAssign_ok {h h' g g' : Handle T δ} {freed : List (δ × T)}
    (moved : h.moveAssign invalid g = .ok ((h', g'), freed)) :
    h' = g ∧ g' = ⟨invalid, none⟩ ∧
      ((freed.map Prod.snd : List T) : Multiset T) = valid invalid h.handle := by
  obtain ⟨⟨emptied, freed'⟩, done, moved⟩ := bind_ok moved
  obtain ⟨rfl, values⟩ := reset_ok done
  cases Except.ok.inj moved
  exact ⟨rfl, rfl, values⟩

section Steps

variable [Fintype ι] {s t : ι → Option (Handle T δ)} {label : Label ι T δ}
  {labels : List (Label ι T δ)}

def held (invalid : T) (objects : ι → Option (Handle T δ)) : Multiset T := total (owns invalid) objects

theorem held_update (invalid : T) {i : ι} {old : Option (Handle T δ)} (new : Option (Handle T δ))
    (before : s i = old) : held invalid (update s i new) + owns invalid old = held invalid s + owns invalid new := by
  rw [← before]
  exact total_update (owns invalid) s i new

@[simp] theorem valid_invalid : valid invalid invalid = 0 := if_pos rfl

theorem held_update_two (invalid : T) {i j : ι} (distinct : i ≠ j)
    {old old' : Option (Handle T δ)} (new new' : Option (Handle T δ)) (before : s i = old)
    (before' : s j = old') :
    held invalid (update (update s i new) j new') + (owns invalid old + owns invalid old') =
      held invalid s + (owns invalid new + owns invalid new') := by
  have first := held_update invalid new before
  have second : held invalid (update (update s i new) j new') + owns invalid old' =
      held invalid (update s i new) + owns invalid new' :=
    held_update invalid new' (by rw [update_of_ne distinct.symm, before'])
  calc held invalid (update (update s i new) j new') + (owns invalid old + owns invalid old')
      = held invalid (update (update s i new) j new') + owns invalid old' + owns invalid old := by abel
    _ = held invalid (update s i new) + owns invalid old + owns invalid new' := by rw [second]; abel
    _ = held invalid s + (owns invalid new + owns invalid new') := by rw [first]; abel

/-- What an operation gives to an object is what the objects own more of, or what is destroyed or
released. -/
theorem step_even (hs : Step invalid s label t) :
    held invalid t + (label.destroyed + label.released) = held invalid s + label.given invalid := by
  cases hs with
  | @construct i handle destructor absent =>
    have even := held_update invalid (some ⟨handle, some destructor⟩) absent
    exact even
  | @constructEmpty i destructor absent =>
    have even := held_update invalid (some ⟨invalid, some destructor⟩) absent
    simpa [owns, Label.destroyed, Label.given] using even
  | @moveConstruct i that h absent present =>
    have distinct : i ≠ that := by
      rintro rfl
      cases absent.symm.trans present
    have even := held_update_two invalid distinct (some h) (some ⟨invalid, none⟩)
      absent present
    simpa [owns, Label.destroyed, Label.given, moveConstruct] using even
  | @moveAssign i that h h' g g' freed distinct this present moved =>
    obtain ⟨rfl, rfl, values⟩ := moveAssign_ok moved
    have even := held_update_two invalid distinct (some h') (some ⟨invalid, none⟩)
      this present
    simp only [owns, valid_invalid, add_zero] at even
    simp only [Label.destroyed, values, Label.given, add_zero]
    rw [← add_assoc] at even
    exact add_right_cancel even
  | @reset i handle h h' freed this done =>
    obtain ⟨rfl, values⟩ := reset_ok done
    have even := held_update invalid (some { h with handle := handle }) this
    simpa only [Label.destroyed, values, Label.given, add_zero, owns] using even
  | @swap i that h g this present =>
    have same : held invalid (s ∘ Equiv.swap i that) = held invalid s :=
      Equiv.sum_comp (Equiv.swap i that) fun j => owns invalid (s j)
    simp [same, Label.destroyed, Label.given]
  | @release i h this =>
    have even := held_update invalid (some (h.release invalid).1) this
    simpa [owns, Label.destroyed, Label.given, release] using even
  | @destroy i h h' freed this done =>
    obtain ⟨rfl, values⟩ := reset_ok done
    have even := held_update invalid (none) this
    simpa only [Label.destroyed, values, Label.given, add_zero, owns] using even

/-- An object that owns a valid value has a function to destroy it. -/
def Owned (invalid : T) (objects : ι → Option (Handle T δ)) : Prop :=
  ∀ i h, objects i = some h → h.handle ≠ invalid → h.destructor ≠ none

/-- A valid value is given by `reset` only to an object whose destructor function is not empty. -/
def Armed (invalid : T) (objects : ι → Option (Handle T δ)) (label : Label ι T δ) : Prop :=
  match label.op with
  | .reset i handle => handle ≠ invalid → ∀ h, objects i = some h → h.destructor ≠ none
  | _ => True

omit [Fintype ι] [DecidableEq T] in
theorem owned_update (h : Owned invalid s) (i : ι) {new : Option (Handle T δ)}
    (hn : ∀ g, new = some g → g.handle ≠ invalid → g.destructor ≠ none) :
    Owned invalid (update s i new) := by
  intro j g present
  by_cases own : j = i
  · rw [own, update_self] at present
    exact hn g present
  · rw [update_of_ne own] at present
    exact h j g present

omit [Fintype ι] in
theorem step_owned (h : Owned invalid s) (armed : Armed invalid s label) (hs : Step invalid s label t) :
    Owned invalid t := by
  have moved : ∀ g, some (⟨invalid, none⟩ : Handle T δ) = some g → g.handle ≠ invalid →
      g.destructor ≠ none := by
    rintro g ⟨⟩ owning
    exact absurd rfl owning
  cases hs with
  | construct | constructEmpty =>
    refine owned_update h _ ?_
    rintro g ⟨⟩ _
    exact Option.some_ne_none _
  | @moveConstruct i that g absent present =>
    refine owned_update (owned_update h i ?_) that moved
    rintro _ ⟨⟩
    exact h that g present
  | @moveAssign i that _ _ _ _ _ distinct this present done =>
    obtain ⟨rfl, rfl, _⟩ := moveAssign_ok done
    refine owned_update (owned_update h i ?_) that moved
    rintro _ ⟨⟩
    exact h that _ present
  | @reset i handle g _ _ this done =>
    obtain ⟨rfl, _⟩ := reset_ok done
    refine owned_update h i ?_
    rintro _ ⟨⟩ owning
    exact armed owning g this
  | swap => exact fun j g present => h _ g present
  | @release i g this =>
    refine owned_update h i ?_
    rintro _ ⟨⟩ owning
    exact absurd rfl owning
  | destroy => exact owned_update h _ nofun

/-- No operation on an object calls an empty destructor function. -/
def Destroyable (invalid : T) (objects : ι → Option (Handle T δ)) : Prop :=
  ∀ i h handle fault, objects i = some h → h.reset invalid handle ≠ .error fault

omit [Fintype ι] [DecidableEq ι] in
theorem destroyable_iff : Destroyable invalid s ↔ Owned invalid s := by
  constructor
  · intro destroyable i h present owning empty
    refine destroyable i h invalid .terminate present ?_
    simp [Handle.reset, owning, empty]
  · intro owned i h handle fault present failed
    obtain ⟨owning, empty⟩ := reset_fault failed
    exact owned i h present owning empty

omit [Fintype ι] in
theorem step_destroyable (h : Destroyable invalid s) (hs : Step invalid s label t) :
    Destroyable invalid t ↔ Armed invalid s label := by
  rw [destroyable_iff] at h ⊢
  refine ⟨?_, fun armed => step_owned h armed hs⟩
  intro owned
  cases hs with
  | @reset i handle g _ _ this done =>
    obtain ⟨rfl, _⟩ := reset_ok done
    intro owning g' present
    cases this.symm.trans present
    exact owned i { g with handle := handle } (update_self i _ s) owning
  | construct | constructEmpty | moveConstruct | moveAssign | swap | release | destroy => trivial

def given (invalid : T) (labels : List (Label ι T δ)) : Multiset T :=
  (labels.map (Label.given invalid)).sum

def destroyed (labels : List (Label ι T δ)) : Multiset T := (labels.map Label.destroyed).sum

def released (labels : List (Label ι T δ)) : Multiset T := (labels.map Label.released).sum

theorem given_eq (run : Run (Step invalid) (fun _ => none) labels s) :
    given invalid labels = destroyed labels + released labels + held invalid s := by
  have even : held invalid s + (labels.map fun label => label.destroyed + label.released).sum =
      held invalid (fun _ => none) + given invalid labels :=
    run.balance True.intro (fun _ _ => trivial) fun _ hs => step_even hs
  have empty : held invalid (fun _ : ι => (none : Option (Handle T δ))) = 0 := total_zero fun _ => rfl
  rw [empty, zero_add, List.sum_map_add, add_comm] at even
  exact even.symm

/-- In a run that gives valid values by `reset` only to objects with a destructor function, no empty one
is called, and every valid value given is destroyed once, or released once, or still held by one object;
and after a next operation no empty function can be called just when that one keeps to it. -/
theorem owned_once (run : Run (Restrict (Armed invalid) (Step invalid)) (fun _ => none) labels s) :
    Destroyable invalid s ∧
      given invalid labels = destroyed labels + released labels + held invalid s ∧
      ((given invalid labels).Nodup → ∀ v ∈ given invalid labels,
        (destroyed labels).count v + (released labels).count v + (held invalid s).count v = 1) ∧
      ∀ {label t}, Step invalid s label t → (Destroyable invalid t ↔ Armed invalid s label) := by
  have destroyable : Destroyable invalid s := by
    refine run.invariant (destroyable_iff.mpr nofun) fun h hs => ?_
    exact (step_destroyable h hs.2).mpr hs.1
  have even := given_eq (run.mono fun hs => hs.2)
  refine ⟨destroyable, even, ?_, fun hs => step_destroyable destroyable hs⟩
  intro fresh v hv
  rw [← Multiset.count_add, ← Multiset.count_add, ← even]
  exact Multiset.count_eq_one_of_mem fresh hv

/-- A handle moved to another one, and reset with a new value after it was given a function again. -/
def movedBack : List (Label Bool Int Unit) :=
  [⟨.construct true 3 (), [], 0⟩, ⟨.moveConstruct false true, [], 0⟩,
    ⟨.moveAssign true false, [], 0⟩, ⟨.reset true 4, [((), 3)], 0⟩]

theorem owned_once_moved_back :
    ∃ s : Bool → Option (Handle Int Unit),
      Run (Restrict (Armed (-1)) (Step (-1))) (fun _ => none) movedBack s ∧
      Destroyable (-1) s ∧ given (-1) movedBack = destroyed movedBack + released movedBack +
        held (-1) s := by
  have last : ∃ s : Bool → Option (Handle Int Unit),
      Run (Restrict (Armed (-1)) (Step (-1))) (fun _ => none) movedBack s := by
    refine ⟨_, (((Run.start.next ⟨trivial, .construct rfl⟩).next
      ⟨trivial, .moveConstruct rfl rfl⟩).next ⟨trivial, .moveAssign (by decide) rfl rfl rfl⟩).next
      ⟨?_, .reset rfl rfl⟩⟩
    rintro _ g ⟨⟩
    exact Option.some_ne_none ()
  obtain ⟨s, run⟩ := last
  exact ⟨s, run, (owned_once run).1, (owned_once run).2.1⟩

def NeverEmptyCall : Prop :=
  ∀ (labels : List (Label Bool Int Unit)) (s : Bool → Option (Handle Int Unit)),
    Run (Step (-1)) (fun _ => none) labels s → Destroyable (-1) s

/-- A handle that was moved from is reset with a new value, and destroyed. -/
theorem empty_call_after_move : ¬NeverEmptyCall := by
  intro never
  have destroyable := never [⟨.construct true 3 (), [], 0⟩, ⟨.moveConstruct false true, [], 0⟩,
    ⟨.reset true 4, [], 0⟩] _ (((Run.start.next (.construct rfl)).next
      (.moveConstruct rfl rfl)).next (.reset rfl rfl))
  exact destroyable true _ (-1) .terminate rfl rfl

end Steps

end Handle

end Hlib
