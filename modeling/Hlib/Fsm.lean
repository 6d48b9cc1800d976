import Hlib.Mealy
import Hlib.UnorderedMap
import Mathlib.Tactic.Common

namespace Hlib

open UnorderedMap

/-- An enum type, given by its underlying type; the `static_assert`s of `FSM` bound its size. -/
structure EnumType where
  width : Nat
  signed : Bool
  small : width ≤ 32

namespace EnumType

abbrev Value (E : EnumType) := BitVec E.width

variable {E : EnumType}

/-- `static_cast<std::uint64_t>`, which keeps the value modulo 2^64. -/
def toUInt64 (value : E.Value) : BitVec 64 :=
  if E.signed then value.signExtend 64 else value.setWidth 64

def isNegative (value : E.Value) : Bool := E.signed && value.msb

end EnumType

open EnumType

/-- `FSM<State, Event>`, with the callbacks left as names. -/
structure Fsm (State Event : EnumType) (Callback : Type) where
  initial : State.Value
  state : State.Value
  transitions : List (BitVec 64 × State.Value × Option Callback)
  onBeforeTransition : Option Callback := none
  onInvalidTransition : Option Callback := none

namespace Fsm

variable {State Event : EnumType} {Callback Data : Type}

structure Transition (State Event : EnumType) (Callback : Type) where
  from_ : State.Value
  event : Event.Value
  to_ : State.Value
  callback : Option Callback := none

/-- A callback that was called, and what it was called with. -/
inductive Report (State Event : EnumType) (Callback Data : Type)
  | transition (callback : Callback) (from_ : State.Value) (event : Event.Value) (to_ : State.Value)
      (data : Data)
  | invalid (callback : Callback) (state : State.Value) (event : Event.Value)
  deriving DecidableEq

def combine (state : State.Value) (event : Event.Value) : BitVec 64 :=
  toUInt64 state ||| toUInt64 event <<< 32

def make (initial : State.Value) (transitions : List (Transition State Event Callback))
    (onBeforeTransition onInvalidTransition : Option Callback) : Fsm State Event Callback :=
  { initial
    state := initial
    transitions := transitions.foldl
      (fun m transition => emplace m (combine transition.from_ transition.event)
        (transition.to_, transition.callback)) []
    onBeforeTransition
    onInvalidTransition }

def reset (m : Fsm State Event Callback) : Fsm State Event Callback := { m with state := m.initial }

/-- The calls of a callback, none if it is not set. -/
def report (callback : Option Callback) (call : Callback → Report State Event Callback Data) :
    List (Report State Event Callback Data) :=
  callback.toList.map call

def apply (m : Fsm State Event Callback) (event : Event.Value) (data : Data) :
    Bool × List (Report State Event Callback Data) × Fsm State Event Callback :=
  let key := combine m.state event
  match find m.transitions key with
  | none => (false, report m.onInvalidTransition fun f => .invalid f m.state event, m)
  | some (to_, callback) =>
    let from_ := m.state
    (true, report m.onBeforeTransition (fun f => .transition f from_ event to_ data) ++
      report callback (fun f => .transition f from_ event to_ data), { m with state := to_ })

section Packing

theorem getLsbD_toUInt64 {E : EnumType} (value : E.Value) {i : Nat} (h : i < 64) :
    (toUInt64 value).getLsbD i = if i < E.width then value.getLsbD i else isNegative value := by
  unfold toUInt64 isNegative
  cases signed : E.signed with
  | true =>
    rw [if_pos rfl, BitVec.getLsbD_signExtend, decide_eq_true h, Bool.true_and, Bool.true_and]
  | false =>
    rw [if_neg (by simp), BitVec.getLsbD_setWidth, decide_eq_true h, Bool.true_and, Bool.false_and]
    split
    next => rfl
    next outside => exact BitVec.getLsbD_of_ge value i (Nat.le_of_not_lt outside)

theorem getLsbD_combine (state : State.Value) (event : Event.Value) {i : Nat} (h : i < 64) :
    (combine state event).getLsbD i =
      ((toUInt64 state).getLsbD i || (decide (32 ≤ i) && (toUInt64 event).getLsbD (i - 32))) := by
  rw [combine, BitVec.getLsbD_or, BitVec.getLsbD_shiftLeft, decide_eq_true h, Bool.true_and]
  by_cases low : i < 32
  · rw [decide_eq_true low, decide_eq_false (by omega)]
    rfl
  · rw [decide_eq_false low, decide_eq_true (by omega)]
    rfl

/-- The lower half is the state's, and the upper half the event's unless the state is negative. -/
theorem combine_eq_iff {state state' : State.Value} {event event' : Event.Value} :
    combine state event = combine state' event' ↔
      state = state' ∧ (isNegative state = true ∨ event = event') := by
  have narrow := State.small
  have narrow' := Event.small
  constructor
  · intro same
    have bits (i : Nat) := congrArg (fun key : BitVec 64 => key.getLsbD i) same
    have states : state = state' := by
      apply BitVec.eq_of_getLsbD_eq
      intro i hi
      have bit := bits i
      simp only [getLsbD_combine _ _ (by omega : i < 64), decide_eq_false (by omega : ¬32 ≤ i),
        Bool.false_and, Bool.or_false, getLsbD_toUInt64 _ (by omega : i < 64), if_pos hi] at bit
      exact bit
    refine ⟨states, ?_⟩
    by_cases negative : isNegative state = true
    · exact .inl negative
    · right
      have upper : isNegative state = false := Bool.eq_false_iff.mpr negative
      apply BitVec.eq_of_getLsbD_eq
      intro i hi
      have bit := bits (i + 32)
      simp only [getLsbD_combine _ _ (by omega : i + 32 < 64), decide_eq_true (by omega : 32 ≤ i + 32),
        Bool.true_and, Nat.add_sub_cancel, getLsbD_toUInt64 _ (by omega : i + 32 < 64),
        if_neg (by omega : ¬i + 32 < State.width), ← states, upper, Bool.false_or,
        getLsbD_toUInt64 _ (by omega : i < 64), if_pos hi] at bit
      exact bit
  · rintro ⟨rfl, negative | rfl⟩
    · apply BitVec.eq_of_getLsbD_eq
      intro i hi
      rw [getLsbD_combine _ _ hi, getLsbD_combine _ _ hi]
      by_cases low : 32 ≤ i
      · rw [getLsbD_toUInt64 _ hi, if_neg (by omega), negative, Bool.true_or, Bool.true_or]
      · rw [decide_eq_false low, Bool.false_and, Bool.false_and]
    · rfl

end Packing

/-- What a transition does, in the state and under the event that it is for. -/
def effect (transition : Transition State Event Callback) : State.Value × Option Callback :=
  (transition.to_, transition.callback)

/-- The machine takes the first transition listed for the event, or from a negative state the first
listed for any event. -/
theorem find_transitions (initial : State.Value) (transitions : List (Transition State Event Callback))
    (before invalid : Option Callback) (state : State.Value) (event : Event.Value) :
    find (make initial transitions before invalid).transitions (combine state event) =
      (transitions.find? fun transition =>
        transition.from_ = state ∧ (isNegative state = true ∨ transition.event = event)).map effect := by
  have entries : (make initial transitions before invalid).transitions =
      (transitions.map fun transition =>
        (combine transition.from_ transition.event, effect transition)).foldl
        (fun m entry => emplace m entry.1 entry.2) [] := by
    rw [List.foldl_map]
    rfl
  have same : (fun transition : Transition State Event Callback =>
      decide (combine transition.from_ transition.event = combine state event)) =
      fun transition => decide (transition.from_ = state ∧
        (isNegative state = true ∨ transition.event = event)) := by
    funext transition
    rw [decide_eq_decide, combine_eq_iff]
    constructor
    · rintro ⟨rfl, h⟩
      exact ⟨rfl, h⟩
    · rintro ⟨rfl, h⟩
      exact ⟨rfl, h⟩
  rw [entries, find_emplace_all, find, Option.none_or, List.find?_map, Option.map_map]
  exact congrArg (fun p => (transitions.find? p).map effect) same

end Fsm

end Hlib
