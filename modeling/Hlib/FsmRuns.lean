import Hlib.Fsm

namespace Hlib.Fsm

open EnumType

variable {State Event : EnumType} {Callback Data : Type}

/-- What an event leads to: the result, the callbacks called, and the state afterwards. -/
abbrev Outcome (State Event : EnumType) (Callback Data : Type) :=
  Bool × List (Report State Event Callback Data) × State.Value

def step (m : Fsm State Event Callback) (input : Event.Value × Data) :
    Outcome State Event Callback Data × Fsm State Event Callback :=
  let (result, reports, m) := m.apply input.1 input.2
  ((result, reports, m.state), m)

/-- The transition that a table gives for an event. -/
def listed (transitions : List (Transition State Event Callback)) (state : State.Value)
    (event : Event.Value) : Option (Transition State Event Callback) :=
  transitions.find? fun transition => transition.from_ = state ∧ transition.event = event

/-- The machine that a table of transitions stands for. -/
def reference (transitions : List (Transition State Event Callback))
    (onBeforeTransition onInvalidTransition : Option Callback) (state : State.Value)
    (input : Event.Value × Data) : Outcome State Event Callback Data × State.Value :=
  match listed transitions state input.1 with
  | none => ((false, report onInvalidTransition fun f => .invalid f state input.1, state), state)
  | some transition =>
    ((true, report onBeforeTransition (fun f => .transition f state input.1 transition.to_ input.2) ++
      report transition.callback (fun f => .transition f state input.1 transition.to_ input.2),
      transition.to_), transition.to_)

/-- The first transition from a state, if it is negative, does what the one for the event does. -/
def Fits (transitions : List (Transition State Event Callback)) (state : State.Value)
    (event : Event.Value) : Prop :=
  isNegative state = false ∨
    (transitions.find? fun transition => transition.from_ = state).map effect =
      (listed transitions state event).map effect

section Outcomes

variable (before invalid : Option Callback) (state : State.Value) (event : Event.Value) (data : Data)

def outcome (found : Option (State.Value × Option Callback)) : Outcome State Event Callback Data :=
  match found with
  | none => (false, report invalid fun f => .invalid f state event, state)
  | some (to_, callback) =>
    (true, report before (fun f => .transition f state event to_ data) ++
      report callback (fun f => .transition f state event to_ data), to_)

theorem report_injective {callback callback' : Option Callback} {to_ : State.Value}
    (h : report callback (fun f => Report.transition f state event to_ data) =
      report callback' (fun f => Report.transition f state event to_ data)) : callback = callback' := by
  cases callback with
  | none =>
    cases callback' with
    | none => rfl
    | some g => cases h
  | some f =>
    cases callback' with
    | none => cases h
    | some g =>
      cases h
      rfl

theorem outcome_injective {found found' : Option (State.Value × Option Callback)}
    (h : outcome before invalid state event data found = outcome before invalid state event data found') :
    found = found' := by
  cases found with
  | none =>
    cases found' with
    | none => rfl
    | some taken => cases h
  | some taken =>
    cases found' with
    | none => cases h
    | some taken' =>
      obtain ⟨to_, callback⟩ := taken
      obtain ⟨to', callback'⟩ := taken'
      simp only [outcome, Prod.mk.injEq, true_and] at h
      obtain ⟨reports, rfl⟩ := h
      have same := report_injective state event data (List.append_cancel_left reports)
      rw [same]

theorem reference_eq (transitions : List (Transition State Event Callback)) :
    reference transitions before invalid state (event, data) =
      let found := (listed transitions state event).map effect
      (outcome before invalid state event data found, (found.map Prod.fst).getD state) := by
  unfold reference
  cases listed transitions state event with
  | none => rfl
  | some transition => rfl

end Outcomes

section Steps

variable {initial : State.Value} {transitions : List (Transition State Event Callback)}
  {before invalid : Option Callback}

/-- The machine as it was constructed, but for its state. -/
def inState (initial : State.Value) (transitions : List (Transition State Event Callback))
    (before invalid : Option Callback) (state : State.Value) : Fsm State Event Callback :=
  { make initial transitions before invalid with state }

theorem step_eq (state : State.Value) (event : Event.Value) (data : Data) :
    step (inState initial transitions before invalid state) (event, data) =
      let found := (transitions.find? fun transition =>
        transition.from_ = state ∧ (isNegative state = true ∨ transition.event = event)).map effect
      (outcome before invalid state event data found,
        inState initial transitions before invalid ((found.map Prod.fst).getD state)) := by
  have held := find_transitions initial transitions before invalid state event
  simp only [step, apply]
  have key : UnorderedMap.find (inState initial transitions before invalid state).transitions
      (combine (inState initial transitions before invalid state).state event) = _ := held
  rw [key]
  cases (transitions.find? fun transition =>
    transition.from_ = state ∧ (isNegative state = true ∨ transition.event = event)).map effect with
  | none => rfl
  | some taken => rfl

theorem fits_iff {state : State.Value} {event : Event.Value} :
    (transitions.find? fun transition =>
        transition.from_ = state ∧ (isNegative state = true ∨ transition.event = event)).map effect =
      (listed transitions state event).map effect ↔ Fits transitions state event := by
  unfold Fits
  cases negative : isNegative state with
  | false =>
    simp only [Bool.false_eq_true, false_or, true_or, iff_true]
    rfl
  | true => simp only [true_or, and_true, Bool.true_eq_false, false_or]

theorem step_agree (state : State.Value) (input : Event.Value × Data) :
    (step (inState initial transitions before invalid state) input).1 =
      (reference transitions before invalid state input).1 ↔ Fits transitions state input.1 := by
  obtain ⟨event, data⟩ := input
  rw [step_eq, reference_eq, ← fits_iff]
  constructor
  · exact outcome_injective before invalid state event data
  · exact congrArg (outcome before invalid state event data)

theorem step_keep (state : State.Value) (input : Event.Value × Data)
    (fits : Fits transitions state input.1) :
    (step (inState initial transitions before invalid state) input).2 =
      inState initial transitions before invalid (reference transitions before invalid state input).2 := by
  obtain ⟨event, data⟩ := input
  rw [step_eq, reference_eq, fits_iff.mpr fits]

end Steps

/-- A machine keeps its table: reset takes it back to where it was constructed. -/
theorem reset_after (initial : State.Value) (transitions : List (Transition State Event Callback))
    (before invalid : Option Callback) (inputs : List (Event.Value × Data)) :
    (Mealy.after step (make initial transitions before invalid) inputs).reset =
      make initial transitions before invalid := by
  have kept : ∃ state, Mealy.after step (make initial transitions before invalid) inputs =
      inState initial transitions before invalid state := by
    apply Mealy.after_invariant fun m => ∃ state, m = inState initial transitions before invalid state
    · rintro _ ⟨event, data⟩ ⟨state, rfl⟩
      rw [step_eq]
      exact ⟨_, rfl⟩
    · exact ⟨initial, rfl⟩
  obtain ⟨state, same⟩ := kept
  rw [same]
  rfl

/-- A machine runs its table as long as it comes to no negative state from which another transition
is listed first. -/
theorem runs_table_iff (initial : State.Value) (transitions : List (Transition State Event Callback))
    (before invalid : Option Callback) (inputs : List (Event.Value × Data)) :
    Mealy.answers step (make initial transitions before invalid) inputs =
        Mealy.answers (reference transitions before invalid) initial inputs ↔
      ∀ done input rest, inputs = done ++ input :: rest →
        Fits transitions (Mealy.after (reference transitions before invalid) initial done) input.1 := by
  apply Mealy.answers_eq_iff (fun m state => m = inState initial transitions before invalid state)
    fun state (input : Event.Value × Data) => Fits transitions state input.1
  · rintro _ state input rfl
    exact step_agree state input
  · rintro _ state input rfl fits
    exact step_keep state input fits
  · rfl

/-- `enum class E : std::int32_t`. -/
def int32Type : EnumType := ⟨32, true, by decide⟩

def lostEvent : List (Transition int32Type int32Type Unit) :=
  [{ from_ := -1, event := 0, to_ := 0 }, { from_ := -1, event := 1, to_ := 1 }]

/-- In the state -1 the machine cannot tell one event from another. -/
theorem lostEvent_differs :
    Mealy.answers step (make (-1) lostEvent none none) [((1 : BitVec 32), ())] ≠
      Mealy.answers (reference lostEvent none none) (-1) [((1 : BitVec 32), ())] := by
  have taken : Mealy.answers step (make (-1) lostEvent none none) [((1 : BitVec 32), ())] =
      [(true, [], 0)] := rfl
  have meant : Mealy.answers (reference lostEvent none none) (-1) [((1 : BitVec 32), ())] =
      [(true, [], 1)] := rfl
  rw [taken, meant]
  decide

end Hlib.Fsm
