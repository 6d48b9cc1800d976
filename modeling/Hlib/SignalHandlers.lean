import Hlib.Memory
import Hlib.UnorderedMap
import Mathlib.Logic.Function.Basic

namespace Hlib

open Function (update update_self update_of_ne)
open UnorderedMap (find emplace assign erase)

inductive Signal
  | abort | alarm | busError | child | continue | hup | illegalInstruction | interrupt | kill
  | pipe | poll | quit | stop | tStop | terminate | user1 | user2
  deriving DecidableEq, Repr

namespace Signal

/-- Whether `sigaction` fails to set an action. -/
def refused (signal : Signal) : Bool := signal = .kill ∨ signal = .stop

/-- `sa_handler`: the lambda of `set_signal_handler`, or what else a signal does. -/
inductive Action
  | default
  | ignore
  | foreign (handler : Nat)
  | handler
  deriving DecidableEq, Repr

/-- `OnSignal`: empty, the lambda of `wait_for_signal`, or one of the program. -/
inductive Callback (κ : Type)
  | empty
  | waiter
  | user (call : κ)
  deriving DecidableEq, Repr

structure ActiveSignalHandler (κ : Type) where
  oldAction : Action := .default
  callback : Callback κ
  /-- Whether the promise has its value. -/
  promise : Bool := false
  deriving DecidableEq, Repr

/-- What is left to do of a call: a signal can come before each of them. -/
inductive Instruction (κ : Type)
  /-- `clear_signal_handler`, up to where it has found its entry. -/
  | clear (signal : Signal)
  /-- `sigaction(signal, &it->second.old_action, nullptr)`. -/
  | defuse (signal : Signal)
  /-- `signal_handlers.erase(it)`. -/
  | remove (signal : Signal)
  | emplace (signal : Signal) (callback : Callback κ)
  /-- `sigaction(signal, &new_action, &active_signal_handler.old_action)`. -/
  | install (signal : Signal)
  /-- `signal_handlers.erase(signal)`. -/
  | undo (signal : Signal)
  /-- The look-up of `wait_for_signal`. -/
  | lookUp (signal : Signal)
  /-- `it->second.promise.get_future().get()`. -/
  | get (signal : Signal)
  /-- The lambda of `set_signal_handler`. -/
  | handle (signal : Signal)
  /-- The callback runs. -/
  | callback (signal : Signal)
  deriving DecidableEq, Repr

inductive Call (κ : Type)
  | set (signal : Signal) (callback : Callback κ)
  | clear (signal : Signal)
  | wait (signal : Signal)
  deriving DecidableEq, Repr

variable {κ : Type}

def Call.signal : Call κ → Signal
  | .set signal _ => signal
  | .clear signal => signal
  | .wait signal => signal

/-- `set_signal_handler(signal, callback)`. -/
def setSignalHandler (signal : Signal) (callback : Callback κ) : List (Instruction κ) :=
  [.clear signal, .emplace signal callback, .install signal]

/-- `clear_signal_handler(signal)`. -/
def clearSignalHandler (signal : Signal) : List (Instruction κ) := [.clear signal]

/-- `wait_for_signal(signal)`. -/
def waitForSignal (signal : Signal) : List (Instruction κ) :=
  setSignalHandler signal .waiter ++ [.lookUp signal, .get signal] ++ clearSignalHandler signal

def Call.body : Call κ → List (Instruction κ)
  | .set signal callback => setSignalHandler signal callback
  | .clear signal => clearSignalHandler signal
  | .wait signal => waitForSignal signal

/-- `signal_handlers`, the actions that the system has for the signals, and what the thread has still to
do: the calls that signals interrupted are at the end. -/
structure State (κ : Type) where
  handlers : List (Signal × ActiveSignalHandler κ)
  actions : Signal → Action
  todo : List (Instruction κ)

inductive Label (κ : Type)
  | call (call : Call κ)
  | run (instruction : Instruction κ)
  /-- The callback returns. -/
  | finish
  /-- The system delivers the signal to the handler. -/
  | deliver (signal : Signal)
  deriving DecidableEq, Repr

/-- The entry that an iterator or a reference points to. -/
def State.entry (s : State κ) (signal : Signal) (fault : Fault) : Checked (ActiveSignalHandler κ) :=
  match find s.handlers signal with
  | some entry => .ok entry
  | none => .error fault

/-- An instruction with what follows it in the thread. -/
def execute (s : State κ) (todo : List (Instruction κ)) : Instruction κ → Checked (State κ)
  | .clear signal =>
    match find s.handlers signal with
    | none => .ok { s with todo }
    | some _ => .ok { s with todo := .defuse signal :: todo }
  | .defuse signal => do
    let entry ← s.entry signal .outOfBounds
    if signal.refused then .ok { s with todo }
    else
      .ok { s with actions := update s.actions signal entry.oldAction, todo := .remove signal :: todo }
  | .remove signal => do
    let _ ← s.entry signal .outOfBounds
    .ok { s with handlers := erase s.handlers signal, todo }
  | .emplace signal callback => do
    require (find s.handlers signal = none) .assertion
    .ok { s with handlers := emplace s.handlers signal { callback }, todo }
  | .install signal => do
    let entry ← s.entry signal .outOfBounds
    if signal.refused then .ok { s with todo := .undo signal :: todo }
    else
      .ok { s with
        handlers := assign s.handlers signal { entry with oldAction := s.actions signal }
        actions := update s.actions signal .handler
        todo }
  | .undo signal => .ok { s with handlers := erase s.handlers signal, todo }
  | .lookUp signal => do
    let _ ← s.entry signal .assertion
    .ok { s with todo }
  | .get signal => do
    let _ ← s.entry signal .outOfBounds
    .ok { s with todo }
  | .handle signal => do
    let entry ← s.entry signal .assertion
    match entry.callback with
    | .empty => .error .terminate
    | .waiter => do
      require (entry.promise = false) .terminate
      .ok { s with handlers := assign s.handlers signal { entry with promise := true }, todo }
    | .user _ => .ok { s with todo := .callback signal :: todo }
  | .callback _ => .ok { s with todo }

/-- The signal is blocked while its handler runs. -/
def State.Blocked (s : State κ) (signal : Signal) : Prop :=
  .handle signal ∈ s.todo ∨ .callback signal ∈ s.todo

/-- What the thread can do next: a call is made by the program or by a callback of it, and `get` waits
for the promise. -/
def Enabled (s : State κ) : Label κ → Prop
  | .call _ => s.todo = [] ∨ ∃ signal todo, s.todo = .callback signal :: todo
  | .run instruction => (∃ todo, s.todo = instruction :: todo) ∧ (∀ signal, instruction ≠ .callback signal) ∧
      ∀ signal entry, instruction = .get signal → find s.handlers signal = some entry → entry.promise = true
  | .finish => ∃ signal todo, s.todo = .callback signal :: todo
  | .deliver signal => s.actions signal = .handler ∧ ¬s.Blocked signal

/-- What a label does where it is enabled. -/
def next (s : State κ) : Label κ → Checked (State κ)
  | .call call => .ok { s with todo := call.body ++ s.todo }
  | .run instruction => execute s s.todo.tail instruction
  | .finish => .ok { s with todo := s.todo.tail }
  | .deliver signal => .ok { s with todo := .handle signal :: s.todo }

def Step (s : State κ) (label : Label κ) (t : State κ) : Prop := Enabled s label ∧ next s label = .ok t

/-- Nothing has been set, and the system has some actions. -/
def start (actions : Signal → Action) : State κ := ⟨[], actions, []⟩

end Signal

end Hlib
