import Mathlib.Data.List.Basic
import Mathlib.Algebra.Order.Ring.Int

namespace Hlib

abbrev Byte := BitVec 8

/-- A byte of heap memory, `none` until something has been stored there. -/
abbrev Cell := Option Byte

abbrev Errno := Nat

/-- `Result<T>`: a value, or the error the call reports. -/
abbrev Result (α : Type) := Except Errno α

/-- The ways in which a call ends without returning. -/
inductive Fault
  /-- A failed `assert`. -/
  | assertion
  /-- `assert(nullptr != m_read_sink)`, or its sibling in `Socket`. -/
  | nullSink
  /-- `assert(false == m_write_queue.empty())`, or its sibling in `Socket`. -/
  | emptyQueue
  /-- Memory accessed outside its block. -/
  | outOfBounds
  /-- A byte used that was never stored. -/
  | uninitialised
  /-- An exception that leaves a `noexcept` function. -/
  | terminate
  deriving DecidableEq, Repr

abbrev Checked (α : Type) := Except Fault α

def require (c : Prop) [Decidable c] (fault : Fault) : Checked Unit :=
  if c then .ok () else .error fault

/-- The value of a `std::size_t` expression. -/
def sizeT (n : Nat) : Nat := n % 2 ^ 64

theorem sizeT_of_lt {n : Nat} (h : n < 2 ^ 64) : sizeT n = n := Nat.mod_eq_of_lt h

theorem require_of {c : Prop} [Decidable c] {fault : Fault} (h : c) : require c fault = .ok () :=
  if_pos h

theorem require_ok {c : Prop} [Decidable c] {fault : Fault} {u : Unit}
    (h : require c fault = .ok u) : c := by
  unfold require at h
  split at h
  next hc => exact hc
  next => cases h

theorem bind_ok {α β : Type} {x : Checked α} {f : α → Checked β} {b : β}
    (h : x >>= f = .ok b) : ∃ a, x = .ok a ∧ f a = .ok b := by
  cases x with
  | error fault => cases h
  | ok a => exact ⟨a, rfl, h⟩

theorem ok_bind {α β : Type} (a : α) (f : α → Checked β) : (Except.ok a >>= f) = f a := rfl

/-- A computation that, if it faults, does not do so in one of the `bad` ways. -/
def Avoids {α : Type} (bad : Fault → Prop) (x : Checked α) : Prop :=
  ∀ fault, x = .error fault → ¬bad fault

theorem avoids_ok {α : Type} {bad : Fault → Prop} (a : α) : Avoids bad (.ok a) := by
  intro fault h
  cases h

theorem avoids_error {α : Type} {bad : Fault → Prop} {fault : Fault} (h : ¬bad fault) :
    Avoids bad (.error fault : Checked α) := by
  intro other ho
  cases ho
  exact h

theorem avoids_require {bad : Fault → Prop} {c : Prop} [Decidable c] {fault : Fault}
    (h : ¬bad fault) : Avoids bad (require c fault) := by
  unfold require
  split
  · exact avoids_ok ()
  · exact avoids_error h

theorem Avoids.bind {α β : Type} {bad : Fault → Prop} {x : Checked α} {f : α → Checked β}
    (hx : Avoids bad x) (hf : ∀ a, x = .ok a → Avoids bad (f a)) : Avoids bad (x >>= f) := by
  cases x with
  | error fault => exact avoids_error (hx fault rfl)
  | ok a => exact hf a rfl

theorem Avoids.left {α β : Type} {bad : Fault → Prop} {x : Checked α} {f : α → Checked β}
    (h : Avoids bad (x >>= f)) : Avoids bad x := by
  intro fault hx
  exact h fault (by rw [hx]; rfl)

def readByte (data : List Byte) (index : Nat) : Checked Byte :=
  match data[index]? with
  | some byte => .ok byte
  | none => .error .outOfBounds

theorem readByte_append (before after : List Byte) (index : Nat) :
    readByte (before ++ after) (before.length + index) = readByte after index := by
  rw [readByte, List.getElem?_append_right (Nat.le_add_right _ _), Nat.add_sub_cancel_left]
  rfl

end Hlib
