import Mathlib.Data.List.Basic
import Mathlib.Algebra.Order.Ring.Int

namespace Framing

variable {α : Type*} {part message : List α} {parts messages : List (List α)} {rest : List α}

/-- Each part is as long as the message in its place. -/
def Fit (parts messages : List (List α)) : Prop :=
  ∀ (i : Nat) (part message : List α), parts[i]? = some part → messages[i]? = some message →
    part.length = message.length

theorem Fit.head (fit : Fit (part :: parts) (message :: messages)) : part.length = message.length :=
  fit 0 part message rfl rfl

theorem Fit.tail (fit : Fit (part :: parts) (message :: messages)) : Fit parts messages :=
  fun i part message at_part at_message => fit (i + 1) part message at_part at_message

/-- A part as long as the message at the head of a stream is this message. -/
theorem head_eq (within : part ++ rest <+: message ++ messages.flatten)
    (same : part.length = message.length) : part = message ∧ rest <+: messages.flatten := by
  obtain ⟨behind, whole⟩ := within
  rw [List.append_assoc] at whole
  obtain ⟨rfl, following⟩ := List.append_inj whole same
  exact ⟨rfl, behind, following⟩

/-- Parts of a stream that are as long as the messages it is made of are these messages. -/
theorem parts_eq (within : parts.flatten ++ rest <+: messages.flatten) (fit : Fit parts messages) :
    ∀ (i : Nat) (part message : List α), parts[i]? = some part → messages[i]? = some message →
      part = message := by
  induction parts generalizing messages with
  | nil =>
    intro i part message at_part
    cases at_part
  | cons part parts ih =>
    cases messages with
    | nil =>
      intro i part' message _ at_message
      cases at_message
    | cons message messages =>
      rw [List.flatten_cons, List.flatten_cons, List.append_assoc] at within
      obtain ⟨same, within⟩ := head_eq within fit.head
      intro i part' message' at_part at_message
      cases i with
      | zero =>
        cases at_part
        cases at_message
        exact same
      | succ i => exact ih within fit.tail i part' message' at_part at_message

/-- What follows these parts begins the next message, unless it is longer. -/
theorem rest_follows (within : parts.flatten ++ rest <+: messages.flatten) (fit : Fit parts messages)
    (next : messages[parts.length]? = some message) (bound : rest.length ≤ message.length) :
    rest <+: message := by
  induction parts generalizing messages with
  | nil =>
    cases messages with
    | nil => cases next
    | cons first messages =>
      cases next
      rw [List.flatten_nil, List.nil_append, List.flatten_cons] at within
      exact List.prefix_of_prefix_length_le within (List.prefix_append _ _) bound
  | cons part parts ih =>
    cases messages with
    | nil => cases next
    | cons first messages =>
      rw [List.flatten_cons, List.flatten_cons, List.append_assoc] at within
      obtain ⟨_, within⟩ := head_eq within fit.head
      exact ih within fit.tail next

/-- Where nothing of the stream is left, what follows the parts is the next message. -/
theorem rest_eq (whole : parts.flatten ++ rest = messages.flatten) (fit : Fit parts messages)
    (next : messages[parts.length]? = some message) (bound : rest.length ≤ message.length) :
    rest = message := by
  have within := rest_follows (whole ▸ List.prefix_rfl) fit next bound
  refine within.eq_of_length_le ?_
  induction parts generalizing messages with
  | nil =>
    cases messages with
    | nil => cases next
    | cons first messages =>
      cases next
      rw [List.flatten_nil, List.nil_append, List.flatten_cons] at whole
      rw [whole, List.length_append]
      exact Nat.le_add_right _ _
  | cons part parts ih =>
    cases messages with
    | nil => cases next
    | cons first messages =>
      rw [List.flatten_cons, List.flatten_cons, List.append_assoc] at whole
      exact ih (List.append_inj whole fit.head).2 fit.tail next

end Framing
