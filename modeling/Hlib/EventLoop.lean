import Hlib.Memory
import Hlib.FlagMask
import Mathlib.Logic.Function.Basic

namespace Hlib

/-- A file descriptor; `-1` is the invalid one. -/
abbrev Fd := Int

abbrev Events := BitVec 32

/-- `EventLoop`: the event sets epoll watches, and `m_callbacks`. -/
structure EventLoop (κ : Type) where
  interest : Fd → Option Events
  callbacks : Fd → Option κ

namespace EventLoop

open Function (update update_self update_of_ne)

def Read : Events := 0x001#32

def Write : Events := 0x004#32

def Error : Events := 0x008#32

def Hup : Events := 0x010#32

section Flags

open FlagMask

variable (events : Events)

@[simp] theorem read_zero : ¬Meets Read 0#32 := meets_zero

@[simp] theorem write_zero : ¬Meets Write 0#32 := meets_zero

@[simp] theorem read_set : Meets Read (events ||| Read) := meets_set (by decide)

@[simp] theorem write_set : Meets Write (events ||| Write) := meets_set (by decide)

@[simp] theorem read_cleared : ¬Meets Read (events &&& ~~~Read) := meets_clear

@[simp] theorem write_cleared : ¬Meets Write (events &&& ~~~Write) := meets_clear

@[simp] theorem read_set_write : Meets Read (events ||| Write) ↔ Meets Read events :=
  meets_set_other (by decide)

@[simp] theorem write_set_read : Meets Write (events ||| Read) ↔ Meets Write events :=
  meets_set_other (by decide)

@[simp] theorem read_clear_write : Meets Read (events &&& ~~~Write) ↔ Meets Read events :=
  meets_clear_other (by decide)

@[simp] theorem write_clear_read : Meets Write (events &&& ~~~Read) ↔ Meets Write events :=
  meets_clear_other (by decide)

end Flags

variable {κ : Type}

/-- `add(fd, events, callback)`; `ctl` is the error with which `EPOLL_CTL_ADD` fails, if any,
beside `EEXIST`. -/
def add (loop : EventLoop κ) (fd : Fd) (events : Events) (callback : κ) (ctl : Option Errno) :
    Checked (Result (EventLoop κ)) := do
  require (fd ≠ -1) .assertion
  require (loop.callbacks fd = none) .assertion
  match loop.interest fd, ctl with
  | some _, _ => .ok (.error 17)
  | none, some errno => .ok (.error errno)
  | none, none =>
    .ok (.ok { interest := update loop.interest fd (some events)
               callbacks := update loop.callbacks fd (some callback) })

/-- `modify(fd, events)`, which fails with `ENOENT` on a descriptor epoll does not watch. -/
def modify (loop : EventLoop κ) (fd : Fd) (events : Events) : Checked (Result (EventLoop κ)) := do
  require (fd ≠ -1) .assertion
  match loop.interest fd with
  | none => .ok (.error 2)
  | some _ => .ok (.ok { loop with interest := update loop.interest fd (some events) })

def change (loop : EventLoop κ) (fd : Fd) (callback : κ) : Checked (EventLoop κ) := do
  require (fd ≠ -1) .assertion
  require (loop.callbacks fd ≠ none) .assertion
  .ok { loop with callbacks := update loop.callbacks fd (some callback) }

def remove (loop : EventLoop κ) (fd : Fd) : Checked (EventLoop κ) :=
  if fd = -1 then .ok loop
  else do
    require (loop.callbacks fd ≠ none) .assertion
    require (loop.interest fd ≠ none) .assertion
    .ok { interest := update loop.interest fd none, callbacks := update loop.callbacks fd none }

theorem add_ok {loop loop' : EventLoop κ} {fd : Fd} {events : Events} {callback : κ}
    {ctl : Option Errno} (h : loop.add fd events callback ctl = .ok (.ok loop')) :
    fd ≠ -1 ∧ ctl = none ∧ loop.callbacks fd = none ∧ loop.interest fd = none ∧
      loop' = { interest := update loop.interest fd (some events)
                callbacks := update loop.callbacks fd (some callback) } := by
  obtain ⟨_, valid, h⟩ := bind_ok h
  obtain ⟨_, unknown, h⟩ := bind_ok h
  have hu := require_ok unknown
  refine ⟨require_ok valid, ?_⟩
  cases watched : loop.interest fd with
  | some old => simp [watched] at h
  | none =>
    cases ctl with
    | some errno => simp [watched] at h
    | none =>
      rw [watched] at h
      exact ⟨rfl, hu, rfl, (Except.ok.inj (Except.ok.inj h)).symm⟩

theorem add_unknown {loop : EventLoop κ} {fd : Fd} (valid : fd ≠ -1)
    (unknown : loop.callbacks fd = none) (unwatched : loop.interest fd = none) (events : Events)
    (callback : κ) :
    loop.add fd events callback none =
      .ok (.ok { interest := update loop.interest fd (some events)
                 callbacks := update loop.callbacks fd (some callback) }) := by
  unfold add
  rw [require_of valid, ok_bind, require_of unknown, ok_bind, unwatched]

theorem modify_ok {loop loop' : EventLoop κ} {fd : Fd} {events : Events}
    (h : loop.modify fd events = .ok (.ok loop')) :
    fd ≠ -1 ∧ loop.interest fd ≠ none ∧
      loop' = { loop with interest := update loop.interest fd (some events) } := by
  obtain ⟨_, valid, h⟩ := bind_ok h
  refine ⟨require_ok valid, ?_⟩
  split at h
  next => cases h
  next watched =>
    rw [watched]
    exact ⟨by simp, by cases h; rfl⟩

theorem modify_watched {loop : EventLoop κ} {fd : Fd} (valid : fd ≠ -1) {old : Events}
    (watched : loop.interest fd = some old) (events : Events) :
    loop.modify fd events =
      .ok (.ok { loop with interest := update loop.interest fd (some events) }) := by
  rw [modify, require_of valid, ok_bind, watched]

theorem modify_invalid {loop : EventLoop κ} (events : Events) :
    loop.modify (-1) events = .error .assertion := rfl

theorem remove_ok {loop loop' : EventLoop κ} {fd : Fd} (h : loop.remove fd = .ok loop')
    (valid : fd ≠ -1) :
    loop' = { interest := update loop.interest fd none
              callbacks := update loop.callbacks fd none } := by
  rw [remove, if_neg valid] at h
  obtain ⟨_, _, h⟩ := bind_ok h
  obtain ⟨_, _, h⟩ := bind_ok h
  exact (Except.ok.inj h).symm

theorem remove_known {loop : EventLoop κ} {fd : Fd} (valid : fd ≠ -1)
    (known : loop.callbacks fd ≠ none) (watched : loop.interest fd ≠ none) :
    loop.remove fd =
      .ok { interest := update loop.interest fd none, callbacks := update loop.callbacks fd none } := by
  rw [remove, if_neg valid, require_of known, ok_bind, require_of watched, ok_bind]

end EventLoop

end Hlib
