import Mathlib.Data.List.Basic

namespace AccessLog

/-- An access to the block that is read or to the one that is written. -/
inductive Access
  | read (index : Nat)
  | write (address : Nat)
  deriving DecidableEq

def Access.written : Access → Option Nat
  | read _ => none
  | write address => some address

/-- A computation together with the accesses it made before it returned or failed. -/
structure Logged (ε α : Type) where
  value : Except ε α
  log : List Access

namespace Logged

variable {ε α β : Type}

protected def bind (x : Logged ε α) (f : α → Logged ε β) : Logged ε β :=
  match x.value with
  | .ok a => ⟨(f a).value, x.log ++ (f a).log⟩
  | .error fault => ⟨.error fault, x.log⟩

instance : Monad (Logged ε) where
  pure a := ⟨.ok a, []⟩
  bind := Logged.bind

/-- A step that accesses neither block. -/
def lift (x : Except ε α) : Logged ε α := ⟨x, []⟩

def reading (index : Nat) (x : Except ε α) : Logged ε α := ⟨x, [.read index]⟩

def writing (address : Nat) (x : Except ε α) : Logged ε α := ⟨x, [.write address]⟩

@[simp] theorem value_pure (a : α) : (pure a : Logged ε α).value = .ok a := rfl

@[simp] theorem value_lift (x : Except ε α) : (lift x).value = x := rfl

/-- Without the log, the computations are composed as before. -/
@[simp] theorem value_bind (x : Logged ε α) (f : α → Logged ε β) :
    (x >>= f).value = x.value >>= fun a => (f a).value := by
  obtain ⟨value, log⟩ := x
  cases value with
  | error fault => rfl
  | ok a => rfl

@[simp] theorem value_ite {c : Prop} [Decidable c] (x y : Logged ε α) :
    (if c then x else y).value = if c then x.value else y.value := apply_ite _ _ _ _

theorem bind_assoc {γ : Type} (x : Logged ε α) (f : α → Logged ε β) (g : β → Logged ε γ) :
    x >>= f >>= g = x >>= fun a => f a >>= g := by
  obtain ⟨value, log⟩ := x
  cases value with
  | error fault => rfl
  | ok a =>
    show Logged.bind ⟨(f a).value, log ++ (f a).log⟩ g = ⟨(Logged.bind (f a) g).value, log ++ (Logged.bind (f a) g).log⟩
    unfold Logged.bind
    cases (f a).value with
    | error fault => rfl
    | ok b => simp

theorem log_bind {x : Logged ε α} {a : α} (h : x.value = .ok a) (f : α → Logged ε β) :
    (x >>= f).log = x.log ++ (f a).log := by
  obtain ⟨value, log⟩ := x
  cases h
  rfl

/-- What follows without accesses adds nothing to the log. -/
theorem log_bind_quiet (x : Logged ε α) {f : α → Logged ε β} (quiet : ∀ a, (f a).log = []) : (x >>= f).log = x.log := by
  obtain ⟨value, log⟩ := x
  cases value with
  | error fault => rfl
  | ok a =>
    show log ++ (f a).log = log
    rw [quiet a, List.append_nil]

theorem log_bind_pure (x : Logged ε α) (f : α → β) : (x >>= fun a => pure (f a)).log = x.log :=
  log_bind_quiet x fun _ => rfl

@[simp] theorem log_lift (a : α) (f : α → Logged ε β) : (lift (.ok a) >>= f).log = (f a).log := rfl

@[simp] theorem log_reading (index : Nat) (a : α) (f : α → Logged ε β) :
    (reading index (.ok a) >>= f).log = .read index :: (f a).log := rfl

@[simp] theorem log_writing (address : Nat) (a : α) (f : α → Logged ε β) :
    (writing address (.ok a) >>= f).log = .write address :: (f a).log := rfl

end Logged

/-- Only indices below a bound are read, and successive addresses are written, each once. -/
structure Touches (log : List Access) (bound start count : Nat) : Prop where
  reads : ∀ index, Access.read index ∈ log → index < bound
  writes : log.filterMap Access.written = List.range' start count

namespace Touches

variable {ε α β : Type} {log other : List Access} {bound start count more : Nat}

theorem nil : Touches [] bound start 0 := ⟨fun _ h => (List.not_mem_nil h).elim, rfl⟩

theorem append (first : Touches log bound start count) (second : Touches other bound (start + count) more) :
    Touches (log ++ other) bound start (count + more) := by
  constructor
  case reads =>
    intro index member
    exact (List.mem_append.mp member).elim (first.reads index) (second.reads index)
  case writes => rw [List.filterMap_append, first.writes, second.writes, List.range'_append_1]

theorem read {index : Nat} (inside : index < bound) (rest : Touches log bound start count) :
    Touches (.read index :: log) bound start count := by
  constructor
  case reads =>
    intro other member
    rcases List.mem_cons.mp member with own | later
    · cases own
      exact inside
    · exact rest.reads other later
  case writes => exact rest.writes

theorem write (rest : Touches log bound (start + 1) count) :
    Touches (.write start :: log) bound start (count + 1) := by
  constructor
  case reads =>
    intro index member
    exact rest.reads index ((List.mem_cons.mp member).resolve_left (by simp))
  case writes =>
    show start :: log.filterMap Access.written = _
    rw [rest.writes, List.range'_succ]

/-- The log of a composed computation, if its first part returns. -/
theorem bind {x : Logged ε α} {f : α → Logged ε β} {a : α} (returned : x.value = .ok a)
    (first : Touches x.log bound start count) (second : Touches (f a).log bound (start + count) more) :
    Touches (x >>= f).log bound start (count + more) := by
  rw [Logged.log_bind returned]
  exact first.append second

end Touches

end AccessLog
