import Hlib.Memory
import Hlib.Overload
import Mathlib.Logic.Function.Iterate

namespace Hlib

open Overload

namespace File

section Declarations

inductive Name
  | read
  | write
  deriving DecidableEq, Repr

inductive Channel
  | stream
  | file
  | descriptor
  deriving DecidableEq, Repr

/-- The types of parameters and arguments, references left out. -/
inductive CType
  | istream
  | ostream
  | file
  | int
  | void
  | constVoid
  | size
  | buffer
  | string
  | nothrow
  deriving DecidableEq, Repr

/-- The overloads of `file.hpp`, each with and without `std::nothrow`, and the system calls. -/
inductive Callable
  | data (name : Name) (channel : Channel) (nothrow : Bool)
  | part (name : Name) (channel : Channel) (nothrow : Bool)
  | whole (name : Name) (channel : Channel) (nothrow : Bool)
  | path (name : Name) (nothrow : Bool)
  | system (name : Name)
  deriving DecidableEq, Repr

def Channel.type : Channel → Name → CType
  | .stream, .read => .istream
  | .stream, .write => .ostream
  | .file, _ => .file
  | .descriptor, _ => .int

def pointer : Name → CType
  | .read => .void
  | .write => .constVoid

def Callable.name : Callable → Name
  | .data name _ _ | .part name _ _ | .whole name _ _ | .path name _ | .system name => name

def trailing (nothrow : Bool) : List CType := if nothrow then [.nothrow] else []

def Callable.parameters : Callable → List CType
  | .data name channel nothrow => [channel.type name, pointer name, .size] ++ trailing nothrow
  | .part .read channel nothrow => [channel.type .read, .buffer, .size] ++ trailing nothrow
  | .part .write channel nothrow => [channel.type .write, .buffer, .size, .size] ++ trailing nothrow
  | .whole .read channel nothrow => [channel.type .read, .size] ++ trailing nothrow
  | .whole .write channel nothrow => [channel.type .write, .buffer] ++ trailing nothrow
  | .path .read nothrow => [.string] ++ trailing nothrow
  | .path .write nothrow => [.string, .buffer] ++ trailing nothrow
  | .system name => [.int, pointer name, .size]

def Callable.declaration (f : Callable) : Declaration Name CType Callable :=
  ⟨f.name, f.parameters, f⟩

/-- `namespace hlib::file`. -/
def fileScope : List (Declaration Name CType Callable) :=
  [Name.read, Name.write].flatMap fun name =>
    ([Channel.stream, Channel.file, Channel.descriptor].flatMap fun channel =>
      [true, false].flatMap fun nothrow =>
        [Callable.declaration (.data name channel nothrow), Callable.declaration (.part name channel nothrow),
          Callable.declaration (.whole name channel nothrow)]) ++
      [Callable.declaration (.path name true), Callable.declaration (.path name false)]

/-- `namespace hlib` declares no function of these names. -/
def hlibScope : List (Declaration Name CType Callable) := []

/-- What `unistd.h` declares. -/
def globalScope : List (Declaration Name CType Callable) :=
  [Callable.declaration (.system .read), Callable.declaration (.system .write)]

def converts (argument parameter : CType) : Bool :=
  argument = parameter || (argument = .void && parameter = .constVoid)

end Declarations

section Bodies

/-- `name(…)` or `::name(…)`. -/
inductive CallExpression
  | unqualified (name : Name)
  | global (name : Name)

/-- The call in the body of the overloads for descriptors and raw data. -/
def body : Callable → Option (CallExpression × List CType)
  | .data .read .descriptor true => some (.global .read, [.int, .void, .size])
  | .data .read .descriptor false => some (.unqualified .read, [.int, .void, .size, .nothrow])
  | .data .write .descriptor true => some (.unqualified .write, [.int, .constVoid, .size])
  | .data .write .descriptor false => some (.unqualified .write, [.int, .constVoid, .size, .nothrow])
  | _ => none

/-- The function that is called from within `namespace hlib::file`. -/
def called (f : Callable) : Option Callable :=
  match body f with
  | none => none
  | some (.unqualified name, arguments) =>
    resolve converts (lookup [fileScope, hlibScope, globalScope] name) arguments
  | some (.global name, arguments) => resolve converts (lookup [globalScope] name) arguments

structure Request where
  fd : Int
  data : List Byte
  size : Nat
  deriving DecidableEq, Repr

/-- The functions that have not returned yet, the innermost first, the system calls that were made, and
what the outermost function has returned: the count, or the error it reports or throws. -/
structure Calls where
  active : List Callable
  made : List (Name × Request) := []
  result : Option (Result Nat) := none

/-- The innermost function makes its call. A system call returns, and so do all that are active: they hand
its count or its `errno` on. -/
def step (system : Name → Request → Result Nat) (request : Request) (s : Calls) : Calls :=
  match s.active with
  | [] => s
  | f :: _ =>
    match called f with
    | none => s
    | some (.system name) =>
      { active := [], made := s.made ++ [(name, request)], result := some (system name request) }
    | some g => { s with active := g :: s.active }

/-- The function returns after finitely many calls: what the one system call that it has made returns. -/
def ReturnsOnce (system : Name → Request → Result Nat) (f : Callable) (request : Request) : Prop :=
  ∃ n, ((step system request)^[n] { active := [f] }).result = some (system f.name request) ∧
    ((step system request)^[n] { active := [f] }).made = [(f.name, request)]

end Bodies

section Returns

/-- No unqualified call from within the namespace is one of a system call. -/
theorem called_inner {f : Callable} {name other : Name} {arguments : List CType}
    (h : body f = some (.unqualified name, arguments)) : called f ≠ some (.system other) := by
  intro hc
  unfold called at hc
  rw [h] at hc
  have declares : declared fileScope name ≠ [] := by cases name <;> decide
  obtain ⟨d, found, _, reached⟩ := resolve_inner declares hc
  have members : ∀ d ∈ fileScope, d.function ≠ .system d.function.name := by decide
  have outer := members d found
  rw [reached] at outer
  exact outer rfl

/-- A step of a function that names what it calls without `::` makes no system call and returns nothing. -/
theorem step_inner (system : Name → Request → Result Nat) (request : Request) {s : Calls} {f : Callable}
    {rest : List Callable} {name : Name} {arguments : List CType}
    (innermost : s.active = f :: rest) (h : body f = some (.unqualified name, arguments)) :
    (step system request s).made = s.made ∧ (step system request s).result = s.result := by
  unfold step
  rw [innermost]
  dsimp only
  split
  next => exact ⟨rfl, rfl⟩
  next other hc => exact absurd hc (called_inner h)
  next => exact ⟨rfl, rfl⟩

theorem called_write : ∀ nothrow, called (.data .write .descriptor nothrow) =
    some (.data .write .descriptor (!nothrow)) := by decide

theorem body_write (nothrow : Bool) : ∃ arguments,
    body (.data .write .descriptor nothrow) = some (.unqualified .write, arguments) := by
  cases nothrow <;> exact ⟨_, rfl⟩

/-- Each of the two functions calls the other: with every step there is one more that has not returned. -/
theorem write_calls (system : Name → Request → Result Nat) (nothrow : Bool) (request : Request) (n : Nat) :
    ∃ innermost rest,
      ((step system request)^[n] { active := [.data .write .descriptor nothrow] }).active =
        .data .write .descriptor innermost :: rest ∧ rest.length = n ∧
      ((step system request)^[n] { active := [.data .write .descriptor nothrow] }).made = [] ∧
      ((step system request)^[n] { active := [.data .write .descriptor nothrow] }).result = none := by
  induction n with
  | zero => exact ⟨nothrow, [], rfl, rfl, rfl, rfl⟩
  | succ n ih =>
    rw [Function.iterate_succ_apply']
    generalize (step system request)^[n] { active := [.data .write .descriptor nothrow] } = s at ih ⊢
    obtain ⟨innermost, rest, active, count, made, result⟩ := ih
    obtain ⟨arguments, unqualified⟩ := body_write innermost
    obtain ⟨no_more, nothing⟩ := step_inner system request active unqualified
    refine ⟨!innermost, .data .write .descriptor innermost :: rest, ?_, ?_, no_more.trans made, nothing.trans result⟩
    · simp only [step, active, called_write]
    · rw [List.length_cons, count]

theorem write_never (system : Name → Request → Result Nat) (nothrow : Bool) (request : Request) :
    ¬ReturnsOnce system (.data .write .descriptor nothrow) request := by
  rintro ⟨n, returned, _⟩
  obtain ⟨_, _, _, _, _, nothing⟩ := write_calls system nothrow request n
  rw [nothing] at returned
  cases returned

/-- The reading functions, of which one names the system call by `::read`, do return. -/
theorem read_returns (system : Name → Request → Result Nat) (nothrow : Bool) (request : Request) :
    ReturnsOnce system (.data .read .descriptor nothrow) request := by
  cases nothrow with
  | true => exact ⟨1, rfl, rfl⟩
  | false => exact ⟨2, rfl, rfl⟩

theorem write_calls_itself :
    ¬∀ nothrow request, ReturnsOnce (fun _ _ => .ok 1) (.data .write .descriptor nothrow) request := by
  intro h
  obtain ⟨n, returned, _⟩ := h true ⟨1, [0x61#8], 1⟩
  obtain ⟨_, _, _, _, _, nothing⟩ := write_calls (fun _ _ => .ok 1) true ⟨1, [0x61#8], 1⟩ n
  rw [nothing] at returned
  cases returned

end Returns

end File

end Hlib
