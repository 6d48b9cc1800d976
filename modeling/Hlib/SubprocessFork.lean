import Hlib.DescriptorTable
import Hlib.Handle
import Hlib.Subprocess
import Mathlib.Data.Finset.Insert

namespace Hlib

open Function (update update_self update_of_ne)
open DescriptorTable (Table Descriptor dup2)

/-- What a descriptor refers to: an end of a pipe that the `run` of a child created, or another file. -/
inductive OpenFile
  | pipeEnd (child : Nat) (pipe : Pipe) (writer : Bool)
  | other (id : Nat)
  deriving DecidableEq, Repr

abbrev Descriptors := Table OpenFile

/-- `file::fd_close(fd)`. -/
def fdClose (t : Descriptors) (fd : Fd) : Descriptors :=
  if fd < 0 then t else DescriptorTable.close t fd

/-- `file::Pipe`: `m_fds`, two handles whose destructor is `fd_close`. -/
structure FilePipe where
  reader : Handle Fd Unit := { handle := -1, destructor := some () }
  writer : Handle Fd Unit := { handle := -1, destructor := some () }
  deriving DecidableEq, Repr

namespace FilePipe

def freed (t : Descriptors) (calls : List (Unit × Fd)) : Descriptors :=
  calls.foldl (fun t call => fdClose t call.2) t

/-- `close()`. -/
def close (p : FilePipe) (t : Descriptors) : Checked (FilePipe × Descriptors) := do
  let (writer, calls) ← p.writer.reset (-1) (-1)
  let (reader, calls') ← p.reader.reset (-1) (-1)
  .ok (⟨reader, writer⟩, freed t (calls ++ calls'))

/-- `open(std::nothrow)`; `refused` is the error with which `::pipe` fails although the process has two
descriptors left. -/
def openNothrow (limit : Nat) (ends : Bool → OpenFile) (refused : Option Errno) (p : FilePipe)
    (t : Descriptors) : Checked (Option Errno × FilePipe × Descriptors) := do
  let (p, t) ← p.close t
  match refused, DescriptorTable.pipe limit (ends false) (ends true) t with
  | some errno, _ => .ok (some errno, p, t)
  | none, none => .ok (some 24, p, t)
  | none, some ((r, w), t) => do
    let (reader, calls) ← p.reader.reset (-1) r
    let (writer, calls') ← p.writer.reset (-1) w
    .ok (none, ⟨reader, writer⟩, freed t (calls ++ calls'))

end FilePipe

/-- `m_close_fds` and `m_close_fds_exceptions`, which has the standard descriptors in it. -/
structure CloseFds where
  enabled : Bool
  exceptions : Finset Fd
  standard : {0, 1, 2} ⊆ exceptions

def CloseFds.initial : CloseFds where
  enabled := true
  exceptions := {0, 1, 2}
  standard := Finset.Subset.refl _

/-- `setCloseFDs(enable, exceptions)`. -/
def CloseFds.set (enable : Bool) (exceptions : Finset Fd) : CloseFds where
  enabled := enable
  exceptions := insert 2 (insert 1 (insert 0 exceptions))
  standard := by
    intro fd member
    simp only [Finset.mem_insert, Finset.mem_singleton] at member
    rcases member with rfl | rfl | rfl <;> simp

/-- The loop of `run(argv)` in the child. -/
def CloseFds.closeBelow (settings : CloseFds) (t : Descriptors) : Nat → Descriptors
  | 0 => t
  | fd + 1 =>
    let t := settings.closeBelow t fd
    if (fd : Fd) ∈ settings.exceptions then t else DescriptorTable.close t fd

/-- The descriptors that are closed below `max_fd`, if any are. -/
def CloseFds.closed (settings : CloseFds) (maxFd : Int) (t : Descriptors) : Descriptors :=
  if settings.enabled then settings.closeBelow t maxFd.toNat else t

namespace Subprocess

/-- What the system gives to a `run`: the most descriptors that a process can have, the value of
`sysconf(_SC_OPEN_MAX)`, and the errors of `::pipe` and of `fork`. -/
structure System where
  limit : Nat
  maxFd : Int
  pipes : Pipe → Option Errno := fun _ => none
  fork : Option Errno := none

/-- The standard descriptor for which a pipe stands in. -/
def standard : Pipe → Fd
  | .stdIn => 0
  | .stdOut => 1
  | .stdErr => 2

/-- Whether the child has the writing end of the pipe; the parent has the other end. -/
def childWrites : Pipe → Bool
  | .stdIn => false
  | .stdOut => true
  | .stdErr => true

def childEnd (child : Nat) (pipe : Pipe) : OpenFile := .pipeEnd child pipe (childWrites pipe)

def parentEnd (child : Nat) (pipe : Pipe) : OpenFile := .pipeEnd child pipe (!childWrites pipe)

/-- `HVERIFY(-1 != dup2(old, new))`. -/
def verifyDup2 (limit : Nat) (t : Descriptors) (old new : Fd) : Checked Descriptors :=
  match dup2 limit t old new with
  | some t => .ok t
  | none => .error .assertion

/-- `run(argv)` in the child, and the `exec` that leaves the program its descriptors. -/
def inChild (system : System) (settings : CloseFds) (stdin stdout stderr : FilePipe) (t : Descriptors) :
    Checked Descriptors := do
  let t ← verifyDup2 system.limit t stdin.reader.handle 0
  let t ← verifyDup2 system.limit t stdout.writer.handle 1
  let t ← verifyDup2 system.limit t stderr.writer.handle 2
  let (_, t) ← stdin.close t
  let (_, t) ← stdout.close t
  let (_, t) ← stderr.close t
  .ok (DescriptorTable.exec (settings.closed system.maxFd t))

/-- `run(argv)` in the parent: the descriptors that its objects open, and those of the process. -/
def inParent (stdin stdout stderr : FilePipe) (t : Descriptors) : Checked ((Pipe → Fd) × Descriptors) := do
  let (stdinHandle, writer) := stdin.writer.moveConstruct (-1)
  let (stdoutHandle, reader) := stdout.reader.moveConstruct (-1)
  let (stderrHandle, reader') := stderr.reader.moveConstruct (-1)
  let (_, t) ← { stdin with writer }.close t
  let (_, t) ← { stdout with reader }.close t
  let (_, t) ← { stderr with reader := reader' }.close t
  let fds : Pipe → Fd := fun
    | .stdIn => stdinHandle.handle
    | .stdOut => stdoutHandle.handle
    | .stdErr => stderrHandle.handle
  .ok (fds, t)

/-- A child after `fork`, and the descriptors that the objects of its parent open. -/
structure Forked where
  fds : Pipe → Fd
  child : Checked Descriptors

/-- `file::Pipe::Pipe(true)`: it throws what fails, which the `noexcept` of every caller of `run(argv)`
ends. -/
def openPipe (system : System) (child : Nat) (pipe : Pipe) (t : Descriptors) :
    Checked (FilePipe × Descriptors) := do
  let (error, p, t) ← FilePipe.openNothrow system.limit (.pipeEnd child pipe) (system.pipes pipe) {} t
  require (error = none) .terminate
  .ok (p, t)

def openPipes (system : System) (child : Nat) (t : Descriptors) :
    Checked (FilePipe × FilePipe × FilePipe × Descriptors) := do
  let (stdin, t) ← openPipe system child .stdIn t
  let (stdout, t) ← openPipe system child .stdOut t
  let (stderr, t) ← openPipe system child .stdErr t
  .ok (stdin, stdout, stderr, t)

/-- `run(argv)` up to `execvp` in the child and up to the sources and sinks in the parent: the
descriptors of the parent after it, and the child. Where `fork` fails the pipes are destroyed. -/
def runDescriptors (system : System) (settings : CloseFds) (child : Nat) (t : Descriptors) :
    Checked (Result Forked × Descriptors) := do
  let (stdin, stdout, stderr, t) ← openPipes system child t
  match system.fork with
  | some errno => do
    let (_, t) ← stderr.close t
    let (_, t) ← stdout.close t
    let (_, t) ← stdin.close t
    .ok (.error errno, t)
  | none => do
    let (fds, parent) ← inParent stdin stdout stderr t
    .ok (.ok ⟨fds, inChild system settings stdin stdout stderr t⟩, parent)

end Subprocess

end Hlib
