import Hlib.BufferContents
import Hlib.FileReadStream
import Hlib.FileWrite
import Hlib.StringNumber
import Mathlib.Logic.Function.Basic

namespace Hlib

namespace File

/-- The contents of the regular files, by their names. -/
abbrev Files := List Byte → Option (List Byte)

/-- How the system answers `write(filepath, buffer, std::nothrow)`: whether the file can be opened, what the
stream takes, and how many of these bytes are in the file once the destructor has closed it. -/
structure Storing where
  opened : Result Unit := .ok ()
  answer : Answer
  kept : Nat

/-- How the system answers `read(filepath, std::nothrow)`: whether the size can be found out, whether the file
can be opened, and how many bytes can be read before an error. -/
structure Loading where
  sized : Result Unit := .ok ()
  opened : Bool := true
  readable : Nat
  alloc : Nat → Bool
  errno : Errno := 0

inductive Operation
  | write (filepath bytes : List Byte) (buffer : Buffer) (held : buffer.Holds bytes) (storing : Storing)
  | read (filepath : List Byte) (loading : Loading)

inductive Outcome
  | written (result : Result Unit)
  | read (result : Result Buffer)

section Specification

/-- What a call leaves in a file: a beginning of the bytes, from a write that could open it. -/
def leaves (name : List Byte) : Operation → Option (List Byte)
  | .write filepath bytes _ _ storing =>
    if cString filepath = name ∧ storing.opened = .ok () then
      some ((bytes.take storing.answer.room).take storing.kept)
    else none
  | .read _ _ => none

/-- What is in a file behind the calls: what the last one of them that left something in it did. -/
def stored (files : Files) (operations : List Operation) : Files := fun name =>
  (operations.reverse.findSome? (leaves name)).or (files name)

end Specification

section Calls

/-- The sizes of files are numbers of 64 bits. -/
def Sized (files : Files) : Prop := ∀ name content, files name = some content → content.length < 2 ^ 64

end Calls

section Runs

end Runs

end File

end Hlib
