import Hlib.BufferContents
import Hlib.Transition

namespace Hlib

open Function Transition Delimiter

namespace Buffer

/-- The calls on a family of buffers; the second of two buffers is the one that is written to. -/
inductive Operation (ι : Type)
  | construct (i : ι) (reservation maximum : Nat)
  | constructFrom (i : ι) (data : List Byte)
  | assign (i : ι) (data : List Byte)
  | append (i : ι) (data : List Byte)
  | insert (i : ι) (offset : Nat) (data : List Byte)
  | erase (i : ι) (offset size : Nat)
  | copy (i j : ι)
  | copyRange (i : ι) (offset size : Nat) (j : ι)
  | extract (i : ι) (offset size : Nat) (j : ι)
  | extractSentinel (i : ι) (offset : Nat) (sentinel : List Byte) (includeSentinel : Bool) (j : ι)
  | clear (i : ι)
  | shrink (i : ι)
  | reset (i : ι)
  | reserve (i : ι) (capacity : Nat)
  | extend (i : ι) (capacity : Nat)
  | moveConstruct (i j : ι)
  | moveAssign (i j : ι)

variable {ι : Type} [DecidableEq ι]

def put (s : ι → Buffer) (i : ι) (call : Checked (Bool × Buffer)) : Checked (Bool × (ι → Buffer)) := do
  let (done, b) ← call
  return (done, update s i b)

def putBoth (s : ι → Buffer) (i j : ι) (call : Checked (Bool × Buffer × Buffer)) :
    Checked (Bool × (ι → Buffer)) := do
  let (done, b, buffer) ← call
  return (done, update (update s i b) j buffer)

def given (data : List Byte) : Pointer := some (data.map some)

/-- The call on the buffers, with whether it reports success; `alloc` is the answer of the heap. -/
def perform (s : ι → Buffer) (alloc : Bool) : Operation ι → Checked (Bool × (ι → Buffer))
  | .construct i reservation maximum => put s i (.ok (Buffer.construct reservation maximum alloc))
  | .constructFrom i data => put s i (({} : Buffer).assign (given data) data.length alloc)
  | .assign i data => put s i ((s i).assign (given data) data.length alloc)
  | .append i data => put s i ((s i).append (given data) data.length alloc)
  | .insert i offset data => put s i ((s i).insert offset (given data) data.length alloc)
  | .erase i offset size => put s i do return (true, ← (s i).erase offset size)
  | .copy i j => put s j ((s i).copy (s j) alloc)
  | .copyRange i offset size j => put s j ((s i).copyRange offset size (s j) alloc)
  | .extract i offset size j => putBoth s i j ((s i).extract offset size (s j) alloc)
  | .extractSentinel i offset sentinel includeSentinel j =>
    putBoth s i j ((s i).extractSentinel offset sentinel includeSentinel (s j) alloc)
  | .clear i => put s i (.ok (true, (s i).clear))
  | .shrink i => put s i do return (true, ← (s i).shrink alloc)
  | .reset i => put s i (.ok (true, (s i).reset))
  | .reserve i capacity =>
    let (data, b) := (s i).reserve capacity alloc
    put s i (.ok (data ≠ none ∨ capacity = 0, b))
  | .extend i capacity =>
    let (data, b) := (s i).extend capacity alloc
    put s i (.ok (data ≠ none ∨ capacity = 0, b))
  | .moveConstruct i j =>
    let (b, that) := Buffer.moveConstruct (s j)
    putBoth s i j (.ok (true, b, that))
  | .moveAssign i j =>
    let (b, that) := (s i).moveAssign (s j)
    putBoth s i j (.ok (true, b, that))

/-- What the caller of an operation sees to. -/
def Allowed (s : ι → Buffer) : Operation ι → Prop
  | .construct _ _ maximum => maximum < 2 ^ 64
  | .constructFrom _ data => data.length < 2 ^ 64
  | .assign _ data => data.length < 2 ^ 64
  | .append i data => (s i).size + data.length < 2 ^ 64
  | .insert i offset data => offset ≤ (s i).size ∧ (s i).size + data.length < 2 ^ 64
  | .erase i offset size => offset + size ≤ (s i).size
  | .copy i j => i ≠ j
  | .copyRange i offset size j => i ≠ j ∧ offset + size ≤ (s i).size
  | .extract i offset size j => i ≠ j ∧ offset + size ≤ (s i).size
  | .extractSentinel i offset _ _ j => i ≠ j ∧ offset ≤ (s i).size
  | .moveConstruct i j => i ≠ j
  | .moveAssign i j => i ≠ j
  | _ => True

/-- The same call on plain lists. -/
def onLists (lists : ι → List Byte) : Operation ι → ι → List Byte
  | .construct i _ _ => update lists i []
  | .constructFrom i data => update lists i data
  | .assign i data => update lists i data
  | .append i data => update lists i (lists i ++ data)
  | .insert i offset data => update lists i ((lists i).take offset ++ data ++ (lists i).drop offset)
  | .erase i offset size => update lists i ((lists i).take offset ++ (lists i).drop (offset + size))
  | .copy i j => update lists j (lists i)
  | .copyRange i offset size j => update lists j (((lists i).drop offset).take size)
  | .extract i offset size j =>
    update (update lists i ((lists i).take offset ++ (lists i).drop (offset + size))) j
      (((lists i).drop offset).take size)
  | .extractSentinel i offset sentinel includeSentinel j =>
    let (list, piece) := cutSentinel (lists i) offset sentinel includeSentinel
    update (update lists i list) j piece
  | .clear i => update lists i []
  | .reset i => update lists i []
  | .moveConstruct i j => update (update lists i (lists j)) j []
  | .moveAssign i j => update (update lists i (lists j)) j []
  | .shrink _ => lists
  | .reserve _ _ => lists
  | .extend _ _ => lists

def Represents (lists : ι → List Byte) (s : ι → Buffer) : Prop := ∀ i, (s i).Holds (lists i)

/-- A call that returns, and leaves the buffers with these lists if it reports success. -/
def Sound (lists : ι → List Byte) (result : Checked (Bool × (ι → Buffer))) : Prop :=
  ∃ done t, result = .ok (done, t) ∧ (done = true → Represents lists t)

variable {s t : ι → Buffer} {lists : ι → List Byte}

theorem Represents.update (h : Represents lists s) (i : ι) {b : Buffer} {bytes : List Byte}
    (hb : b.Holds bytes) : Represents (update lists i bytes) (update s i b) := by
  intro k
  by_cases same : k = i
  · subst same
    rwa [update_self, update_self]
  · rw [update_of_ne same, update_of_ne same]
    exact h k

theorem put_ok (h : Represents lists s) (i : ι) (done : Bool) {b : Buffer} {bytes : List Byte}
    (hb : b.Holds bytes) : Sound (update lists i bytes) (put s i (.ok (done, b))) :=
  ⟨done, _, rfl, fun _ => h.update i hb⟩

theorem put_same (h : Represents lists s) (i : ι) (done : Bool) {b : Buffer} (hb : b.Holds (lists i)) :
    Sound lists (put s i (.ok (done, b))) := by
  have kept := put_ok h i done hb
  rwa [update_eq_self] at kept

theorem put_sound (h : Represents lists s) (i : ι) {call : Checked (Bool × Buffer)} {bytes : List Byte}
    (cases : (∃ b, call = .ok (false, b)) ∨ ∃ b, call = .ok (true, b) ∧ b.Holds bytes) :
    Sound (update lists i bytes) (put s i call) := by
  rcases cases with ⟨b, rfl⟩ | ⟨b, rfl, hb⟩
  · exact ⟨false, _, rfl, nofun⟩
  · exact put_ok h i true hb

theorem putBoth_sound (h : Represents lists s) (i j : ι) {call : Checked (Bool × Buffer × Buffer)}
    {bytes bytes' : List Byte}
    (cases : (∃ b, call = .ok (false, b)) ∨
      ∃ b buffer, call = .ok (true, b, buffer) ∧ b.Holds bytes ∧ buffer.Holds bytes') :
    Sound (update (update lists i bytes) j bytes') (putBoth s i j call) := by
  rcases cases with ⟨b, rfl⟩ | ⟨b, buffer, rfl, hb, hb'⟩
  · exact ⟨false, _, rfl, nofun⟩
  · exact ⟨true, _, rfl, fun _ => (h.update i hb).update j hb'⟩

/-- An operation on buffers that hold lists does not fault, and does to them what it does to lists. -/
theorem perform_sound (h : Represents lists s) {op : Operation ι} (ho : Allowed s op) (alloc : Bool) :
    Sound (onLists lists op) (perform s alloc op) := by
  cases op with
  | construct i reservation maximum => exact put_ok h i _ (construct_holds ho reservation alloc)
  | constructFrom i data =>
    apply put_sound h i
    exact (assign_cases valid_empty (supplies_bytes data) ho alloc).imp_left fun failed => ⟨_, failed⟩
  | assign i data =>
    apply put_sound h i
    exact (assign_cases (h i).valid (supplies_bytes data) ho alloc).imp_left fun failed => ⟨_, failed⟩
  | append i data =>
    apply put_sound h i
    have small : (lists i).length + data.length < 2 ^ 64 := by
      rw [← (h i).size]
      exact ho
    exact (append_cases (h i) (supplies_bytes data) small alloc).imp_left fun failed => ⟨_, failed⟩
  | insert i offset data =>
    apply put_sound h i
    obtain ⟨inside, small⟩ := ho
    rw [(h i).size] at inside small
    exact (insert_cases (h i) inside (supplies_bytes data) small alloc).imp_left fun failed => ⟨_, failed⟩
  | erase i offset size =>
    have inside : offset + size ≤ (lists i).length := by
      rw [← (h i).size]
      exact ho
    obtain ⟨b, done, holds⟩ := erase_holds (h i) inside
    apply put_sound h i
    exact Or.inr ⟨b, by rw [done]; rfl, holds⟩
  | copy i j =>
    apply put_sound h j
    exact copy_cases (h i) (h j).valid alloc
  | copyRange i offset size j =>
    obtain ⟨other, inside⟩ := ho
    rw [(h i).size] at inside
    apply put_sound h j
    exact copyRange_cases (h i) (h j).valid inside alloc
  | extract i offset size j =>
    obtain ⟨other, inside⟩ := ho
    rw [(h i).size] at inside
    apply putBoth_sound h i j
    exact extract_cases (h i) (h j).valid inside alloc
  | extractSentinel i offset sentinel includeSentinel j =>
    obtain ⟨other, inside⟩ := ho
    rw [(h i).size] at inside
    apply putBoth_sound h i j
    exact extractSentinel_cases (h i) (h j).valid inside sentinel includeSentinel alloc
  | clear i => exact put_sound h i (Or.inr ⟨_, rfl, clear_holds (h i).valid⟩)
  | shrink i =>
    obtain ⟨b, done, holds⟩ := shrink_holds (h i) alloc
    have call : (do return (true, ← (s i).shrink alloc) : Checked (Bool × Buffer)) = .ok (true, b) := by
      rw [done]
      rfl
    have same := put_same h i true holds
    rwa [← call] at same
  | reset i => exact put_sound h i (Or.inr ⟨_, rfl, reset_holds (h i).valid⟩)
  | reserve i capacity => exact put_same h i _ (reserve_holds (h i) capacity alloc)
  | extend i capacity => exact put_same h i _ (extend_holds (h i) capacity alloc)
  | moveConstruct i j =>
    apply putBoth_sound h i j
    have left : (s j).reset.Holds [] := reset_holds (h j).valid
    exact Or.inr ⟨_, _, rfl, h j, left⟩
  | moveAssign i j =>
    apply putBoth_sound h i j
    have left : (s j).reset.Holds [] := reset_holds (h j).valid
    exact Or.inr ⟨_, _, rfl, h j, left⟩

def Step (s : ι → Buffer) (op : Operation ι) (t : ι → Buffer) : Prop :=
  Allowed s op ∧ ∃ alloc, perform s alloc op = .ok (true, t)

/-- After every run of calls, each buffer has the contents that the same calls make of a list, and no
call can fault. -/
theorem refines_lists {labels : List (Operation ι)} (run : Run Step (fun _ => {}) labels s) :
    (∀ i, (s i).toString = .ok (labels.foldl onLists (fun _ => []) i)) ∧
      ∀ op alloc, Allowed s op → ∃ done t, perform s alloc op = .ok (done, t) := by
  have represents : Represents (labels.foldl onLists fun _ => []) s := by
    refine run.simulates Represents (fun _ => holds_empty) ?_
    rintro lists s op t h ⟨allowed, alloc, done⟩
    obtain ⟨reported, u, result, kept⟩ := perform_sound h allowed alloc
    rw [done] at result
    cases result
    exact kept rfl
  refine ⟨fun i => toString_of_contents (represents i).contents, fun op alloc allowed => ?_⟩
  obtain ⟨done, t, result, _⟩ := perform_sound represents allowed alloc
  exact ⟨done, t, result⟩

def takeLine : List (Operation Bool) :=
  [.assign true [102, 111, 10, 98], .extractSentinel true 0 [10] true false]

theorem refines_lists_line :
    ∃ s : Bool → Buffer, Run Step (fun _ => {}) takeLine s ∧
      (s false).toString = .ok [102, 111, 10] ∧ (s true).toString = .ok [98] := by
  have last : ∃ s : Bool → Buffer, Run Step (fun _ => {}) takeLine s := by
    refine ⟨_, (Run.start.next ⟨?_, true, rfl⟩).next ⟨⟨?_, ?_⟩, true, rfl⟩⟩
    · decide
    · exact Nat.zero_le _
    · change 4 < 2 ^ 64
      omega
  obtain ⟨s, run⟩ := last
  have contents := (refines_lists run).1
  exact ⟨s, run, contents false, contents true⟩

end Buffer

end Hlib
