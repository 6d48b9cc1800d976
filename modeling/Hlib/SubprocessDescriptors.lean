import Hlib.SubprocessFork

namespace Hlib

open Function (update update_self update_of_ne)
open DescriptorTable (Table Descriptor dup2 dup2_of_open pipe_ok exec exec_eq_none Shut)

namespace FilePipe

/-- A pipe that is open, with both its ends. -/
def between (r w : Fd) : FilePipe := ⟨⟨r, some ()⟩, ⟨w, some ()⟩⟩

variable {p p' : FilePipe} {t t' : Descriptors}

theorem freed_apply (calls : List (Unit × Fd)) (nonneg : ∀ fd ∈ calls.map Prod.snd, 0 ≤ fd) (fd : Fd) :
    freed t calls fd = if fd ∈ calls.map Prod.snd then none else t fd := by
  induction calls generalizing t with
  | nil => simp [freed]
  | cons call calls ih =>
    have here : fdClose t call.2 = DescriptorTable.close t call.2 :=
      if_neg (not_lt.mpr (nonneg call.2 (List.mem_cons_self ..)))
    have rest := ih (t := fdClose t call.2) fun fd member => nonneg fd (List.mem_cons_of_mem _ member)
    rw [freed, List.foldl_cons]
    rw [freed] at rest
    rw [rest, here, List.map_cons]
    by_cases later : fd ∈ calls.map Prod.snd
    · rw [if_pos later, if_pos (List.mem_cons_of_mem _ later)]
    · rw [if_neg later]
      by_cases now : fd = call.2
      · rw [now, DescriptorTable.close, update_self, if_pos (List.mem_cons_self ..)]
      · have other : fd ∉ call.2 :: calls.map Prod.snd := by
          rw [List.mem_cons, not_or]
          exact ⟨now, later⟩
        rw [if_neg other, DescriptorTable.close, update_of_ne now]

theorem reset_freed {h h' : Handle Fd Unit} {handle : Fd} {calls : List (Unit × Fd)}
    (done : h.reset (-1) handle = .ok (h', calls)) (fd : Fd) :
    fd ∈ calls.map Prod.snd ↔ fd ≠ -1 ∧ fd = h.handle := by
  obtain ⟨_, values⟩ := Handle.reset_ok done
  rw [← Multiset.mem_coe, values, Handle.valid]
  split
  next empty => simp [empty]
  next owning =>
    rw [Multiset.mem_singleton]
    constructor
    · rintro rfl
      exact ⟨owning, rfl⟩
    · exact fun h => h.2

theorem reset_isOk {h : Handle Fd Unit} (armed : h.handle ≠ -1 → h.destructor ≠ none) (handle : Fd) :
    ∃ h' calls, h.reset (-1) handle = .ok (h', calls) := by
  cases done : h.reset (-1) handle with
  | ok result => exact ⟨result.1, result.2, rfl⟩
  | error fault =>
    obtain ⟨owning, empty⟩ := Handle.reset_fault done
    exact absurd empty (armed owning)

/-- The descriptors that the pipe owns. -/
def Has (p : FilePipe) (fd : Fd) : Prop := fd ≠ -1 ∧ (fd = p.reader.handle ∨ fd = p.writer.handle)

theorem close_shut (h : p.close t = .ok (p', t')) (nonneg : ∀ fd, p.Has fd → 0 ≤ fd) :
    Shut p.Has t t' := by
  intro fd
  obtain ⟨⟨writer, calls⟩, first, h⟩ := bind_ok h
  obtain ⟨⟨reader, calls'⟩, second, h⟩ := bind_ok h
  cases Except.ok.inj h
  have owned : ∀ fd, fd ∈ (calls ++ calls').map Prod.snd ↔ p.Has fd := by
    intro fd
    rw [List.map_append, List.mem_append, reset_freed first, reset_freed second, Has]
    tauto
  have all := freed_apply (t := t) (calls ++ calls') (fun fd member => nonneg fd ((owned fd).mp member)) fd
  constructor
  · intro own
    rw [all, if_pos ((owned fd).mpr own)]
  · intro other
    rw [all, if_neg fun member => other ((owned fd).mp member)]

theorem close_isOk (readers : p.reader.handle ≠ -1 → p.reader.destructor ≠ none)
    (writers : p.writer.handle ≠ -1 → p.writer.destructor ≠ none) (t : Descriptors) :
    ∃ p' t', p.close t = .ok (p', t') := by
  obtain ⟨writer, calls, first⟩ := reset_isOk writers (-1)
  obtain ⟨reader, calls', second⟩ := reset_isOk readers (-1)
  refine ⟨⟨reader, writer⟩, freed t (calls ++ calls'), ?_⟩
  simp only [close, first, ok_bind, second]

theorem between_close_isOk (r w : Fd) (t : Descriptors) : ∃ p' t', (between r w).close t = .ok (p', t') :=
  close_isOk (fun _ => Option.some_ne_none _) (fun _ => Option.some_ne_none _) t

theorem openNothrow_ok {limit : Nat} {ends : Bool → OpenFile} {refused : Option Errno}
    (h : openNothrow limit ends refused {} t = .ok (none, p, t')) :
    ∃ r w, p = between r w ∧ DescriptorTable.pipe limit (ends false) (ends true) t = some ((r, w), t') := by
  have closed : close {} t = .ok ({}, t) := rfl
  simp only [openNothrow, closed, ok_bind] at h
  cases refused with
  | some errno => cases h
  | none =>
    cases made : DescriptorTable.pipe limit (ends false) (ends true) t with
    | none =>
      rw [made] at h
      cases h
    | some result =>
      obtain ⟨⟨r, w⟩, opened⟩ := result
      rw [made] at h
      cases h
      exact ⟨r, w, rfl, rfl⟩

end FilePipe

theorem CloseFds.closeBelow_apply (settings : CloseFds) (t : Descriptors) (n : Nat) (fd : Fd) :
    settings.closeBelow t n fd = if 0 ≤ fd ∧ fd < n ∧ fd ∉ settings.exceptions then none else t fd := by
  induction n with
  | zero =>
    have outside : ¬(0 ≤ fd ∧ fd < (0 : Nat) ∧ fd ∉ settings.exceptions) := by
      rintro ⟨nonneg, below, _⟩
      exact absurd below (not_lt.mpr nonneg)
    rw [if_neg outside]
    rfl
  | succ n ih =>
    rw [CloseFds.closeBelow]
    by_cases own : fd = n
    · subst own
      by_cases kept : (n : Fd) ∈ settings.exceptions
      · rw [if_pos kept, ih]
        simp [kept]
      · rw [if_neg kept, DescriptorTable.close, update_self, if_pos]
        exact ⟨Int.natCast_nonneg n, Int.ofNat_lt.mpr (Nat.lt_succ_self n), kept⟩
    · have same : (0 ≤ fd ∧ fd < (n + 1 : Nat) ∧ fd ∉ settings.exceptions) ↔
          (0 ≤ fd ∧ fd < n ∧ fd ∉ settings.exceptions) := by
        have bound : fd < (n + 1 : Nat) ↔ fd < n := by
          rw [Nat.cast_succ, Int.lt_add_one_iff]
          exact ⟨fun h => lt_of_le_of_ne h own, le_of_lt⟩
        rw [bound]
      simp only [same]
      rw [← ih]
      split
      · rfl
      · exact update_of_ne own _ _

/-- Whether the child closes the descriptor in its loop. -/
def CloseFds.Closes (settings : CloseFds) (maxFd : Int) (fd : Fd) : Prop :=
  settings.enabled = true ∧ 0 ≤ fd ∧ fd < maxFd ∧ fd ∉ settings.exceptions

instance (settings : CloseFds) (maxFd : Int) (fd : Fd) : Decidable (settings.Closes maxFd fd) := by
  unfold CloseFds.Closes
  infer_instance

theorem CloseFds.closed_apply (settings : CloseFds) (maxFd : Int) (t : Descriptors) (fd : Fd) :
    settings.closed maxFd t fd = if settings.Closes maxFd fd then none else t fd := by
  unfold CloseFds.closed
  by_cases on : settings.enabled = true
  · rw [if_pos on, CloseFds.closeBelow_apply]
    by_cases nonneg : 0 ≤ fd
    · obtain ⟨n, rfl⟩ := Int.eq_ofNat_of_zero_le nonneg
      have bound : (n : Int) < (maxFd.toNat : Int) ↔ (n : Int) < maxFd :=
        Int.ofNat_lt.trans Int.lt_toNat
      simp only [CloseFds.Closes, on, bound, true_and]
    · simp only [CloseFds.Closes, nonneg, false_and, and_false, ↓reduceIte]
  · rw [if_neg on, if_neg fun closes => on closes.1]

namespace Subprocess

/-- Which descriptor has the reading and the writing end of a pipe of `run`. -/
abbrev Ends := Pipe → Bool → Fd

/-- Some pipes of a `run` have been opened. -/
structure Opened (limit : Nat) (child : Nat) (pipes : Pipe → Prop) (ends : Ends) (t t' : Descriptors) :
    Prop where
  unused : ∀ pipe writer, pipes pipe → t (ends pipe writer) = none
  inside : ∀ pipe writer, pipes pipe → 0 ≤ ends pipe writer ∧ ends pipe writer < limit
  refers : ∀ pipe writer, pipes pipe →
    t' (ends pipe writer) = some { file := .pipeEnd child pipe writer }
  others : ∀ fd, (∀ pipe writer, pipes pipe → fd ≠ ends pipe writer) → t' fd = t fd

variable {limit child : Nat} {pipes : Pipe → Prop} {ends : Ends} {t t' t'' : Descriptors}

theorem Opened.start (ends : Ends) (t : Descriptors) : Opened limit child (fun _ => False) ends t t where
  unused := fun _ _ none => none.elim
  inside := fun _ _ none => none.elim
  refers := fun _ _ none => none.elim
  others := fun _ _ => rfl

/-- A descriptor that is still not in use is none of the ends, and was not in use before. -/
theorem Opened.unused_of (h : Opened limit child pipes ends t t') {fd : Fd} (free : t' fd = none) :
    t fd = none ∧ ∀ pipe writer, pipes pipe → fd ≠ ends pipe writer := by
  have apart : ∀ pipe writer, pipes pipe → fd ≠ ends pipe writer := by
    rintro pipe writer opened rfl
    rw [h.refers pipe writer opened] at free
    cases free
  exact ⟨(h.others fd apart).symm.trans free, apart⟩

theorem Opened.next (h : Opened limit child pipes ends t t') {pipe : Pipe} (new : ¬pipes pipe) {r w : Fd}
    (made : DescriptorTable.pipe limit (.pipeEnd child pipe false) (.pipeEnd child pipe true) t' =
      some ((r, w), t'')) :
    Opened limit child (fun p => pipes p ∨ p = pipe)
      (update ends pipe fun writer => if writer then w else r) t t'' := by
  obtain ⟨after, ⟨nonneg, below, free, _⟩, nonneg', below', free', ne⟩ := pipe_ok made
  obtain ⟨before, apart⟩ := h.unused_of free
  obtain ⟨before', apart'⟩ := h.unused_of free'
  have old : ∀ p, pipes p → p ≠ pipe := by
    rintro p opened rfl
    exact new opened
  refine ⟨?_, ?_, ?_, ?_⟩
  · rintro p writer (opened | rfl)
    · rw [update_of_ne (old p opened)]
      exact h.unused p writer opened
    · rw [update_self]
      cases writer
      · exact before
      · exact before'
  · rintro p writer (opened | rfl)
    · rw [update_of_ne (old p opened)]
      exact h.inside p writer opened
    · rw [update_self]
      cases writer
      · exact ⟨nonneg, below⟩
      · exact ⟨nonneg', below'⟩
  · rintro p writer (opened | rfl)
    · rw [update_of_ne (old p opened), after, update_of_ne (apart' p writer opened).symm,
        update_of_ne (apart p writer opened).symm]
      exact h.refers p writer opened
    · rw [update_self, after]
      cases writer
      · rw [if_neg Bool.false_ne_true, update_of_ne ne, update_self]
      · rw [if_pos rfl, update_self]
  · intro fd other
    have notRead : fd ≠ r := by
      have := other pipe false (Or.inr rfl)
      rwa [update_self] at this
    have notWrite : fd ≠ w := by
      have := other pipe true (Or.inr rfl)
      rwa [update_self] at this
    rw [after, update_of_ne notWrite, update_of_ne notRead]
    refine h.others fd fun p writer opened => ?_
    have := other p writer (Or.inl opened)
    rwa [update_of_ne (old p opened)] at this

/-- All pipes of a `run` have been opened, the reading end of the first at the lowest descriptor. -/
structure AllOpened (limit : Nat) (child : Nat) (ends : Ends) (t t' : Descriptors) : Prop where
  opened : Opened limit child (fun _ => True) ends t t'
  lowest : ∀ lower, 0 ≤ lower → lower < ends .stdIn false → t lower ≠ none

variable {system : System} {settings : CloseFds} {stdin stdout stderr : FilePipe}

theorem openPipe_ok {pipe : Pipe} {p : FilePipe} (h : openPipe system child pipe t = .ok (p, t')) :
    ∃ r w, p = .between r w ∧ DescriptorTable.pipe system.limit (.pipeEnd child pipe false)
      (.pipeEnd child pipe true) t = some ((r, w), t') := by
  obtain ⟨⟨error, p', t1⟩, opening, h⟩ := bind_ok h
  obtain ⟨_, none, h⟩ := bind_ok h
  cases Except.ok.inj h
  rw [require_ok none] at opening
  exact FilePipe.openNothrow_ok opening

theorem openPipes_ok (h : openPipes system child t = .ok (stdin, stdout, stderr, t')) :
    ∃ ends : Ends, stdin = .between (ends .stdIn false) (ends .stdIn true) ∧
      stdout = .between (ends .stdOut false) (ends .stdOut true) ∧
      stderr = .between (ends .stdErr false) (ends .stdErr true) ∧
      AllOpened system.limit child ends t t' := by
  obtain ⟨⟨_, t1⟩, first, h⟩ := bind_ok h
  obtain ⟨⟨_, t2⟩, second, h⟩ := bind_ok h
  obtain ⟨⟨_, t3⟩, third, h⟩ := bind_ok h
  cases Except.ok.inj h
  obtain ⟨r0, w0, rfl, made0⟩ := openPipe_ok first
  obtain ⟨r1, w1, rfl, made1⟩ := openPipe_ok second
  obtain ⟨r2, w2, rfl, made2⟩ := openPipe_ok third
  have none : Opened system.limit child (fun _ => False) (fun _ _ => 0) t t := Opened.start _ t
  have opened := ((none.next (fun no => no) made0).next (by simp) made1).next (by simp) made2
  obtain ⟨_, ⟨_, _, _, lowest⟩, _⟩ := pipe_ok made0
  have all : (fun p : Pipe => ((False ∨ p = .stdIn) ∨ p = .stdOut) ∨ p = .stdErr) = fun _ => True := by
    funext p
    cases p <;> simp
  rw [all] at opened
  exact ⟨_, rfl, rfl, rfl, opened, lowest⟩

theorem Opened.injective (h : Opened limit child (fun _ => True) ends t t') {p p' : Pipe} {w w' : Bool}
    (same : ends p w = ends p' w') : p = p' ∧ w = w' := by
  have first := h.refers p w trivial
  have second := h.refers p' w' trivial
  rw [same, second] at first
  simp only [Option.some.injEq, Descriptor.mk.injEq, OpenFile.pipeEnd.injEq, true_and, and_true] at first
  exact ⟨first.1.symm, first.2.symm⟩

/-- The descriptors of the six ends leave room for the standard ones. -/
theorem AllOpened.standard_lt (h : AllOpened limit child ends t t') (pipe : Pipe) :
    standard pipe < limit := by
  have distinct : ∀ {p p' : Pipe} {w w' : Bool}, ¬(p = p' ∧ w = w') → ends p w ≠ ends p' w' :=
    fun ne same => ne (h.opened.injective same)
  have a := h.opened.inside .stdIn false trivial
  have b := h.opened.inside .stdIn true trivial
  have c := h.opened.inside .stdOut false trivial
  have ab : ends .stdIn false ≠ ends .stdIn true := distinct (by simp)
  have ac : ends .stdIn false ≠ ends .stdOut false := distinct (by simp)
  have bc : ends .stdIn true ≠ ends .stdOut false := distinct (by simp)
  have room : ∀ {x y z : Int}, 0 ≤ x ∧ x < limit → 0 ≤ y ∧ y < limit → 0 ≤ z ∧ z < limit →
      x ≠ y → x ≠ z → y ≠ z → (3 : Int) ≤ limit := by omega
  have three := room a b c ab ac bc
  cases pipe <;> simp only [standard] <;> exact lt_of_lt_of_le (by decide) three

theorem standard_nonneg (pipe : Pipe) : 0 ≤ standard pipe := by
  cases pipe <;> decide

theorem standard_injective {p q : Pipe} (h : standard p = standard q) : p = q := by
  cases p <;> cases q <;> first | rfl | exact absurd h (by decide)

/-- None of the new ends is at a standard descriptor, if these were in use. -/
theorem AllOpened.apart (h : AllOpened limit child ends t t') (used : ∀ pipe, t (standard pipe) ≠ none)
    (p : Pipe) (writer : Bool) (pipe : Pipe) : ends p writer ≠ standard pipe := by
  intro same
  exact used pipe (same ▸ h.opened.unused p writer trivial)

theorem verifyDup2_of_open {old new : Fd} {file : OpenFile} (found : t old = some { file })
    (nonneg : 0 ≤ new) (below : new < limit) :
    verifyDup2 limit t old new = .ok (update t new (some { file })) := by
  rw [verifyDup2, dup2_of_open found nonneg below]

/-- The three `dup2` in the child succeed, and give it its ends at the standard descriptors if no end
was at one of them. -/
theorem AllOpened.dup2 (h : AllOpened limit child ends t t') :
    ∃ t1 t2 t3, verifyDup2 limit t' (ends .stdIn false) 0 = .ok t1 ∧
      verifyDup2 limit t1 (ends .stdOut true) 1 = .ok t2 ∧
      verifyDup2 limit t2 (ends .stdErr true) 2 = .ok t3 ∧
      (∀ fd, (∀ pipe, fd ≠ standard pipe) → t3 fd = t' fd) ∧
      ((∀ pipe, t (standard pipe) ≠ none) →
        ∀ pipe, t3 (standard pipe) = some { file := childEnd child pipe }) := by
  have input := h.opened.refers .stdIn false trivial
  have output := h.opened.refers .stdOut true trivial
  have errors := h.opened.refers .stdErr true trivial
  have first := verifyDup2_of_open input (by decide) (h.standard_lt .stdIn)
  set t1 := update t' (standard .stdIn) (some { file := childEnd child .stdIn }) with t1_eq
  have still : ∃ file, t1 (ends .stdOut true) = some { file } := by
    by_cases taken : ends .stdOut true = standard .stdIn
    · exact ⟨_, by rw [taken, t1_eq, update_self]⟩
    · exact ⟨_, by rw [t1_eq, update_of_ne taken, output]⟩
  obtain ⟨a, at_a⟩ := still
  have second := verifyDup2_of_open at_a (by decide) (h.standard_lt .stdOut)
  set t2 := update t1 (standard .stdOut) (some { file := a }) with t2_eq
  have still : ∃ file, t2 (ends .stdErr true) = some { file } := by
    by_cases taken : ends .stdErr true = standard .stdOut
    · exact ⟨_, by rw [taken, t2_eq, update_self]⟩
    · by_cases taken' : ends .stdErr true = standard .stdIn
      · exact ⟨_, by rw [t2_eq, update_of_ne taken, taken', t1_eq, update_self]⟩
      · exact ⟨_, by rw [t2_eq, update_of_ne taken, t1_eq, update_of_ne taken', errors]⟩
  obtain ⟨b, at_b⟩ := still
  have third := verifyDup2_of_open at_b (by decide) (h.standard_lt .stdErr)
  refine ⟨t1, t2, _, first, second, third, ?_, ?_⟩
  · intro fd other
    rw [update_of_ne (other .stdErr), t2_eq, update_of_ne (other .stdOut), t1_eq,
      update_of_ne (other .stdIn)]
  · intro used
    have apart := h.apart used
    have same_a : a = childEnd child .stdOut := by
      rw [t1_eq, update_of_ne (apart .stdOut true .stdIn), output] at at_a
      simpa [childEnd, childWrites] using at_a.symm
    have same_b : b = childEnd child .stdErr := by
      rw [t2_eq, update_of_ne (apart .stdErr true .stdOut), t1_eq,
        update_of_ne (apart .stdErr true .stdIn), errors] at at_b
      simpa [childEnd, childWrites] using at_b.symm
    have ne : ∀ {p q : Pipe}, p ≠ q → standard p ≠ standard q := fun h same => h (standard_injective same)
    intro pipe
    cases pipe with
    | stdIn =>
      rw [update_of_ne (ne (by decide)), t2_eq, update_of_ne (ne (by decide)), t1_eq, update_self]
    | stdOut => rw [update_of_ne (ne (by decide)), t2_eq, update_self, same_a]
    | stdErr => rw [update_self, same_b]

/-- An end of a pipe that `run` opened is at the descriptor. -/
def IsEnd (ends : Ends) (fd : Fd) : Prop := ∃ pipe writer, fd = ends pipe writer

theorem close_between {r w : Fd} (nonneg : 0 ≤ r) (nonneg' : 0 ≤ w) (t : Descriptors) :
    ∃ p' t', (FilePipe.between r w).close t = .ok (p', t') ∧ Shut (fun fd => fd = r ∨ fd = w) t t' := by
  obtain ⟨p', t', closed⟩ := FilePipe.between_close_isOk r w t
  have owned : ∀ fd, (FilePipe.between r w).Has fd ↔ fd = r ∨ fd = w := by
    intro fd
    constructor
    · exact fun has => has.2
    · rintro (rfl | rfl)
      · exact ⟨by rintro rfl; exact absurd nonneg (by decide), Or.inl rfl⟩
      · exact ⟨by rintro rfl; exact absurd nonneg' (by decide), Or.inr rfl⟩
  refine ⟨p', t', closed, (FilePipe.close_shut closed fun fd has => ?_).congr owned⟩
  rcases (owned fd).mp has with rfl | rfl
  · exact nonneg
  · exact nonneg'

/-- The half that is left of a pipe whose other end was moved out. -/
theorem close_half {p : FilePipe} {fd : Fd} (nonneg : 0 ≤ fd)
    (half : p = ⟨⟨fd, some ()⟩, ⟨-1, none⟩⟩ ∨ p = ⟨⟨-1, none⟩, ⟨fd, some ()⟩⟩) (t : Descriptors) :
    ∃ p' t', p.close t = .ok (p', t') ∧ Shut (fun other => other = fd) t t' := by
  have valid : fd ≠ -1 := by
    rintro rfl
    exact absurd nonneg (by decide)
  have ok : ∃ p' t', p.close t = .ok (p', t') := by
    apply FilePipe.close_isOk <;> rcases half with rfl | rfl <;> simp
  obtain ⟨p', t', closed⟩ := ok
  have owned : ∀ other, p.Has other ↔ other = fd := by
    intro other
    rcases half with rfl | rfl
    · constructor
      · rintro ⟨ne, own | none⟩
        · exact own
        · exact absurd none ne
      · rintro rfl
        exact ⟨valid, Or.inl rfl⟩
    · constructor
      · rintro ⟨ne, none | own⟩
        · exact absurd none ne
        · exact own
      · rintro rfl
        exact ⟨valid, Or.inr rfl⟩
  refine ⟨p', t', closed, (FilePipe.close_shut closed fun other has => ?_).congr owned⟩
  rw [(owned other).mp has]
  exact nonneg

theorem isEnd_iff (ends : Ends) (fd : Fd) : IsEnd ends fd ↔
    ((fd = ends .stdIn false ∨ fd = ends .stdIn true) ∨ fd = ends .stdOut false ∨ fd = ends .stdOut true) ∨
      fd = ends .stdErr false ∨ fd = ends .stdErr true := by
  constructor
  · rintro ⟨pipe, writer, same⟩
    cases pipe <;> cases writer <;> simp [same]
  · rintro (((same | same) | same | same) | same | same) <;> exact ⟨_, _, same⟩

/-- In the child: its standard descriptors have been set, the pipes and what its settings tell are
closed, and the program has taken over. -/
theorem inChild_ok (settings : CloseFds) (h : AllOpened system.limit child ends t t') :
    ∃ t3 t4, inChild system settings (.between (ends .stdIn false) (ends .stdIn true))
        (.between (ends .stdOut false) (ends .stdOut true))
        (.between (ends .stdErr false) (ends .stdErr true)) t' = .ok t4 ∧
      (∀ fd, IsEnd ends fd → t4 fd = none) ∧
      (∀ fd, ¬IsEnd ends fd → t4 fd = if settings.Closes system.maxFd fd then none else exec t3 fd) ∧
      (∀ fd, (∀ pipe, fd ≠ standard pipe) → t3 fd = t' fd) ∧
      ((∀ pipe, t (standard pipe) ≠ none) →
        ∀ pipe, t3 (standard pipe) = some { file := childEnd child pipe }) := by
  have nonneg := fun pipe writer => (h.opened.inside pipe writer trivial).1
  obtain ⟨t1, t2, t3, first, second, third, others, standards⟩ := h.dup2
  obtain ⟨p0, s1, closed0, shut0⟩ := close_between (nonneg .stdIn false) (nonneg .stdIn true) t3
  obtain ⟨p1, s2, closed1, shut1⟩ := close_between (nonneg .stdOut false) (nonneg .stdOut true) s1
  obtain ⟨p2, s3, closed2, shut2⟩ := close_between (nonneg .stdErr false) (nonneg .stdErr true) s2
  have shut : Shut (IsEnd ends) t3 s3 :=
    ((shut0.trans shut1).trans shut2).congr fun fd => (isEnd_iff ends fd).symm
  refine ⟨t3, exec (settings.closed system.maxFd s3), ?_, ?_, ?_, others, standards⟩
  · have handles : ∀ r w : Fd, (FilePipe.between r w).reader.handle = r ∧
        (FilePipe.between r w).writer.handle = w := fun _ _ => ⟨rfl, rfl⟩
    simp only [inChild, handles, first, second, third, closed0, closed1, closed2, ok_bind]
  · intro fd own
    apply exec_eq_none
    rw [CloseFds.closed_apply, (shut fd).1 own, ite_self]
  · intro fd other
    rw [DescriptorTable.exec_apply, CloseFds.closed_apply, (shut fd).2 other]
    split
    · rfl
    · rfl

/-- In the parent: its ends are what its objects open, and the ends of the child are closed. -/
theorem inParent_ok (h : AllOpened limit child ends t t') :
    ∃ parent, inParent (.between (ends .stdIn false) (ends .stdIn true))
        (.between (ends .stdOut false) (ends .stdOut true))
        (.between (ends .stdErr false) (ends .stdErr true)) t' =
          .ok (fun pipe => ends pipe (!childWrites pipe), parent) ∧
      Shut (fun fd => ∃ pipe, fd = ends pipe (childWrites pipe)) t' parent := by
  have nonneg := fun pipe writer => (h.opened.inside pipe writer trivial).1
  obtain ⟨p0, s1, closed0, shut0⟩ := close_half (nonneg .stdIn false) (Or.inl rfl) t'
  obtain ⟨p1, s2, closed1, shut1⟩ := close_half (nonneg .stdOut true) (Or.inr rfl) s1
  obtain ⟨p2, s3, closed2, shut2⟩ := close_half (nonneg .stdErr true) (Or.inr rfl) s2
  refine ⟨s3, ?_, ((shut0.trans shut1).trans shut2).congr fun fd => ?_⟩
  · simp only [inParent, Handle.moveConstruct, FilePipe.between, closed0, closed1, closed2, ok_bind]
    congr 2
    funext pipe
    cases pipe <;> rfl
  · constructor
    · rintro ((same | same) | same)
      · exact ⟨.stdIn, same⟩
      · exact ⟨.stdOut, same⟩
      · exact ⟨.stdErr, same⟩
    · rintro ⟨pipe, same⟩
      cases pipe <;> simp_all [childWrites]

variable {forked : Forked} {parent : Descriptors}

theorem runDescriptors_ok (h : runDescriptors system settings child t = .ok (.ok forked, parent)) :
    ∃ (ends : Ends) (t' : Descriptors), AllOpened system.limit child ends t t' ∧
      forked.fds = (fun pipe => ends pipe (!childWrites pipe)) ∧
      Shut (fun fd => ∃ pipe, fd = ends pipe (childWrites pipe)) t' parent ∧
      forked.child = inChild system settings (.between (ends .stdIn false) (ends .stdIn true))
        (.between (ends .stdOut false) (ends .stdOut true))
        (.between (ends .stdErr false) (ends .stdErr true)) t' ∧
      ∃ stdin stdout stderr, openPipes system child t = .ok (stdin, stdout, stderr, t') := by
  obtain ⟨⟨stdin, stdout, stderr, t'⟩, opening, h⟩ := bind_ok h
  obtain ⟨ends, rfl, rfl, rfl, opened⟩ := openPipes_ok opening
  obtain ⟨parent', inside, shut⟩ := inParent_ok opened
  cases failed : system.fork with
  | some errno =>
    simp only [failed] at h
    obtain ⟨_, _, h⟩ := bind_ok h
    obtain ⟨_, _, h⟩ := bind_ok h
    obtain ⟨_, _, h⟩ := bind_ok h
    cases h
  | none =>
    simp only [failed, inside, ok_bind] at h
    cases h
    exact ⟨ends, t', opened, rfl, shut, rfl, _, _, _, opening⟩

theorem runDescriptors_fork {result : Result Forked}
    (h : runDescriptors system settings child t = .ok (result, parent)) :
    system.fork = none ↔ ∃ forked, result = .ok forked := by
  obtain ⟨⟨stdin, stdout, stderr, t'⟩, _, h⟩ := bind_ok h
  cases failed : system.fork with
  | some errno =>
    simp only [failed] at h
    obtain ⟨_, _, h⟩ := bind_ok h
    obtain ⟨_, _, h⟩ := bind_ok h
    obtain ⟨_, _, h⟩ := bind_ok h
    cases h
    simp
  | none =>
    simp only [failed] at h
    obtain ⟨_, _, h⟩ := bind_ok h
    cases h
    simp

/-- Where `fork` fails the process has the descriptors that it had. -/
theorem runDescriptors_failed {errno : Errno}
    (h : runDescriptors system settings child t = .ok (.error errno, parent)) : parent = t := by
  obtain ⟨⟨stdin, stdout, stderr, t'⟩, opening, h⟩ := bind_ok h
  obtain ⟨ends, rfl, rfl, rfl, opened⟩ := openPipes_ok opening
  have nonneg := fun pipe writer => (opened.opened.inside pipe writer trivial).1
  cases failed : system.fork with
  | none =>
    simp only [failed] at h
    obtain ⟨_, _, h⟩ := bind_ok h
    cases h
  | some errno' =>
    obtain ⟨p2, s1, closed2, shut2⟩ := close_between (nonneg .stdErr false) (nonneg .stdErr true) t'
    obtain ⟨p1, s2, closed1, shut1⟩ := close_between (nonneg .stdOut false) (nonneg .stdOut true) s1
    obtain ⟨p0, s3, closed0, shut0⟩ := close_between (nonneg .stdIn false) (nonneg .stdIn true) s2
    simp only [failed, closed2, closed1, closed0, ok_bind] at h
    cases h
    have shut : Shut (IsEnd ends) t' parent := by
      refine ((shut2.trans shut1).trans shut0).congr fun fd => ?_
      rw [isEnd_iff]
      tauto
    funext fd
    by_cases own : IsEnd ends fd
    · rw [(shut fd).1 own]
      obtain ⟨pipe, writer, rfl⟩ := own
      exact (opened.opened.unused pipe writer trivial).symm
    · rw [(shut fd).2 own]
      exact opened.opened.others fd fun pipe writer _ same => own ⟨pipe, writer, same⟩

/-- If a standard descriptor was not in use, then the first end was opened at one of them. -/
theorem AllOpened.taken (h : AllOpened limit child ends t t') {pipe : Pipe} (unused : t (standard pipe) = none) :
    ∃ q, ends .stdIn false = standard q := by
  have low : ends .stdIn false ≤ standard pipe := by
    by_contra above
    exact h.lowest (standard pipe) (standard_nonneg pipe) (not_le.mp above) unused
  have nonneg := (h.opened.inside .stdIn false trivial).1
  have small : standard pipe ≤ 2 := by cases pipe <;> decide
  have cases : ∀ x : Int, 0 ≤ x → x ≤ 2 → x = 0 ∨ x = 1 ∨ x = 2 := by omega
  rcases cases _ nonneg (le_trans low small) with zero | one | two
  · exact ⟨.stdIn, zero⟩
  · exact ⟨.stdOut, one⟩
  · exact ⟨.stdErr, two⟩

/-- The program in the child has the ends of its pipes at its standard descriptors if those of the parent
were all in use. -/
theorem child_standards (h : runDescriptors system settings child t = .ok (.ok forked, parent))
    (used : ∀ pipe, t (standard pipe) ≠ none) : ∃ program, forked.child = .ok program ∧
      ∀ pipe, program (standard pipe) = some { file := childEnd child pipe } := by
  obtain ⟨ends, t', opened, _, _, inside, _⟩ := runDescriptors_ok h
  obtain ⟨t3, t4, ran, gone, rest, _, standards⟩ := inChild_ok settings opened
  rw [inside, ran]
  refine ⟨t4, rfl, fun pipe => ?_⟩
  have other : ¬IsEnd ends (standard pipe) := by
    rintro ⟨p, writer, same⟩
    exact opened.apart used p writer pipe same.symm
  have kept : ¬settings.Closes system.maxFd (standard pipe) := by
    rintro ⟨_, _, _, missing⟩
    refine missing (settings.standard ?_)
    cases pipe <;> simp [standard]
  rw [rest _ other, if_neg kept, DescriptorTable.exec_apply, standards used pipe]
  rfl

/-- Otherwise the reading end of its input was opened at a standard descriptor, and is closed. -/
theorem child_closes (h : runDescriptors system settings child t = .ok (.ok forked, parent)) {pipe : Pipe}
    (unused : t (standard pipe) = none) : ∃ stdin stdout stderr t' program q,
      openPipes system child t = .ok (stdin, stdout, stderr, t') ∧ forked.child = .ok program ∧
        t' (standard q) = some { file := .pipeEnd child .stdIn false } ∧ program (standard q) = none := by
  obtain ⟨ends, t', opened, _, _, inside, stdin, stdout, stderr, opening⟩ := runDescriptors_ok h
  obtain ⟨t3, t4, ran, gone, _⟩ := inChild_ok settings opened
  obtain ⟨q, taken⟩ := opened.taken unused
  refine ⟨stdin, stdout, stderr, t', t4, q, opening, inside.trans ran, ?_, gone _ ⟨.stdIn, false, taken.symm⟩⟩
  rw [← taken]
  exact opened.opened.refers .stdIn false trivial

/-- The program in the child has the ends of its pipes at its standard descriptors if and only if those
of the parent were all in use: otherwise an end of a pipe was opened at one of them, and is closed. -/
theorem child_standard_iff (h : runDescriptors system settings child t = .ok (.ok forked, parent)) :
    ((∃ program, forked.child = .ok program ∧
        ∀ pipe, program (standard pipe) = some { file := childEnd child pipe }) ↔
      ∀ pipe, t (standard pipe) ≠ none) ∧
    ((∃ pipe, t (standard pipe) = none) → ∃ stdin stdout stderr t' program q,
      openPipes system child t = .ok (stdin, stdout, stderr, t') ∧ forked.child = .ok program ∧
        t' (standard q) = some { file := .pipeEnd child .stdIn false } ∧ program (standard q) = none) := by
  refine ⟨⟨?_, child_standards h⟩, fun ⟨pipe, unused⟩ => child_closes h unused⟩
  rintro ⟨program, started, right⟩ pipe unused
  obtain ⟨_, _, _, _, _, q, _, same, _, closed⟩ := child_closes h unused
  cases started.symm.trans same
  rw [right q] at closed
  cases closed

/-- The descriptors of a program that was started from a terminal. -/
def terminal : Descriptors := fun fd => if 0 ≤ fd ∧ fd ≤ 2 then some { file := .other 0 } else none

theorem terminal_used (pipe : Pipe) : terminal (standard pipe) ≠ none := by
  cases pipe <;> decide

theorem terminal_runs (settings : CloseFds) : ∃ forked parent,
    runDescriptors { limit := 16, maxFd := 16 } settings 0 terminal = .ok (.ok forked, parent) :=
  ⟨_, _, rfl⟩

theorem child_of_terminal : ∃ forked parent program,
    runDescriptors { limit := 16, maxFd := 16 } .initial 0 terminal = .ok (.ok forked, parent) ∧
      forked.child = .ok program ∧
      ∀ pipe, program (standard pipe) = some { file := childEnd 0 pipe } := by
  obtain ⟨forked, parent, ran⟩ := terminal_runs .initial
  obtain ⟨program, inside, standards⟩ := (child_standard_iff ran).1.mpr terminal_used
  exact ⟨forked, parent, program, ran, inside, standards⟩

/-- What else the program gets are the descriptors of the parent that `exec` and its settings leave
open, none of them an end of the new pipes; the parent gets just its three ends. -/
theorem run_inherits (h : runDescriptors system settings child t = .ok (.ok forked, parent)) :
    (∃ program, forked.child = .ok program ∧
      ∀ fd, (∀ pipe, fd ≠ standard pipe) →
        program fd = if settings.Closes system.maxFd fd then none else exec t fd) ∧
    (∀ pipe, t (forked.fds pipe) = none ∧
      parent (forked.fds pipe) = some { file := parentEnd child pipe }) ∧
    ∀ fd, (∀ pipe, fd ≠ forked.fds pipe) → parent fd = t fd := by
  obtain ⟨ends, t', opened, fds, shut, inside, _⟩ := runDescriptors_ok h
  obtain ⟨t3, t4, ran, gone, rest, same, _⟩ := inChild_ok settings opened
  rw [inside, ran, fds]
  refine ⟨⟨t4, rfl, fun fd other => ?_⟩, fun pipe => ⟨opened.opened.unused _ _ trivial, ?_⟩,
    fun fd other => ?_⟩
  · by_cases own : IsEnd ends fd
    · obtain ⟨p, writer, rfl⟩ := own
      rw [gone _ ⟨p, writer, rfl⟩, exec_eq_none (opened.opened.unused p writer trivial), ite_self]
    · rw [rest fd own, DescriptorTable.exec_apply, same fd other,
        opened.opened.others fd fun p writer _ same => own ⟨p, writer, same⟩]
      rfl
  · rw [(shut _).2]
    · exact opened.opened.refers pipe _ trivial
    · rintro ⟨p, same⟩
      obtain ⟨rfl, flag⟩ := opened.opened.injective same
      cases hw : childWrites pipe <;> rw [hw] at flag <;> cases flag
  · by_cases own : ∃ pipe, fd = ends pipe (childWrites pipe)
    · rw [(shut fd).1 own]
      obtain ⟨pipe, rfl⟩ := own
      exact (opened.opened.unused pipe _ trivial).symm
    · rw [(shut fd).2 own]
      refine opened.opened.others fd fun p writer _ same => ?_
      by_cases side : writer = childWrites p
      · exact own ⟨p, by rw [same, side]⟩
      · refine other p ?_
        rw [same]
        congr 1
        cases hw : childWrites p <;> cases writer <;> simp_all

theorem terminal_inherited : ∃ forked parent,
    runDescriptors { limit := 16, maxFd := 16 } (.set true {5}) 0 terminal = .ok (.ok forked, parent) ∧
      (∃ program, forked.child = .ok program ∧ ∀ fd, (∀ pipe, fd ≠ standard pipe) →
        program fd = if (CloseFds.set true {5}).Closes 16 fd then none else exec terminal fd) ∧
      (∀ pipe, terminal (forked.fds pipe) = none ∧
        parent (forked.fds pipe) = some { file := parentEnd 0 pipe }) ∧
      ∀ fd, (∀ pipe, fd ≠ forked.fds pipe) → parent fd = terminal fd := by
  obtain ⟨forked, parent, ran⟩ := terminal_runs (.set true {5})
  exact ⟨forked, parent, ran, run_inherits ran⟩

end Subprocess

end Hlib
