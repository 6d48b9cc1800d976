import Hlib.BufferInvariant

namespace Hlib

open Function Transition

namespace Buffer

section Failure

theorem report_false {nothrow throws done : Bool} (h : report nothrow throws done = .returned false) :
    nothrow = true ∧ done = false := by
  unfold report at h
  split at h
  next throwing =>
    cases h
    exact ⟨throwing, rfl⟩
  next =>
    split at h
    next => cases h
    next => cases h

variable {b b' : Buffer} {alloc : Bool}

/-- The calls that have forgotten the contents when they fail. -/
def Call.forgets : Call → Bool
  | .assign _ _ => true
  | _ => false

theorem call_fails {c : Call} (h : b.call alloc c = .ok (false, b')) (hf : b.Framed) :
    b' = if c.forgets then b.clear else b := by
  cases c with
  | reset => cases h
  | clear => cases h
  | shrink =>
    obtain ⟨_, _, h⟩ := bind_ok h
    cases h
  | reserve capacity => exact (reserveWith_ok .grow nofun h hf).2 rfl
  | reserveZeroed capacity => exact (reserveWith_ok .growZeroed nofun h hf).2 rfl
  | extend capacity => exact (extendWith_ok .grow nofun h hf).2 rfl
  | extendZeroed capacity => exact (extendWith_ok .growZeroed nofun h hf).2 rfl
  | resize size => exact (resizeWith_ok .grow h hf).2 rfl
  | resizeZeroed size => exact (resizeWith_ok .growZeroed h hf).2 rfl
  | assign data size =>
    rcases assign_ok h hf with ⟨_, cleared⟩ | ⟨succeeds, _⟩
    · exact cleared
    · cases succeeds
  | append data size =>
    obtain ⟨_, ⟨_, same⟩ | ⟨succeeds, _⟩⟩ := insert_ok h hf
    · exact same
    · cases succeeds
  | insert offset data size =>
    obtain ⟨_, ⟨_, same⟩ | ⟨succeeds, _⟩⟩ := insert_ok h hf
    · exact same
    · cases succeeds
  | erase offset size =>
    obtain ⟨_, _, h⟩ := bind_ok h
    cases h

theorem transfer_fails {buffer buffer' : Buffer} {t : Transfer} {garbage : Nat → Byte}
    (h : b.transfer buffer alloc garbage t = .ok (false, b', buffer')) (hb : b.Framed)
    (hf : buffer.Framed) (sized : t.Sized) : b' = b ∧ buffer' = buffer.clear := by
  rcases transfer_ok h hb hf sized with ⟨_, same, cleared⟩ | ⟨succeeds, _⟩
  · exact ⟨same, cleared⟩
  · cases succeeds

theorem transferSelf_fails {t : Transfer} {garbage : Nat → Byte}
    (h : b.transferSelf alloc garbage t = .ok (false, b')) (hb : b.Framed) (sized : t.Sized) :
    b' = b.clear := by
  rcases transferSelf_ok h hb sized with ⟨_, cleared⟩ | ⟨succeeds, _⟩
  · exact cleared
  · cases succeeds

end Failure

section Atomic

variable {ι : Type} [DecidableEq ι] {s t : Objects ι}

/-- What a caller sees of a buffer. -/
def seen (b : Buffer) : Nat × List Cell := (b.size, b.contents)

def Unchanged (s t : Objects ι) : Prop := ∀ i, (t i).map seen = (s i).map seen

theorem seen_clear_iff {b : Buffer} : b.clear.seen = b.seen ↔ b.size = 0 := by
  constructor
  · intro h
    exact (congrArg Prod.fst h).symm
  · intro empty
    change (0, b.block.take 0) = (b.size, b.block.take b.size)
    rw [empty]

theorem unchanged_put_iff {i : ι} {b b' : Buffer} (hb : s i = some b) :
    Unchanged s (update s i (some b')) ↔ b'.seen = b.seen := by
  constructor
  · intro h
    have here := h i
    rw [update_self, hb] at here
    exact Option.some.inj here
  · intro same k
    by_cases hk : k = i
    · rw [hk, update_self, hb, Option.map_some, Option.map_some, same]
    · rw [update_of_ne hk]

/-- The condition under which a failure of the action leaves all buffers as they were. -/
def Action.Spares (s : Objects ι) : Action ι → Prop
  | .call i _ c => c.forgets → ∀ b, s i = some b → b.size = 0
  | .transfer _ _ _ j => ∀ b, s j = some b → b.size = 0
  | _ => True

theorem cleared_iff {i : ι} {b : Buffer} (hb : s i = some b) :
    Unchanged s (update s i (some b.clear)) ↔ ∀ b, s i = some b → b.size = 0 := by
  rw [unchanged_put_iff hb, seen_clear_iff]
  constructor
  · intro empty b₀ hb₀
    rw [hb] at hb₀
    cases hb₀
    exact empty
  · intro h
    exact h b hb

/-- In every state a run leads to, an action that reports failure leaves the size and the contents of
all buffers as they were, if and only if it is not one that first clears a buffer with contents. -/
theorem failure_unchanged_iff {labels : List (Action ι)} (run : Run Performed Start labels s)
    {action : Action ι} (h : Performs s action (.returned false) t) :
    Unchanged s t ↔ action.Spares s := by
  have framed := framed_of_run run
  obtain ⟨sized, alloc, garbage, h⟩ := h
  cases action with
  | construct i constructor =>
    obtain ⟨_, _, h⟩ := bind_ok h
    obtain ⟨⟨done, b⟩, _, h⟩ := bind_ok h
    have failed : report false true done = .returned false := congrArg Prod.fst (Except.ok.inj h)
    cases (report_false failed).1
  | destroy i =>
    obtain ⟨_, _, h⟩ := bind_ok h
    cases h
  | call i nothrow c =>
    obtain ⟨b, hb, h⟩ := bind_ok h
    obtain ⟨⟨done, b'⟩, hc, h⟩ := bind_ok h
    have here := object_ok hb
    obtain ⟨_, rfl⟩ := report_false (congrArg Prod.fst (Except.ok.inj h))
    obtain rfl : update s i (some b') = t := congrArg Prod.snd (Except.ok.inj h)
    have after := call_fails hc (framed i b here)
    unfold Action.Spares
    cases hforgets : c.forgets with
    | true =>
      rw [hforgets] at after
      rw [after]
      exact (cleared_iff here).trans ⟨fun empty _ => empty, fun empty => empty hforgets⟩
    | false =>
      rw [hforgets] at after
      rw [after]
      refine iff_of_true ((unchanged_put_iff here).mpr rfl) fun forgets => ?_
      rw [hforgets] at forgets
      cases forgets
  | transfer i nothrow t j =>
    obtain ⟨b, hb, h⟩ := bind_ok h
    obtain ⟨buffer, hj, h⟩ := bind_ok h
    have first := object_ok hb
    have second := object_ok hj
    split at h
    next same =>
      obtain ⟨⟨done, b'⟩, ht, h⟩ := bind_ok h
      obtain ⟨_, rfl⟩ := report_false (congrArg Prod.fst (Except.ok.inj h))
      obtain rfl := congrArg Prod.snd (Except.ok.inj h)
      rw [transferSelf_fails ht (framed i b first) sized]
      unfold Action.Spares
      rw [← same]
      exact cleared_iff first
    next =>
      obtain ⟨⟨done, b', buffer'⟩, ht, h⟩ := bind_ok h
      obtain ⟨_, rfl⟩ := report_false (congrArg Prod.fst (Except.ok.inj h))
      obtain rfl := congrArg Prod.snd (Except.ok.inj h)
      obtain ⟨rfl, rfl⟩ := transfer_fails ht (framed i b first) (framed j buffer second) sized
      have kept : update s i (some b') = s := by
        rw [← first]
        exact update_eq_self i s
      change Unchanged s (update (update s i (some b')) j (some buffer.clear)) ↔ _
      rw [kept]
      exact cleared_iff second
  | transferNew i t j =>
    obtain ⟨_, _, h⟩ := bind_ok h
    obtain ⟨_, _, h⟩ := bind_ok h
    obtain ⟨⟨done, b', buffer'⟩, _, h⟩ := bind_ok h
    have failed : report false true done = .returned false := congrArg Prod.fst (Except.ok.inj h)
    cases (report_false failed).1
  | moveConstruct i j =>
    obtain ⟨_, _, h⟩ := bind_ok h
    obtain ⟨_, _, h⟩ := bind_ok h
    cases h
  | moveAssign i j =>
    obtain ⟨_, _, h⟩ := bind_ok h
    obtain ⟨_, _, h⟩ := bind_ok h
    split at h
    next => cases h
    next => cases h

def limited : Buffer := { data := some [some 97, some 98], maximum := 2, capacity := 2, size := 2 }

/-- `Buffer b(2, 2); b.append("ab");` -/
theorem limited_run :
    ∃ labels : List (Action Unit), ∃ s : Objects Unit,
      Run Performed Start labels s ∧ s () = some limited := by
  have constructed : Performed Start (.construct () (.maximum 2 2))
      (update Start () (some { limited with data := some [none, none], size := 0 })) := by
    refine ⟨.returned true, ⟨?_, ?_⟩, true, fun _ => 0, rfl⟩
    · omega
    · omega
  have appended : Performed (update Start () (some { limited with data := some [none, none], size := 0 }))
      (.call () true (.append (some [some 97, some 98]) 2))
      (update (update Start () (some { limited with data := some [none, none], size := 0 })) ()
        (some limited)) := by
    refine ⟨.returned true, ?_, true, fun _ => 0, rfl⟩
    change 2 < 2 ^ 64
    omega
  exact ⟨_, _, (Run.start.next constructed).next appended, update_self () _ _⟩

def replacement : Pointer := some [some 99, some 100, some 101]

theorem call_performs {i : ι} {b b' : Buffer} (hb : s i = some b) (nothrow : Bool) {c : Call} {alloc done : Bool}
    (sized : c.Sized) (hc : b.call alloc c = .ok (done, b')) :
    Performs s (.call i nothrow c) (report nothrow c.throws done) (update s i (some b')) := by
  refine ⟨sized, alloc, fun _ => 0, ?_⟩
  have here : object s i = .ok b := by
    unfold object
    rw [hb]
  change (object s i >>= fun b => b.call alloc c >>= _) = _
  rw [here, ok_bind, hc]
  rfl

/-- `b.assign("cde", std::nothrow)` returns `false`, and `b` is empty. -/
theorem assign_empties :
    ¬∀ (labels : List (Action Unit)) (s t : Objects Unit) (action : Action Unit),
      Run Performed Start labels s → Performs s action (.returned false) t → Unchanged s t := by
  intro h
  obtain ⟨labels, s, run, hs⟩ := limited_run
  have small : (Call.assign replacement 3).Sized := by
    change 3 < 2 ^ 64
    omega
  have failed : limited.call true (.assign replacement 3) = .ok (false, limited.clear) := rfl
  have unchanged := h labels s _ _ run (call_performs hs true small failed)
  have empty := (cleared_iff hs).mp unchanged limited hs
  cases empty

theorem failure_unchanged_iff_append :
    ∃ s t : Objects Unit,
      Performs s (.call () true (.append replacement 3)) (.returned false) t ∧ Unchanged s t := by
  obtain ⟨labels, s, run, hs⟩ := limited_run
  have small : (Call.append replacement 3).Sized := by
    change 3 < 2 ^ 64
    omega
  have failed : limited.call true (.append replacement 3) = .ok (false, limited) := rfl
  have performed := call_performs hs true small failed
  exact ⟨s, _, performed, (failure_unchanged_iff run performed).mpr nofun⟩

end Atomic

end Buffer

end Hlib
