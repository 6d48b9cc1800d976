import Hlib.Memory
import Hlib.Monitor

namespace Hlib

open Monitor
open Transition (Run)

namespace Latch

/-- A call of `countDown(n)`, or of `arriveAndWait(n)`, which waits when it has counted down. -/
structure Arrival where
  n : Int
  wait : Bool
  deriving DecidableEq, Repr

/-- The critical section of `countDown(n)`: the count, and whether `notify_all` follows. -/
def countDown (count n : Int) : Checked (Int × Bool) :=
  if count ≤ 0 then .ok (count, false)
  else do
    require (n ≤ count) .assertion
    let count := count - n
    if count > 0 then .ok (count, false) else .ok (count, true)

/-- `Latch`, counted down by no negative number. -/
def protocol : Protocol Int Arrival where
  ready count := 0 = count
  change count arrival count' notifies := 0 ≤ arrival.n ∧ countDown count arrival.n = .ok (count', notifies)
  waits arrival := arrival.wait

theorem countDown_ok {count n count' : Int} {notifies : Bool}
    (h : countDown count n = .ok (count', notifies)) :
    count ≤ 0 ∧ count' = count ∧ notifies = false ∨
      0 < count ∧ n ≤ count ∧ count' = count - n ∧ (notifies = true ↔ count' = 0) := by
  unfold countDown at h
  split at h
  next down =>
    cases h
    exact Or.inl ⟨down, rfl, rfl⟩
  next up =>
    obtain ⟨_, fits, h⟩ := bind_ok h
    have fits : n ≤ count := require_ok fits
    right
    dsimp only at h
    split at h <;> cases h
    · exact ⟨by omega, fits, rfl, iff_of_false nofun (by omega)⟩
    · exact ⟨by omega, fits, rfl, iff_of_true rfl (by omega)⟩

theorem lawful : protocol.Lawful := by
  constructor
  · rintro count arrival count' notifies (rfl : 0 = count) ⟨_, done⟩
    obtain ⟨_, rfl, _⟩ | ⟨up, _⟩ := countDown_ok done
    · rfl
    · omega
  · rintro count arrival count' notifies unready ⟨nonneg, done⟩ (rfl : 0 = count')
    obtain ⟨_, same, _⟩ | ⟨_, _, _, notified⟩ := countDown_ok done
    · exact absurd same unready
    · exact notified.mpr rfl

variable {θ : Type*}

def add (total : Int) : Label θ Arrival → Int
  | .change _ arrival => total + arrival.n
  | _ => total

/-- What has been counted down so far. -/
def counted (labels : List (Label θ Arrival)) : Int := labels.foldl add 0

/-- `wait` returns, or `tryWait` returns `true`. -/
def Passes : Label θ Arrival → Prop
  | .pass _ | .read _ true => True
  | _ => False

variable [DecidableEq θ]

/-- The count is what is left of the first one. -/
theorem step_count {expected total : Int} {s t : State θ Int Arrival} {label : Label θ Arrival}
    (h : s.data = max 0 (expected - total)) (hs : Step protocol s label t) :
    t.data = max 0 (expected - add total label) := by
  cases hs with
  | @change count owner threads i arrival count' notifies here done =>
    obtain ⟨nonneg, done⟩ := done
    have h : count = max 0 (expected - total) := h
    show count' = max 0 (expected - (total + arrival.n))
    obtain ⟨_, _, _⟩ | ⟨_, _, _, _⟩ := countDown_ok done
    · omega
    · omega
  | _ => exact h

theorem step_falls {s t : State θ Int Arrival} {label : Label θ Arrival}
    (hs : Step protocol s label t) : t.data ≤ s.data := by
  cases hs with
  | @change count owner threads i arrival count' notifies here done =>
    obtain ⟨nonneg, done⟩ := done
    show count' ≤ count
    obtain ⟨_, _, _⟩ | ⟨_, _, _, _⟩ := countDown_ok done
    · omega
    · omega
  | _ => exact Int.le_refl _

theorem passes_ready {s t : State θ Int Arrival} {label : Label θ Arrival}
    (hs : Step protocol s label t) (passes : Passes label) : s.data = 0 := by
  cases hs with
  | read here tells =>
    rename_i result
    cases result with
    | true => exact (tells.mp rfl).symm
    | false => exact passes.elim
  | pass here ready => exact Eq.symm ready
  | _ => exact passes.elim

/-- Whatever the threads do, the count falls from the first one to zero as it is counted down, nobody
gets through before that, and nobody is left blocked then. -/
theorem wakeups_kept {expected : Int} (nonneg : 0 ≤ expected) {labels : List (Label θ Arrival)}
    {s : State θ Int Arrival} (run : Run (Step protocol) (initial expected) labels s) :
    s.data = max 0 (expected - counted labels) ∧
      (∀ label t, Step protocol s label t → 0 ≤ t.data ∧ t.data ≤ s.data ∧
        (Passes label → expected ≤ counted labels)) ∧
      ¬(s.data = 0 ∧ (∀ i arrival, s.threads i ≠ .notifying arrival) ∧ ∃ i, s.threads i = .blocked) := by
  have count : s.data = max 0 (expected - counted labels) :=
    run.simulates (fun total s => s.data = max 0 (expected - total))
      (by show expected = max 0 (expected - 0); omega) fun h hs => step_count h hs
  have sound := run_sound lawful run
  refine ⟨count, ?_, ?_⟩
  · intro label t hs
    have later := step_count count hs
    refine ⟨by omega, step_falls hs, ?_⟩
    intro passes
    have zero := passes_ready hs passes
    omega
  · rintro ⟨zero, quiet, i, blocked⟩
    rcases sound.awake zero.symm with ⟨j, arrival, notifying⟩ | free
    · exact quiet j arrival notifying
    · exact free i blocked

theorem wakeups_kept_sample :
    ∃ s : State Bool Int Arrival, Run (Step protocol) (initial 1)
        [.wait true, .lock true, .fail true, .block true, .call false ⟨1, false⟩, .lock false,
          .change false ⟨1, false⟩, .notify false] s ∧
      ¬(s.data = 0 ∧ (∀ i arrival, s.threads i ≠ .notifying arrival) ∧ ∃ i, s.threads i = .blocked) := by
  refine Exists.imp (fun s run => ⟨run, (@wakeups_kept Bool _ 1 (by decide) _ s run).2.2⟩) ?_
  refine ⟨_, (((((((Run.start.next (.wait rfl)).next (.lock rfl)).next (.fail rfl nofun)).next
    (.block rfl)).next (.call rfl)).next (.lock rfl)).next (.change rfl ⟨by decide, rfl⟩)).next (.notify rfl)⟩

end Latch

end Hlib
