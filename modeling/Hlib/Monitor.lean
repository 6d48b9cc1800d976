import Hlib.Transition

namespace Monitor

open Function (update update_self update_of_ne)
open Transition (Run)

/-- Data behind a mutex, with one condition variable: what is waited for, and the critical sections
that change the data, with whether one notifies all waiters after it has unlocked, and goes on to
wait itself. -/
structure Protocol (σ ω : Type*) where
  ready : σ → Prop
  change : σ → ω → σ → Bool → Prop
  waits : ω → Bool

/-- Once ready, the data stays so, and who makes it ready notifies. -/
structure Protocol.Lawful {σ ω : Type*} (p : Protocol σ ω) : Prop where
  stays : ∀ {d u d' notifies}, p.ready d → p.change d u d' notifies → p.ready d'
  notifies : ∀ {d u d' notifies}, ¬p.ready d → p.change d u d' notifies → p.ready d' → notifies = true

/-- Where a thread stands. -/
inductive Stage (ω : Type*)
  | outside
  /-- Before it locks, to change the data. -/
  | calling (u : ω)
  | changing (u : ω)
  /-- Past its critical section, before `notify_all`. -/
  | notifying (u : ω)
  | asking
  | reading
  /-- Before it locks in `wait`, at first or woken. -/
  | waiting
  | testing
  /-- With the mutex, past a test that failed. -/
  | blocking
  | blocked

namespace Stage

variable {ω : Type*}

def Owns : Stage ω → Prop
  | .changing _ | .reading | .testing | .blocking => True
  | _ => False

/-- The stage behind the lock. -/
def locked : Stage ω → Option (Stage ω)
  | .calling u => some (.changing u)
  | .asking => some .reading
  | .waiting => some .testing
  | _ => none

def woken : Stage ω → Stage ω
  | .blocked => .waiting
  | stage => stage

end Stage

structure State (θ σ ω : Type*) where
  data : σ
  owner : Option θ
  threads : θ → Stage ω

inductive Label (θ ω : Type*)
  | call (thread : θ) (u : ω)
  | ask (thread : θ)
  | wait (thread : θ)
  | lock (thread : θ)
  | change (thread : θ) (u : ω)
  | notify (thread : θ)
  | read (thread : θ) (result : Bool)
  | pass (thread : θ)
  | fail (thread : θ)
  | block (thread : θ)
  | wake (thread : θ)

variable {θ σ ω : Type*} [DecidableEq θ] {p : Protocol σ ω}

def Protocol.after (p : Protocol σ ω) (u : ω) : Stage ω := if p.waits u then .waiting else .outside

/-- One step of one thread. `wait` blocks and unlocks in one step, and may return without a
notification. -/
inductive Step (p : Protocol σ ω) : State θ σ ω → Label θ ω → State θ σ ω → Prop
  | call {d owner threads i u} (here : threads i = .outside) :
      Step p ⟨d, owner, threads⟩ (.call i u) ⟨d, owner, update threads i (.calling u)⟩
  | ask {d owner threads i} (here : threads i = .outside) :
      Step p ⟨d, owner, threads⟩ (.ask i) ⟨d, owner, update threads i .asking⟩
  | wait {d owner threads i} (here : threads i = .outside) :
      Step p ⟨d, owner, threads⟩ (.wait i) ⟨d, owner, update threads i .waiting⟩
  | lock {d threads i stage} (next : (threads i).locked = some stage) :
      Step p ⟨d, none, threads⟩ (.lock i) ⟨d, some i, update threads i stage⟩
  | change {d owner threads i u d' notifies} (here : threads i = .changing u)
      (done : p.change d u d' notifies) :
      Step p ⟨d, owner, threads⟩ (.change i u)
        ⟨d', none, update threads i (if notifies then .notifying u else p.after u)⟩
  | notify {d owner threads i u} (here : threads i = .notifying u) :
      Step p ⟨d, owner, threads⟩ (.notify i)
        ⟨d, owner, update (fun j => (threads j).woken) i (p.after u)⟩
  | read {d owner threads i result} (here : threads i = .reading) (tells : result = true ↔ p.ready d) :
      Step p ⟨d, owner, threads⟩ (.read i result) ⟨d, none, update threads i .outside⟩
  | pass {d owner threads i} (here : threads i = .testing) (ready : p.ready d) :
      Step p ⟨d, owner, threads⟩ (.pass i) ⟨d, none, update threads i .outside⟩
  | fail {d owner threads i} (here : threads i = .testing) (unready : ¬p.ready d) :
      Step p ⟨d, owner, threads⟩ (.fail i) ⟨d, owner, update threads i .blocking⟩
  | block {d owner threads i} (here : threads i = .blocking) :
      Step p ⟨d, owner, threads⟩ (.block i) ⟨d, none, update threads i .blocked⟩
  | wake {d owner threads i} (here : threads i = .blocked) :
      Step p ⟨d, owner, threads⟩ (.wake i) ⟨d, owner, update threads i .waiting⟩

def initial (d : σ) : State θ σ ω := ⟨d, none, fun _ => .outside⟩

/-- Nobody is left blocked once the data is ready and nobody is about to notify. -/
def Awake (p : Protocol σ ω) (s : State θ σ ω) : Prop :=
  p.ready s.data → (∃ i u, s.threads i = .notifying u) ∨ ∀ i, s.threads i ≠ .blocked

structure Sound (p : Protocol σ ω) (s : State θ σ ω) : Prop where
  owner : ∀ i, (s.threads i).Owns → s.owner = some i
  unready : ∀ i, s.threads i = .blocking → ¬p.ready s.data
  awake : Awake p s

omit [DecidableEq θ] in
theorem sound_initial (d : σ) : Sound p (initial d : State θ σ ω) :=
  ⟨fun _ => False.elim, nofun, fun _ => Or.inr fun _ => nofun⟩

theorem woken_owns {stage : Stage ω} : stage.woken.Owns ↔ stage.Owns := by
  cases stage <;> rfl

theorem woken_ne_blocked (stage : Stage ω) : stage.woken ≠ .blocked := by
  cases stage <;> nofun

theorem woken_blocking {stage : Stage ω} : stage.woken = .blocking ↔ stage = .blocking := by
  cases stage <;> simp [Stage.woken]

section Moves

variable {d : σ} {owner : Option θ} {threads : θ → Stage ω} {i : θ} {stage : Stage ω}

theorem owner_moved {owner' : Option θ} (h : ∀ j, (threads j).Owns → owner = some j)
    (own : stage.Owns → owner' = some i) (others : ∀ j, j ≠ i → owner = some j → owner' = some j) :
    ∀ j, (update threads i stage j).Owns → owner' = some j := by
  intro j owns
  by_cases same : j = i
  · subst same
    rw [update_self] at owns
    exact own owns
  · rw [update_of_ne same] at owns
    exact others j same (h j owns)

/-- A thread that was not about to notify, and is not blocked now, leaves nobody blocked. -/
theorem awake_moved {owner' : Option θ} (h : Awake p ⟨d, owner, threads⟩)
    (before : ∀ u, threads i ≠ .notifying u) (after : stage ≠ .blocked) :
    Awake p ⟨d, owner', update threads i stage⟩ := by
  intro ready
  rcases h ready with ⟨j, u, notifying⟩ | free
  · left
    have other : j ≠ i := by
      rintro rfl
      exact before u notifying
    refine ⟨j, u, ?_⟩
    show update threads i stage j = _
    rw [update_of_ne other]
    exact notifying
  · right
    intro j
    show update threads i stage j ≠ _
    by_cases same : j = i
    · subst same
      rw [update_self]
      exact after
    · rw [update_of_ne same]
      exact free j

/-- A thread that stays outside its critical sections. -/
theorem sound_moved (h : Sound p ⟨d, owner, threads⟩) (free : ¬stage.Owns)
    (before : ∀ u, threads i ≠ .notifying u) (after : stage ≠ .blocked) :
    Sound p ⟨d, owner, update threads i stage⟩ := by
  refine ⟨owner_moved h.owner (fun owns => absurd owns free) (fun _ _ => id), ?_,
    awake_moved h.awake before after⟩
  intro j here
  have here : update threads i stage j = .blocking := here
  by_cases same : j = i
  · subst same
    rw [update_self] at here
    subst here
    exact absurd trivial free
  · rw [update_of_ne same] at here
    exact h.unready j here

/-- A thread inside a critical section, the only one in one. -/
theorem sound_locked (h : Sound p ⟨d, owner, threads⟩) (alone : ∀ j, j ≠ i → owner ≠ some j)
    (unready : stage = .blocking → ¬p.ready d) (before : ∀ u, threads i ≠ .notifying u)
    (after : stage ≠ .blocked) : Sound p ⟨d, some i, update threads i stage⟩ := by
  refine ⟨owner_moved h.owner (fun _ => rfl) (fun j other own => absurd own (alone j other)), ?_,
    awake_moved h.awake before after⟩
  intro j here
  have here : update threads i stage j = .blocking := here
  by_cases same : j = i
  · subst same
    rw [update_self] at here
    exact unready here
  · rw [update_of_ne same] at here
    exact h.unready j here

/-- A thread that leaves its critical section was the only one in one. -/
theorem sound_unlocked (h : Sound p ⟨d, owner, threads⟩) (owns : (threads i).Owns) (free : ¬stage.Owns)
    {d' : σ} (awake : Awake p ⟨d', none, update threads i stage⟩) :
    Sound p ⟨d', none, update threads i stage⟩ := by
  have alone : ∀ j, j ≠ i → ¬(threads j).Owns := by
    intro j other owns'
    exact other (Option.some.inj ((h.owner j owns').symm.trans (h.owner i owns)))
  have nobody : ∀ j, ¬(update threads i stage j).Owns := by
    intro j
    by_cases same : j = i
    · subst same
      rw [update_self]
      exact free
    · rw [update_of_ne same]
      exact alone j same
  refine ⟨fun j owns => absurd owns (nobody j), ?_, awake⟩
  intro j here
  have here : update threads i stage j = .blocking := here
  refine absurd ?_ (nobody j)
  rw [here]
  trivial

/-- Whoever notifies leaves nobody blocked. -/
theorem sound_notified (h : Sound p ⟨d, owner, threads⟩) (free : ¬stage.Owns) (unblocked : stage ≠ .blocked) :
    Sound p ⟨d, owner, update (fun j => (threads j).woken) i stage⟩ := by
  have owners : ∀ j, (threads j).woken.Owns → owner = some j := fun j owns => h.owner j (woken_owns.mp owns)
  refine ⟨owner_moved owners (fun owns => absurd owns free) (fun _ _ => id), ?_, ?_⟩
  · intro j blocking
    have blocking : update (fun j => (threads j).woken) i stage j = .blocking := blocking
    by_cases same : j = i
    · subst same
      rw [update_self] at blocking
      rw [blocking] at free
      exact absurd trivial free
    · rw [update_of_ne same] at blocking
      exact h.unready j (woken_blocking.mp blocking)
  · intro _
    right
    intro j
    show update (fun j => (threads j).woken) i stage j ≠ .blocked
    by_cases same : j = i
    · subst same
      rw [update_self]
      exact unblocked
    · rw [update_of_ne same]
      exact woken_ne_blocked _

end Moves

theorem after_free (p : Protocol σ ω) (u : ω) : ¬(p.after u).Owns ∧ p.after u ≠ .blocked := by
  unfold Protocol.after
  split
  · exact ⟨id, nofun⟩
  · exact ⟨id, nofun⟩

theorem locked_quiet {stage next : Stage ω} (h : stage.locked = some next) :
    next ≠ .blocking ∧ next ≠ .blocked ∧ (∀ u, stage ≠ .notifying u) := by
  cases stage <;> cases h <;> exact ⟨nofun, nofun, fun _ => nofun⟩

theorem step_sound (lawful : p.Lawful) {s t : State θ σ ω} {label : Label θ ω} (h : Sound p s)
    (hs : Step p s label t) : Sound p t := by
  cases hs with
  | call here | ask here | wait here | wake here =>
    refine sound_moved h id ?_ nofun
    intro u
    rw [here]
    nofun
  | @lock d threads i stage next =>
    obtain ⟨unblocking, unblocked, quiet⟩ := locked_quiet next
    exact sound_locked h (fun _ _ => nofun) (fun blocking => absurd blocking unblocking) quiet unblocked
  | @change d owner threads i u d' notifies here done =>
    have owns : (threads i).Owns := by
      rw [here]
      trivial
    have quiet : ∀ v, threads i ≠ .notifying v := by
      intro v
      rw [here]
      nofun
    cases notifies with
    | true =>
      refine sound_unlocked h owns id ?_
      intro _
      exact Or.inl ⟨i, u, update_self _ _ _⟩
    | false =>
      obtain ⟨free, unblocked⟩ := after_free p u
      refine sound_unlocked h owns free ?_
      intro ready
      by_cases before : p.ready d
      · have still : Awake p ⟨d, none, update threads i (p.after u)⟩ :=
          awake_moved h.awake quiet unblocked
        exact still before
      · cases lawful.notifies before done ready
  | @notify d owner threads i u here =>
    obtain ⟨free, unblocked⟩ := after_free p u
    exact sound_notified h free unblocked
  | read here | pass here =>
    refine sound_unlocked h ?_ id (awake_moved h.awake ?_ nofun)
    · rw [here]
      trivial
    · intro u
      rw [here]
      nofun
  | @fail d owner threads i here unready =>
    have owns : (threads i).Owns := by
      rw [here]
      trivial
    obtain rfl : owner = some i := h.owner i owns
    refine sound_locked h ?_ (fun _ => unready) ?_ nofun
    · intro j other same
      exact other (Option.some.inj same).symm
    · intro u
      rw [here]
      nofun
  | @block d owner threads i here =>
    have owns : (threads i).Owns := by
      rw [here]
      trivial
    refine sound_unlocked h owns id ?_
    intro ready
    exact absurd ready (h.unready i here)

theorem run_sound (lawful : p.Lawful) {d : σ} {labels : List (Label θ ω)} {s : State θ σ ω}
    (run : Run (Step p) (initial d) labels s) : Sound p s :=
  run.invariant (sound_initial d) fun h hs => step_sound lawful h hs

end Monitor
