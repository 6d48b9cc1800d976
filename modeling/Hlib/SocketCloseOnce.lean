import Hlib.SocketFailures
import Mathlib.Data.List.Chain

namespace Hlib

open FlagMask (Meets)
open EventLoop (Read Write Error Hup)
open Transition (Run)

namespace Socket

/-- What the system gives while one event is handled. -/
structure Reply where
  answers : Answers := {}
  peer : Result Fd := .error 11
  nonBlocking : Option Errno := none
  read : ReadCall := { available := .ok 0, received := .ok [], alloc := true }
  write : Result Nat := .ok 0

inductive Action
  | request (request : Request)
  | event (fd : Fd) (events : Events) (reply : Reply)
  | expire
  | elsewhere (loop : EventLoop Handler)

namespace Life

variable {T : Type} [SinkData T]

/-- The next part of a handler, if there is one. -/
def advance (reply : Reply) (w : Life T) : Checked (Life T) :=
  match w.phase with
  | .idle => .ok w
  | .accepting => .ok (w.accept reply.peer reply.nonBlocking)
  | .reading events => w.readPart events reply.read
  | .writing events => w.writePart events reply.write
  | .closing accepts => w.finish accepts

/-- A handler from its start to its end. -/
def handle (fd : Fd) (events : Events) (reply : Reply) (handler : Handler) (w : Life T) :
    Checked (Life T) := do
  let entered ← w.dispatch fd events reply.answers handler
  let first ← entered.advance reply
  let second ← first.advance reply
  second.advance reply

/-- One step of a socket whose callbacks make no calls on it. -/
inductive Turn : Life T → Action → Life T → Prop
  | request {w w' : Life T} {request} (h : w.request request = .ok w') :
      Turn w (.request request) w'
  | event {w w' : Life T} {loop fd events handler reply} (alive : w.socket.eventLoop = some loop)
      (watched : loop.interest fd ≠ none) (called : loop.callbacks fd = some handler)
      (h : w.handle fd events reply handler = .ok w') : Turn w (.event fd events reply) w'
  | expire {w : Life T} : Turn w .expire (w.put { w.socket with eventLoop := none })
  | elsewhere {w : Life T} {loop loop' : EventLoop Handler} (alive : w.socket.eventLoop = some loop)
      (own : ∀ fd handler, handler ≠ .foreign →
        (loop'.callbacks fd = some handler ↔ loop.callbacks fd = some handler))
      (interest : loop'.interest w.socket.fd = loop.interest w.socket.fd) :
      Turn w (.elsewhere loop') (w.put { w.socket with eventLoop := some loop' })

/-- Behind the close callback nothing is seen of a connection, but the call that begins another. -/
def ClosesOnce (acts : List Act) : Prop :=
  acts.IsChain fun act next => ∀ error, act = .onClose error → next = .began

/-- No event tells of an error on a socket that listens and has a close callback. -/
def ListensUndisturbed (w : Life T) : Action → Prop
  | .event fd events _ => ∀ loop, w.socket.eventLoop = some loop →
      loop.callbacks fd = some .onAccept → w.socket.closeCallback = true → ¬Meets Error events
  | _ => True

def Clean (acts : List Act) : Prop := ∀ error, Act.onClose error ∉ acts

/-- Nothing, or the close callback. -/
def Last (acts : List Act) : Prop := acts = [] ∨ ∃ error, acts = [.onClose error]

section Acts

theorem clean_nil : Clean [] := fun _ => List.not_mem_nil

theorem clean_append {front rest : List Act} : Clean (front ++ rest) ↔ Clean front ∧ Clean rest := by
  simp only [Clean, List.mem_append, not_or, forall_and]

theorem clean_one {act : Act} (other : ∀ error, act ≠ .onClose error) : Clean [act] := by
  intro error
  rw [List.mem_singleton]
  exact (other error).symm

theorem clean_began {acts : List Act} (clean : Clean acts) : Clean (.began :: acts) := by
  have first : Clean [.began] := clean_one fun _ => nofun
  exact clean_append.mpr ⟨first, clean⟩

theorem clean_when (present : Bool) {act : Act} (other : ∀ error, act ≠ .onClose error) :
    Clean (if present then [act] else []) := by
  split
  · exact clean_one other
  · exact clean_nil

theorem last_when (present : Bool) (error : Errno) :
    Last (if present then [.onClose error] else []) := by
  split
  · exact Or.inr ⟨error, rfl⟩
  · exact Or.inl rfl

theorem closesOnce_part {front last : List Act} (clean : Clean front) (ends : Last last) :
    ClosesOnce (front ++ last) := by
  induction front with
  | nil =>
    rcases ends with rfl | ⟨error, rfl⟩
    · exact List.isChain_nil
    · exact List.isChain_singleton _
  | cons act front ih =>
    have later := ih fun error held => clean error (List.mem_cons_of_mem _ held)
    refine List.isChain_cons.mpr ⟨?_, later⟩
    rintro next _ error rfl
    exact absurd List.mem_cons_self (clean error)

theorem closesOnce_clean {acts : List Act} (clean : Clean acts) : ClosesOnce acts := by
  have once := closesOnce_part clean (Or.inl rfl)
  rw [List.append_nil] at once
  exact once

/-- More may be seen of a connection behind anything but the close callback. -/
theorem closesOnce_append {acts more : List Act} (h : ClosesOnce acts) (hm : ClosesOnce more)
    (still : ∀ error, acts.getLast? ≠ some (.onClose error)) : ClosesOnce (acts ++ more) := by
  refine List.isChain_append.mpr ⟨h, hm, ?_⟩
  rintro act held next _ error rfl
  exact absurd held (still error)

theorem closesOnce_began {acts more : List Act} (h : ClosesOnce acts) (hm : ClosesOnce (.began :: more)) :
    ClosesOnce (acts ++ .began :: more) := by
  refine List.isChain_append.mpr ⟨h, hm, ?_⟩
  intro act _ next first error _
  exact (Option.some.inj first).symm

theorem reopens {acts rest : List Act} {error : Errno} {act : Act} (other : act ≠ .began) :
    ¬ClosesOnce (acts ++ .onClose error :: act :: rest) := by
  intro h
  exact other ((List.isChain_append_cons_cons.mp h).2.1 error rfl)

end Acts

/-- What a handler has made of a socket, with what is seen of it behind `start`. -/
inductive Going (start : List Act) (w : Life T) : Prop
  | along (quiet : ∀ accepts, w.phase ≠ .closing accepts) (front : List Act)
      (acts : w.acts = start ++ front) (clean : Clean front)
  | closing (here : w.phase = .closing false) (front last : List Act)
      (acts : w.acts = start ++ (front ++ last)) (clean : Clean front) (ends : Last last)
  | closed (idle : w.phase = .idle) (shut : w.socket.fd = -1) (front last : List Act)
      (acts : w.acts = start ++ (front ++ last)) (clean : Clean front) (ends : Last last)

omit [SinkData T] in
theorem finish_ok {w w' : Life T} {accepts : Bool} (h : w.finish accepts = .ok w') :
    w'.acts = w.acts ∧ w'.phase = (if accepts then .accepting else .idle) ∧ w'.socket.fd = -1 ∧
      w'.socket.closeCallback = w.socket.closeCallback := by
  obtain ⟨process, closed, h⟩ := bind_ok h
  cases h
  have closed := Process.close_socket closed
  refine ⟨rfl, rfl, (close_closed closed).shut, ?_⟩
  obtain ⟨_, same⟩ | ⟨_, eventLoop, same, _⟩ := close_ok closed
  · show process.socket.closeCallback = _
    rw [same]
  · show process.socket.closeCallback = _
    rw [same]
    rfl

section Parts

variable {w w' : Life T} {start front : List Act}

omit [SinkData T] in
theorem close_going (acts : w.acts = start ++ front) (clean : Clean front) (error : Errno) :
    Going start (w.callbackAndClose error false) := by
  refine .closing rfl front (if w.socket.closeCallback then [.onClose error] else []) ?_ clean
    (last_when _ error)
  show w.acts ++ _ = _
  rw [acts, List.append_assoc]

omit [SinkData T] in
theorem see_going (acts : w.acts = start ++ front) (clean : Clean front) {more : List Act}
    (hm : Clean more) (quiet : ∀ accepts, w.phase ≠ .closing accepts) : Going start (w.see more) := by
  refine .along quiet (front ++ more) ?_ (clean_append.mpr ⟨clean, hm⟩)
  show w.acts ++ more = _
  rw [acts, List.append_assoc]

omit [SinkData T] in
theorem accept_going (peer : Result Fd) (nonBlocking : Option Errno) :
    Going (w.acts ++ [.accept]) (w.accept peer nonBlocking) := by
  have called : (w.see [.accept]).acts = w.acts ++ [.accept] ++ [] := (List.append_nil _).symm
  unfold accept
  cases peer with
  | error errno => exact close_going called clean_nil errno
  | ok fd =>
    cases nonBlocking with
    | some errno => exact close_going called clean_nil errno
    | none =>
      refine see_going ?_ clean_nil (clean_one ?_) ?_
      · exact called
      · exact fun _ => nofun
      · exact fun _ => nofun

omit [SinkData T] in
theorem Going.earlier (h : Going (start ++ front) w) (clean : Clean front) : Going start w := by
  cases h with
  | along quiet more acts hm =>
    exact .along quiet (front ++ more) (by rw [acts, List.append_assoc]) (clean_append.mpr ⟨clean, hm⟩)
  | closing here more last acts hm ends =>
    refine .closing here (front ++ more) last ?_ (clean_append.mpr ⟨clean, hm⟩) ends
    rw [acts, List.append_assoc, List.append_assoc]
  | closed idle shut more last acts hm ends =>
    refine .closed idle shut (front ++ more) last ?_ (clean_append.mpr ⟨clean, hm⟩) ends
    rw [acts, List.append_assoc, List.append_assoc]

omit [SinkData T] in
theorem write_going {events : Events} {call : Result Nat} (acts : w.acts = start ++ front)
    (clean : Clean front) (h : w.writePart events call = .ok w') : Going start w' := by
  unfold writePart at h
  split at h
  next =>
    obtain ⟨half, _, h⟩ := bind_ok h
    have called : ((w.put half.io).see [.send]).acts = start ++ (front ++ [.send]) := by
      show w.acts ++ _ = _
      rw [acts, List.append_assoc]
    have clean' : Clean (front ++ [.send]) := clean_append.mpr ⟨clean, clean_one fun _ => nofun⟩
    cases outcome : half.outcome with
    | more =>
      rw [outcome] at h
      cases h
      exact .along (fun _ => nofun) _ called clean'
    | completed entry =>
      rw [outcome] at h
      cases h
      refine see_going ?_ clean' (clean_when _ ?_) ?_
      · exact called
      · exact fun _ => nofun
      · exact fun _ => nofun
    | failed errno =>
      rw [outcome] at h
      cases h
      exact close_going called clean' errno
  next =>
    cases h
    exact .along (fun _ => nofun) front acts clean

theorem read_going {events : Events} {call : ReadCall} (acts : w.acts = start ++ front)
    (clean : Clean front) (h : w.readPart events call = .ok w') : Going start w' := by
  unfold readPart at h
  split at h
  next =>
    obtain ⟨half, _, h⟩ := bind_ok h
    have called : ((w.put half.io).see [.recv]).acts = start ++ (front ++ [.recv]) := by
      show w.acts ++ _ = _
      rw [acts, List.append_assoc]
    have clean' : Clean (front ++ [.recv]) := clean_append.mpr ⟨clean, clean_one fun _ => nofun⟩
    cases outcome : half.outcome with
    | more =>
      rw [outcome] at h
      cases h
      exact .along (fun _ => nofun) _ called clean'
    | full sink callback =>
      rw [outcome] at h
      cases h
      refine see_going ?_ clean' (clean_when _ ?_) ?_
      · exact called
      · exact fun _ => nofun
      · exact fun _ => nofun
    | eof sink callback =>
      rw [outcome] at h
      cases h
      have clean'' : Clean (front ++ [.recv] ++ if callback then [.onReceived] else []) :=
        clean_append.mpr ⟨clean', clean_when callback fun _ => nofun⟩
      refine close_going ?_ clean'' 0
      show ((w.put half.io).see [.recv]).acts ++ _ = _
      rw [called, List.append_assoc]
    | failed errno =>
      rw [outcome] at h
      cases h
      exact close_going called clean' errno
  next =>
    cases h
    exact .along (fun _ => nofun) front acts clean

theorem advance_going {reply : Reply} (h : Going start w) (ha : w.advance reply = .ok w') :
    Going start w' := by
  unfold advance at ha
  cases h with
  | along quiet front acts clean =>
    cases phase : w.phase with
    | idle =>
      rw [phase] at ha
      cases ha
      exact .along quiet front acts clean
    | accepting =>
      rw [phase] at ha
      cases ha
      have going := accept_going (w := w) reply.peer reply.nonBlocking
      rw [acts, List.append_assoc] at going
      exact going.earlier (clean_append.mpr ⟨clean, clean_one fun _ => nofun⟩)
    | reading events =>
      rw [phase] at ha
      exact read_going acts clean ha
    | writing events =>
      rw [phase] at ha
      exact write_going acts clean ha
    | closing accepts => exact absurd phase (quiet accepts)
  | closing here front last acts clean ends =>
    rw [here] at ha
    obtain ⟨same, idle, shut, _⟩ := finish_ok ha
    exact .closed idle shut front last (same.trans acts) clean ends
  | closed idle shut front last acts clean ends =>
    rw [idle] at ha
    cases ha
    exact .closed idle shut front last acts clean ends

/-- How many parts a handler has yet. -/
def rank : Phase → Nat
  | .idle => 0
  | .closing false => 1
  | .accepting | .writing _ => 2
  | .reading _ | .closing true => 3

theorem advance_rank {reply : Reply} (ha : w.advance reply = .ok w') :
    rank w'.phase ≤ rank w.phase - 1 := by
  unfold advance at ha
  cases phase : w.phase with
  | idle =>
    rw [phase] at ha
    cases ha
    rw [phase]
    exact Nat.zero_le _
  | accepting =>
    rw [phase] at ha
    cases ha
    unfold accept
    split <;> exact Nat.le_of_ble_eq_true rfl
  | reading events =>
    rw [phase] at ha
    simp only [readPart] at ha
    split at ha
    next =>
      obtain ⟨half, _, h⟩ := bind_ok ha
      cases outcome : half.outcome <;> rw [outcome] at h <;> cases h <;>
        exact Nat.le_of_ble_eq_true rfl
    next =>
      cases ha
      exact Nat.le_refl 2
  | writing events =>
    rw [phase] at ha
    simp only [writePart] at ha
    split at ha
    next =>
      obtain ⟨half, _, h⟩ := bind_ok ha
      cases outcome : half.outcome <;> rw [outcome] at h <;> cases h <;>
        exact Nat.le_of_ble_eq_true rfl
    next =>
      cases ha
      exact Nat.zero_le _
  | closing accepts =>
    rw [phase] at ha
    rw [(finish_ok ha).2.1]
    cases accepts
    · exact Nat.zero_le _
    · exact Nat.le_refl 2

omit [SinkData T] in
theorem dispatch_rank {fd : Fd} {events : Events} {answers : Answers} {handler : Handler}
    (idle : w.phase = .idle) (h : w.dispatch fd events answers handler = .ok w') : rank w'.phase ≤ 3 := by
  cases handler with
  | onAccept =>
    obtain ⟨_, _, h⟩ := bind_ok h
    obtain ⟨_, _, h⟩ := bind_ok h
    split at h <;> cases h <;> exact Nat.le_of_ble_eq_true rfl
  | onConnect =>
    obtain ⟨⟨outcome, socket⟩, _, h⟩ := bind_ok h
    cases outcome <;> cases h
    · show rank w.phase ≤ 3
      rw [idle]
      exact Nat.zero_le _
    · exact Nat.le_of_ble_eq_true rfl
    · show rank w.phase ≤ 3
      rw [idle]
      exact Nat.zero_le _
  | onEvent =>
    obtain ⟨_, _, h⟩ := bind_ok h
    obtain ⟨_, _, h⟩ := bind_ok h
    split at h <;> cases h <;> exact Nat.le_of_ble_eq_true rfl
  | foreign =>
    cases h
    exact Nat.zero_le _

omit [SinkData T] in
/-- A handler does not come to `close()` with its work before it, but for `onAccept` on an error. -/
theorem dispatch_going {fd : Fd} {events : Events} {answers : Answers} {handler : Handler}
    (idle : w.phase = .idle) (quiet : handler = .onAccept → ¬Meets Error events)
    (h : w.dispatch fd events answers handler = .ok w') : Going w.acts w' := by
  have acts : w.acts = w.acts ++ [] := (List.append_nil _).symm
  cases handler with
  | onAccept =>
    obtain ⟨_, _, h⟩ := bind_ok h
    obtain ⟨_, _, h⟩ := bind_ok h
    rw [if_neg (quiet rfl)] at h
    cases h
    exact .along (fun _ => nofun) [] acts clean_nil
  | onConnect =>
    obtain ⟨⟨outcome, socket⟩, _, h⟩ := bind_ok h
    have still : ∀ accepts, (w.put socket).phase ≠ .closing accepts := by
      intro accepts
      show w.phase ≠ _
      rw [idle]
      nofun
    cases outcome with
    | connected =>
      cases h
      refine see_going ?_ clean_nil (clean_when _ fun _ => nofun) still
      exact acts
    | failed errno =>
      cases h
      refine close_going ?_ clean_nil errno
      exact acts
    | thrown errno =>
      cases h
      exact .along still [] acts clean_nil
  | onEvent =>
    obtain ⟨_, _, h⟩ := bind_ok h
    obtain ⟨_, _, h⟩ := bind_ok h
    split at h <;> cases h
    · exact close_going acts clean_nil _
    · exact .along (fun _ => nofun) [] acts clean_nil
  | foreign =>
    cases h
    exact .along (fun _ => nofun) [] acts clean_nil

theorem handle_idle {fd : Fd} {events : Events} {reply : Reply} {handler : Handler}
    (idle : w.phase = .idle) (h : w.handle fd events reply handler = .ok w') : w'.phase = .idle := by
  obtain ⟨entered, he, h⟩ := bind_ok h
  obtain ⟨first, h1, h⟩ := bind_ok h
  obtain ⟨second, h2, h⟩ := bind_ok h
  have r0 := dispatch_rank idle he
  have r1 := advance_rank h1
  have r2 := advance_rank h2
  have r3 := advance_rank h
  have zero : rank w'.phase = 0 := by omega
  cases phase : w'.phase with
  | idle => rfl
  | closing accepts =>
    rw [phase] at zero
    cases accepts <;> cases zero
  | accepting | reading | writing =>
    rw [phase] at zero
    cases zero

/-- On an error, a socket that listens is closed and goes on to accept. -/
theorem disturbed_parts {fd : Fd} {events : Events} {reply : Reply} (asked : Meets Error events)
    (h : w.handle fd events reply .onAccept = .ok w') :
    ∃ first : Life T, first.acts =
        w.acts ++ (if w.socket.closeCallback then [.onClose reply.answers.errno] else []) ∧
      first.phase = .accepting ∧ first.socket.fd = -1 ∧
      (first.accept reply.peer reply.nonBlocking).advance reply = .ok w' := by
  obtain ⟨entered, he, h⟩ := bind_ok h
  obtain ⟨first, h1, h⟩ := bind_ok h
  obtain ⟨second, h2, h⟩ := bind_ok h
  obtain ⟨_, _, he⟩ := bind_ok he
  obtain ⟨_, _, he⟩ := bind_ok he
  rw [if_pos asked] at he
  cases he
  have finished : (w.callbackAndClose reply.answers.errno true).finish true = .ok first := h1
  obtain ⟨same, phase, shut, _⟩ := finish_ok finished
  have accepting : first.phase = .accepting := phase
  rw [advance, accepting] at h2
  cases h2
  exact ⟨first, same, accepting, shut, h⟩

theorem handle_going {fd : Fd} {events : Events} {reply : Reply} {handler : Handler}
    (idle : w.phase = .idle)
    (quiet : handler = .onAccept → w.socket.closeCallback = true → ¬Meets Error events)
    (h : w.handle fd events reply handler = .ok w') : Going w.acts w' := by
  by_cases disturbed : handler = .onAccept ∧ Meets Error events
  · obtain ⟨rfl, asked⟩ := disturbed
    obtain ⟨first, acts, _, _, last⟩ := disturbed_parts asked h
    have silent : w.socket.closeCallback = false := by
      by_contra called
      exact quiet rfl (eq_true_of_ne_false called) asked
    rw [silent] at acts
    have acts : first.acts = w.acts := acts.trans (List.append_nil w.acts)
    have going := advance_going (accept_going (w := first) reply.peer reply.nonBlocking) last
    rw [acts] at going
    exact going.earlier (clean_one fun _ => nofun)
  · obtain ⟨entered, he, h⟩ := bind_ok h
    obtain ⟨first, h1, h⟩ := bind_ok h
    obtain ⟨second, h2, h⟩ := bind_ok h
    have calm : handler = .onAccept → ¬Meets Error events := fun own asked => disturbed ⟨own, asked⟩
    exact advance_going (advance_going (advance_going (dispatch_going idle calm he) h1) h2) h

/-- On an error, a socket that listens goes on to accept behind its close callback. -/
theorem handle_disturbed {fd : Fd} {events : Events} {reply : Reply} (called : w.socket.closeCallback = true)
    (asked : Meets Error events) (h : w.handle fd events reply .onAccept = .ok w') :
    ¬ClosesOnce w'.acts := by
  obtain ⟨first, acts, _, _, last⟩ := disturbed_parts asked h
  rw [called] at acts
  have acts : first.acts = w.acts ++ [.onClose reply.answers.errno] := acts
  have going := advance_going (accept_going (w := first) reply.peer reply.nonBlocking) last
  obtain ⟨more, all⟩ : ∃ more, w'.acts = first.acts ++ [.accept] ++ more := by
    cases going with
    | along _ front acts => exact ⟨_, acts⟩
    | closing _ front last acts => exact ⟨_, acts⟩
    | closed _ _ front last acts => exact ⟨_, acts⟩
  rw [all, acts, List.append_assoc, List.append_assoc]
  exact reopens nofun

end Parts

section Runs

variable {w w' : Life T} {action : Action}

/-- Between two handlers: the loop knows the socket by its own descriptor only, and the last thing seen
is the close callback only of a closed one. -/
structure Settled (w : Life T) : Prop where
  own : Own w.socket
  idle : w.phase = .idle
  shut : ∀ error, w.acts.getLast? = some (.onClose error) → w.socket.fd = -1

theorem advance_own {reply : Reply} (own : Own w.socket) (h : w.advance reply = .ok w') :
    Own w'.socket := by
  unfold advance at h
  cases phase : w.phase with
  | idle =>
    rw [phase] at h
    cases h
    exact own
  | accepting =>
    rw [phase] at h
    cases h
    have change : Change w (w.accept reply.peer reply.nonBlocking) .closed := accept_change id _ _
    exact change_own own change
  | reading events =>
    rw [phase] at h
    have change : Change w w' .closed := read_change id h
    exact change_own own change
  | writing events =>
    rw [phase] at h
    have change : Change w w' .closed := write_change id h
    exact change_own own change
  | closing accepts =>
    rw [phase] at h
    obtain ⟨process, closed, h⟩ := bind_ok h
    cases h
    obtain ⟨shut, unknown⟩ := close_own own (Process.close_socket closed)
    exact (unknown_iff shut).mpr unknown

theorem handle_own {loop : EventLoop Handler} {fd : Fd} {events : Events} {reply : Reply}
    {handler : Handler} (own : Own w.socket) (alive : w.socket.eventLoop = some loop)
    (called : loop.callbacks fd = some handler) (h : w.handle fd events reply handler = .ok w') :
    Own w'.socket := by
  obtain ⟨entered, he, h⟩ := bind_ok h
  obtain ⟨first, h1, h⟩ := bind_ok h
  obtain ⟨second, h2, h⟩ := bind_ok h
  exact advance_own (advance_own (advance_own (change_own own (event_change alive called he)) h1) h2) h

omit [SinkData T] in
/-- A call that opens begins a connection, or leaves the socket closed. -/
theorem answer_seen {early : Prop} {before : Socket T} {made : Result Fd} {result : Result Unit}
    {process : Process T} (ends : Process.Ends early before made result process) (shut : before.fd = -1) :
    (w.answer result made process).acts = w.acts ∧ process.socket.fd = -1 ∧ result ≠ .ok () ∨
      (w.answer result made process).acts = w.acts ++ [.began] ∧ result = .ok () := by
  obtain ⟨⟨errno, rfl⟩, _, same, _⟩ | ⟨fd, loop, events, callback, rfl, _⟩ := ends
  · refine Or.inl ⟨List.append_nil _, ?_, nofun⟩
    rw [same]
    exact shut
  · exact Or.inr ⟨rfl, rfl⟩

omit [SinkData T] in
theorem request_seen {request : Request} (h : w.request request = .ok w') :
    w'.phase = w.phase ∧
      (w'.acts = w.acts ∧ (w.socket.fd = -1 → w'.socket.fd = -1) ∨
        ∃ more, w'.acts = w.acts ++ .began :: more ∧ Clean more) := by
  cases request with
  | receive sink callback =>
    obtain ⟨socket, done, h⟩ := bind_ok h
    cases h
    exact ⟨rfl, Or.inl ⟨rfl, fun shut => (receive_worked done).fd.trans shut⟩⟩
  | send source callback =>
    obtain ⟨socket, done, h⟩ := bind_ok h
    cases h
    exact ⟨rfl, Or.inl ⟨rfl, fun shut => (send_worked done).fd.trans shut⟩⟩
  | setAcceptCallback present | setConnectedCallback present | setCloseCallback present =>
    cases h
    exact ⟨rfl, Or.inl ⟨rfl, id⟩⟩
  | «open» fd ctl socketError =>
    obtain ⟨⟨result, process⟩, done, h⟩ := bind_ok h
    cases h
    obtain ⟨closed, before, hc, ends, made⟩ := Process.open_ends done
    have shut : before.fd = -1 := by
      rcases made with rfl | ⟨rfl, _⟩
      · exact (close_closed hc).shut
      · exact (close_closed hc).shut
    obtain ⟨same, shut', _⟩ | ⟨began, _⟩ := answer_seen (w := w) ends shut
    · exact ⟨rfl, Or.inl ⟨same, fun _ => shut'⟩⟩
    · exact ⟨rfl, Or.inr ⟨[], began, clean_nil⟩⟩
  | listen options calls =>
    obtain ⟨⟨result, process⟩, done, h⟩ := bind_ok h
    cases h
    obtain ⟨closed, hc, ends⟩ := Process.listen_ends done
    obtain ⟨same, shut', _⟩ | ⟨began, _⟩ := answer_seen (w := w) ends (close_closed hc).shut
    · exact ⟨rfl, Or.inl ⟨same, fun _ => shut'⟩⟩
    · exact ⟨rfl, Or.inr ⟨[], began, clean_nil⟩⟩
  | connect options calls =>
    obtain ⟨⟨result, process⟩, done, h⟩ := bind_ok h
    obtain ⟨closed, hc, ends⟩ := Process.connect_ends done
    have shut : (Process.connecting options calls closed).fd = -1 := by
      unfold Process.connecting
      split <;> exact (close_closed hc).shut
    obtain ⟨same, shut', failed⟩ | ⟨began, rfl⟩ := answer_seen (w := w) ends shut
    · cases result with
      | error errno =>
        cases h
        exact ⟨rfl, Or.inl ⟨same, fun _ => shut'⟩⟩
      | ok u => exact absurd rfl failed
    · dsimp only at h
      split at h
      next =>
        cases h
        refine ⟨rfl, Or.inr ⟨[.onConnected], ?_, clean_one fun _ => nofun⟩⟩
        show (w.answer _ _ _).acts ++ _ = _
        rw [began, List.append_assoc]
        rfl
      next =>
        cases h
        exact ⟨rfl, Or.inr ⟨[], began, clean_nil⟩⟩
  | close =>
    obtain ⟨process, done, h⟩ := bind_ok h
    cases h
    exact ⟨rfl, Or.inl ⟨rfl, fun _ => (close_closed (Process.close_socket done)).shut⟩⟩

omit [SinkData T] in
theorem accept_socket (peer : Result Fd) (nonBlocking : Option Errno) :
    (w.accept peer nonBlocking).socket = w.socket := by
  unfold accept
  split
  · rfl
  · rfl
  · rfl

omit [SinkData T] in
theorem accept_phase (peer : Result Fd) (nonBlocking : Option Errno) :
    (w.accept peer nonBlocking).phase = .idle ∨ (w.accept peer nonBlocking).phase = .closing false := by
  unfold accept
  split
  · exact Or.inr rfl
  · exact Or.inr rfl
  · exact Or.inl rfl

/-- A handler of a socket that was closed under it does not open it. -/
theorem disturbed_shut {fd : Fd} {events : Events} {reply : Reply} (asked : Meets Error events)
    (h : w.handle fd events reply .onAccept = .ok w') : w'.socket.fd = -1 := by
  obtain ⟨first, _, _, shut, last⟩ := disturbed_parts asked h
  rw [← accept_socket reply.peer reply.nonBlocking] at shut
  unfold advance at last
  rcases accept_phase (w := first) reply.peer reply.nonBlocking with idle | closing
  · rw [idle] at last
    cases last
    exact shut
  · rw [closing] at last
    exact (finish_ok last).2.2.1

theorem handle_foreign {fd : Fd} {events : Events} {reply : Reply}
    (h : w.handle fd events reply .foreign = .ok w') : w' = w.goTo .idle := by
  cases h
  rfl

/-- What is seen last behind some calls that begin or go on with a connection. -/
theorem last_clean {acts front : List Act} {error : Errno} (clean : Clean front)
    (last : (acts ++ front).getLast? = some (.onClose error)) :
    front = [] ∧ acts.getLast? = some (.onClose error) := by
  rw [List.getLast?_append] at last
  cases here : front.getLast? with
  | none =>
    rw [here] at last
    exact ⟨List.getLast?_eq_none_iff.mp here, last⟩
  | some act =>
    rw [here] at last
    cases last
    exact absurd (List.mem_of_getLast? here) (clean error)

theorem turn_settled (settled : Settled w) (turn : Turn w action w') : Settled w' := by
  cases turn with
  | request h =>
    obtain ⟨phase, seen⟩ := request_seen h
    refine ⟨change_own settled.own (request_change h), phase.trans settled.idle, ?_⟩
    intro error last
    obtain ⟨same, shut⟩ | ⟨more, began, clean⟩ := seen
    · rw [same] at last
      exact shut (settled.shut error last)
    · rw [began] at last
      cases (last_clean (clean_began clean) last).1
  | @event _ loop fd events handler reply alive watched called h =>
    refine ⟨handle_own settled.own alive called h, handle_idle settled.idle h, ?_⟩
    intro error last
    by_cases mine : handler = .foreign
    · subst mine
      cases handle_foreign h
      exact settled.shut error last
    · obtain ⟨same, valid⟩ := settled.own loop alive fd handler called mine
      by_cases disturbed : handler = .onAccept ∧ Meets Error events
      · obtain ⟨rfl, asked⟩ := disturbed
        exact disturbed_shut asked h
      · have going := handle_going settled.idle (fun own _ asked => disturbed ⟨own, asked⟩) h
        cases going with
        | along _ front acts clean =>
          rw [acts] at last
          exact absurd (same.trans (settled.shut error (last_clean clean last).2)) valid
        | closing here => cases here.symm.trans (handle_idle settled.idle h)
        | closed _ shut => exact shut
  | expire =>
    refine ⟨fun _ => nofun, settled.idle, settled.shut⟩
  | elsewhere alive own interest =>
    refine ⟨?_, settled.idle, settled.shut⟩
    intro loop' alive' fd handler called mine
    cases alive'
    exact settled.own _ alive fd handler ((own fd handler mine).mp called) mine

theorem turn_closesOnce (settled : Settled w) (h : ClosesOnce w.acts) (turn : Turn w action w') :
    ClosesOnce w'.acts ↔ ListensUndisturbed w action := by
  cases turn with
  | request hr =>
    refine iff_of_true ?_ trivial
    obtain ⟨_, ⟨same, _⟩ | ⟨more, began, clean⟩⟩ := request_seen hr
    · rw [same]
      exact h
    · rw [began]
      exact closesOnce_began h (closesOnce_clean (clean_began clean))
  | @event _ loop fd events handler reply alive watched called hh =>
    by_cases disturbed : handler = .onAccept ∧ w.socket.closeCallback = true ∧ Meets Error events
    · obtain ⟨rfl, silent, asked⟩ := disturbed
      refine iff_of_false (handle_disturbed silent asked hh) ?_
      intro undisturbed
      exact undisturbed loop alive called silent asked
    · refine iff_of_true ?_ ?_
      · by_cases mine : handler = .foreign
        · subst mine
          cases handle_foreign hh
          exact h
        · obtain ⟨same, valid⟩ := settled.own loop alive fd handler called mine
          have still : ∀ error, w.acts.getLast? ≠ some (.onClose error) := by
            intro error last
            exact valid (same.trans (settled.shut error last))
          have going := handle_going settled.idle (fun own silent asked => disturbed ⟨own, silent, asked⟩) hh
          cases going with
          | along _ front acts clean =>
            rw [acts]
            exact closesOnce_append h (closesOnce_clean clean) still
          | closing _ front last acts clean ends =>
            rw [acts]
            exact closesOnce_append h (closesOnce_part clean ends) still
          | closed _ _ front last acts clean ends =>
            rw [acts]
            exact closesOnce_append h (closesOnce_part clean ends) still
      · intro loop' alive' called' silent asked
        cases alive.symm.trans alive'
        cases called.symm.trans called'
        exact disturbed ⟨rfl, silent, asked⟩
  | expire => exact iff_of_true h trivial
  | elsewhere alive own interest => exact iff_of_true h trivial

theorem advance_runs {reply : Reply} (h : w.advance reply = .ok w') : ∃ labels, Run Step w labels w' := by
  unfold advance at h
  cases phase : w.phase with
  | idle =>
    rw [phase] at h
    cases h
    exact ⟨[], Run.start⟩
  | accepting =>
    rw [phase] at h
    cases h
    exact ⟨_, Run.start.next (.accept phase)⟩
  | reading events =>
    rw [phase] at h
    exact ⟨_, Run.start.next (.read phase h)⟩
  | writing events =>
    rw [phase] at h
    exact ⟨_, Run.start.next (.write phase h)⟩
  | closing accepts =>
    rw [phase] at h
    exact ⟨_, Run.start.next (.closed phase h)⟩

/-- A handler from its start to its end is steps of it that nothing comes between. -/
theorem turn_runs (settled : Settled w) (turn : Turn w action w') : ∃ labels, Run Step w labels w' := by
  cases turn with
  | request h => exact ⟨_, Run.start.next (.request h)⟩
  | event alive watched called h =>
    obtain ⟨entered, he, h⟩ := bind_ok h
    obtain ⟨first, h1, h⟩ := bind_ok h
    obtain ⟨second, h2, h⟩ := bind_ok h
    obtain ⟨_, run1⟩ := advance_runs h1
    obtain ⟨_, run2⟩ := advance_runs h2
    obtain ⟨_, run3⟩ := advance_runs h
    have entry := Run.start.next (Step.event settled.idle alive watched called he)
    exact ⟨_, ((entry.trans run1).trans run2).trans run3⟩
  | expire => exact ⟨_, Run.start.next .expire⟩
  | elsewhere alive own interest => exact ⟨_, Run.start.next (.elsewhere alive own interest)⟩

theorem run_settled {eventLoop : Option (EventLoop Handler)}
    (fresh : ∀ loop, eventLoop = some loop → ∀ fd handler, loop.callbacks fd = some handler →
      handler = .foreign)
    {sinks : SinkId → SinkAdapter T} {sources : SourceId → Source} {opened : Fd → Bool}
    {actions : List Action} (run : Run Turn (initial eventLoop sinks sources opened) actions w) :
    Settled w := by
  refine run.invariant ⟨?_, rfl, fun _ => nofun⟩ fun settled turn => turn_settled settled turn
  intro loop alive fd handler called mine
  exact absurd (fresh loop alive fd handler called) mine

/-- The close callback comes once and last in every connection, in the runs in which no event tells of
an error on a socket that listens with a close callback, and in no other. -/
theorem closesOnce_iff (eventLoop : Option (EventLoop Handler))
    (fresh : ∀ loop, eventLoop = some loop → ∀ fd handler, loop.callbacks fd = some handler →
      handler = .foreign)
    (sinks : SinkId → SinkAdapter T) (sources : SourceId → Source) (opened : Fd → Bool)
    (actions : List Action) :
    (∀ done rest w, actions = done ++ rest →
        Run Turn (initial eventLoop sinks sources opened) done w → ClosesOnce w.acts) ↔
      ∀ done action rest w w', actions = done ++ action :: rest →
        Run Turn (initial eventLoop sinks sources opened) done w → Turn w action w' →
        ListensUndisturbed w action := by
  refine Transition.along_iff ?_ ?_ actions
  · exact List.isChain_nil
  · intro done w action w' run h turn
    exact turn_closesOnce (run_settled fresh run) h turn

/-- A connection that is hung up, and the next one. -/
def hungUp : List Action :=
  [.request (.setCloseCallback true), .request (.open 5 none 0), .event 5 Hup { answers := { socketError := 104 } },
    .request (.open 6 none 0)]

theorem closesOnce_iff_sample :
    ∃ w : Life StringData,
      Run Turn (initial (some ⟨fun _ => none, fun _ => none⟩) (fun _ => { data := [] }) (fun _ => ⟨[], 0⟩)
        fun _ => false) hungUp w ∧
      w.acts = [.began, .onClose 104, .began] ∧ ClosesOnce w.acts := by
  have last : ∃ w : Life StringData,
      Run Turn (initial (some ⟨fun _ => none, fun _ => none⟩) (fun _ => { data := [] }) (fun _ => ⟨[], 0⟩)
        fun _ => false) hungUp w ∧ w.acts = [.began, .onClose 104, .began] :=
    ⟨_, (((Run.start.next (.request rfl)).next (.request rfl)).next
      (.event rfl (Option.some_ne_none _) rfl rfl)).next (.request rfl), rfl⟩
  obtain ⟨w, run, acts⟩ := last
  have unbroken : ¬Meets Error Hup := by decide
  have fresh : ∀ loop : EventLoop Handler, some ⟨fun _ => none, fun _ => none⟩ = some loop →
      ∀ fd handler, loop.callbacks fd = some handler → handler = .foreign := by
    intro loop same fd handler called
    cases same
    cases called
  refine ⟨w, run, acts, (closesOnce_iff _ fresh _ _ _ hungUp).mpr ?_ hungUp [] w (List.append_nil _).symm run⟩
  intro done action rest w w' split _ _
  have member : action ∈ hungUp := by
    rw [split]
    exact List.mem_append_right _ List.mem_cons_self
  unfold hungUp at member
  simp only [List.mem_cons, List.not_mem_nil, or_false] at member
  rcases member with rfl | rfl | rfl | rfl
  · trivial
  · trivial
  · exact fun _ _ _ _ => unbroken
  · trivial

/-- A listening socket is told of an error: the close callback, `accept`, and the close callback. -/
theorem closed_twice :
    ∃ w : Life StringData,
      Run Turn (initial (some ⟨fun _ => none, fun _ => none⟩) (fun _ => { data := [] })
          (fun _ => ⟨[], 0⟩) fun _ => false)
        [.request (.setAcceptCallback true), .request (.setCloseCallback true),
          .request (.listen 0#32 { socket := .ok 5 }),
          .event 5 Error { answers := { errno := 104 }, peer := .error 9 }] w ∧
      w.acts = [.began, .onClose 104, .accept, .onClose 9] ∧ ¬ClosesOnce w.acts := by
  refine ⟨_, (((Run.start.next (.request rfl)).next (.request rfl)).next (.request rfl)).next
    (.event rfl ?_ rfl rfl), rfl, ?_⟩
  · exact nofun
  · exact @reopens [.began] _ _ _ nofun

end Runs

end Life

end Socket

end Hlib
