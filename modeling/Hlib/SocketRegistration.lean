import Hlib.SocketLife
import Hlib.SocketWork

namespace Hlib

open Function (update update_self update_of_ne)
open FlagMask (Meets)
open EventLoop (Read Write Error Hup)

namespace Socket

variable {T : Type} {socket socket' : Socket T}

/-- The loop knows the socket by its own descriptor only. -/
def Own (socket : Socket T) : Prop :=
  ∀ loop, socket.eventLoop = some loop → ∀ fd handler, loop.callbacks fd = some handler →
    handler ≠ .foreign → fd = socket.fd ∧ fd ≠ -1

/-- The loop does not know the socket. -/
def Unknown (socket : Socket T) : Prop :=
  ∀ loop, socket.eventLoop = some loop → ∀ fd handler, loop.callbacks fd = some handler →
    handler = .foreign

theorem unknown_iff (shut : socket.fd = -1) : Own socket ↔ Unknown socket := by
  constructor
  · intro own loop alive fd handler called
    by_contra mine
    obtain ⟨same, valid⟩ := own loop alive fd handler called mine
    exact valid (same.trans shut)
  · intro unknown loop alive fd handler called mine
    exact absurd (unknown loop alive fd handler called) mine

theorem unknown_gone (gone : socket.eventLoop = none) : Unknown socket := by
  intro loop alive
  cases alive.symm.trans gone

theorem Own.retuned (h : Own socket) (fd : socket'.fd = socket.fd)
    (retuned : Endpoint.Retuned socket.fd socket.eventLoop socket'.eventLoop) : Own socket' := by
  intro loop alive x handler called mine
  obtain ⟨before, known, same, _⟩ := retuned.callbacks alive
  rw [same] at called
  rw [fd]
  exact h before known x handler called mine

theorem close_unknown (h : Own socket) (closed : socket.close = .ok socket') : Unknown socket' := by
  obtain ⟨shut, rfl⟩ | ⟨valid, eventLoop, rfl, gone | ⟨loop, alive, released⟩⟩ := close_ok closed
  · exact (unknown_iff shut).mp h
  · exact unknown_gone gone.2
  · intro loop' alive' fd handler called
    have alive' : eventLoop = some loop' := alive'
    cases released.symm.trans alive'
    have called : update loop.callbacks socket.fd none fd = some handler := called
    by_cases own : fd = socket.fd
    · subst own
      rw [update_self] at called
      cases called
    · rw [update_of_ne own] at called
      by_contra mine
      exact own (h loop alive fd handler called mine).1

theorem attached_own {fd : Fd} {events : Events} {callback : Handler} (h : Unknown socket)
    (attached : Attached socket fd events callback socket') : Own socket' := by
  obtain ⟨gone, rfl⟩ | ⟨loop, alive, valid, rfl⟩ := attached
  · intro loop alive
    cases alive.symm.trans gone
  · intro loop' alive' x handler called mine
    cases alive'
    have called : update loop.callbacks fd (some callback) x = some handler := called
    by_cases own : x = fd
    · exact ⟨own, own ▸ valid⟩
    · rw [update_of_ne own] at called
      exact absurd (h loop alive x handler called) mine

theorem onConnect_own {fd : Fd} {socketError : Errno} {ctl : Option Errno} {outcome : ConnectOutcome}
    (h : Own socket) (own : fd = socket.fd)
    (connected : socket.onConnect fd socketError ctl = .ok (outcome, socket')) : Own socket' := by
  subst own
  obtain ⟨_, _, rfl⟩ | ⟨_, valid, loop, alive, ⟨_, _, rfl⟩ | ⟨_, _, rfl⟩⟩ := onConnect_ok connected
  · exact h
  · intro loop' alive' x handler called mine
    cases alive'
    have called : update loop.callbacks socket.fd none x = some handler := called
    by_cases own : x = socket.fd
    · exact ⟨own, own ▸ valid⟩
    · rw [update_of_ne own] at called
      exact h loop alive x handler called mine
  · intro loop' alive' x handler called mine
    cases alive'
    have called : update (update loop.callbacks socket.fd none) socket.fd (some .onEvent) x =
      some handler := called
    by_cases own : x = socket.fd
    · exact ⟨own, own ▸ valid⟩
    · rw [update_of_ne own, update_of_ne own] at called
      exact h loop alive x handler called mine

namespace Process

variable {p p' : Process T} {fd : Fd} {ctl : Option Errno} {result : Result Unit}

theorem fdClose_socket (fd : Fd) (p : Process T) : (p.fdClose fd).socket = p.socket := by
  unfold fdClose
  split
  · rfl
  · rfl

theorem fdClose_closed (p : Process T) {fd : Fd} (real : 0 ≤ fd) : (p.fdClose fd).opened fd = false := by
  unfold fdClose
  rw [if_neg (Int.not_lt.mpr real)]
  exact update_self fd false p.opened

theorem close_socket (h : p.close = .ok p') : p.socket.close = .ok p'.socket := by
  obtain ⟨socket, closed, h⟩ := bind_ok h
  cases h
  rw [fdClose_socket]
  exact closed

/-- How a call that opens ends for the socket as it was before the loop was told: it fails, `early` or
because the loop is gone, with its descriptor closed, or it has the descriptor registered. -/
def Ends (early : Prop) (before : Socket T) (made : Result Fd) (result : Result Unit)
    (p : Process T) : Prop :=
  (∃ errno, result = .error errno) ∧ (early ∨ before.eventLoop = none) ∧ p.socket = before ∧
      (∀ fd, made = .ok fd → 0 ≤ fd → p.opened fd = false) ∨
    ∃ fd loop events callback, result = .ok () ∧ before.eventLoop = some loop ∧ fd ≠ -1 ∧
      p.socket = before.attached loop fd events callback

theorem attach_ends (early : Prop) {events : Events} {callback : Handler}
    (h : p.attach fd events callback ctl = .ok (result, p')) :
    Ends early p.socket (.ok fd) result p' := by
  obtain ⟨⟨success, socket⟩, attached, h⟩ := bind_ok h
  obtain ⟨rfl, gone, rfl⟩ | ⟨rfl, valid, _, loop, alive, _, _, rfl⟩ := Endpoint.attach_ok attached
  · cases h
    refine Or.inl ⟨⟨_, rfl⟩, Or.inr gone, fdClose_socket fd _, ?_⟩
    intro fd' same real
    cases same
    exact fdClose_closed _ real
  · cases h
    exact Or.inr ⟨fd, loop, events, callback, rfl, alive, valid, rfl⟩

theorem failed_ends {early : Prop} (h : early) {before : Socket T} (same : p.socket = before)
    {errno : Errno} (fd : Fd) : Ends early before (.ok fd) (.error errno) (p.fdClose fd) := by
  refine Or.inl ⟨⟨errno, rfl⟩, Or.inl h, (fdClose_socket fd p).trans same, ?_⟩
  intro fd' own real
  cases own
  exact fdClose_closed p real

theorem unmade_ends {early : Prop} (h : early) {before : Socket T} (same : p.socket = before)
    {errno : Errno} : Ends early before (.error errno) (.error errno) p :=
  Or.inl ⟨⟨errno, rfl⟩, Or.inl h, same, nofun⟩

theorem open_ends {socketError : Errno} (h : p.open fd ctl socketError = .ok (result, p')) :
    ∃ closed before, p.socket.close = .ok closed ∧ Ends False before (.ok fd) result p' ∧
      (before = Closed.reading closed ∨
        before = { Closed.reading closed with armed := socketError = 0 } ∧ result = .ok ()) := by
  obtain ⟨closed, shut, h⟩ := bind_ok h
  obtain ⟨⟨result', opened⟩, attached, h⟩ := bind_ok h
  have ends := attach_ends False attached
  refine ⟨closed.socket, ?_⟩
  cases result' with
  | error errno =>
    cases h
    exact ⟨_, close_socket shut, ends, Or.inl rfl⟩
  | ok u =>
    cases h
    obtain ⟨⟨errno, failed⟩, _⟩ | ⟨fd', loop, events, callback, _, alive, valid, same⟩ := ends
    · cases failed
    · refine ⟨{ Closed.reading closed.socket with armed := socketError = 0 }, close_socket shut,
        Or.inr ⟨fd', loop, events, callback, rfl, alive, valid, ?_⟩, Or.inr ⟨rfl, rfl⟩⟩
      dsimp only
      rw [same]
      rfl

/-- A `Process` attaches as its socket does. -/
theorem attach_socket {events : Events} {callback : Handler}
    (h : p.attach fd events callback ctl = .ok (result, p')) :
    ∃ success, p.socket.attach fd events callback ctl = .ok (success, p'.socket) ∧
      result = if success then .ok () else .error 19 := by
  obtain ⟨⟨success, socket⟩, attached, h⟩ := bind_ok h
  refine ⟨success, ?_⟩
  cases success with
  | true =>
    cases h
    exact ⟨attached, rfl⟩
  | false =>
    cases h
    rw [fdClose_socket]
    exact ⟨attached, rfl⟩

theorem open_socket {socketError : Errno} (h : p.open fd ctl socketError = .ok (result, p')) :
    p.socket.open fd ctl socketError = .ok (result, p'.socket) := by
  obtain ⟨closed, shut, h⟩ := bind_ok h
  obtain ⟨⟨result', opened⟩, attached, h⟩ := bind_ok h
  obtain ⟨success, told, rfl⟩ := attach_socket attached
  have told : (Closed.reading closed.socket).attach fd Read .onEvent ctl = .ok (success, opened.socket) := told
  rw [Socket.open, close_socket shut, ok_bind]
  show ((Closed.reading closed.socket).attach fd Read .onEvent ctl >>= _) = _
  rw [told, ok_bind]
  cases success with
  | true =>
    cases h
    rfl
  | false =>
    cases h
    rfl

theorem connect_socket {options : BitVec 32} {calls : SystemCalls}
    (h : p.connect options calls = .ok (result, p')) :
    p.socket.connect (calls.connectCall options) calls.ctl = .ok (result, p'.socket) := by
  obtain ⟨closed, shut, h⟩ := bind_ok h
  rw [Socket.connect, close_socket shut, ok_bind]
  unfold SystemCalls.connectCall
  cases made : calls.socket with
  | error errno =>
    rw [made] at h
    cases h
    rfl
  | ok fd =>
    rw [made] at h
    dsimp only at h ⊢
    cases failed : [calls.nonBlocking, setReuse options calls].findSome? id with
    | some errno =>
      rw [failed] at h
      cases h
      rw [fdClose_socket]
      rfl
    | none =>
      rw [failed] at h
      dsimp only at h ⊢
      cases connected : calls.connect with
      | none =>
        rw [connected] at h
        obtain ⟨success, told, rfl⟩ := attach_socket h
        have told : Endpoint.attach fd Read .onEvent calls.ctl
          { Closed.reading closed.socket with armed := true } = .ok (success, p'.socket) := told
        show (Endpoint.attach fd Read .onEvent calls.ctl
          { Closed.reading closed.socket with armed := true } >>= _) = _
        rw [told, ok_bind]
      | some errno =>
        rw [connected] at h
        dsimp only at h ⊢
        by_cases refused : errno ≠ 115
        · rw [if_pos refused] at h ⊢
          cases h
          rw [fdClose_socket]
          rfl
        · rw [if_neg refused] at h ⊢
          obtain ⟨success, told, rfl⟩ := attach_socket h
          have told : (Closed.reading closed.socket).attach fd (Read ||| Write) .onConnect calls.ctl =
            .ok (success, p'.socket) := told
          show ((Closed.reading closed.socket).attach fd (Read ||| Write) .onConnect calls.ctl >>= _) = _
          rw [told, ok_bind]

theorem listen_ends {options : BitVec 32} {calls : SystemCalls}
    (h : p.listen options calls = .ok (result, p')) :
    ∃ closed, p.socket.close = .ok closed ∧ Ends True (Closed.reading closed) calls.socket result p' := by
  obtain ⟨closed, shut, h⟩ := bind_ok h
  refine ⟨closed.socket, close_socket shut, ?_⟩
  cases made : calls.socket with
  | error errno =>
    rw [made] at h
    cases h
    apply unmade_ends trivial
    rfl
  | ok fd =>
    rw [made] at h
    dsimp only at h
    cases failed : [calls.closeOnExec, calls.nonBlocking, setReuse options calls, calls.bind,
      calls.listen].findSome? id with
    | some errno =>
      rw [failed] at h
      cases h
      apply failed_ends trivial
      rfl
    | none =>
      rw [failed] at h
      exact attach_ends _ h

/-- The socket of `connect` before the loop is told. -/
def connecting (options : BitVec 32) (calls : SystemCalls) (closed : Socket T) : Socket T :=
  match calls.connectCall options with
  | .connected _ => { Closed.reading closed with armed := true }
  | _ => Closed.reading closed

theorem connect_ends {options : BitVec 32} {calls : SystemCalls}
    (h : p.connect options calls = .ok (result, p')) :
    ∃ closed, p.socket.close = .ok closed ∧
      Ends (∀ fd, calls.connectCall options ≠ .connected fd) (connecting options calls closed) calls.socket
        result p' := by
  obtain ⟨closed, shut, h⟩ := bind_ok h
  refine ⟨closed.socket, close_socket shut, ?_⟩
  unfold connecting SystemCalls.connectCall
  cases made : calls.socket with
  | error errno =>
    rw [made] at h
    cases h
    dsimp only
    apply unmade_ends
    · exact fun _ => nofun
    · rfl
  | ok fd =>
    rw [made] at h
    dsimp only at h ⊢
    cases failed : [calls.nonBlocking, setReuse options calls].findSome? id with
    | some errno =>
      rw [failed] at h
      cases h
      apply failed_ends
      · exact fun _ => nofun
      · rfl
    | none =>
      rw [failed] at h
      dsimp only at h ⊢
      cases connected : calls.connect with
      | none =>
        rw [connected] at h
        exact attach_ends _ h
      | some errno =>
        rw [connected] at h
        dsimp only at h ⊢
        by_cases refused : errno ≠ 115
        · rw [if_pos refused] at h ⊢
          cases h
          apply failed_ends
          · exact fun _ => nofun
          · rfl
        · rw [if_neg refused] at h ⊢
          exact attach_ends _ h

theorem Ends.own {early : Prop} {before : Socket T} {made : Result Fd}
    (h : Ends early before made result p)
    (shut : before.fd = -1) (unknown : Unknown before) : Own p.socket := by
  obtain ⟨_, _, same, _⟩ | ⟨fd, loop, events, callback, _, alive, valid, same⟩ := h
  · rw [same]
    exact (unknown_iff shut).mpr unknown
  · exact attached_own unknown (Or.inr ⟨loop, alive, valid, same⟩)

end Process

namespace Life

variable {w w' : Life T} {label : Label}

theorem worked_same (fd : socket'.fd = socket.fd) (armed : socket'.armed = socket.armed)
    (eventLoop : socket'.eventLoop = socket.eventLoop) (work : socket'.work = socket.work) :
    Worked socket socket' := by
  refine ⟨fd, armed, Or.inl eventLoop, ?_, work ▸ .same _⟩
  have events : socket'.events = socket.events := congrArg Work.events work
  intro registered
  unfold Endpoint.Registered at registered ⊢
  rw [fd, armed, eventLoop, events]
  exact registered

def IsConnect : Label → Prop
  | .request (.connect _ _) => True
  | _ => False

/-- What a step does to the socket, and what it returns. -/
inductive Change (w w' : Life T) : Label → Prop
  | worked {l : Label} (apart : ¬IsConnect l) (quiet : w'.returned = none) (h : Worked w.socket w'.socket) :
      Change w w' l
  | closed {l : Label} (apart : ¬IsConnect l) (quiet : w'.returned = none)
      (h : w.socket.close = .ok w'.socket) : Change w w' l
  | opened {fd ctl socketError result} (returned : w'.returned = some (result, .ok fd))
      (h : w.process.open fd ctl socketError = .ok (result, w'.process)) :
      Change w w' (.request (.open fd ctl socketError))
  | listened {options calls result} (returned : w'.returned = some (result, calls.socket))
      (h : w.process.listen options calls = .ok (result, w'.process)) :
      Change w w' (.request (.listen options calls))
  | connected {options calls result} (returned : w'.returned = some (result, calls.socket))
      (h : w.process.connect options calls = .ok (result, w'.process)) :
      Change w w' (.request (.connect options calls))
  | established {loop fd events answers outcome} (quiet : w'.returned = none)
      (alive : w.socket.eventLoop = some loop) (called : loop.callbacks fd = some .onConnect)
      (h : w.socket.onConnect fd answers.socketError answers.ctl = .ok (outcome, w'.socket)) :
      Change w w' (.event fd events answers)
  | expired {l : Label} (apart : ¬IsConnect l) (quiet : w'.returned = none)
      (h : w'.socket = { w.socket with eventLoop := none }) :
      Change w w' l
  | elsewhere {l : Label} {loop loop'} (apart : ¬IsConnect l) (quiet : w'.returned = none)
      (alive : w.socket.eventLoop = some loop)
      (own : ∀ fd handler, handler ≠ .foreign →
        (loop'.callbacks fd = some handler ↔ loop.callbacks fd = some handler))
      (h : w'.socket = { w.socket with eventLoop := some loop' }) : Change w w' l

theorem change_same (apart : ¬IsConnect label) (quiet : w'.returned = none)
    (same : w'.socket = w.socket) : Change w w' label :=
  .worked apart quiet (worked_same (by rw [same]) (by rw [same]) (by rw [same]) (by rw [same]))

theorem request_change {request : Request} (h : w.request request = .ok w') :
    Change w w' (.request request) := by
  cases request with
  | receive sink callback =>
    obtain ⟨socket, done, h⟩ := bind_ok h
    cases h
    exact .worked id rfl (receive_worked done)
  | send source callback =>
    obtain ⟨socket, done, h⟩ := bind_ok h
    cases h
    exact .worked id rfl (send_worked done)
  | setAcceptCallback present | setConnectedCallback present =>
    cases h
    exact change_same id rfl rfl
  | setCloseCallback present =>
    cases h
    exact .worked id rfl (worked_same rfl rfl rfl rfl)
  | «open» fd ctl socketError =>
    obtain ⟨⟨result, process⟩, done, h⟩ := bind_ok h
    cases h
    exact .opened rfl done
  | listen options calls =>
    obtain ⟨⟨result, process⟩, done, h⟩ := bind_ok h
    cases h
    exact .listened rfl done
  | connect options calls =>
    obtain ⟨⟨result, process⟩, done, h⟩ := bind_ok h
    cases result with
    | error errno =>
      cases h
      exact .connected rfl done
    | ok u =>
      dsimp only at h
      split at h
      next =>
        cases h
        exact .connected rfl done
      next =>
        cases h
        exact .connected rfl done
  | close =>
    obtain ⟨process, done, h⟩ := bind_ok h
    cases h
    exact .closed id rfl (Process.close_socket done)

theorem event_change {loop : EventLoop Handler} {fd : Fd} {events : Events} {handler : Handler}
    {answers : Answers} (alive : w.socket.eventLoop = some loop)
    (called : loop.callbacks fd = some handler) (h : w.dispatch fd events answers handler = .ok w') :
    Change w w' (.event fd events answers) := by
  cases handler with
  | onAccept =>
    obtain ⟨_, _, h⟩ := bind_ok h
    obtain ⟨_, _, h⟩ := bind_ok h
    split at h <;> cases h
    · exact change_same id rfl rfl
    · exact change_same id rfl rfl
  | onConnect =>
    obtain ⟨⟨outcome, socket⟩, done, h⟩ := bind_ok h
    cases outcome <;> cases h
    · exact .established rfl alive called done
    · exact .established rfl alive called done
    · exact .established rfl alive called done
  | onEvent =>
    obtain ⟨_, _, h⟩ := bind_ok h
    obtain ⟨_, _, h⟩ := bind_ok h
    split at h <;> cases h
    · exact change_same id rfl rfl
    · exact change_same id rfl rfl
  | foreign =>
    cases h
    exact change_same id rfl rfl

theorem accept_change (apart : ¬IsConnect label) (peer : Result Fd) (nonBlocking : Option Errno) :
    Change w (w.accept peer nonBlocking) label := by
  unfold accept
  cases peer with
  | error errno => exact change_same apart rfl rfl
  | ok fd =>
    cases nonBlocking with
    | some errno => exact change_same apart rfl rfl
    | none => exact change_same apart rfl rfl

theorem write_change (apart : ¬IsConnect label) {events : Events} {call : Result Nat}
    (h : w.writePart events call = .ok w') : Change w w' label := by
  unfold writePart at h
  split at h
  next =>
    obtain ⟨half, done, h⟩ := bind_ok h
    have worked := writeHalf_worked done
    cases outcome : half.outcome <;> rw [outcome] at h <;> cases h
    · exact .worked apart rfl worked
    · exact .worked apart rfl worked
    · exact .worked apart rfl worked
  next =>
    cases h
    exact change_same apart rfl rfl

theorem read_change [SinkData T] (apart : ¬IsConnect label) {events : Events} {call : ReadCall}
    (h : w.readPart events call = .ok w') : Change w w' label := by
  unfold readPart at h
  split at h
  next =>
    obtain ⟨half, done, h⟩ := bind_ok h
    have worked := readHalf_worked done
    cases outcome : half.outcome <;> rw [outcome] at h <;> cases h
    · exact .worked apart rfl worked
    · exact .worked apart rfl worked
    · exact .worked apart rfl worked
    · exact .worked apart rfl worked
  next =>
    cases h
    exact change_same apart rfl rfl

theorem close_own (h : Own w.socket) {closed : Socket T} (hc : w.socket.close = .ok closed) :
    closed.fd = -1 ∧ Unknown closed :=
  ⟨(close_closed hc).shut, close_unknown h hc⟩

theorem change_own (h : Own w.socket) (change : Change w w' label) : Own w'.socket := by
  cases change with
  | worked _ _ worked => exact h.retuned worked.fd worked.retuned
  | closed _ _ hc =>
    obtain ⟨shut, unknown⟩ := close_own h hc
    exact (unknown_iff shut).mpr unknown
  | opened _ ho =>
    obtain ⟨closed, before, hc, ends, rfl | ⟨rfl, _⟩⟩ := Process.open_ends ho
    · obtain ⟨shut, unknown⟩ := close_own h hc
      exact ends.own shut unknown
    · obtain ⟨shut, unknown⟩ := close_own h hc
      exact ends.own shut unknown
  | listened _ hl =>
    obtain ⟨closed, hc, ends⟩ := Process.listen_ends hl
    obtain ⟨shut, unknown⟩ := close_own h hc
    exact ends.own shut unknown
  | @connected options calls _ _ hl =>
    obtain ⟨closed, hc, ends⟩ := Process.connect_ends hl
    obtain ⟨shut, unknown⟩ := close_own h hc
    refine ends.own ?_ ?_
    · unfold Process.connecting
      split <;> exact shut
    · unfold Process.connecting
      split <;> exact unknown
  | @established loop fd _ _ _ _ alive called ho =>
    exact onConnect_own h (h loop alive fd .onConnect called nofun).1 ho
  | expired _ _ same =>
    rw [same]
    exact fun _ => nofun
  | elsewhere _ _ alive own same =>
    rw [same]
    intro loop' alive' fd handler called mine
    cases alive'
    exact h _ alive fd handler ((own fd handler mine).mp called) mine

end Life

end Socket

end Hlib
