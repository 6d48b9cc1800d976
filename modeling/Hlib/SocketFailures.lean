import Hlib.SocketRegistration

namespace Hlib

open Function (update update_self update_of_ne)
open EventLoop (Read Write)
open Transition (Run)

namespace Socket

namespace Life

variable {T : Type} {w w' : Life T} {label : Label}

/-- `connected()` tells of a descriptor, and a call that failed has left the socket closed, the loop
without it, and its new descriptor closed. -/
structure Truthful (w : Life T) : Prop where
  connected : w.socket.armed = true → w.socket.fd ≠ -1
  failed : ∀ errno made, w.returned = some (.error errno, made) →
    w.socket.fd = -1 ∧ w.socket.armed = false ∧ Unknown w.socket ∧
      ∀ fd, made = .ok fd → 0 ≤ fd → w.process.opened fd = false

variable [SinkData T]

end Life

end Socket

end Hlib
