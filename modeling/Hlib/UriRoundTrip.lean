import Hlib.UriParsed
import Hlib.UriRead

namespace Hlib

namespace Uri

section Printable

/-- A port that `to_string` leaves out. -/
def UsualPort (uri : Uri) : Prop := uri.port = 0 ∨ getDefaultPortForScheme uri.scheme = uri.port

instance (uri : Uri) : Decidable (UsualPort uri) := inferInstanceAs (Decidable (_ ∨ _))

/-- What of a URI its text can hold. -/
structure Printable (uri : Uri) : Prop where
  scheme : Shown uri.scheme
  userInfo : Shown uri.userInfo
  path : 0 ∉ uri.path
  query : Shown uri.query
  fragment : uri.fragment.length + 1 ≤ 2 ^ 31 - 1
  hostless : uri.host = [] → uri.userInfo = [] ∧ UsualPort uri ∧ ¬[slash, slash] <+: uri.path
  host : uri.host ≠ [] →
    (uri.userInfo = [] → at_ ∉ uri.host) ∧ (UsualPort uri → (hostPortOf uri.host).1 = uri.host)

end Printable

section RoundTrip

theorem path_inside {uri : Uri} (h : Parsed uri) : ∀ c ∈ cString uri.path, inPath c = true :=
  cString_all h.path

/-- `ws://u@h:81/p?q#f`. -/
def whole : Uri where
  scheme := literal "ws"
  userInfo := literal "u"
  host := literal "h"
  port := 81
  path := literal "/p"
  query := literal "q"
  fragment := literal "f"

end RoundTrip

end Uri

end Hlib
