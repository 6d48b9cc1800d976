import Hlib.UriRoundTrip
import Hlib.UriTarget

namespace Hlib

open Delimiter

namespace Uri

section Target

/-- A component as a part of the target; one that `format_to` fails to append is missing. -/
def offered (value : List Byte) (delimiter : Byte) : Option (List Byte) :=
  if part value (delimiter :: cString value) = [] then none else some (shown value)

theorem offered_inside {query : List Byte} (h : ∀ c ∈ query, inQuery c = true) (delimiter : Byte) :
    ∀ q ∈ offered query delimiter, ∀ c ∈ q, inQuery c = true := by
  unfold offered
  intro q hq
  split at hq
  next => cases hq
  next =>
    cases hq
    exact shown_all h

/-- The target of a request for the URI. -/
def target {uri : Uri} (h : Parsed uri) : Target where
  path := uri.path
  query := offered uri.query question
  fragment := offered uri.fragment hash
  path_inside := h.path
  query_inside := offered_inside h.query question

end Target

section Request

/-- The URI of a request, from the scheme of the connection, the host and the target. -/
def requested (scheme hostPort target : List Byte) : List Byte :=
  scheme ++ colon :: slash :: slash :: (hostPort ++ target)

theorem Parsed.bare {uri : Uri} (h : Parsed uri) : Parsed { uri with userInfo := [] } :=
  ⟨h.scheme, fun _ hc => absurd hc List.not_mem_nil, List.not_mem_nil, h.host, h.port, h.usual, h.path, h.nonempty,
    h.absolute, h.relative, h.query, h.fragment⟩

end Request

end Uri

end Hlib
