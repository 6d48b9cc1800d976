import Hlib.Delimiter
import Hlib.StringNumber
import Hlib.UnorderedMap

namespace Hlib

open Delimiter (cutFirst cutLast)

/-- `URI`. -/
structure Uri where
  scheme : List Byte := []
  userInfo : List Byte := []
  host : List Byte := []
  port : Nat := 0
  path : List Byte := []
  query : List Byte := []
  fragment : List Byte := []
  deriving DecidableEq, Repr

namespace Uri

def colon : Byte := ascii ':'

def slash : Byte := ascii '/'

def question : Byte := ascii '?'

def hash : Byte := ascii '#'

def at_ : Byte := ascii '@'

def backslash : Byte := 0x5C#8

/-- `[^:\/?#]`: a backslash in a bracket of an extended expression stands for itself. -/
def inScheme (c : Byte) : Bool := c ≠ colon ∧ c ≠ backslash ∧ c ≠ slash ∧ c ≠ question ∧ c ≠ hash

/-- `[^\/?#]`. -/
def inAuthority (c : Byte) : Bool := c ≠ backslash ∧ c ≠ slash ∧ c ≠ question ∧ c ≠ hash

/-- `[^?#]`. -/
def inPath (c : Byte) : Bool := c ≠ question ∧ c ≠ hash

/-- `[^#]`. -/
def inQuery (c : Byte) : Bool := c ≠ hash

/-- The `.` of an extended expression matches no NUL. -/
def inFragment (c : Byte) : Bool := c ≠ 0

/-- `(([^:\/?#]+):)?`: the scheme, and what follows. -/
def matchScheme (string : List Byte) : List Byte × List Byte :=
  match string.dropWhile inScheme with
  | [] => ([], string)
  | c :: rest =>
    if c = colon ∧ string.takeWhile inScheme ≠ [] then (string.takeWhile inScheme, rest)
    else ([], string)

/-- `(//([^\/?#]*))?`: the authority, and what follows. -/
def matchAuthority : List Byte → List Byte × List Byte
  | c :: c' :: rest =>
    if c = slash ∧ c' = slash then (rest.takeWhile inAuthority, rest.dropWhile inAuthority)
    else ([], c :: c' :: rest)
  | string => ([], string)

/-- `(\?([^#]*))?`: the query, and what follows. -/
def matchQuery : List Byte → List Byte × List Byte
  | [] => ([], [])
  | c :: rest =>
    if c = question then (rest.takeWhile inQuery, rest.dropWhile inQuery) else ([], c :: rest)

/-- `(#(.*))?`: the fragment, to the end of the string. -/
def matchFragment : List Byte → Option (List Byte)
  | [] => some []
  | c :: rest => if c = hash ∧ rest.all inFragment then some rest else none

/-- The groups of the regular expression; one that takes no part is empty. -/
structure Matches where
  scheme : List Byte
  authority : List Byte
  path : List Byte
  query : List Byte
  fragment : List Byte

/-- `std::regex_match`. -/
def regexMatch (string : List Byte) : Option Matches :=
  let (scheme, rest) := matchScheme string
  let (authority, rest) := matchAuthority rest
  let path := rest.takeWhile inPath
  let (query, rest) := matchQuery (rest.dropWhile inPath)
  (matchFragment rest).map fun fragment => { scheme, authority, path, query, fragment }

def defaultPorts : List (List Byte × Nat) :=
  [(literal "ftp", 22), (literal "gopher", 70), (literal "http", 80), (literal "https", 443),
    (literal "imap", 143), (literal "ldap", 389), (literal "nfs", 2049), (literal "nntp", 119),
    (literal "pop", 110), (literal "smtp", 25), (literal "telnet", 23), (literal "ws", 80),
    (literal "wss", 443)]

/-- `uri_get_default_port_for_scheme`. -/
def getDefaultPortForScheme (scheme : List Byte) : Nat :=
  (UnorderedMap.find defaultPorts scheme).getD 0

/-- The user info before the first `@`, and the rest of the authority. -/
def userInfoOf (authority : List Byte) : List Byte × List Byte :=
  match cutFirst at_ authority with
  | some cut => cut
  | none => ([], authority)

/-- The host, and the port behind the last `:` if one can be parsed there. -/
def hostPortOf (authority : List Byte) : List Byte × Nat :=
  match cutLast colon authority with
  | some (host, digits) =>
    match stoui16 digits 10 with
    | some port => (host, port)
    | none => (authority, 0)
  | none => (authority, 0)

/-- `uri_parse`, `none` if it throws `std::invalid_argument`. -/
def parse (string : List Byte) : Option Uri :=
  (regexMatch string).map fun found =>
    let (userInfo, authority) := userInfoOf found.authority
    let (host, port) := hostPortOf authority
    { scheme := found.scheme
      userInfo := userInfo
      host := host
      port := if port = 0 then getDefaultPortForScheme found.scheme else port
      path := if found.path = [] then [slash] else found.path
      query := found.query
      fragment := found.fragment }

/-- `format_to`, given what `vsnprintf` would print, which fails beyond `INT_MAX`. -/
def formatTo (string formatted : List Byte) : List Byte :=
  if formatted.length ≤ 2 ^ 31 - 1 then string ++ formatted else string

/-- The authority as `to_string` appends it. -/
def appendAuthority (string : List Byte) (uri : Uri) : List Byte :=
  if uri.host = [] then string
  else
    let string := string ++ [slash, slash]
    let string :=
      if uri.userInfo = [] then string else formatTo string (cString uri.userInfo ++ [at_])
    let string := string ++ uri.host
    if uri.port ≠ 0 ∧ getDefaultPortForScheme uri.scheme ≠ uri.port then
      formatTo string (colon :: decimal uri.port)
    else string

/-- `to_string(URI const&)`. -/
def toString (uri : Uri) : List Byte :=
  let string := if uri.scheme = [] then [] else formatTo [] (cString uri.scheme ++ [colon])
  let string := appendAuthority string uri
  let string := string ++ if uri.path = [] then [slash] else cString uri.path
  let string := if uri.query = [] then string else formatTo string (question :: cString uri.query)
  if uri.fragment = [] then string else formatTo string (hash :: cString uri.fragment)

end Uri

end Hlib
