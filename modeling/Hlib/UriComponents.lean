import Hlib.StringSplit
import Hlib.UriEscape
import Hlib.UriRequest

namespace Hlib

open PercentCoding (decode decode_encode Encoded encoded_encode UpperHex)
open UriEncoding

namespace Uri

/-- What a program puts into a URI, in any bytes; the port is the one that is connected to. -/
structure Components where
  scheme : List Byte
  userInfo : List Byte
  host : List Byte
  port : Nat
  segments : List (List Byte)
  query : List Byte
  fragment : List Byte
  scheme_inside : ∀ c ∈ scheme, inScheme c = true
  port_lt : port < 2 ^ 16
  port_usual : port = 0 → getDefaultPortForScheme scheme = 0
  segments_given : segments ≠ []

section Escaped

theorem escaped_byte (string : List Byte) : ∀ c ∈ escape string, unreserved c = true ∨ c = PercentCoding.percent := by
  have digit : ∀ c : Byte, UpperHex c → unreserved c = true := by
    unfold UpperHex
    decide +kernel
  have encoded : Encoded unreserved (escape string) := by
    rw [escape_eq]
    exact encoded_encode string
  generalize escape string = text at encoded
  induction encoded with
  | nil => exact nofun
  | plain plain _ ih =>
    intro c hc
    rcases List.mem_cons.mp hc with rfl | hc
    · exact Or.inl plain
    · exact ih c hc
  | triplet high low _ ih =>
    intro c hc
    simp only [List.mem_cons] at hc
    rcases hc with rfl | rfl | rfl | hc
    · exact Or.inr rfl
    · exact Or.inl (digit c high)
    · exact Or.inl (digit c low)
    · exact ih c hc

/-- No character of an escaped text separates anything in a URI. -/
theorem escaped_inside (string : List Byte) : ∀ c ∈ escape string,
    (inAuthority c = true ∧ inPath c = true ∧ inQuery c = true) ∧
      c ≠ at_ ∧ c ≠ colon ∧ c ≠ slash ∧ c ≠ question ∧ c ≠ 0 := by
  have all : ∀ c : Byte, unreserved c = true ∨ c = PercentCoding.percent →
      (inAuthority c = true ∧ inPath c = true ∧ inQuery c = true) ∧
        c ≠ at_ ∧ c ≠ colon ∧ c ≠ slash ∧ c ≠ question ∧ c ≠ 0 := by decide +kernel
  exact fun c hc => all c (escaped_byte string c hc)

end Escaped

namespace Components

variable (c : Components)

/-- The path, with a slash before each of the segments. -/
def path : List Byte := join ([] :: c.segments.map escape) [slash]

def uri : Uri where
  scheme := c.scheme
  userInfo := escape c.userInfo
  host := escape c.host
  port := c.port
  path := c.path
  query := escape c.query
  fragment := escape c.fragment

/-- What can be read of the components in a URI. -/
structure Read (uri : Uri) : Prop where
  scheme : uri.scheme = c.scheme
  userInfo : decode uri.userInfo = some c.userInfo
  host : decode uri.host = some c.host
  port : uri.port = c.port
  segments : (splitDelimiter uri.path slash false).mapM decode = some ([] :: c.segments)
  query : decode uri.query = some c.query
  fragment : decode uri.fragment = some c.fragment

/-- What the text of a URI can hold of them. -/
structure Fits : Prop where
  scheme : Shown c.scheme
  userInfo : (escape c.userInfo).length + 1 ≤ 2 ^ 31 - 1
  query : (escape c.query).length + 1 ≤ 2 ^ 31 - 1
  fragment : (escape c.fragment).length + 1 ≤ 2 ^ 31 - 1
  hostless : c.host = [] →
    c.userInfo = [] ∧ UsualPort c.uri ∧ (c.segments.head? = some [] → c.segments.length = 1)

theorem path_eq : c.path = (c.segments.map escape).flatMap ([slash] ++ ·) := by
  unfold path
  rw [join_eq, intercalate_cons, List.nil_append]

theorem path_cons : ∃ segment segments, c.segments = segment :: segments ∧
    c.path = slash :: (escape segment ++ (segments.map escape).flatMap ([slash] ++ ·)) := by
  have path := c.path_eq
  cases given : c.segments with
  | nil => exact absurd given c.segments_given
  | cons segment segments =>
    rw [given, List.map_cons, List.flatMap_cons] at path
    exact ⟨segment, segments, rfl, path⟩

theorem path_byte : ∀ b ∈ c.path, b = slash ∨ ∃ segment ∈ c.segments, b ∈ escape segment := by
  rw [path_eq]
  intro b hb
  obtain ⟨text, among, inside⟩ := List.mem_flatMap.mp hb
  obtain ⟨segment, given, rfl⟩ := List.mem_map.mp among
  rcases List.mem_append.mp inside with first | inside
  · exact Or.inl (List.mem_singleton.mp first)
  · exact Or.inr ⟨segment, given, inside⟩

theorem path_inside : ∀ b ∈ c.path, inPath b = true := by
  intro b hb
  rcases c.path_byte b hb with rfl | ⟨segment, _, inside⟩
  · decide
  · exact (escaped_inside segment b inside).1.2.1

theorem path_given : c.path ≠ [] := by
  obtain ⟨segment, segments, _, path⟩ := c.path_cons
  rw [path]
  exact List.cons_ne_nil _ _

theorem path_split : splitDelimiter c.path slash false = [] :: c.segments.map escape := by
  have free : ∀ token ∈ [] :: c.segments.map escape, slash ∉ token := by
    intro token among hb
    rcases List.mem_cons.mp among with rfl | among
    · exact List.not_mem_nil hb
    · obtain ⟨segment, _, rfl⟩ := List.mem_map.mp among
      exact (escaped_inside segment slash hb).2.2.2.1 rfl
  rw [splitDelimiter_all c.path_given]
  unfold path
  rw [join_eq, List.splitOn_intercalate slash free (List.cons_ne_nil _ _)]

variable {c} in
theorem Read.unique {d : Components} {uri : Uri} (hc : c.Read uri) (hd : d.Read uri) : c = d := by
  have scheme := hc.scheme.symm.trans hd.scheme
  have userInfo := Option.some.inj (hc.userInfo.symm.trans hd.userInfo)
  have host := Option.some.inj (hc.host.symm.trans hd.host)
  have port := hc.port.symm.trans hd.port
  have segments := List.tail_eq_of_cons_eq (Option.some.inj (hc.segments.symm.trans hd.segments))
  have query := Option.some.inj (hc.query.symm.trans hd.query)
  have fragment := Option.some.inj (hc.fragment.symm.trans hd.fragment)
  cases c
  cases d
  cases scheme
  cases userInfo
  cases host
  cases port
  cases segments
  cases query
  cases fragment
  rfl

end Components

end Uri

end Hlib
