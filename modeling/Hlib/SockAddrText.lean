import Hlib.SockAddr
import Mathlib.Data.List.Count

namespace Hlib

open Delimiter

section Libc

variable {inet : Inet}

/-- Four decimal groups between three dots. -/
def Dotted (text : List Byte) : Prop :=
  ∃ a b c d : List Byte, (∀ group ∈ [a, b, c, d], ∀ x ∈ group, isDigit x = true) ∧
    text = a ++ ascii '.' :: (b ++ ascii '.' :: (c ++ ascii '.' :: d))

/-- What libc does with an IPv4 address: `inet_ntop` writes a text that fits its buffer, and
`inet_pton` reads it back. -/
structure Inet.Writes4 (inet : Inet) (addr : Addr 4) (text : List Byte) : Prop where
  ntop : inet.ntop4 addr = some text
  pton : inet.pton4 text = some addr
  dotted : Dotted text
  fits : text.length < 16

/-- The same for an IPv6 address. -/
structure Inet.Writes6 (inet : Inet) (addr : Addr 16) (text : List Byte) : Prop where
  ntop : inet.ntop6 addr = some text
  pton : inet.pton6 text = some addr
  characters : ∀ x ∈ text, isXDigit x = true ∨ x = ascii ':' ∨ x = ascii '.'
  colons : 2 ≤ text.count (ascii ':')
  fits : text.length < 46

end Libc

namespace SockAddr

section Characters

/-- The characters of IPv6 texts, which are also those of IPv4 texts. -/
def Plain (x : Byte) : Prop := isXDigit x = true ∨ x = ascii ':' ∨ x = ascii '.'

theorem plain_ne {x y : Byte} (h : Plain x) (hy : ¬isXDigit y = true ∧ y ≠ ascii ':' ∧ y ≠ ascii '.') :
    x ≠ y := by
  rintro rfl
  rcases h with digit | colon | dot
  · exact hy.1 digit
  · exact hy.2.1 colon
  · exact hy.2.2 dot

theorem cString_plain {text : List Byte} (h : ∀ x ∈ text, Plain x) : cString text = text := by
  rw [cString_eq]
  intro zero
  exact plain_ne (h 0 zero) (by decide) rfl

theorem plain_digit {x : Byte} (h : isDigit x = true) : Plain x := by
  left
  rw [isXDigit, h]
  rfl

theorem digit_ne {x y : Byte} (h : isDigit x = true) (hy : ¬isDigit y = true) : x ≠ y := by
  rintro rfl
  exact hy h

theorem not_mem_digits {text : List Byte} (h : ∀ x ∈ text, isDigit x = true) {y : Byte}
    (hy : ¬isDigit y = true) : y ∉ text := fun mem => digit_ne (h y mem) hy rfl

theorem not_mem_decimal (n : Nat) {y : Byte} (hy : ¬isDigit y = true) : y ∉ decimal n :=
  not_mem_digits (fun _ => isDigit_decimal) hy

theorem dotted_plain {text : List Byte} (h : Dotted text) :
    (∀ x ∈ text, Plain x) ∧ text.count (ascii ':') = 0 ∧ text.count (ascii '.') = 3 := by
  obtain ⟨a, b, c, d, groups, rfl⟩ := h
  have dot : Plain (ascii '.') := Or.inr (Or.inr rfl)
  have group : ∀ group ∈ [a, b, c, d], (∀ x ∈ group, Plain x) ∧
      List.count (ascii ':') group = 0 ∧ List.count (ascii '.') group = 0 := by
    intro group hg
    refine ⟨fun x hx => plain_digit (groups group hg x hx), ?_, ?_⟩
    · exact List.count_eq_zero.mpr (not_mem_digits (groups group hg) (by decide))
    · exact List.count_eq_zero.mpr (not_mem_digits (groups group hg) (by decide))
  obtain ⟨pa, ca, da⟩ := group a (by simp)
  obtain ⟨pb, cb, db⟩ := group b (by simp)
  obtain ⟨pc, cc, dc⟩ := group c (by simp)
  obtain ⟨pd, cd, dd⟩ := group d (by simp)
  have colon : ascii '.' ≠ ascii ':' := by decide
  refine ⟨?_, ?_, ?_⟩
  · intro x hx
    simp only [List.mem_append, List.mem_cons] at hx
    rcases hx with hx | rfl | hx | rfl | hx | rfl | hx
    · exact pa x hx
    · exact dot
    · exact pb x hx
    · exact dot
    · exact pc x hx
    · exact dot
    · exact pd x hx
  · simp only [List.count_append, List.count_cons_of_ne colon, ca, cb, cc, cd]
  · simp only [List.count_append, List.count_cons_self, da, db, dc, dd]

end Characters

section Parsed

variable {inet : Inet} {mask : Mask}

theorem rfind_npos {first : Byte} {rest string : List Byte} (h : first ∉ string) :
    (rfind (first :: rest) string).getD npos = npos := by
  rw [rfind_none h]
  rfl

/-- `inet` alone, without a port. -/
theorem parse_inet {addr : Addr 4} {text : List Byte} (h : inet.Writes4 addr text)
    (contains : IPv4 &&& mask ≠ 0) (prior : SockAddr) :
    prior.parse inet text mask = (true, (prior.setFamily AF_UNSPEC).storeIn addr) := by
  obtain ⟨plain, colons, dots⟩ := dotted_plain h.dotted
  have single : ¬count text (ascii ':') ≥ 2 := by
    unfold count
    omega
  have three : 3 = count text (ascii '.') := dots.symm
  have missing : ascii ':' ∉ text := List.count_eq_zero.mp colons
  have fits := h.fits
  have whole : cString (substr text 0 npos) = text := by
    have long : text.length ≤ npos := by
      unfold npos
      omega
    rw [substr, List.drop_zero, List.take_of_length_le long, cString_plain plain]
  unfold parse
  rw [if_neg single, if_pos three, if_neg (Ne.symm contains)]
  simp only [rfind_npos missing, whole, h.pton]
  exact if_neg fun differ => differ rfl

theorem parse_inet_port {addr : Addr 4} {text : List Byte} (h : inet.Writes4 addr text)
    (contains : IPv4 &&& mask ≠ 0) (prior : SockAddr) {port : Nat} (small : port < 2 ^ 16) :
    prior.parse inet (text ++ ascii ':' :: decimal port) mask =
      (true, ((prior.setFamily AF_UNSPEC).storeIn addr).storePort port) := by
  obtain ⟨plain, colons, dots⟩ := dotted_plain h.dotted
  have behind : ascii ':' ∉ decimal port := not_mem_decimal port (by decide)
  have undotted : ascii '.' ∉ decimal port := not_mem_decimal port (by decide)
  have single : ¬count (text ++ ascii ':' :: decimal port) (ascii ':') ≥ 2 := by
    rw [count, List.count_append, List.count_cons_self, colons, List.count_eq_zero.mpr behind]
    omega
  have three : 3 = count (text ++ ascii ':' :: decimal port) (ascii '.') := by
    have colon : ascii ':' ≠ ascii '.' := by decide
    rw [count, List.count_append, List.count_cons_of_ne colon, dots, List.count_eq_zero.mpr undotted]
  have found : (rfind [ascii ':'] (text ++ ascii ':' :: decimal port)).getD npos = text.length := by
    have last : rfind [ascii ':'] (text ++ ([ascii ':'] ++ decimal port)) = some text.length :=
      rfind_append behind text
    exact congrArg (·.getD npos) last
  have address : cString (substr (text ++ ascii ':' :: decimal port) 0 text.length) = text := by
    rw [substr, List.drop_zero, List.take_left, cString_plain plain]
  have number : (text ++ ascii ':' :: decimal port).drop (text.length + 1) = decimal port := by
    rw [List.drop_append]
    simp
  have differ : npos ≠ text.length := by
    have fits := h.fits
    unfold npos
    omega
  unfold parse
  rw [if_neg single, if_pos three, if_neg (Ne.symm contains)]
  simp only [found, address, h.pton, number, stoui16_decimal small]
  exact if_pos differ

/-- `inet6` alone, without a port. -/
theorem parse_inet6 {addr : Addr 16} {text : List Byte} (h : inet.Writes6 addr text)
    (contains : IPv6 &&& mask ≠ 0) (prior : SockAddr) :
    prior.parse inet text mask = (true, (prior.setFamily AF_UNSPEC).storeIn6 addr) := by
  have colons : count text (ascii ':') ≥ 2 := h.colons
  have fits := h.fits
  have open_ : ascii '[' ∉ text := fun mem => plain_ne (h.characters _ mem) (by decide) rfl
  have close : ascii ']' ∉ text := fun mem => plain_ne (h.characters _ mem) (by decide) rfl
  have bare : startsWith text (ascii '[') = false := by
    apply decide_eq_false
    intro first
    exact open_ (List.mem_of_mem_head? first)
  have whole : cString (substr text 0 (npos - 1)) = text := by
    have long : text.length ≤ npos - 1 := by
      unfold npos
      omega
    rw [substr, List.drop_zero, List.take_of_length_le long, cString_plain h.characters]
  have form : ¬(0 > npos ∨ 1 = 0 ∧ True ∨ True ∧ npos ≠ npos) := by
    rintro (above | ⟨one, _⟩ | ⟨_, differ⟩)
    · omega
    · omega
    · exact differ rfl
  unfold parse
  rw [if_pos colons, if_neg (Ne.symm contains)]
  simp only [bare, rfind_npos close, Bool.false_eq_true, if_false, whole, h.pton]
  rw [if_neg form]
  exact if_neg fun differ => differ rfl

theorem parse_inet6_port {addr : Addr 16} {text : List Byte} (h : inet.Writes6 addr text)
    (contains : IPv6 &&& mask ≠ 0) (prior : SockAddr) {port : Nat} (small : port < 2 ^ 16) :
    prior.parse inet (ascii '[' :: text ++ [ascii ']', ascii ':'] ++ decimal port) mask =
      (true, ((prior.setFamily AF_UNSPEC).storeIn6 addr).storePort port) := by
  have fits := h.fits
  have colons : count (ascii '[' :: text ++ [ascii ']', ascii ':'] ++ decimal port) (ascii ':') ≥ 2 := by
    have inner := h.colons
    have bracket : ascii '[' ≠ ascii ':' := by decide
    rw [count, List.count_append, List.count_append, List.count_cons_of_ne bracket]
    omega
  have first : startsWith (ascii '[' :: text ++ [ascii ']', ascii ':'] ++ decimal port) (ascii '[') = true := rfl
  have found : (rfind [ascii ']', ascii ':']
      (ascii '[' :: text ++ [ascii ']', ascii ':'] ++ decimal port)).getD npos = text.length + 1 := by
    have behind : ascii ']' ∉ [ascii ':'] ++ decimal port := by
      rw [List.singleton_append, List.mem_cons, not_or]
      exact ⟨by decide, not_mem_decimal port (by decide)⟩
    have last := rfind_append behind (ascii '[' :: text)
    rw [← List.append_assoc] at last
    exact congrArg (·.getD npos) last
  have address : cString (substr (ascii '[' :: text ++ [ascii ']', ascii ':'] ++ decimal port) 1
      (text.length + 1 - 1)) = text := by
    rw [substr, Nat.add_sub_cancel, List.append_assoc, List.cons_append, List.drop_succ_cons, List.drop_zero,
      List.take_left, cString_plain h.characters]
  have number : (ascii '[' :: text ++ [ascii ']', ascii ':'] ++ decimal port).drop (text.length + 1 + 2) =
      decimal port := by
    have front : (ascii '[' :: text ++ [ascii ']', ascii ':']).length = text.length + 1 + 2 := by
      rw [List.length_append, List.length_cons]
      rfl
    rw [← front, List.drop_left]
  have differ : npos ≠ text.length + 1 := by
    unfold npos
    omega
  have form : ¬(1 > text.length + 1 ∨ True ∧ npos = text.length + 1 ∨ 0 = 1 ∧ npos ≠ text.length + 1) := by
    rintro (above | ⟨_, same⟩ | ⟨one, _⟩)
    · omega
    · exact differ same
    · omega
  unfold parse
  rw [if_pos colons, if_neg (Ne.symm contains)]
  simp only [first, found, if_true, address, h.pton, number, stoui16_decimal small]
  rw [if_neg form]
  exact if_pos differ

end Parsed

section RoundTrip

/-- A network address that libc writes and reads back. -/
inductive Written (inet : Inet) (sa : SockAddr) : Prop
  | inet4 (text : List Byte) (family : sa.family = AF_INET) (writes : inet.Writes4 sa.inAddr text)
  | inet6 (text : List Byte) (family : sa.family = AF_INET6) (writes : inet.Writes6 sa.in6Addr text)

/-- The same family, address and port. -/
structure Same (sa sa' : SockAddr) : Prop where
  family : sa'.family = sa.family
  inAddr : sa.family = AF_INET → sa'.inAddr = sa.inAddr
  in6Addr : sa.family = AF_INET6 → sa'.in6Addr = sa.in6Addr
  port : sa'.port = sa.port

theorem same_inet {sa : SockAddr} (family : sa.family = AF_INET) (prior : SockAddr) :
    Same sa ((prior.storeIn sa.inAddr).storePort sa.port) := by
  have stored := storeIn_family prior sa.inAddr
  refine ⟨?_, fun _ => ?_, fun other => ?_, storePort_port (Or.inl stored) sa.port_lt⟩
  · rw [storePort_family, stored, family]
  · rw [storePort_inAddr, storeIn_inAddr]
  · rw [family] at other
    cases other

theorem same_inet6 {sa : SockAddr} (family : sa.family = AF_INET6) (prior : SockAddr) :
    Same sa ((prior.storeIn6 sa.in6Addr).storePort sa.port) := by
  have stored := storeIn6_family prior sa.in6Addr
  refine ⟨?_, fun other => ?_, fun _ => ?_, storePort_port (Or.inr stored) sa.port_lt⟩
  · rw [storePort_family, stored, family]
  · rw [family] at other
    cases other
  · rw [storePort_in6Addr, storeIn6_in6Addr]

/-- What was written first is lost. -/
theorem storePort_storePort (sa : SockAddr) (port port' : Nat) :
    (sa.storePort port).storePort port' = sa.storePort port' := by
  funext i
  by_cases inside : 2 ≤ i ∧ i < 4
  · have length : 2 + (portBytes port').length = 4 := rfl
    have below : i < 2 + (portBytes port').length := by omega
    have again := store_inside (sa.storePort port) inside.1 below
    have once := store_inside sa inside.1 below
    exact Option.some.inj (again.symm.trans once)
  · have length : (portBytes port').length = 2 := rfl
    have length' : (portBytes port).length = 2 := rfl
    unfold storePort
    rw [store_outside _ (by omega), store_outside _ (by omega), store_outside _ (by omega)]

theorem storeIn_port_zero (sa : SockAddr) (addr : Addr 4) : (sa.storeIn addr).storePort 0 = sa.storeIn addr :=
  storePort_storePort _ 0 0

theorem storeIn6_port_zero (sa : SockAddr) (addr : Addr 16) :
    (sa.storeIn6 addr).storePort 0 = sa.storeIn6 addr :=
  storePort_storePort _ 0 0

theorem toString_inet {inet : Inet} {sa : SockAddr} {text : List Byte} (family : sa.family = AF_INET)
    (h : inet.Writes4 sa.inAddr text) :
    sa.toString inet = some (if sa.port > 0 then text ++ ascii ':' :: decimal sa.port else text) := by
  have address : sa.address inet = some text := by
    unfold address
    rw [if_pos family, h.ntop]
  have other : ¬(sa.family = AF_INET6 ∧ sa.port > 0) := by
    rw [family]
    exact fun both => absurd both.1 (by decide)
  have short : (text ++ ascii ':' :: decimal sa.port).length < 2 ^ 31 := by
    have fits := h.fits
    have digits := decimal_length sa.port_lt
    rw [List.length_append, List.length_cons]
    omega
  unfold toString
  rw [address]
  change (if sa.family = AF_INET ∧ sa.port > 0 then
      some (format (cString text ++ ascii ':' :: decimal sa.port)) else
    if sa.family = AF_INET6 ∧ sa.port > 0 then _ else some text) = _
  rw [cString_plain (dotted_plain h.dotted).1, format_short short, if_neg other]
  by_cases given : sa.port > 0
  · rw [if_pos ⟨family, given⟩, if_pos given]
  · rw [if_neg fun both => given both.2, if_neg given]

theorem toString_inet6 {inet : Inet} {sa : SockAddr} {text : List Byte} (family : sa.family = AF_INET6)
    (h : inet.Writes6 sa.in6Addr text) :
    sa.toString inet = some (if sa.port > 0 then
      ascii '[' :: text ++ [ascii ']', ascii ':'] ++ decimal sa.port else text) := by
  have unequal : ¬sa.family = AF_INET := by
    rw [family]
    decide
  have address : sa.address inet = some text := by
    unfold address
    rw [if_neg unequal, if_pos family, h.ntop]
  have other : ¬(sa.family = AF_INET ∧ sa.port > 0) := fun both => unequal both.1
  have short : (ascii '[' :: text ++ [ascii ']', ascii ':'] ++ decimal sa.port).length < 2 ^ 31 := by
    have fits := h.fits
    have digits := decimal_length sa.port_lt
    rw [List.length_append, List.length_append, List.length_cons, List.length_cons, List.length_cons,
      List.length_nil]
    omega
  unfold toString
  rw [address]
  change (if sa.family = AF_INET ∧ sa.port > 0 then _ else
    if sa.family = AF_INET6 ∧ sa.port > 0 then
      some (format (ascii '[' :: cString text ++ [ascii ']', ascii ':'] ++ decimal sa.port)) else some text) = _
  rw [cString_plain h.characters, format_short short, if_neg other]
  by_cases given : sa.port > 0
  · rw [if_pos ⟨family, given⟩, if_pos given]
  · rw [if_neg fun both => given both.2, if_neg given]

/-- What `to_string` writes `parse` reads back, whatever the object held that it is read into. -/
theorem parse_toString {inet : Inet} {sa : SockAddr} (written : Written inet sa) {mask : Mask}
    (contains : 1 <<< sa.family &&& mask ≠ 0) (prior : SockAddr) :
    ∃ string sa', sa.toString inet = some string ∧ prior.parse inet string mask = (true, sa') ∧
      Same sa sa' := by
  cases written with
  | inet4 text family writes =>
    rw [family] at contains
    have read := toString_inet family writes
    by_cases given : sa.port > 0
    · rw [if_pos given] at read
      exact ⟨_, _, read, parse_inet_port writes contains prior sa.port_lt, same_inet family _⟩
    · have zero : sa.port = 0 := by omega
      rw [if_neg given] at read
      refine ⟨_, _, read, parse_inet writes contains prior, ?_⟩
      have same := same_inet family (prior.setFamily AF_UNSPEC)
      rw [zero, storeIn_port_zero] at same
      exact same
  | inet6 text family writes =>
    rw [family] at contains
    have read := toString_inet6 family writes
    by_cases given : sa.port > 0
    · rw [if_pos given] at read
      exact ⟨_, _, read, parse_inet6_port writes contains prior sa.port_lt, same_inet6 family _⟩
    · have zero : sa.port = 0 := by omega
      rw [if_neg given] at read
      refine ⟨_, _, read, parse_inet6 writes contains prior, ?_⟩
      have same := same_inet6 family (prior.setFamily AF_UNSPEC)
      rw [zero, storeIn6_port_zero] at same
      exact same

def sampleAddr : Addr 16 := ⟨[32, 1, 13, 184, 0, 1, 0, 2, 0, 3, 0, 4, 0, 5, 0, 6], rfl⟩

def sampleText : List Byte := literal "2001:db8:1:2:3:4:5:6"

/-- libc, as far as the sample needs it. -/
def sampleInet : Inet where
  ntop4 _ := none
  ntop6 addr := if addr = sampleAddr then some sampleText else none
  pton4 _ := none
  pton6 text := if text = sampleText then some sampleAddr else none

def sample : SockAddr := (storeIn6 (fun _ => 0) sampleAddr).storePort 8443

theorem parse_toString_sample :
    ∃ string sa', sample.toString sampleInet = some string ∧
      parse sampleInet (fun _ => 255) string All = (true, sa') ∧ Same sample sa' := by
  have addr : sample.in6Addr = sampleAddr := by
    unfold sample
    rw [storePort_in6Addr, storeIn6_in6Addr]
  have family : sample.family = AF_INET6 := by
    unfold sample
    rw [storePort_family, storeIn6_family]
  have writes : sampleInet.Writes6 sampleAddr sampleText := by
    refine ⟨?_, ?_, by decide +kernel, by decide +kernel, by decide +kernel⟩
    · rfl
    · rfl
  rw [← addr] at writes
  have contains : 1 <<< sample.family &&& All ≠ 0 := by
    rw [family]
    decide
  exact parse_toString (.inet6 sampleText family writes) contains fun _ => 255

end RoundTrip

end SockAddr

end Hlib
