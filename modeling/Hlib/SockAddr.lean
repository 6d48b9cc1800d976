import Hlib.Delimiter
import Hlib.StringNumber

namespace Hlib

open Delimiter

/-- `in_addr` and `in6_addr`, in network order. -/
abbrev Addr (n : Nat) := { bytes : List Byte // bytes.length = n }

/-- The conversions of `<arpa/inet.h>`; `none` stands for a null pointer, and for a result other
than 1. -/
structure Inet where
  ntop4 : Addr 4 → Option (List Byte)
  ntop6 : Addr 16 → Option (List Byte)
  pton4 : List Byte → Option (Addr 4)
  pton6 : List Byte → Option (Addr 16)

/-- The bytes of the union in `SockAddr`, which is as large as `sockaddr_storage`. -/
abbrev SockAddr := Nat → Byte

namespace SockAddr

abbrev AF_UNSPEC : Nat := 0

abbrev AF_UNIX : Nat := 1

abbrev AF_INET : Nat := 2

abbrev AF_INET6 : Nat := 10

abbrev Mask := BitVec 32

def IPv4 : Mask := 1 <<< AF_INET

def IPv6 : Mask := 1 <<< AF_INET6

def Unix : Mask := 1 <<< AF_UNIX

def All : Mask := ~~~0

def sizeofSockaddrIn : Nat := 16

def sizeofSockaddrIn6 : Nat := 28

def sizeofSockaddrUn : Nat := 110

def sizeofSockaddrStorage : Nat := 128

def sizeofSunPath : Nat := 108

section Bytes

def store (sa : SockAddr) (offset : Nat) (bytes : List Byte) : SockAddr := fun i =>
  if offset ≤ i then (bytes[i - offset]?).getD (sa i) else sa i

def read (sa : SockAddr) (offset n : Nat) : Addr n :=
  ⟨(List.range n).map fun i => sa (offset + i), by rw [List.length_map, List.length_range]⟩

/-- A `sa_family_t`, on a host that stores the low byte first. -/
def familyBytes (family : Nat) : List Byte := [BitVec.ofNat 8 family, BitVec.ofNat 8 (family / 256)]

/-- The bytes of `htons(port)`. -/
def portBytes (port : Nat) : List Byte := [BitVec.ofNat 8 (port / 256), BitVec.ofNat 8 port]

/-- Every member of the union begins with its family. -/
def setFamily (sa : SockAddr) (family : Nat) : SockAddr := sa.store 0 (familyBytes family)

/-- `sin_port` and `sin6_port` stand at the same place. -/
def storePort (sa : SockAddr) (port : Nat) : SockAddr := sa.store 2 (portBytes port)

end Bytes

def family (sa : SockAddr) : Nat := (sa 0).toNat + 256 * (sa 1).toNat

def length (sa : SockAddr) : Nat :=
  if sa.family = AF_INET then sizeofSockaddrIn
  else if sa.family = AF_INET6 then sizeofSockaddrIn6
  else if sa.family = AF_UNIX then sizeofSockaddrUn
  else sizeofSockaddrStorage

/-- `ntohs` of the port. -/
def port (sa : SockAddr) : Nat :=
  if sa.family = AF_INET ∨ sa.family = AF_INET6 then 256 * (sa 2).toNat + (sa 3).toNat else 0

/-- `sin_addr`. -/
def inAddr (sa : SockAddr) : Addr 4 := sa.read 4 4

/-- `sin6_addr`. -/
def in6Addr (sa : SockAddr) : Addr 16 := sa.read 8 16

/-- `none` if a system error is thrown. -/
def address (inet : Inet) (sa : SockAddr) : Option (List Byte) :=
  if sa.family = AF_INET then inet.ntop4 sa.inAddr
  else if sa.family = AF_INET6 then inet.ntop6 sa.in6Addr
  else if sa.family = AF_UNIX then some (cString (sa.read 2 (sizeofSockaddrStorage - 2)).val)
  else some []

def toString (inet : Inet) (sa : SockAddr) : Option (List Byte) := do
  let address ← sa.address inet
  let port := sa.port
  if sa.family = AF_INET ∧ port > 0 then
    return format (cString address ++ ascii ':' :: decimal port)
  else if sa.family = AF_INET6 ∧ port > 0 then
    return format (ascii '[' :: cString address ++ [ascii ']', ascii ':'] ++ decimal port)
  else return address

def clear (_ : SockAddr) : SockAddr := fun _ => 0

def count (string : List Byte) (character : Byte) : Nat := string.count character

def startsWith (string : List Byte) (character : Byte) : Bool := string.head? = some character

def npos : Nat := 2 ^ 64 - 1

def substr (string : List Byte) (pos count : Nat) : List Byte := (string.drop pos).take count

/-- The lambda `to_unix` of `parse`. -/
def toUnix (sa : SockAddr) (string : List Byte) (mask : Mask) : Bool × SockAddr :=
  if 0 = Unix &&& mask then (false, sa.clear)
  else if string.length + 1 > sizeofSunPath then (false, sa)
  else (true, ((sa.setFamily AF_UNIX).store 2 string).store (2 + string.length) [0])

def storeIn6 (sa : SockAddr) (addr : Addr 16) : SockAddr :=
  ((sa.setFamily AF_INET6).store 8 addr.val).storePort 0

def storeIn (sa : SockAddr) (addr : Addr 4) : SockAddr :=
  ((sa.setFamily AF_INET).store 4 addr.val).storePort 0

/-- `parse(string, mask, std::nothrow)`. -/
def parse (inet : Inet) (sa : SockAddr) (string : List Byte) (mask : Mask) : Bool × SockAddr :=
  let sa := sa.setFamily AF_UNSPEC
  if count string (ascii ':') ≥ 2 then
    if 0 = IPv6 &&& mask then (false, sa.clear)
    else
      let start := if startsWith string (ascii '[') then 1 else 0
      let end_ := (rfind [ascii ']', ascii ':'] string).getD npos
      if start > end_ ∨ 1 = start ∧ npos = end_ ∨ 0 = start ∧ npos ≠ end_ then sa.toUnix string mask
      else
        match inet.pton6 (cString (substr string start (end_ - 1))) with
        | none => sa.toUnix string mask
        | some addr =>
          let sa := sa.storeIn6 addr
          if npos ≠ end_ then
            match stoui16 (string.drop (end_ + 2)) 10 with
            | none => sa.toUnix string mask
            | some port => (true, sa.storePort port)
          else (true, sa)
  else if 3 = count string (ascii '.') then
    if 0 = IPv4 &&& mask then (false, sa.clear)
    else
      let pos := (rfind [ascii ':'] string).getD npos
      match inet.pton4 (cString (substr string 0 pos)) with
      | none => sa.toUnix string mask
      | some addr =>
        let sa := sa.storeIn addr
        if npos ≠ pos then
          match stoui16 (string.drop (pos + 1)) 10 with
          | none => sa.toUnix string mask
          | some port => (true, sa.storePort port)
        else (true, sa)
  else sa.toUnix string mask

section Stored

theorem store_inside (sa : SockAddr) {offset i : Nat} {bytes : List Byte} (above : offset ≤ i)
    (below : i < offset + bytes.length) : bytes[i - offset]? = some (sa.store offset bytes i) := by
  have inside : i - offset < bytes.length := by omega
  rw [store, if_pos above, List.getElem?_eq_getElem inside]
  rfl

theorem store_outside (sa : SockAddr) {offset i : Nat} {bytes : List Byte}
    (h : i < offset ∨ offset + bytes.length ≤ i) : sa.store offset bytes i = sa i := by
  unfold store
  rcases h with before | behind
  · exact if_neg (by omega)
  · rw [if_pos (by omega), List.getElem?_eq_none (by omega)]
    rfl

theorem read_stored (sa : SockAddr) (offset : Nat) {n : Nat} (addr : Addr n) :
    (sa.store offset addr.val).read offset n = addr := by
  have length := addr.property
  apply Subtype.ext
  apply List.ext_getElem?
  intro i
  change ((List.range n).map fun i => sa.store offset addr.val (offset + i))[i]? = _
  rw [List.getElem?_map]
  by_cases inside : i < n
  · have stored : addr.val[offset + i - offset]? = some (sa.store offset addr.val (offset + i)) :=
      store_inside sa (Nat.le_add_right offset i) (by omega)
    rw [Nat.add_sub_cancel_left] at stored
    rw [List.getElem?_range inside, stored]
    rfl
  · rw [List.getElem?_eq_none (by rw [List.length_range]; omega), List.getElem?_eq_none (by omega)]
    rfl

theorem read_outside (sa : SockAddr) {offset n target : Nat} {bytes : List Byte}
    (h : offset + n ≤ target ∨ target + bytes.length ≤ offset) :
    (sa.store target bytes).read offset n = sa.read offset n := by
  apply Subtype.ext
  apply List.map_congr_left
  intro i hi
  have below := List.mem_range.mp hi
  apply store_outside
  omega

theorem setFamily_family (sa : SockAddr) {family : Nat} (h : family < 2 ^ 16) :
    (sa.setFamily family).family = family := by
  change (BitVec.ofNat 8 family).toNat + 256 * (BitVec.ofNat 8 (family / 256)).toNat = family
  rw [BitVec.toNat_ofNat, BitVec.toNat_ofNat]
  omega

theorem store_family (sa : SockAddr) {offset : Nat} (bytes : List Byte) (h : 2 ≤ offset) :
    (sa.store offset bytes).family = sa.family := by
  unfold family
  rw [store_outside sa (by omega), store_outside sa (by omega)]

theorem storePort_family (sa : SockAddr) (port : Nat) : (sa.storePort port).family = sa.family :=
  store_family sa _ (Nat.le_refl _)

theorem storePort_port {sa : SockAddr} (h : sa.family = AF_INET ∨ sa.family = AF_INET6) {port : Nat}
    (small : port < 2 ^ 16) : (sa.storePort port).port = port := by
  unfold SockAddr.port
  rw [storePort_family, if_pos h]
  change 256 * (BitVec.ofNat 8 (port / 256)).toNat + (BitVec.ofNat 8 port).toNat = port
  rw [BitVec.toNat_ofNat, BitVec.toNat_ofNat]
  omega

theorem port_lt (sa : SockAddr) : sa.port < 2 ^ 16 := by
  have high := (sa 2).isLt
  have low := (sa 3).isLt
  unfold port
  split
  · omega
  · omega

theorem storeIn_family (sa : SockAddr) (addr : Addr 4) : (sa.storeIn addr).family = AF_INET := by
  unfold storeIn
  rw [storePort_family, store_family _ _ (by omega), setFamily_family _ (by decide)]

theorem storeIn6_family (sa : SockAddr) (addr : Addr 16) : (sa.storeIn6 addr).family = AF_INET6 := by
  unfold storeIn6
  rw [storePort_family, store_family _ _ (by omega), setFamily_family _ (by decide)]

theorem storePort_inAddr (sa : SockAddr) (port : Nat) : (sa.storePort port).inAddr = sa.inAddr :=
  read_outside sa (Or.inr (Nat.le_refl 4))

theorem storePort_in6Addr (sa : SockAddr) (port : Nat) : (sa.storePort port).in6Addr = sa.in6Addr :=
  read_outside sa (Or.inr (Nat.le_add_right 4 4))

theorem storeIn_inAddr (sa : SockAddr) (addr : Addr 4) : (sa.storeIn addr).inAddr = addr := by
  unfold storeIn
  rw [storePort_inAddr]
  exact read_stored _ 4 addr

theorem storeIn6_in6Addr (sa : SockAddr) (addr : Addr 16) : (sa.storeIn6 addr).in6Addr = addr := by
  unfold storeIn6
  rw [storePort_in6Addr]
  exact read_stored _ 8 addr

end Stored

end SockAddr

end Hlib
