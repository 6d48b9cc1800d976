import Mathlib.Data.List.Basic

namespace ByteOrder

variable {w : Nat}

section Split

/-- The byte of weight `256 ^ k`. -/
def byteAt (k : Nat) (x : BitVec w) : BitVec 8 := x.extractLsb' (8 * k) 8

theorem getLsbD_byteAt (k : Nat) (x : BitVec w) (i : Nat) :
    (byteAt k x).getLsbD i = (decide (i < 8) && x.getLsbD (8 * k + i)) :=
  BitVec.getLsbD_extractLsb' (8 * k) 8 x i

theorem byteAt_ushiftRight (k : Nat) (x : BitVec w) : (x >>> (8 * k)).setWidth 8 = byteAt k x := by
  apply BitVec.eq_of_getLsbD_eq
  intro i hi
  rw [BitVec.getLsbD_setWidth, BitVec.getLsbD_ushiftRight, getLsbD_byteAt]

theorem byteAt_sshiftRight {k : Nat} (h : 8 * k + 8 ≤ w) (x : BitVec w) :
    (x.sshiftRight (8 * k)).setWidth 8 = byteAt k x := by
  apply BitVec.eq_of_getLsbD_eq
  intro i hi
  have inside : 8 * k + i < w := by omega
  have below : ¬w ≤ i := by omega
  rw [BitVec.getLsbD_setWidth, BitVec.getLsbD_sshiftRight, getLsbD_byteAt]
  simp [inside, below]

theorem byteAt_signExtend {k v : Nat} (h : 8 * k + 8 ≤ w) (wider : w ≤ v) (x : BitVec w) :
    byteAt k (x.signExtend v) = byteAt k x := by
  apply BitVec.eq_of_getLsbD_eq
  intro i hi
  have inside : 8 * k + i < w := by omega
  have inside' : 8 * k + i < v := by omega
  rw [getLsbD_byteAt, getLsbD_byteAt, BitVec.getLsbD_signExtend]
  simp [inside, inside']

theorem byteAt_setWidth {k v : Nat} (h : 8 * k + 8 ≤ v) (x : BitVec w) :
    byteAt k (x.setWidth v) = byteAt k x := by
  apply BitVec.eq_of_getLsbD_eq
  intro i hi
  have inside : 8 * k + i < v := by omega
  rw [getLsbD_byteAt, getLsbD_byteAt, BitVec.getLsbD_setWidth]
  simp [inside]

/-- The `n` lowest bytes, the lowest first. -/
def littleEndian (n : Nat) (x : BitVec w) : List (BitVec 8) := (List.range n).map fun k => byteAt k x

def bigEndian (n : Nat) (x : BitVec w) : List (BitVec 8) := (littleEndian n x).reverse

theorem littleEndian_length (n : Nat) (x : BitVec w) : (littleEndian n x).length = n := by
  rw [littleEndian, List.length_map, List.length_range]

theorem bigEndian_length (n : Nat) (x : BitVec w) : (bigEndian n x).length = n := by
  rw [bigEndian, List.length_reverse, littleEndian_length]

end Split

section Join

/-- Each byte shifted to its place, and all of them joined by `|`. -/
def gather (w : Nat) : List Nat → List (BitVec 8) → BitVec w
  | place :: places, byte :: bytes => byte.setWidth w <<< place ||| gather w places bytes
  | _, _ => 0

theorem gather_append {places places' : List Nat} {bytes bytes' : List (BitVec 8)}
    (h : places.length = bytes.length) :
    gather w (places ++ places') (bytes ++ bytes') = gather w places bytes ||| gather w places' bytes' := by
  induction places generalizing bytes with
  | nil =>
    obtain rfl : bytes = [] := List.length_eq_zero_iff.mp h.symm
    exact (BitVec.zero_or).symm
  | cons place places ih =>
    cases bytes with
    | nil => cases h
    | cons byte bytes =>
      have rest := ih (Nat.succ.inj h)
      rw [List.cons_append, List.cons_append, gather, gather, rest, BitVec.or_assoc]

theorem gather_reverse {places : List Nat} {bytes : List (BitVec 8)} (h : places.length = bytes.length) :
    gather w places.reverse bytes.reverse = gather w places bytes := by
  induction places generalizing bytes with
  | nil =>
    obtain rfl : bytes = [] := List.length_eq_zero_iff.mp h.symm
    rfl
  | cons place places ih =>
    cases bytes with
    | nil => cases h
    | cons byte bytes =>
      have rest := ih (Nat.succ.inj h)
      have lengths : places.reverse.length = bytes.reverse.length := by
        rw [List.length_reverse, List.length_reverse]
        exact Nat.succ.inj h
      rw [List.reverse_cons, List.reverse_cons, gather_append lengths, rest, BitVec.or_comm, gather]
      congr 1
      exact BitVec.or_zero

theorem gather_setWidth {v : Nat} (h : w ≤ v) (places : List Nat) (bytes : List (BitVec 8)) :
    (gather v places bytes).setWidth w = gather w places bytes := by
  induction places generalizing bytes with
  | nil => exact BitVec.setWidth_zero w v
  | cons place places ih =>
    cases bytes with
    | nil => exact BitVec.setWidth_zero w v
    | cons byte bytes =>
      rw [gather, BitVec.setWidth_or, ih, BitVec.setWidth_shiftLeft_of_le h,
        BitVec.setWidth_setWidth_of_le _ h]
      rfl

/-- The bits of bytes that were put at the places `8 * k`, `8 * (k + 1)`, …. -/
theorem getLsbD_gather (k : Nat) (bytes : List (BitVec 8)) {i : Nat} (hi : i < w) :
    (gather w ((List.range' k bytes.length).map (8 * ·)) bytes).getLsbD i =
      ((bytes[i / 8 - k]?.getD 0).getLsbD (i % 8) && decide (k ≤ i / 8)) := by
  induction bytes generalizing k with
  | nil => simp [gather]
  | cons byte bytes ih =>
    rw [List.length_cons, List.range'_succ, List.map_cons, gather, BitVec.getLsbD_or, ih (k + 1),
      BitVec.getLsbD_shiftLeft, BitVec.getLsbD_setWidth]
    rcases Nat.lt_trichotomy (i / 8) k with below | here | above
    · have early : i < 8 * k := by omega
      have unseen : ¬k ≤ i / 8 := by omega
      have unseen' : ¬k + 1 ≤ i / 8 := by omega
      simp [early, unseen, unseen']
    · have late : ¬i < 8 * k := by omega
      have offset : i - 8 * k = i % 8 := by omega
      have inside : i % 8 < w := by omega
      have unseen : ¬k + 1 ≤ i / 8 := by omega
      have first : i / 8 - k = 0 := by omega
      have reached : k ≤ i / 8 := by omega
      rw [first, offset]
      simp [hi, late, inside, unseen, reached]
    · have beyond : 8 ≤ i - 8 * k := by omega
      have next : i / 8 - k = i / 8 - (k + 1) + 1 := by omega
      have reached : k ≤ i / 8 := by omega
      have reached' : k + 1 ≤ i / 8 := by omega
      rw [BitVec.getLsbD_of_ge byte _ beyond, next, List.getElem?_cons_succ]
      simp [reached, reached']

/-- The places of the bytes of a little-endian value. -/
def places (n : Nat) : List Nat := (List.range n).map (8 * ·)

theorem gather_littleEndian {n : Nat} (h : w = 8 * n) (x : BitVec w) :
    gather w (places n) (littleEndian n x) = x := by
  apply BitVec.eq_of_getLsbD_eq
  intro i hi
  have bits := getLsbD_gather 0 (littleEndian n x) hi
  rw [littleEndian_length, ← List.range_eq_range'] at bits
  have byte : (littleEndian n x)[i / 8]? = some (byteAt (i / 8) x) := by
    rw [littleEndian, List.getElem?_map, List.getElem?_range (by omega)]
    rfl
  have within : i % 8 < 8 := by omega
  have whole : 8 * (i / 8) + i % 8 = i := by omega
  unfold places
  rw [bits, Nat.sub_zero, byte, Option.getD_some, getLsbD_byteAt, whole]
  simp [within]

theorem gather_bigEndian {n : Nat} (h : w = 8 * n) (x : BitVec w) :
    gather w (places n).reverse (bigEndian n x) = x := by
  have lengths : (places n).length = (littleEndian n x).length := by
    rw [places, List.length_map, List.length_range, littleEndian_length]
  rw [bigEndian, gather_reverse lengths, gather_littleEndian h]

end Join

end ByteOrder
