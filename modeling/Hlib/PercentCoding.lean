import Mathlib.Data.List.Basic

namespace PercentCoding

def percent : BitVec 8 := 0x25

/-- The digits of the base 16, in upper case. -/
def hexDigit (n : Nat) : BitVec 8 := BitVec.ofNat 8 (if n < 10 then 48 + n else 55 + n)

def UpperHex (c : BitVec 8) : Prop :=
  48 ≤ c.toNat ∧ c.toNat ≤ 57 ∨ 65 ≤ c.toNat ∧ c.toNat ≤ 70

/-- The value of a digit of the base 16, in either case. -/
def hexValue (c : BitVec 8) : Option Nat :=
  if 48 ≤ c.toNat ∧ c.toNat ≤ 57 then some (c.toNat - 48)
  else if 65 ≤ c.toNat ∧ c.toNat ≤ 70 then some (c.toNat - 55)
  else if 97 ≤ c.toNat ∧ c.toNat ≤ 102 then some (c.toNat - 87)
  else none

/-- The octets that a text stands for; `none` if a `%` is not followed by two digits. -/
def decode : List (BitVec 8) → Option (List (BitVec 8))
  | [] => some []
  | c :: text =>
    if c = percent then
      match text with
      | high :: low :: rest => do
        let high ← hexValue high
        let low ← hexValue low
        let octets ← decode rest
        some (BitVec.ofNat 8 (16 * high + low) :: octets)
      | _ => none
    else (decode text).map (c :: ·)

variable (unreserved : BitVec 8 → Bool)

/-- A text of unreserved characters and of triplets with digits in upper case. -/
inductive Encoded : List (BitVec 8) → Prop
  | nil : Encoded []
  | plain {c : BitVec 8} {text : List (BitVec 8)} (h : unreserved c = true) (rest : Encoded text) :
    Encoded (c :: text)
  | triplet {high low : BitVec 8} {text : List (BitVec 8)} (hh : UpperHex high) (hl : UpperHex low)
    (rest : Encoded text) : Encoded (percent :: high :: low :: text)

def encodeByte (c : BitVec 8) : List (BitVec 8) :=
  if unreserved c then [c] else [percent, hexDigit (c.toNat / 16), hexDigit (c.toNat % 16)]

def encode (octets : List (BitVec 8)) : List (BitVec 8) := octets.flatMap (encodeByte unreserved)

variable {unreserved}

theorem hexDigit_spec {n : Nat} (h : n < 16) : UpperHex (hexDigit n) ∧ hexValue (hexDigit n) = some n := by
  unfold hexDigit
  split
  next decimal =>
    have value : (BitVec.ofNat 8 (48 + n)).toNat = 48 + n := by
      rw [BitVec.toNat_ofNat]
      omega
    constructor
    · rw [UpperHex, value]
      omega
    · rw [hexValue, value, if_pos (by omega), Nat.add_sub_cancel_left]
  next letter =>
    have value : (BitVec.ofNat 8 (55 + n)).toNat = 55 + n := by
      rw [BitVec.toNat_ofNat]
      omega
    constructor
    · rw [UpperHex, value]
      omega
    · rw [hexValue, value, if_neg (by omega), if_pos (by omega), Nat.add_sub_cancel_left]

theorem encode_cons (c : BitVec 8) (octets : List (BitVec 8)) :
    encode unreserved (c :: octets) = encodeByte unreserved c ++ encode unreserved octets :=
  List.flatMap_cons

theorem encode_append (octets octets' : List (BitVec 8)) :
    encode unreserved (octets ++ octets') = encode unreserved octets ++ encode unreserved octets' :=
  List.flatMap_append

theorem encodeByte_plain {c : BitVec 8} (h : unreserved c = true) : encodeByte unreserved c = [c] := if_pos h

theorem encodeByte_triplet {c : BitVec 8} (h : unreserved c = false) :
    encodeByte unreserved c = [percent, hexDigit (c.toNat / 16), hexDigit (c.toNat % 16)] := by
  rw [encodeByte, h]
  rfl

theorem encoded_encode (octets : List (BitVec 8)) : Encoded unreserved (encode unreserved octets) := by
  induction octets with
  | nil => exact .nil
  | cons c octets ih =>
    rw [encode_cons]
    cases h : unreserved c with
    | true =>
      rw [encodeByte_plain h]
      exact .plain h ih
    | false =>
      have small := c.isLt
      rw [encodeByte_triplet h]
      exact .triplet (hexDigit_spec (by omega)).1 (hexDigit_spec (by omega)).1 ih

theorem decode_plain {c : BitVec 8} (h : c ≠ percent) (text : List (BitVec 8)) :
    decode (c :: text) = (decode text).map (c :: ·) := by
  rw [decode.eq_def]
  exact if_neg h

theorem decode_triplet (c : BitVec 8) (text : List (BitVec 8)) :
    decode (percent :: hexDigit (c.toNat / 16) :: hexDigit (c.toNat % 16) :: text) =
      (decode text).map (c :: ·) := by
  have small := c.isLt
  have high := (hexDigit_spec (by omega : c.toNat / 16 < 16)).2
  have low := (hexDigit_spec (by omega : c.toNat % 16 < 16)).2
  have whole : BitVec.ofNat 8 (16 * (c.toNat / 16) + c.toNat % 16) = c := by
    rw [Nat.div_add_mod, BitVec.ofNat_toNat, BitVec.setWidth_eq]
  rw [decode.eq_def]
  simp only [if_true, high, low, Option.bind_eq_bind, Option.bind_some, whole]
  cases decode text with
  | none => rfl
  | some octets => rfl

/-- A character that stands for itself must not be the one that begins a triplet. -/
theorem decode_encode (h : unreserved percent = false) (octets : List (BitVec 8)) :
    decode (encode unreserved octets) = some octets := by
  induction octets with
  | nil => rfl
  | cons c octets ih =>
    rw [encode_cons]
    cases hc : unreserved c with
    | true =>
      have other : c ≠ percent := by
        rintro rfl
        rw [h] at hc
        cases hc
      rw [encodeByte_plain hc, List.singleton_append, decode_plain other, ih, Option.map_some]
    | false =>
      rw [encodeByte_triplet hc]
      show decode (percent :: _ :: _ :: encode unreserved octets) = _
      rw [decode_triplet, ih, Option.map_some]

theorem encode_injective (h : unreserved percent = false) {octets octets' : List (BitVec 8)}
    (same : encode unreserved octets = encode unreserved octets') : octets = octets' := by
  have decoded := decode_encode h octets
  rw [same, decode_encode h] at decoded
  exact (Option.some.inj decoded).symm

end PercentCoding
