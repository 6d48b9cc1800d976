import Mathlib.Data.List.Basic
import Mathlib.Algebra.Order.Ring.Int

namespace Base64Codec

abbrev Octet := BitVec 8

/-- The 64 digits of the standard alphabet, in the order of their values. -/
def alphabet : List Octet :=
  ['A', 'B', 'C', 'D', 'E', 'F', 'G', 'H', 'I', 'J', 'K', 'L', 'M', 'N', 'O', 'P',
   'Q', 'R', 'S', 'T', 'U', 'V', 'W', 'X', 'Y', 'Z', 'a', 'b', 'c', 'd', 'e', 'f',
   'g', 'h', 'i', 'j', 'k', 'l', 'm', 'n', 'o', 'p', 'q', 'r', 's', 't', 'u', 'v',
   'w', 'x', 'y', 'z', '0', '1', '2', '3', '4', '5', '6', '7', '8', '9', '+', '/'].map
    fun c => BitVec.ofNat 8 c.toNat

def pad : Octet := BitVec.ofNat 8 '='.toNat

def digit (sextet : Octet) : Octet := alphabet.getD sextet.toNat 0

/-! The four sextets of a group of three octets. -/

def first (a : Octet) : Octet := (a &&& 0xfc#8) >>> 2

def second (a b : Octet) : Octet := (a &&& 0x03#8) <<< 4 ||| (b &&& 0xf0#8) >>> 4

def third (b c : Octet) : Octet := (b &&& 0x0f#8) <<< 2 ||| (c &&& 0xc0#8) >>> 6

def fourth (c : Octet) : Octet := c &&& 0x3f#8

/-! The octets that four sextets stand for. -/

def joinFirst (s t : Octet) : Octet := s <<< 2 ||| (t &&& 0x30#8) >>> 4

def joinSecond (t u : Octet) : Octet := (t &&& 0x0f#8) <<< 4 ||| (u &&& 0x3c#8) >>> 2

def joinThird (u v : Octet) : Octet := (u &&& 0x03#8) <<< 6 ||| v

/-- The padded encoding, three octets at a time. -/
def encode : List Octet → List Octet
  | a :: b :: c :: rest =>
    digit (first a) :: digit (second a b) :: digit (third b c) :: digit (fourth c) :: encode rest
  | [a, b] => [digit (first a), digit (second a b), digit (third b 0), pad]
  | [a] => [digit (first a), digit (second a 0), pad, pad]
  | [] => []

theorem encode_length (xs : List Octet) : (encode xs).length = 4 * ((xs.length + 2) / 3) := by
  induction xs using encode.induct with
  | case1 a b c rest ih =>
    simp only [encode, List.length_cons, ih]
    omega
  | case2 => simp [encode]
  | case3 => simp [encode]
  | case4 => rfl

theorem encode_ne_nil {xs : List Octet} (h : xs ≠ []) : encode xs ≠ [] := by
  intro he
  have hl := encode_length xs
  have := List.length_pos_iff.mpr h
  rw [he, List.length_nil] at hl
  omega

theorem octet_ext {a b : Octet} (h0 : a.getLsbD 0 = b.getLsbD 0) (h1 : a.getLsbD 1 = b.getLsbD 1)
    (h2 : a.getLsbD 2 = b.getLsbD 2) (h3 : a.getLsbD 3 = b.getLsbD 3) (h4 : a.getLsbD 4 = b.getLsbD 4)
    (h5 : a.getLsbD 5 = b.getLsbD 5) (h6 : a.getLsbD 6 = b.getLsbD 6) (h7 : a.getLsbD 7 = b.getLsbD 7) :
    a = b := by
  refine BitVec.eq_of_getLsbD_eq fun i hi => ?_
  rcases (show i = 0 ∨ i = 1 ∨ i = 2 ∨ i = 3 ∨ i = 4 ∨ i = 5 ∨ i = 6 ∨ i = 7 by omega) with
    rfl | rfl | rfl | rfl | rfl | rfl | rfl | rfl <;> assumption

theorem joinFirst_sextets (a b : Octet) : joinFirst (first a) (second a b) = a := by
  apply octet_ext <;> simp [joinFirst, first, second]

theorem joinSecond_sextets (a b c : Octet) : joinSecond (second a b) (third b c) = b := by
  apply octet_ext <;> simp [joinSecond, second, third]

theorem joinThird_sextets (b c : Octet) : joinThird (third b c) (fourth c) = c := by
  apply octet_ext <;> simp [joinThird, third, fourth]

theorem first_lt : ∀ a : Octet, (first a).toNat < 64 := by decide

theorem fourth_lt : ∀ c : Octet, (fourth c).toNat < 64 := by decide

theorem second_lt (a b : Octet) : (second a b).toNat < 64 := by
  have high : ∀ a : Octet, ((a &&& 0x03#8) <<< 4).toNat < 2 ^ 6 := by decide
  have low : ∀ b : Octet, ((b &&& 0xf0#8) >>> 4).toNat < 2 ^ 6 := by decide
  rw [second, BitVec.toNat_or]
  exact Nat.or_lt_two_pow (high a) (low b)

theorem third_lt (b c : Octet) : (third b c).toNat < 64 := by
  have high : ∀ b : Octet, ((b &&& 0x0f#8) <<< 2).toNat < 2 ^ 6 := by decide
  have low : ∀ c : Octet, ((c &&& 0xc0#8) >>> 6).toNat < 2 ^ 6 := by decide
  rw [third, BitVec.toNat_or]
  exact Nat.or_lt_two_pow (high b) (low c)

theorem sextet_cases {P : Octet → Prop} {t : Octet} (ht : t.toNat < 64)
    (h : ∀ i : Fin 64, P (BitVec.ofNat 8 i.val)) : P t := by
  have := h ⟨t.toNat, ht⟩
  rwa [BitVec.ofNat_toNat, BitVec.setWidth_eq] at this

theorem digit_ne_pad {t : Octet} (ht : t.toNat < 64) : digit t ≠ pad :=
  sextet_cases (P := fun t => digit t ≠ pad) ht (by decide)

end Base64Codec
