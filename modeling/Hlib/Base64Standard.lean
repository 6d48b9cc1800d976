import Hlib.Base64Codec

namespace Base64Codec

/-- The bits of the octets one after another, from left to right. -/
def bits (xs : List Octet) : List Bool := xs.flatMap fun x => (List.range 8).map x.getMsbD

/-- Groups of six bits, the last one filled up with zero bits. -/
def sixes : List Bool → List (List Bool)
  | b₀ :: b₁ :: b₂ :: b₃ :: b₄ :: b₅ :: rest => [b₀, b₁, b₂, b₃, b₄, b₅] :: sixes rest
  | [] => []
  | few => [few ++ List.replicate (6 - few.length) false]

/-- The number that bits stand for, the first bit being the highest. -/
def number (group : List Bool) : Octet := BitVec.ofNat 8 (group.foldl (fun n b => 2 * n + b.toNat) 0)

def digits (xs : List Octet) : List Octet := (sixes (bits xs)).map fun group => digit (number group)

/-- Base64 as the standard has it: the input is one string of bits, every six of them give a character
of the alphabet, and `=` fills the last quantum of four characters up. -/
def standard (xs : List Octet) : List Octet :=
  digits xs ++ List.replicate ((4 - (digits xs).length % 4) % 4) pad

theorem number_bits : ∀ b₀ b₁ b₂ b₃ b₄ b₅ : Bool,
    let t := number [b₀, b₁, b₂, b₃, b₄, b₅]
    t[7] = false ∧ t[6] = false ∧ t[5] = b₀ ∧ t[4] = b₁ ∧ t[3] = b₂ ∧ t[2] = b₃ ∧ t[1] = b₄ ∧ t[0] = b₅ := by
  decide

theorem number_eq {t : Octet} {b₀ b₁ b₂ b₃ b₄ b₅ : Bool} (h7 : t[7] = false) (h6 : t[6] = false)
    (h5 : t[5] = b₀) (h4 : t[4] = b₁) (h3 : t[3] = b₂) (h2 : t[2] = b₃) (h1 : t[1] = b₄) (h0 : t[0] = b₅) :
    number [b₀, b₁, b₂, b₃, b₄, b₅] = t := by
  obtain ⟨g7, g6, g5, g4, g3, g2, g1, g0⟩ := number_bits b₀ b₁ b₂ b₃ b₄ b₅
  apply octet_ext
  · exact g0.trans h0.symm
  · exact g1.trans h1.symm
  · exact g2.trans h2.symm
  · exact g3.trans h3.symm
  · exact g4.trans h4.symm
  · exact g5.trans h5.symm
  · exact g6.trans h6.symm
  · exact g7.trans h7.symm

theorem bits_cons (x : Octet) (xs : List Octet) :
    bits (x :: xs) = x[7] :: x[6] :: x[5] :: x[4] :: x[3] :: x[2] :: x[1] :: x[0] :: bits xs := by
  simp [bits, List.range_succ, BitVec.getMsbD]

theorem number_first (a : Octet) : number [a[7], a[6], a[5], a[4], a[3], a[2]] = first a := by
  apply number_eq <;> simp [first]

theorem number_second (a b : Octet) : number [a[1], a[0], b[7], b[6], b[5], b[4]] = second a b := by
  apply number_eq <;> simp [second]

theorem number_third (b d : Octet) : number [b[3], b[2], b[1], b[0], d[7], d[6]] = third b d := by
  apply number_eq <;> simp [third]

theorem number_fourth (d : Octet) : number [d[5], d[4], d[3], d[2], d[1], d[0]] = fourth d := by
  apply number_eq <;> simp [fourth]

theorem digits_group (a b c : Octet) (rest : List Octet) :
    digits (a :: b :: c :: rest) =
      digit (first a) :: digit (second a b) :: digit (third b c) :: digit (fourth c) :: digits rest := by
  simp only [digits, bits_cons, sixes, List.map_cons, number_first, number_second, number_third, number_fourth]

theorem digits_two (a b : Octet) :
    digits [a, b] = [digit (first a), digit (second a b), digit (third b 0)] := by
  have last : number [b[3], b[2], b[1], b[0], false, false] = third b 0 := number_third b 0
  have whole := bits_cons a [b]
  rw [bits_cons b []] at whole
  rw [digits, whole]
  simp [bits, sixes, number_first, number_second, last]

theorem digits_one (a : Octet) : digits [a] = [digit (first a), digit (second a 0)] := by
  have last : number [a[1], a[0], false, false, false, false] = second a 0 := number_second a 0
  rw [digits, bits_cons]
  simp [bits, sixes, number_first, last]

/-- The groups of three octets at a time give what the string of bits gives. -/
theorem encode_standard (xs : List Octet) : encode xs = standard xs := by
  induction xs using encode.induct with
  | case1 a b c rest ih =>
    have shift : ((digits rest).length + 4) % 4 = (digits rest).length % 4 := Nat.add_mod_right _ _
    simp only [standard] at ih ⊢
    simp only [encode, ih, digits_group, List.length_cons, List.cons_append]
    rw [shift]
  | case2 a b =>
    rw [standard, digits_two]
    rfl
  | case3 a =>
    rw [standard, digits_one]
    rfl
  | case4 => rfl

end Base64Codec
