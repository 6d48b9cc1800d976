import Hlib.StringDecimal

namespace Hlib

namespace StringTo

section Scans

variable {text : List Byte} {v : Int}

theorem strtoll_denotes (h : Denotes text v) :
    Hlib.strtoll text 10 =
      (max (-2 ^ 63) (min v (2 ^ 63 - 1)), text.length, decide (v < -2 ^ 63 ∨ 2 ^ 63 ≤ v)) := by
  obtain ⟨negative, n, scanned, rfl⟩ := numeral_of_denotes h
  rw [strtoll_some scanned]
  cases negative with
  | true =>
    simp only [if_true]
    by_cases fits : n ≤ 2 ^ 63
    · have kept : max (-2 ^ 63) (min (-(n : Int)) (2 ^ 63 - 1)) = -n := by omega
      rw [if_pos fits, kept, decide_eq_false (by omega)]
    · have clamped : max (-2 ^ 63) (min (-(n : Int)) (2 ^ 63 - 1)) = -2 ^ 63 := by omega
      rw [if_neg fits, clamped, decide_eq_true (by omega)]
  | false =>
    simp only [Bool.false_eq_true, if_false]
    by_cases fits : n ≤ 2 ^ 63 - 1
    · have kept : max (-2 ^ 63) (min (n : Int) (2 ^ 63 - 1)) = n := by omega
      rw [if_pos fits, kept, decide_eq_false (by omega)]
    · have clamped : max (-2 ^ 63) (min (n : Int) (2 ^ 63 - 1)) = 2 ^ 63 - 1 := by omega
      rw [if_neg fits, clamped, decide_eq_true (by omega)]

theorem strtoull_denotes (h : Denotes text v) :
    Hlib.strtoull text 10 =
      (if 2 ^ 64 ≤ v.natAbs then 2 ^ 64 - 1 else (v % 2 ^ 64).toNat, text.length,
        decide (2 ^ 64 ≤ v.natAbs)) := by
  obtain ⟨negative, n, scanned, rfl⟩ := numeral_of_denotes h
  rw [strtoull_some scanned]
  cases negative with
  | true =>
    simp only [if_true, Int.natAbs_neg, Int.natAbs_natCast]
    by_cases large : 2 ^ 64 ≤ n
    · rw [if_pos large, if_pos (by omega), decide_eq_true large, decide_eq_true (by omega)]
    · have negated : (2 ^ 64 - n) % 2 ^ 64 = (-(n : Int) % 2 ^ 64).toNat := by omega
      rw [if_neg large, if_neg (by omega), negated, decide_eq_false large, decide_eq_false (by omega)]
  | false =>
    simp only [Bool.false_eq_true, if_false, Int.natAbs_natCast]
    by_cases large : 2 ^ 64 ≤ n
    · rw [if_pos large, if_pos (by omega), decide_eq_true large, decide_eq_true (by omega)]
    · have kept : ((n : Int) % 2 ^ 64).toNat = n := by omega
      rw [if_neg large, if_neg (by omega), kept, decide_eq_false large, decide_eq_false (by omega)]

theorem strtoll_complete (unspaced : Unspaced text) (given : text ≠ [])
    (h : (Hlib.strtoll text 10).2.1 = text.length) : ∃ v, Denotes text v := by
  cases scanned : numeral text 10 with
  | none =>
    rw [strtoll_none scanned] at h
    exact absurd (List.length_eq_zero_iff.mp h.symm) given
  | some result =>
    obtain ⟨negative, n, pos⟩ := result
    have stop : pos = text.length := by
      rw [strtoll_some scanned] at h
      rw [← h]
      cases negative with
      | true => simp only [if_true]; split <;> rfl
      | false => simp only [Bool.false_eq_true, if_false]; split <;> rfl
    rw [stop] at scanned
    exact ⟨_, denotes_of_numeral unspaced scanned⟩

theorem strtoull_complete (unspaced : Unspaced text) (given : text ≠ [])
    (h : (Hlib.strtoull text 10).2.1 = text.length) : ∃ v, Denotes text v := by
  cases scanned : numeral text 10 with
  | none =>
    rw [strtoull_none scanned] at h
    exact absurd (List.length_eq_zero_iff.mp h.symm) given
  | some result =>
    obtain ⟨negative, n, pos⟩ := result
    rw [strtoull_some scanned] at h
    have stop : pos = text.length := h
    rw [stop] at scanned
    exact ⟨_, denotes_of_numeral unspaced scanned⟩

end Scans

section Conversions

variable {ν : Type} {scan : List Byte → Nat → ν × Nat × Bool} {zero : ν} {resets : Bool}
  {refuses : ν → Errno → Bool} {text : List Byte} {v : Int} {errno : Errno}

theorem convert_denotes (h : Denotes text v) {r : ν} {range : Bool}
    (scanned : scan text 10 = (r, text.length, range)) :
    (convert (Libc.scanner zero scan) resets refuses text 10 errno).1 =
      if refuses r (if range then ERANGE else if resets then 0 else errno) then none else some r := by
  rw [convert_text h.given h.unspaced h.inside, Libc.scanner_ten, scanned]
  have complete : ¬Incomplete (⟨r, some text.length, if range then some ERANGE else none⟩ : Scan ν) text :=
    not_not.mpr rfl
  rw [if_congr (or_iff_right complete) rfl rfl]
  cases range with
  | true => rfl
  | false => rfl

/-- A text that is not scanned to its end is refused. -/
theorem convert_other (h : ¬∃ v, Denotes text v) (inside : 0 ∉ text)
    (complete : Unspaced text → text ≠ [] → (scan text 10).2.1 = text.length → ∃ v, Denotes text v) :
    (convert (Libc.scanner zero scan) resets refuses text 10 errno).1 = none := by
  by_cases given : text = []
  · rw [given]
    rfl
  · by_cases unspaced : Unspaced text
    · rw [convert_text given unspaced inside, if_pos]
      left
      rw [Libc.scanner_ten]
      intro stop
      exact h (complete unspaced given (Option.some.inj stop))
    · exact convert_spaced unspaced

theorem accepts_iff {r v : ν} {refused range : Prop} [Decidable refused] [Decidable range]
    (same : range → r = v) (agree : refused ↔ ¬range) :
    (if refused then none else some r) = if range then some v else none := by
  by_cases inside : range
  · rw [if_neg fun bad => agree.mp bad inside, if_pos inside, same inside]
  · rw [if_pos (agree.mpr inside), if_neg inside]

end Conversions

section Signed

variable {text : List Byte} {v : Int} {width : Width} {errno : Errno}

/-- The values of a signed type. -/
def SignedRange (width : Width) (v : Int) : Prop := -2 ^ (width.bits - 1) ≤ v ∧ v < 2 ^ (width.bits - 1)

instance (width : Width) (v : Int) : Decidable (SignedRange width v) := inferInstanceAs (Decidable (_ ∧ _))

theorem signed_denotes (h : Denotes text v) (width : Width) (errno : Errno) :
    (signed Libc.strtol Libc.strtoll width text 10 errno).1 = if SignedRange width v then some v else none := by
  have scanned := strtoll_denotes h
  unfold SignedRange
  cases width with
  | one =>
    refine (convert_denotes h scanned).trans (accepts_iff ?_ ?_)
    · simp only [Width.bits]
      omega
    · simp only [Width.bits, decide_eq_true_eq]
      omega
  | two =>
    refine (convert_denotes h scanned).trans (accepts_iff ?_ ?_)
    · simp only [Width.bits]
      omega
    · simp only [Width.bits, decide_eq_true_eq]
      omega
  | four =>
    refine (convert_denotes h scanned).trans (accepts_iff ?_ ?_)
    · simp only [Width.bits]
      omega
    · simp only [Width.bits, decide_eq_true_eq]
      omega
  | eight =>
    refine (convert_denotes h scanned).trans (accepts_iff ?_ ?_)
    · simp only [Width.bits]
      omega
    · simp only [Width.bits, decide_eq_true_eq]
      by_cases range : v < -2 ^ 63 ∨ 2 ^ 63 ≤ v
      · simp only [if_pos range, and_true]
        omega
      · have reset : ERANGE ≠ 0 := by decide
        simp only [if_neg range, if_true, reset, and_false, false_iff, not_not]
        omega

theorem signed_convert (width : Width) : ∃ resets refuses,
    signed Libc.strtol Libc.strtoll width = convert (Libc.scanner 0 Hlib.strtoll) resets refuses := by
  unfold signed stoi8 stoi16 stoi32 stoi64 Libc.strtol Libc.strtoll
  cases width with
  | _ => exact ⟨_, _, rfl⟩

theorem signed_other (h : ¬∃ v, Denotes text v) (inside : 0 ∉ text) (width : Width) (errno : Errno) :
    (signed Libc.strtol Libc.strtoll width text 10 errno).1 = none := by
  obtain ⟨resets, refuses, same⟩ := signed_convert width
  rw [same]
  exact convert_other h inside strtoll_complete

theorem signed_cString (given : cString text ≠ []) (width : Width) (errno : Errno) :
    signed Libc.strtol Libc.strtoll width text 10 errno =
      signed Libc.strtol Libc.strtoll width (cString text) 10 errno := by
  obtain ⟨resets, refuses, same⟩ := signed_convert width
  rw [same]
  exact convert_cString given

theorem signed_zero (given : text ≠ []) (empty : cString text = []) (width : Width) (errno : Errno) :
    (signed Libc.strtol Libc.strtoll width text 10 errno).1 = some 0 := by
  cases width with
  | one => exact convert_zero given empty rfl rfl
  | two => exact convert_zero given empty rfl rfl
  | four => exact convert_zero given empty rfl rfl
  | eight => exact convert_zero given empty rfl rfl

/-- What a string without zeros is converted to. -/
theorem signed_some_iff (inside : 0 ∉ text) (width : Width) (errno : Errno) (v : Int) :
    (signed Libc.strtol Libc.strtoll width text 10 errno).1 = some v ↔ Denotes text v ∧ SignedRange width v := by
  by_cases denotes : ∃ v, Denotes text v
  · obtain ⟨v', h⟩ := denotes
    rw [signed_denotes h]
    constructor
    · intro converted
      split at converted
      next range =>
        cases converted
        exact ⟨h, range⟩
      next => cases converted
    · rintro ⟨h', range⟩
      rw [h.unique h', if_pos range]
  · refine iff_of_false ?_ fun h => denotes ⟨v, h.1⟩
    rw [signed_other denotes inside]
    nofun

/-- Exactly the decimal integers in range are converted, if the string holds no zero, or what stands in front of
its first zero is there but not such an integer. -/
theorem signed_exact_iff (width : Width) (text : List Byte) (errno : Errno) :
    (∀ v, (signed Libc.strtol Libc.strtoll width text 10 errno).1 = some v ↔
        Denotes text v ∧ SignedRange width v) ↔
      0 ∉ text ∨ cString text ≠ [] ∧ ∀ v, Denotes (cString text) v → ¬SignedRange width v := by
  by_cases inside : 0 ∈ text
  · have other (v : Int) : ¬(Denotes text v ∧ SignedRange width v) := fun h => h.1.inside inside
    rw [or_iff_right (not_not.mpr inside)]
    constructor
    · intro exactly
      have refused (v : Int) : (signed Libc.strtol Libc.strtoll width text 10 errno).1 ≠ some v :=
        fun converted => other v ((exactly v).mp converted)
      have given : cString text ≠ [] :=
        fun empty => refused 0 (signed_zero (List.ne_nil_of_mem inside) empty width errno)
      refine ⟨given, fun v h range => refused v ?_⟩
      rw [signed_cString given]
      exact (signed_some_iff (zero_not_mem_cString text) width errno v).mpr ⟨h, range⟩
    · rintro ⟨given, front⟩ v
      refine iff_of_false (fun converted => ?_) (other v)
      rw [signed_cString given] at converted
      obtain ⟨h, range⟩ := (signed_some_iff (zero_not_mem_cString text) width errno v).mp converted
      exact front v h range
  · exact iff_of_true (signed_some_iff inside width errno) (Or.inl inside)

/-- The string of one zero is converted to 0. -/
theorem embedded_zero :
    ¬∀ (width : Width) (text : List Byte) (errno : Errno) (v : Int),
      (signed Libc.strtol Libc.strtoll width text 10 errno).1 = some v ↔
        Denotes text v ∧ SignedRange width v := by
  intro h
  have converted := ((h .one [0] 0 0).mp rfl).1
  exact converted.inside (List.mem_singleton_self 0)

end Signed

section Unsigned

variable {text : List Byte} {v : Int}

/-- A negative number is negated modulo 2 ^ 64 before it is compared with the bounds of the type. -/
theorem unsigned_denotes (h : Denotes text v) (width : Width) (errno : Errno) :
    (unsigned Libc.strtoul Libc.strtoull width text 10 errno).1 =
      if v.natAbs < 2 ^ 64 ∧ v % 2 ^ 64 < 2 ^ width.bits then some (v % 2 ^ 64).toNat else none := by
  have scanned := strtoull_denotes h
  have reset : ERANGE ≠ 0 := by decide
  by_cases large : 2 ^ 64 ≤ v.natAbs
  · rw [if_pos large, decide_eq_true large] at scanned
    rw [if_neg (fun range => by omega)]
    cases width with
    | one => exact (convert_denotes h scanned).trans (if_pos rfl)
    | two => exact (convert_denotes h scanned).trans (if_pos rfl)
    | four => exact (convert_denotes h scanned).trans (if_pos rfl)
    | eight => exact (convert_denotes h scanned).trans (if_pos rfl)
  · rw [if_neg large, decide_eq_false large] at scanned
    cases width with
    | one =>
      refine (convert_denotes h scanned).trans (accepts_iff (fun _ => rfl) ?_)
      simp only [Width.bits, decide_eq_true_eq]
      omega
    | two =>
      refine (convert_denotes h scanned).trans (accepts_iff (fun _ => rfl) ?_)
      simp only [Width.bits, decide_eq_true_eq]
      omega
    | four =>
      refine (convert_denotes h scanned).trans (accepts_iff (fun _ => rfl) ?_)
      simp only [Width.bits, decide_eq_true_eq, Bool.false_eq_true, if_false, if_true, reset, and_false, or_false]
      omega
    | eight =>
      refine (convert_denotes h scanned).trans (accepts_iff (fun _ => rfl) ?_)
      simp only [Width.bits, decide_eq_true_eq, Bool.false_eq_true, if_false, if_true, reset, and_false,
        false_iff, not_not]
      omega

theorem unsigned_convert (width : Width) : ∃ resets refuses,
    unsigned Libc.strtoul Libc.strtoull width = convert (Libc.scanner 0 Hlib.strtoull) resets refuses := by
  unfold unsigned stoui8 stoui16 stoui32 stoui64 Libc.strtoul Libc.strtoull
  cases width with
  | _ => exact ⟨_, _, rfl⟩

theorem unsigned_other (h : ¬∃ v, Denotes text v) (inside : 0 ∉ text) (width : Width) (errno : Errno) :
    (unsigned Libc.strtoul Libc.strtoull width text 10 errno).1 = none := by
  obtain ⟨resets, refuses, same⟩ := unsigned_convert width
  rw [same]
  exact convert_other h inside strtoull_complete

/-- Of the strings without zeros, those are converted wrongly that stand for a negative number with a negation
modulo 2 ^ 64 in the range of the type. -/
theorem unsigned_exact_iff (width : Width) {text : List Byte} (inside : 0 ∉ text) (errno : Errno) :
    (∀ r : Nat, (unsigned Libc.strtoul Libc.strtoull width text 10 errno).1 = some r ↔
        Denotes text r ∧ r < 2 ^ width.bits) ↔
      ¬∃ v, Denotes text v ∧ -2 ^ 64 < v ∧ v < 0 ∧ v + 2 ^ 64 < 2 ^ width.bits := by
  by_cases denotes : ∃ v, Denotes text v
  · obtain ⟨v, h⟩ := denotes
    rw [unsigned_denotes h]
    have bound : (2 : Nat) ^ width.bits ≤ 2 ^ 64 := by
      cases width with
      | _ => decide
    have cast : ((2 ^ width.bits : Nat) : Int) = 2 ^ width.bits := Nat.cast_pow 2 width.bits
    constructor
    · rintro exactly ⟨v', h', low, negative, fits⟩
      cases h.unique h'
      have wrapped : v % 2 ^ 64 = v + 2 ^ 64 := by omega
      have converted := (exactly (v + 2 ^ 64).toNat).mp (by rw [wrapped, if_pos ⟨by omega, fits⟩])
      have same := h.unique converted.1
      omega
    · intro positive r
      constructor
      · intro converted
        split at converted
        next range =>
          obtain rfl : (v % 2 ^ 64).toNat = r := Option.some.inj converted
          have nonnegative : 0 ≤ v := by
            by_contra negative
            exact positive ⟨v, h, by omega, by omega, by omega⟩
          have kept : ((v % 2 ^ 64).toNat : Int) = v := by omega
          refine ⟨by rwa [kept], ?_⟩
          omega
        next => cases converted
      · rintro ⟨h', fits⟩
        cases h.unique h'
        have kept : (r : Int) % 2 ^ 64 = r := by omega
        rw [kept, if_pos ⟨by omega, by omega⟩]
        rfl
  · refine iff_of_true (fun r => ?_) fun ⟨v, h, _⟩ => denotes ⟨v, h⟩
    rw [unsigned_other denotes inside]
    exact iff_of_false nofun fun h => denotes ⟨r, h.1⟩

/-- `stoui64("7", 10, std::nothrow)`. -/
theorem unsigned_exact_iff_digit :
    (unsigned Libc.strtoul Libc.strtoull .eight [ascii '7'] 10 0).1 = some 7 ↔
      Denotes [ascii '7'] (7 : Nat) ∧ 7 < 2 ^ 64 := by
  have inside : 0 ∉ [ascii '7'] := by decide
  refine (unsigned_exact_iff .eight inside 0).mpr ?_ 7
  rintro ⟨v, h, _, negative, _⟩
  have seven : Denotes [ascii '7'] 7 := .plain ⟨List.cons_ne_nil _ _, by decide⟩
  cases h.unique seven
  cases negative

/-- `stoui64("-1", 10, std::nothrow)` is the greatest value of its type. -/
theorem negative_wraps :
    ¬∀ (width : Width) (text : List Byte) (errno : Errno), 0 ∉ text →
      ∀ r : Nat, (unsigned Libc.strtoul Libc.strtoull width text 10 errno).1 = some r ↔
        Denotes text r ∧ r < 2 ^ width.bits := by
  intro h
  have minus_one : Denotes [ascii '-', ascii '1'] (-1) := .minus ⟨List.cons_ne_nil _ _, by decide⟩
  have converted := ((h .eight [ascii '-', ascii '1'] 0 (by decide) (2 ^ 64 - 1)).mp (by decide)).1
  cases minus_one.unique converted

end Unsigned

end StringTo

end Hlib
