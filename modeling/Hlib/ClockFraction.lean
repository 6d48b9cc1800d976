import Hlib.ClockOffset

namespace Hlib

namespace Clock

/-- The three characters behind the point, if they are digits, and what follows them. -/
def threeDigits : List Byte → Option (Int × List Byte)
  | a :: b :: c :: rest =>
    if isDigit a ∧ isDigit b ∧ isDigit c then
      some (100 * digitOf a + 10 * digitOf b + digitOf c, rest)
    else none
  | _ => none

/-- The string is rejected, or has exactly three digits behind its point, which give the nanoseconds; in
either case it is not read beyond its end. -/
def StrictFraction (text : List Byte) : Prop :=
  ∃ outcome, toClock text = .ok outcome ∧ ∀ clock ∈ outcome, ∃ r tm m rest,
    strptime (text ++ [0]) stampFormat {} = some (ascii '.' :: r, tm) ∧ threeDigits r = some (m, rest) ∧
      (∀ d ∈ rest.head?, isDigit d = false) ∧ clock.tvNsec = m * 1000000 ∧ 0 ≤ clock.tvNsec ∧
      clock.tvNsec < 1000000000

/-- The zone of a timestamp, and nothing behind it. -/
def ZoneEnds (rp : List Byte) : Prop := ∃ gmtoff rest, getZone rp = some (gmtoff, rest) ∧ rest.head? = some 0

/-- Where a number is scanned behind the point, three characters follow the point, and they are digits or
no zone ends the string behind them. -/
def FractionGuarded (text : List Byte) : Prop :=
  ∀ r tm, strptime (text ++ [0]) stampFormat {} = some (ascii '.' :: r, tm) →
    sscanfMilliseconds (ascii '.' :: r) ≠ none →
      3 < r.length ∧ (threeDigits r ≠ none ∨ ¬ZoneEnds (r.drop 3))

theorem threeDigits_some {r rest : List Byte} {m : Int} (h : threeDigits r = some (m, rest)) :
    ∃ a b c, r = a :: b :: c :: rest ∧ isDigit a = true ∧ isDigit b = true ∧ isDigit c = true ∧
      m = 100 * digitOf a + 10 * digitOf b + digitOf c := by
  unfold threeDigits at h
  split at h
  next a b c rest' =>
    split at h
    next digits =>
      cases h
      exact ⟨a, b, c, rfl, digits.1, digits.2.1, digits.2.2, rfl⟩
    next => cases h
  next => cases h

theorem digitOf_bounds {c : Byte} (h : isDigit c = true) : 0 ≤ digitOf c ∧ digitOf c ≤ 9 := by
  have := digit_toNat h
  unfold digitOf
  omega

theorem sscanfMilliseconds_three {r rest : List Byte} {m : Int} (h : threeDigits r = some (m, rest)) :
    sscanfMilliseconds (ascii '.' :: r) = some m ∧ 0 ≤ m ∧ m ≤ 999 := by
  obtain ⟨a, b, c, rfl, ha, hb, hc, rfl⟩ := threeDigits_some h
  have := digitOf_bounds ha
  have := digitOf_bounds hb
  have := digitOf_bounds hc
  refine ⟨?_, by omega, by omega⟩
  have unspaced : (a :: b :: c :: rest).dropWhile isSpace = a :: b :: c :: rest :=
    List.dropWhile_cons_of_neg (isSpace_digit ha)
  have taken : ((a :: b :: c :: rest).take 3).takeWhile isDigit = [a, b, c] := by
    show [a, b, c].takeWhile isDigit = _
    rw [List.takeWhile_eq_self_iff]
    simp [ha, hb, hc]
  unfold sscanfMilliseconds
  simp only [if_true, unspaced, signOf_digit ha, Nat.sub_self, Nat.sub_zero, taken]
  rw [if_neg (List.cons_ne_nil _ _)]
  simp only [List.foldl_cons, List.foldl_nil, Bool.false_eq_true, if_false]
  congr 1
  omega

/-- Behind three digits, a fourth one is no zone. -/
theorem threeDigits_behind {r rest : List Byte} {m : Int} (digits : threeDigits r = some (m, rest))
    (ends : ZoneEnds (r.drop 3)) : ∀ d ∈ rest.head?, isDigit d = false := by
  obtain ⟨a, b, c, rfl, _⟩ := threeDigits_some digits
  obtain ⟨gmtoff, rest', parsed, _⟩ := ends
  change getZone rest = _ at parsed
  intro d hd
  cases rest with
  | nil => cases hd
  | cons d' rest =>
    cases hd
    by_contra digit
    rw [getZone_digit (by simpa using digit)] at parsed
    cases parsed

section Branch

variable {text r : List Byte} {tm : Tm} {milliseconds : Int}

theorem toClock_zoned (letter : ascii 'T' ∈ text) (dot : ascii '.' ∈ text)
    (read : strptime (text ++ [0]) stampFormat {} = some (ascii '.' :: r, tm))
    (scanned : sscanfMilliseconds (ascii '.' :: r) = some milliseconds) (room : 3 < r.length) :
    (ZoneEnds (r.drop 3) → toClock text = .ok (some ⟨timegm tm, milliseconds * 1000000⟩)) ∧
      (¬ZoneEnds (r.drop 3) → toClock text = .ok none) := by
  rw [toClock_scanned letter dot read scanned, require_of room, ok_bind, strptime_zone_eq]
  constructor
  · rintro ⟨gmtoff, rest, parsed, ended⟩
    rw [parsed]
    exact if_neg fun other => other ended
  · intro open_
    cases parsed : getZone (r.drop 3) with
    | none => rfl
    | some result =>
      obtain ⟨gmtoff, rest⟩ := result
      exact if_pos fun ended => open_ ⟨gmtoff, rest, parsed, ended⟩

theorem toClock_short (letter : ascii 'T' ∈ text) (dot : ascii '.' ∈ text)
    (read : strptime (text ++ [0]) stampFormat {} = some (ascii '.' :: r, tm))
    (scanned : sscanfMilliseconds (ascii '.' :: r) = some milliseconds) (short : ¬3 < r.length) :
    toClock text = .error .outOfBounds := by
  have refused : require (3 < r.length) .outOfBounds = .error .outOfBounds := if_neg short
  rw [toClock_scanned letter dot read scanned, refused]
  rfl

end Branch

/-- A fraction is read strictly where the scanner and the fixed skip agree. -/
theorem strictFraction_iff {text : List Byte} (letter : ascii 'T' ∈ text) (dot : ascii '.' ∈ text) :
    StrictFraction text ↔ FractionGuarded text := by
  constructor
  · rintro ⟨outcome, result, strict⟩ r tm read given
    obtain ⟨milliseconds, scanned⟩ := Option.ne_none_iff_exists'.mp given
    have room : 3 < r.length := by
      by_contra short
      rw [toClock_short letter dot read scanned short] at result
      cases result
    refine ⟨room, ?_⟩
    by_cases ends : ZoneEnds (r.drop 3)
    · left
      have accepted := (toClock_zoned letter dot read scanned room).1 ends
      rw [accepted] at result
      cases result
      obtain ⟨r', tm', m, rest, read', digits, _⟩ := strict _ rfl
      rw [read] at read'
      cases read'
      rw [digits]
      exact Option.some_ne_none _
    · exact .inr ends
  · intro guarded
    rcases toClock_scans letter dot with ⟨r, tm, milliseconds, read, scanned⟩ | rejected
    · obtain ⟨room, agree⟩ := guarded r tm read (by rw [scanned]; exact Option.some_ne_none _)
      obtain ⟨accepted, rejected⟩ := toClock_zoned letter dot read scanned room
      by_cases ends : ZoneEnds (r.drop 3)
      · refine ⟨_, accepted ends, ?_⟩
        rintro clock ⟨⟩
        obtain ⟨⟨m, rest⟩, digits⟩ := Option.ne_none_iff_exists'.mp (agree.resolve_right fun h => h ends)
        obtain ⟨value, low, high⟩ := sscanfMilliseconds_three digits
        rw [scanned] at value
        cases value
        refine ⟨r, tm, milliseconds, rest, read, digits, threeDigits_behind digits ends, rfl, ?_, ?_⟩
        · show 0 ≤ milliseconds * 1000000
          omega
        · show milliseconds * 1000000 < 1000000000
          omega
      · exact ⟨none, rejected ends, nofun⟩
    · exact ⟨none, rejected, nofun⟩

theorem strictFraction_iff_sample : StrictFraction (literal "2024-02-29T10:11:12.250Z") ↔
    FractionGuarded (literal "2024-02-29T10:11:12.250Z") :=
  strictFraction_iff (by decide) (by decide)

/-- One digit is enough to read beyond the end, and a sign passes for a digit. -/
theorem fraction_lenient : ¬StrictFraction (literal "2024-02-29T10:11:12.5Z") ∧
    ¬StrictFraction (literal "2024-02-29T10:11:12.-12Z") := by
  have short : toClock (literal "2024-02-29T10:11:12.5Z") = .error .outOfBounds := by decide +kernel
  have signed : toClock (literal "2024-02-29T10:11:12.-12Z") = .ok (some ⟨1709201472, -12000000⟩) := by
    decide +kernel
  constructor
  · rintro ⟨outcome, result, _⟩
    rw [short] at result
    cases result
  · rintro ⟨outcome, result, strict⟩
    rw [signed] at result
    cases result
    obtain ⟨_, _, _, _, _, _, _, _, low, _⟩ := strict _ rfl
    exact absurd low (by decide)

end Clock

end Hlib
