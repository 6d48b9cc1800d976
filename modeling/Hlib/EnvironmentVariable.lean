import Hlib.StringDecimal
import Hlib.RatioConversion

namespace Hlib

/-- The environment of the process, whose strings end at their first zero. -/
structure Environment where
  value : List Byte → Option (List Byte)
  terminated : ∀ name text, value name = some text → 0 ∉ text

namespace Environment

def getenv (environment : Environment) (name : List Byte) : Option (List Byte) := environment.value (cString name)

/-- `std::stoll`, and `std::stol` for a `long` of 64 bits; `none` stands for the exceptions. -/
def stoll (text : List Byte) : Option Int :=
  let (value, pos, range) := strtoll text 10
  if pos = 0 then none else if range then none else some value

/-- `std::stoull`. -/
def stoull (text : List Byte) : Option Int :=
  let (value, pos, range) := strtoull text 10
  if pos = 0 then none else if range then none else some value

/-- `get_env` with the conversion of its integral type. -/
def getEnvInteger (convert : List Byte → Option Int) (environment : Environment) (name : List Byte) (alt : Int) :
    Int :=
  match environment.getenv name with
  | none => alt
  | some value => (convert value).getD alt

/-- `get_env<std::int32_t>`, which returns the `long` of `std::stol`. -/
def getEnvInt32 : Environment → List Byte → Int → Int :=
  getEnvInteger fun value => (stoll value).map IntegralType.int.cast

/-- `get_env<std::int64_t>`. -/
def getEnvInt64 : Environment → List Byte → Int → Int := getEnvInteger stoll

/-- `get_env<std::size_t>`. -/
def getEnvSize : Environment → List Byte → Int → Int := getEnvInteger stoull

/-- `tolower` in the C locale. -/
def toLower (c : Byte) : Byte := if 65 ≤ c.toNat ∧ c.toNat ≤ 90 then c + 32 else c

/-- `0 == strcasecmp(s, t)`. -/
def sameIgnoringCase (s t : List Byte) : Bool := s.map toLower == t.map toLower

/-- `get_env<bool>`. -/
def getEnvBool (environment : Environment) (name : List Byte) (alt : Bool) : Bool :=
  match environment.getenv name with
  | none => alt
  | some value =>
    if literal "1" = value ∨ sameIgnoringCase (literal "true") value then true
    else if literal "0" = value ∨ sameIgnoringCase (literal "false") value then true
    else alt

/-- The result is the denoted value, or the alternative if there is none. -/
def Returns {α : Type} (result alt : α) (denoted : α → Prop) : Prop :=
  (∀ v, denoted v → result = v) ∧ ((∀ v, ¬denoted v) → result = alt)

/-- A decimal integer stands at the front of the text, behind white space and up to its last digit. -/
inductive Leads : List Byte → Int → Prop
  | intro {spaces front rest : List Byte} {v : Int} (blank : ∀ c ∈ spaces, isSpace c = true)
      (integer : Denotes front v) (last : ∀ c ∈ rest.head?, isDigit c = false) : Leads (spaces ++ (front ++ rest)) v

/-- The text says `true` or `false`. -/
def DenotesBool (text : List Byte) (v : Bool) : Prop :=
  match v with
  | true => text = literal "1" ∨ text.map toLower = literal "true"
  | false => text = literal "0" ∨ text.map toLower = literal "false"

/-- A number that the conversion accepts at the front of the text is the whole text and of the type, or reduced to
the type it is the alternative. -/
def Clean (text : List Byte) (alt : Int) (accepted : Int → Prop) (type : IntegralType) : Prop :=
  ∀ v, Leads text v → accepted v → Denotes text v ∧ type.Holds v ∨ type.cast v = alt

section Numerals

variable {text : List Byte} {v : Int}

theorem numeral_ten (text : List Byte) :
    let signed := signOf (text.dropWhile isSpace)
    let digits := signed.2.takeWhile isDigit
    numeral text 10 = if digits = [] then none
      else some (signed.1, number digits, text.length - signed.2.length + digits.length) := by
  unfold numeral
  simp only [basePrefix_ten, digits_takeWhile, List.map_eq_nil_iff, List.length_map, number_eq_foldl]

theorem leads_of_denotes (h : Denotes text v) : Leads text v := by
  have whole := @Leads.intro [] text [] v (List.forall_mem_nil _) h nofun
  rwa [List.nil_append, List.append_nil] at whole

/-- Digits end where the integer does. -/
theorem takeWhile_last {digits rest : List Byte} (decimal : Decimal digits)
    (last : ∀ c ∈ rest.head?, isDigit c = false) : (digits ++ rest).takeWhile isDigit = digits := by
  have stop : rest.takeWhile isDigit = [] := by
    cases rest with
    | nil => rfl
    | cons c rest => exact List.takeWhile_cons_of_neg (by rw [last c rfl]; nofun)
  rw [List.takeWhile_append_of_pos decimal.digits, stop, List.append_nil]

/-- The sign, the digits and what is behind them. -/
theorem denotes_signOf {front : List Byte} (h : Denotes front v) (rest : List Byte) : ∃ negative digits,
    Decimal digits ∧ signOf (front ++ rest) = (negative, digits ++ rest) ∧
      v = if negative then -(number digits : Int) else number digits := by
  cases h with
  | plain decimal =>
    obtain ⟨c, others, rfl, digit⟩ := decimal.head
    exact ⟨false, c :: others, decimal, signOf_digit digit _, rfl⟩
  | @plus digits decimal => exact ⟨false, digits, decimal, rfl, rfl⟩
  | @minus digits decimal => exact ⟨true, digits, decimal, rfl, rfl⟩

theorem numeral_of_leads (h : Leads text v) : ∃ (negative : Bool) (n pos : Nat),
    numeral text 10 = some (negative, n, pos) ∧ 0 < pos ∧ v = if negative then -(n : Int) else n := by
  obtain @⟨spaces, front, rest, v, blank, integer, last⟩ := h
  have unspaced : Unspaced (front ++ rest) := by
    intro c first
    rw [List.head?_append_of_ne_nil _ integer.given] at first
    exact integer.unspaced c first
  have solid : (spaces ++ (front ++ rest)).dropWhile isSpace = front ++ rest := by
    rw [List.dropWhile_append_of_pos blank, unspaced.dropWhile]
  obtain ⟨negative, digits, decimal, sign, value⟩ := denotes_signOf integer rest
  have scanned := numeral_ten (spaces ++ (front ++ rest))
  rw [solid, sign] at scanned
  simp only [takeWhile_last decimal last, if_neg decimal.given] at scanned
  have some_digit := List.length_pos_iff.mpr decimal.given
  exact ⟨negative, number digits, _, scanned, by omega, value⟩

/-- In front of the digits stands the mark of the sign, if there is one. -/
theorem signOf_mark (solid : List Byte) : ∃ mark, solid = mark ++ (signOf solid).2 ∧ ∀ digits, Decimal digits →
    Denotes (mark ++ digits) (if (signOf solid).1 then -(number digits : Int) else number digits) := by
  cases solid with
  | nil => exact ⟨[], rfl, fun digits decimal => .plain decimal⟩
  | cons c rest =>
    by_cases minus : c = ascii '-'
    · subst minus
      exact ⟨[ascii '-'], rfl, fun digits decimal => .minus decimal⟩
    · by_cases plus : c = ascii '+'
      · subst plus
        exact ⟨[ascii '+'], rfl, fun digits decimal => .plus decimal⟩
      · have unsigned : signOf (c :: rest) = (false, c :: rest) := by rw [signOf, if_neg minus, if_neg plus]
        rw [unsigned]
        exact ⟨[], rfl, fun digits decimal => .plain decimal⟩

theorem leads_of_numeral {negative : Bool} {n pos : Nat} (h : numeral text 10 = some (negative, n, pos)) :
    Leads text (if negative then -(n : Int) else n) := by
  rw [numeral_ten] at h
  split at h
  next => cases h
  next given =>
    cases h
    obtain ⟨mark, marked, integer⟩ := signOf_mark (text.dropWhile isSpace)
    generalize signOf (text.dropWhile isSpace) = signed at given marked integer ⊢
    have decimal : Decimal (signed.2.takeWhile isDigit) := ⟨given, fun c member => List.mem_takeWhile_imp member⟩
    have last : ∀ c ∈ (signed.2.dropWhile isDigit).head?, isDigit c = false := by
      intro c first
      have stop := List.head?_dropWhile_not isDigit signed.2
      rw [first] at stop
      exact stop
    have blank : ∀ c ∈ text.takeWhile isSpace, isSpace c = true := fun c member => List.mem_takeWhile_imp member
    have leads := Leads.intro blank (integer _ decimal) last
    rwa [List.append_assoc, List.takeWhile_append_dropWhile, ← marked, List.takeWhile_append_dropWhile] at leads

/-- The number at the front is the one that is scanned. -/
theorem leads_iff : Leads text v ↔ ∃ (negative : Bool) (n pos : Nat),
    numeral text 10 = some (negative, n, pos) ∧ 0 < pos ∧ v = if negative then -(n : Int) else n := by
  constructor
  · exact numeral_of_leads
  · rintro ⟨negative, n, pos, scanned, -, rfl⟩
    exact leads_of_numeral scanned

theorem Leads.unique {w : Int} (h : Leads text v) (h' : Leads text w) : v = w := by
  obtain ⟨negative, n, pos, scanned, -, rfl⟩ := leads_iff.mp h
  obtain ⟨negative', n', pos', scanned', -, rfl⟩ := leads_iff.mp h'
  cases scanned.symm.trans scanned'
  rfl

theorem not_leads (h : numeral text 10 = none) (v : Int) : ¬Leads text v := by
  intro leads
  obtain ⟨negative, n, pos, scanned, -⟩ := leads_iff.mp leads
  cases h.symm.trans scanned

/-- `std::stoll` gives the number at the front, if a `long long` can hold it. -/
theorem stoll_some_iff : stoll text = some v ↔ Leads text v ∧ -2 ^ 63 ≤ v ∧ v < 2 ^ 63 := by
  unfold stoll
  cases scanned : numeral text 10 with
  | none =>
    rw [strtoll_none scanned]
    exact iff_of_false nofun fun h => not_leads scanned v h.1
  | some result =>
    obtain ⟨negative, n, pos⟩ := result
    have leads := leads_of_numeral scanned
    obtain ⟨_, _, _, again, positive, -⟩ := leads_iff.mp leads
    cases scanned.symm.trans again
    have same : Leads text v ↔ (if negative then -(n : Int) else n) = v :=
      ⟨leads.unique, fun own => own ▸ leads⟩
    rw [strtoll_some scanned, same]
    cases negative with
    | true =>
      simp only [if_true]
      split
      next fits => simp only [if_neg positive.ne', Bool.false_eq_true, if_false, Option.some.injEq]; omega
      next large => simp only [if_neg positive.ne', if_true]; exact iff_of_false nofun (by omega)
    | false =>
      simp only [Bool.false_eq_true, if_false]
      split
      next fits => simp only [if_neg positive.ne', Bool.false_eq_true, if_false, Option.some.injEq]; omega
      next large => simp only [if_neg positive.ne', if_true]; exact iff_of_false nofun (by omega)

/-- `std::stoull` gives it modulo 2 ^ 64, if its magnitude fits. -/
theorem stoull_some_iff {r : Int} :
    stoull text = some r ↔ ∃ v, Leads text v ∧ (-2 ^ 64 < v ∧ v < 2 ^ 64) ∧ r = v % 2 ^ 64 := by
  unfold stoull
  cases scanned : numeral text 10 with
  | none =>
    rw [strtoull_none scanned]
    exact iff_of_false nofun fun ⟨v, leads, _⟩ => not_leads scanned v leads
  | some result =>
    obtain ⟨negative, n, pos⟩ := result
    have leads := leads_of_numeral scanned
    obtain ⟨_, _, _, again, positive, -⟩ := leads_iff.mp leads
    cases scanned.symm.trans again
    have same : (∃ v, Leads text v ∧ (-2 ^ 64 < v ∧ v < 2 ^ 64) ∧ r = v % 2 ^ 64) ↔ n < 2 ^ 64 ∧
        r = (if negative then -(n : Int) else n) % 2 ^ 64 := by
      constructor
      · rintro ⟨v, own, range, rfl⟩
        obtain rfl := leads.unique own
        refine ⟨?_, rfl⟩
        split at range <;> omega
      · rintro ⟨small, rfl⟩
        refine ⟨_, leads, ?_, rfl⟩
        split <;> omega
    rw [strtoull_some scanned, same]
    by_cases large : n > 2 ^ 64 - 1
    · simp only [if_neg positive.ne', decide_eq_true large, if_true]
      exact iff_of_false nofun (by omega)
    · simp only [if_neg positive.ne', decide_eq_false large, if_neg large, Bool.false_eq_true, if_false,
        Option.some.injEq]
      cases negative with
      | true => simp only [if_true]; omega
      | false => simp only [Bool.false_eq_true, if_false]; omega

end Numerals

section Variables

variable {environment : Environment} {name text : List Byte}

theorem returns_iff {type : IntegralType} {accepted : Int → Prop} {converted : Option Int} (alt : Int)
    (spec : ∀ r, converted = some r ↔ ∃ v, Leads text v ∧ accepted v ∧ r = type.cast v)
    (inside : ∀ v, type.Holds v → accepted v) :
    Returns (converted.getD alt) alt (fun v => Denotes text v ∧ type.Holds v) ↔ Clean text alt accepted type := by
  constructor
  case mp =>
    rintro ⟨denoted, other⟩ v leads range
    have result : converted = some (type.cast v) := (spec _).mpr ⟨v, leads, range, rfl⟩
    by_cases whole : Denotes text v ∧ type.Holds v
    · exact .inl whole
    · right
      have alternative := other fun w own => whole ((leads_of_denotes own.1).unique leads ▸ own)
      rwa [result] at alternative
  case mpr =>
    intro clean
    constructor
    · rintro v ⟨integer, range⟩
      have result : converted = some v :=
        (spec v).mpr ⟨v, leads_of_denotes integer, inside v range, (IntegralType.cast_eq range).symm⟩
      rw [result]
      rfl
    · intro nothing
      cases result : converted with
      | none => rfl
      | some r =>
        obtain ⟨v, leads, range, rfl⟩ := (spec r).mp result
        exact (clean v leads range).resolve_left (nothing v)

theorem getEnvInteger_set (set : environment.getenv name = some text) (convert : List Byte → Option Int) (alt : Int) :
    getEnvInteger convert environment name alt = (convert text).getD alt := by
  unfold getEnvInteger
  rw [set]

theorem getEnvInt32_iff (set : environment.getenv name = some text) (alt : Int) :
    Returns (getEnvInt32 environment name alt) alt (fun v => Denotes text v ∧ IntegralType.int.Holds v) ↔
      Clean text alt IntegralType.int64.Holds .int := by
  rw [getEnvInt32, getEnvInteger_set set]
  refine returns_iff alt (fun r => ?_) fun v range => ?_
  · rw [Option.map_eq_some_iff]
    exact exists_congr fun v => by rw [stoll_some_iff, eq_comm, and_assoc]; rfl
  · obtain ⟨low, high⟩ : -2 ^ 31 ≤ v ∧ v < 2 ^ 31 := range
    show -2 ^ 63 ≤ v ∧ v < 2 ^ 63
    omega

theorem getEnvInt64_iff (set : environment.getenv name = some text) (alt : Int) :
    Returns (getEnvInt64 environment name alt) alt (fun v => Denotes text v ∧ IntegralType.int64.Holds v) ↔
      Clean text alt IntegralType.int64.Holds .int64 := by
  rw [getEnvInt64, getEnvInteger_set set]
  refine returns_iff alt (fun r => ?_) fun v => id
  rw [stoll_some_iff]
  constructor
  · rintro ⟨leads, range⟩
    exact ⟨r, leads, range, (@IntegralType.cast_eq .int64 r range).symm⟩
  · rintro ⟨v, leads, range, rfl⟩
    rw [IntegralType.cast_eq range]
    exact ⟨leads, range⟩

/-- `std::size_t`. -/
theorem size_wide : 8 ≤ 64 := by decide

def sizeType : IntegralType := .unsigned 64 size_wide

/-- What `strtoull` accepts, also behind a minus sign. -/
def Magnitude (v : Int) : Prop := -2 ^ 64 < v ∧ v < 2 ^ 64

theorem getEnvSize_iff (set : environment.getenv name = some text) (alt : Int) :
    Returns (getEnvSize environment name alt) alt (fun v => Denotes text v ∧ sizeType.Holds v) ↔
      Clean text alt Magnitude sizeType := by
  rw [getEnvSize, getEnvInteger_set set]
  refine returns_iff alt (fun r => ?_) fun v range => ?_
  · have wrapped (v : Int) : sizeType.cast v = v % 2 ^ 64 := by
      show 0 + (v - 0) % (2 ^ 64 - 0) = v % 2 ^ 64
      omega
    simp only [stoull_some_iff, wrapped]
    rfl
  · obtain ⟨low, high⟩ : 0 ≤ v ∧ v < 2 ^ 64 := range
    show -2 ^ 64 < v ∧ v < 2 ^ 64
    omega

theorem getEnvBool_iff (set : environment.getenv name = some text) (alt : Bool) :
    Returns (getEnvBool environment name alt) alt (DenotesBool text) ↔ ¬DenotesBool text false := by
  have lower : (literal "true").map toLower = literal "true" ∧ (literal "false").map toLower = literal "false" := by
    decide
  have yes : (literal "1" = text ∨ sameIgnoringCase (literal "true") text = true) ↔ DenotesBool text true := by
    rw [sameIgnoringCase, beq_iff_eq, lower.1, eq_comm, @eq_comm _ (literal "true")]
    rfl
  have no : (literal "0" = text ∨ sameIgnoringCase (literal "false") text = true) ↔ DenotesBool text false := by
    rw [sameIgnoringCase, beq_iff_eq, lower.2, eq_comm, @eq_comm _ (literal "false")]
    rfl
  unfold getEnvBool Returns
  rw [set]
  simp only [yes, no]
  constructor
  · rintro ⟨denoted, -⟩ negative
    have result := denoted false negative
    split at result
    next => cases result
    next => rw [if_pos (no.mpr negative)] at result; cases result
  · intro positive
    constructor
    · intro v own
      cases v with
      | false => exact absurd own positive
      | true => exact if_pos (yes.mpr own)
    · intro nothing
      rw [if_neg fun h => nothing true (yes.mp h), if_neg fun h => nothing false (no.mp h)]

/-- Where `get_env` returns the denoted value or else the alternative. -/
theorem getEnv_iff (set : environment.getenv name = some text) :
    (∀ alt, Returns (getEnvInt32 environment name alt) alt (fun v => Denotes text v ∧ IntegralType.int.Holds v) ↔
      Clean text alt IntegralType.int64.Holds .int) ∧
    (∀ alt, Returns (getEnvInt64 environment name alt) alt (fun v => Denotes text v ∧ IntegralType.int64.Holds v) ↔
      Clean text alt IntegralType.int64.Holds .int64) ∧
    (∀ alt, Returns (getEnvSize environment name alt) alt (fun v => Denotes text v ∧ sizeType.Holds v) ↔
      Clean text alt Magnitude sizeType) ∧
    ∀ alt, Returns (getEnvBool environment name alt) alt (DenotesBool text) ↔ ¬DenotesBool text false :=
  ⟨getEnvInt32_iff set, getEnvInt64_iff set, getEnvSize_iff set, getEnvBool_iff set⟩

end Variables

/-- Every variable has the same text. -/
def constant (text : List Byte) (inside : 0 ∉ text) : Environment where
  value _ := some text
  terminated := by
    rintro _ _ ⟨⟩
    exact inside

theorem getEnv_iff_seven :
    let environment := constant (literal "7") (by decide)
    (∀ alt, Returns (getEnvInt32 environment [] alt) alt
        (fun v => Denotes (literal "7") v ∧ IntegralType.int.Holds v) ↔
      Clean (literal "7") alt IntegralType.int64.Holds .int) ∧
    (∀ alt, Returns (getEnvInt64 environment [] alt) alt
        (fun v => Denotes (literal "7") v ∧ IntegralType.int64.Holds v) ↔
      Clean (literal "7") alt IntegralType.int64.Holds .int64) ∧
    (∀ alt, Returns (getEnvSize environment [] alt) alt (fun v => Denotes (literal "7") v ∧ sizeType.Holds v) ↔
      Clean (literal "7") alt Magnitude sizeType) ∧
    ∀ alt, Returns (getEnvBool environment [] alt) alt (DenotesBool (literal "7")) ↔
      ¬DenotesBool (literal "7") false :=
  getEnv_iff rfl

/-- `2147483648` is read as the least `int32_t`, `-1` as the greatest `size_t`, and `false` as true. -/
theorem getEnv_wrong :
    let beyond := constant (literal "2147483648") (by decide)
    let negative := constant (literal "-1") (by decide)
    let no := constant (literal "false") (by decide)
    ¬Returns (getEnvInt32 beyond [] 5) 5 (fun v => Denotes (literal "2147483648") v ∧ IntegralType.int.Holds v) ∧
      ¬Returns (getEnvSize negative [] 5) 5 (fun v => Denotes (literal "-1") v ∧ sizeType.Holds v) ∧
      ¬Returns (getEnvBool no [] false) false (DenotesBool (literal "false")) := by
  have large : Denotes (literal "2147483648") 2147483648 := .plain ⟨by decide, by decide⟩
  have below : Denotes (literal "-1") (-1) := .minus ⟨by decide, by decide⟩
  refine ⟨fun right => ?_, fun right => ?_, fun right => ?_⟩
  · have alternative := right.2 fun v h => by
      cases large.unique h.1
      exact absurd h.2 (by decide)
    exact absurd alternative (by decide)
  · have alternative := right.2 fun v h => by
      cases below.unique h.1
      exact absurd h.2 (by decide)
    exact absurd alternative (by decide)
  · have denoted := right.1 false (.inr (by decide))
    exact absurd denoted (by decide)

end Environment

end Hlib
