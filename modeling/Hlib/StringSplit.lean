import Hlib.BufferContents
import Hlib.BufferCalls

namespace Hlib

section Split

/-- The tokens in front of a character, the one that ends there, and how many delimiters there were. -/
structure Splitting where
  tokens : List (List Byte) := []
  token : List Byte := []
  count : Nat := 0

variable (isDelimiter : Byte → Bool) (filterEmpty : Bool)

/-- A pass of the loop in `split`; a token that has been moved from is empty. -/
def splitPass (s : Splitting) (c : Byte) : Splitting :=
  if isDelimiter c then
    if s.token ≠ [] ∨ filterEmpty = false then
      { tokens := s.tokens ++ [s.token], token := [], count := s.count + 1 }
    else { s with count := s.count + 1 }
  else { s with token := s.token ++ [c] }

/-- `split(string, is_delimiter, filter_empty)`. -/
def split (string : List Byte) : List (List Byte) :=
  if string = [] then []
  else
    let s := string.foldl (splitPass isDelimiter filterEmpty) {}
    if s.token ≠ [] ∨ (s.count > 0 ∧ filterEmpty = false) then s.tokens ++ [s.token] else s.tokens

/-- `split(string, delimiter, filter_empty)`. -/
def splitDelimiter (string : List Byte) (delimiter : Byte) (filterEmpty : Bool) : List (List Byte) :=
  split (fun c => delimiter = c) filterEmpty string

/-- Whether `split` returns a token. -/
def keeps (token : List Byte) : Bool := token ≠ [] ∨ filterEmpty = false

/-- The tokens of the rest follow those in front of it, and the first of them begins with what there is of the
current one. -/
theorem splitPass_tokens (rest : List Byte) (s : Splitting) :
    (rest.foldl (splitPass isDelimiter filterEmpty) s).tokens ++
        [(rest.foldl (splitPass isDelimiter filterEmpty) s).token].filter (keeps filterEmpty) =
      s.tokens ++ (List.splitOnPPrepend isDelimiter rest s.token.reverse).filter (keeps filterEmpty) := by
  induction rest generalizing s with
  | nil => rw [List.foldl_nil, List.splitOnPPrepend_nil, List.reverse_reverse]
  | cons c rest ih =>
    rw [List.foldl_cons, ih, splitPass]
    by_cases delimits : isDelimiter c = true
    · rw [if_pos delimits, List.splitOnPPrepend_cons_pos delimits, List.reverse_reverse]
      by_cases kept : s.token ≠ [] ∨ filterEmpty = false
      · have keep : keeps filterEmpty s.token = true := decide_eq_true kept
        rw [if_pos kept, List.filter_cons_of_pos keep, List.append_assoc]
        rfl
      · have drop : ¬keeps filterEmpty s.token = true := fun keep => kept (of_decide_eq_true keep)
        rw [not_or, not_not] at kept
        rw [if_neg (not_or.mpr ⟨not_not.mpr kept.1, kept.2⟩), List.filter_cons_of_neg drop, kept.1]
        rfl
    · rw [if_neg delimits, List.splitOnPPrepend_cons_neg (eq_false_of_ne_true delimits), List.reverse_append]
      rfl

theorem splitPass_count (rest : List Byte) (s : Splitting) :
    (rest.foldl (splitPass isDelimiter filterEmpty) s).count = s.count + rest.countP isDelimiter := by
  induction rest generalizing s with
  | nil => rfl
  | cons c rest ih =>
    rw [List.foldl_cons, ih, splitPass, List.countP_cons]
    by_cases delimits : isDelimiter c = true
    · rw [if_pos delimits, if_pos delimits]
      split
      next => exact Nat.add_right_comm _ _ _
      next => exact Nat.add_right_comm _ _ _
    · rw [if_neg delimits, if_neg delimits]
      rfl

/-- What `split` returns: nothing for the empty string, and otherwise what stands between the delimiters, or
what of that is not empty. -/
theorem split_eq (string : List Byte) :
    split isDelimiter filterEmpty string =
      if string = [] then [] else (string.splitOnP isDelimiter).filter (keeps filterEmpty) := by
  unfold split
  by_cases empty : string = []
  · rw [if_pos empty, if_pos empty]
  · rw [if_neg empty, if_neg empty]
    have tokens := splitPass_tokens isDelimiter filterEmpty string {}
    have count := splitPass_count isDelimiter filterEmpty string {}
    change _ = (string.splitOnP isDelimiter).filter (keeps filterEmpty) at tokens
    dsimp only at count ⊢
    rw [Nat.zero_add] at count
    generalize string.foldl (splitPass isDelimiter filterEmpty) {} = s at tokens count ⊢
    rw [← tokens]
    by_cases last : s.token ≠ [] ∨ (s.count > 0 ∧ filterEmpty = false)
    · have keep : keeps filterEmpty s.token = true := decide_eq_true (last.imp_right And.right)
      rw [if_pos last, List.filter_cons_of_pos keep]
      rfl
    · rw [if_neg last]
      rw [not_or, not_not, not_and] at last
      obtain ⟨blank, last⟩ := last
      have drop : ¬keeps filterEmpty s.token = true := by
        intro keep
        have all := (of_decide_eq_true keep).resolve_left (not_not.mpr blank)
        have none : s.count = 0 := Nat.eq_zero_of_not_pos fun some => last some all
        have whole : ∀ c ∈ string, isDelimiter c = false := fun c inside =>
          eq_false_of_ne_true (List.countP_eq_zero.mp (count.symm.trans none) c inside)
        have kept : keeps filterEmpty string = true := decide_eq_true (Or.inr all)
        rw [List.splitOnP_eq_singleton whole, List.filter_cons_of_pos keep, List.filter_cons_of_pos kept] at tokens
        have same := congrArg List.getLast? tokens
        rw [List.filter_nil, List.getLast?_concat] at same
        exact empty ((Option.some.inj same).symm.trans blank)
      rw [List.filter_cons_of_neg drop]
      exact (List.append_nil _).symm

theorem split_filtered (string : List Byte) :
    split isDelimiter true string = (split isDelimiter false string).filter (· ≠ []) := by
  rw [split_eq, split_eq]
  by_cases empty : string = []
  · rw [if_pos empty, if_pos empty]
    rfl
  · rw [if_neg empty, if_neg empty, List.filter_filter]
    refine List.filter_congr fun token _ => ?_
    simp [keeps]

example : splitDelimiter [44] 44 false = [[], []] ∧ splitDelimiter [44] 44 true = [] := by decide

/-- All the tokens between the delimiters of a string that is not empty. -/
theorem splitDelimiter_all {string : List Byte} (given : string ≠ []) (delimiter : Byte) :
    splitDelimiter string delimiter false = string.splitOn delimiter := by
  have all : ∀ tokens : List (List Byte), tokens.filter (keeps false) = tokens :=
    fun tokens => List.filter_eq_self.mpr fun _ _ => decide_eq_true (Or.inr rfl)
  have same : (fun c => decide (delimiter = c)) = (fun c => c == delimiter) := by
    funext c
    rw [beq_eq_decide, decide_eq_decide, eq_comm]
  rw [splitDelimiter, split_eq, if_neg given, all, same, List.splitOn_eq_splitOnP]

end Split

section Join

/-- `join(vector, separator)`; the length that is computed first is for the `reserve` only. -/
def join (vector : List (List Byte)) (separator : List Byte) : List Byte :=
  match vector.getLast? with
  | none => []
  | some back =>
    vector.dropLast.foldl (fun string element => string ++ element ++ separator) [] ++ back

theorem join_pass (separator : List Byte) (vector : List (List Byte)) (string : List Byte) :
    vector.foldl (fun string element => string ++ element ++ separator) string =
      string ++ vector.flatMap (· ++ separator) := by
  induction vector generalizing string with
  | nil => rw [List.foldl_nil, List.flatMap_nil, List.append_nil]
  | cons element vector ih => rw [List.foldl_cons, ih, List.flatMap_cons, List.append_assoc, List.append_assoc,
      List.append_assoc]

theorem join_eq (vector : List (List Byte)) (separator : List Byte) :
    join vector separator = separator.intercalate vector := by
  induction vector with
  | nil => rfl
  | cons element vector ih =>
    cases vector with
    | nil => rw [List.intercalate_singleton]; rfl
    | cons second vector =>
      rw [List.intercalate_cons_cons, ← ih]
      unfold join
      rw [List.getLast?_cons_cons, List.dropLast_cons_cons]
      cases last : (second :: vector).getLast? with
      | none => cases List.getLast?_eq_none_iff.mp last
      | some back =>
        dsimp only
        rw [join_pass, join_pass, List.flatMap_cons, List.nil_append, List.nil_append]
        simp only [List.append_assoc]

/-- Every element but the first one follows a separator. -/
theorem intercalate_cons (separator element : List Byte) (vector : List (List Byte)) :
    separator.intercalate (element :: vector) = element ++ vector.flatMap (separator ++ ·) := by
  induction vector generalizing element with
  | nil => rw [List.intercalate_singleton, List.flatMap_nil, List.append_nil]
  | cons second vector ih => rw [List.intercalate_cons_cons, ih, List.flatMap_cons, List.append_assoc,
      List.append_assoc]

end Join

namespace Buffer

section Append

variable {b b' : Buffer}

theorem storeCells_maximum {offset : Nat} {cells : List Cell} (h : b.storeCells offset cells = .ok b') :
    b'.maximum = b.maximum := by
  unfold storeCells at h
  split at h
  next => cases h; rfl
  next =>
    split at h
    next => cases h
    next =>
      split at h
      next => cases h; rfl
      next => cases h

/-- `insert` fails only where `realloc` does, and leaves the maximum as it is. -/
theorem insert_realloc {offset : Nat} {data : Pointer} {size : Nat} {alloc done : Bool} (hv : b.Valid)
    (h : b.insert offset data size alloc = .ok (done, b')) :
    b'.maximum = b.maximum ∧
      (done = false → (b.realloc (sizeT (b.size + size)) .grow alloc).1 = false) := by
  obtain ⟨_, _, h⟩ := bind_ok h
  obtain ⟨_, _, h⟩ := bind_ok h
  split at h
  next => cases h; exact ⟨rfl, nofun⟩
  next =>
    rcases realloc_grow_cases hv (sizeT (b.size + size)) alloc with failed | ⟨grown, done, grows, _⟩
    · rw [failed] at h ⊢
      cases h
      exact ⟨rfl, fun _ => rfl⟩
    · rw [done] at h
      obtain ⟨moved, hm, h⟩ := bind_ok h
      obtain ⟨_, _, hm⟩ := bind_ok hm
      have maximum := (storeCells_maximum hm).trans grows.maximum
      cases data with
      | none =>
        cases h
        exact ⟨maximum, nofun⟩
      | some cells =>
        obtain ⟨filled, hc, h⟩ := bind_ok h
        obtain ⟨_, _, hc⟩ := bind_ok hc
        cases h
        exact ⟨(storeCells_maximum hc).trans maximum, nofun⟩

/-- `append(string)`, and whether it returns; it throws `std::bad_alloc` otherwise. -/
def appendText (b : Buffer) (text : List Byte) (alloc : Bool) : Checked (Bool × Buffer) :=
  b.append (some (text.map some)) text.length alloc

/-- The buffer holds a text, and has no maximum. -/
structure Gathers (b : Buffer) (p : List Byte) : Prop where
  holds : b.Holds p
  unbounded : b.maximum = 2 ^ 64 - 1

/-- `Buffer(reservation)`, and whether it returns. -/
theorem reservation_cases {reservation : Nat} (within : reservation ≤ 2 ^ 64 - 1) (alloc : Bool) :
    (∃ b, constructWith alloc (.reservation reservation) = .ok (false, b) ∧ alloc = false) ∨
      ∃ b, constructWith alloc (.reservation reservation) = .ok (true, b) ∧ b.Gathers [] := by
  have call : constructWith alloc (.reservation reservation) =
      .ok (decide ((({} : Buffer).reserve reservation alloc).1 ≠ none ∨ reservation = 0),
        (({} : Buffer).reserve reservation alloc).2) := rfl
  unfold reserve at call
  rcases realloc_grow_cases valid_empty reservation alloc with failed | ⟨b, done, grows, given⟩
  · left
    have refused : alloc = false := by
      by_contra granted
      have done := @realloc_grow_succeeds {} reservation within
      rw [eq_true_of_ne_false granted] at failed
      rw [failed] at done
      cases done
    have positive : reservation ≠ 0 := by
      rintro rfl
      cases failed
    rw [failed] at call
    refine ⟨{}, call.trans ?_, refused⟩
    simp [positive]
  · right
    rw [done] at call
    refine ⟨b, call.trans ?_, grows.holds holds_empty, grows.maximum⟩
    by_cases zero : reservation = 0
    · simp [zero]
    · have address : b.address 0 = some 0 := if_neg fun null => given (Nat.pos_of_ne_zero zero) null.1
      simp [address]

theorem appendText_cases {p : List Byte} (h : b.Gathers p) (text : List Byte)
    (small : p.length + text.length < 2 ^ 64) (alloc : Bool) :
    (b.appendText text alloc = .ok (false, b) ∧ alloc = false) ∨
      ∃ b', b.appendText text alloc = .ok (true, b') ∧ b'.Gathers (p ++ text) := by
  rcases append_cases h.holds (supplies_bytes text) small alloc with failed | ⟨b', done, holds⟩
  · left
    refine ⟨failed, ?_⟩
    by_contra given
    have refused := (insert_realloc h.holds.valid failed).2 rfl
    have room : sizeT (b.size + text.length) ≤ b.maximum := by
      rw [h.holds.size, sizeT_of_lt small, h.unbounded]
      omega
    rw [eq_true_of_ne_false given, realloc_grow_succeeds room] at refused
    cases refused
  · right
    exact ⟨b', done, holds, (insert_realloc h.holds.valid done).1.trans h.unbounded⟩

end Append

end Buffer

section Template

open Buffer

variable {α : Type} (separator : List Byte) (formatter : α → List Byte) (alloc : Nat → Bool)

/-- The buffer of `join`, whether a separator is due, and how many elements there were. -/
structure Joining where
  buffer : Buffer
  separate : Bool := false
  elements : Nat := 0

def appendSeparator (s : Joining) (alloc : Bool) : Checked (Bool × Buffer) :=
  if s.separate then s.buffer.appendText separator alloc else .ok (true, s.buffer)

/-- A pass of the loop over the elements, and whether it returns. What the heap would answer is asked by the
number of the call. -/
def joinPass (s : Joining) (element : α) : Checked (Bool × Joining) := do
  let (done, buffer) ← appendSeparator separator s (alloc (2 * s.elements + 1))
  if done then
    let (done, buffer) ← buffer.appendText (formatter element) (alloc (2 * s.elements + 2))
    return (done, { buffer, separate := true, elements := s.elements + 1 })
  else return (false, { s with buffer })

def joinPasses : List α → Joining → Checked (Bool × Joining)
  | [], s => .ok (true, s)
  | element :: container, s => do
    match ← joinPass separator formatter alloc s element with
    | (true, s) => joinPasses container s
    | (false, s) => return (false, s)

/-- `join(container, separator, formatter)`; `none` is `std::bad_alloc`. -/
def joinWith (container : List α) : Checked (Option (List Byte)) := do
  let (done, buffer) ← constructWith (alloc 0) (.reservation 4096)
  if done then
    match ← joinPasses separator formatter alloc container { buffer } with
    | (true, s) => return some (← s.buffer.toString)
    | (false, _) => return none
  else return none

variable {separator formatter alloc}

/-- What stands in front of the next element. -/
def Joining.due (separator : List Byte) (s : Joining) : List Byte := if s.separate then separator else []

/-- What the elements add behind what there is. -/
def Joining.tail (separator : List Byte) (formatter : α → List Byte) (s : Joining) : List α → List Byte
  | [] => []
  | element :: container =>
    s.due separator ++ (formatter element ++ container.flatMap fun element => separator ++ formatter element)

theorem appendSeparator_cases {s : Joining} {p : List Byte} (h : s.buffer.Gathers p)
    (small : p.length + (s.due separator).length < 2 ^ 64) (alloc : Bool) :
    (∃ b, appendSeparator separator s alloc = .ok (false, b) ∧ alloc = false) ∨
      ∃ b, appendSeparator separator s alloc = .ok (true, b) ∧ b.Gathers (p ++ s.due separator) := by
  unfold appendSeparator
  unfold Joining.due at small ⊢
  by_cases separate : s.separate = true
  · rw [if_pos separate] at small
    rw [if_pos separate, if_pos separate]
    rcases appendText_cases h separator small alloc with failed | done
    · exact Or.inl ⟨_, failed⟩
    · exact Or.inr done
  · rw [if_neg separate, if_neg separate, List.append_nil]
    exact Or.inr ⟨_, rfl, h⟩

/-- A pass, if the heap gives what it is asked for. -/
theorem joinPass_cases {s : Joining} {p : List Byte} (h : s.buffer.Gathers p) (element : α)
    (small : (p ++ s.due separator ++ formatter element).length < 2 ^ 64) :
    (∃ t, joinPass separator formatter alloc s element = .ok (false, t) ∧ ∃ n, alloc n = false) ∨
      ∃ t, joinPass separator formatter alloc s element = .ok (true, t) ∧ t.separate = true ∧
        t.buffer.Gathers (p ++ s.due separator ++ formatter element) := by
  rw [List.length_append, List.length_append] at small
  unfold joinPass
  have first : p.length + (s.due separator).length < 2 ^ 64 := by omega
  rcases appendSeparator_cases h first (alloc (2 * s.elements + 1)) with
    ⟨b, failed, refused⟩ | ⟨b, done, gathers⟩
  · left
    rw [failed]
    exact ⟨_, rfl, _, refused⟩
  · rw [done, ok_bind]
    have room : (p ++ s.due separator).length + (formatter element).length < 2 ^ 64 := by
      rw [List.length_append]
      omega
    rcases appendText_cases gathers (formatter element) room (alloc (2 * s.elements + 2)) with
      ⟨failed, refused⟩ | ⟨b', done', gathers'⟩
    · left
      dsimp only
      rw [if_pos rfl, failed]
      exact ⟨_, rfl, _, refused⟩
    · right
      dsimp only
      rw [if_pos rfl, done']
      exact ⟨_, rfl, rfl, gathers'⟩

theorem joinPasses_cases (container : List α) {s : Joining} {p : List Byte} (h : s.buffer.Gathers p)
    (small : (p ++ s.tail separator formatter container).length < 2 ^ 64) :
    (∃ t, joinPasses separator formatter alloc container s = .ok (false, t) ∧ ∃ n, alloc n = false) ∨
      ∃ t, joinPasses separator formatter alloc container s = .ok (true, t) ∧
        t.buffer.Gathers (p ++ s.tail separator formatter container) := by
  induction container generalizing s p with
  | nil =>
    right
    refine ⟨s, rfl, ?_⟩
    rwa [Joining.tail, List.append_nil]
  | cons element container ih =>
    have rest (t : Joining) (separate : t.separate = true) : t.tail separator formatter container =
        container.flatMap fun element => separator ++ formatter element := by
      cases container with
      | nil => rfl
      | cons second container =>
        rw [Joining.tail, Joining.due, if_pos separate, List.flatMap_cons, List.append_assoc]
    rw [Joining.tail, ← List.append_assoc, ← List.append_assoc] at small ⊢
    rw [joinPasses]
    have first : (p ++ s.due separator ++ formatter element).length < 2 ^ 64 := by
      rw [List.length_append] at small
      omega
    rcases joinPass_cases h element first with
      ⟨t, failed, refused⟩ | ⟨t, done, separate, gathers⟩
    · left
      rw [failed]
      exact ⟨t, rfl, refused⟩
    · rw [done, ok_bind]
      rw [← rest t separate] at small ⊢
      exact ih gathers small

theorem Joining.tail_first (container : List α) (buffer : Buffer) :
    ({ buffer } : Joining).tail separator formatter container = join (container.map formatter) separator := by
  rw [join_eq]
  cases container with
  | nil => rfl
  | cons element container =>
    rw [List.map_cons, intercalate_cons, List.flatMap_map]
    rfl

/-- `join` of a container is that of the formatted elements, if the heap gives what it is asked for. -/
theorem joinWith_cases (container : List α)
    (small : (join (container.map formatter) separator).length < 2 ^ 64) :
    (joinWith separator formatter alloc container = .ok none ∧ ∃ n, alloc n = false) ∨
      joinWith separator formatter alloc container = .ok (some (join (container.map formatter) separator)) := by
  unfold joinWith
  rcases reservation_cases (by decide : 4096 ≤ 2 ^ 64 - 1) (alloc 0) with ⟨b, failed, refused⟩ | ⟨b, done, gathers⟩
  · left
    rw [failed]
    exact ⟨rfl, 0, refused⟩
  · rw [done, ok_bind]
    have room : ([] ++ ({ buffer := b } : Joining).tail separator formatter container).length < 2 ^ 64 := by
      rwa [List.nil_append, Joining.tail_first]
    rcases joinPasses_cases (s := { buffer := b }) container gathers room with
      ⟨t, failed, refused⟩ | ⟨t, done', gathers'⟩
    · left
      dsimp only
      rw [if_pos rfl, failed]
      exact ⟨rfl, refused⟩
    · right
      rw [List.nil_append, Joining.tail_first] at gathers'
      dsimp only
      rw [if_pos rfl, done', ok_bind]
      dsimp only
      rw [toString_of_contents gathers'.holds.contents]
      rfl

end Template

/-- Splitting and joining undo each other, empty tokens are filtered out of what is split without a filter, and
the `join` of any container does with strings what that of vectors does, where the heap gives the memory for it.
The length of a string is a `std::size_t`. -/
theorem split_join :
    (∀ string delimiter, join (splitDelimiter string delimiter false) [delimiter] = string) ∧
    (∀ vector delimiter, vector ≠ [] → vector ≠ [[]] → (∀ token ∈ vector, delimiter ∉ token) →
      splitDelimiter (join vector [delimiter]) delimiter false = vector) ∧
    (∀ isDelimiter string,
      split isDelimiter true string = (split isDelimiter false string).filter (· ≠ [])) ∧
    ∀ vector separator, (join vector separator).length < 2 ^ 64 → ∀ alloc : Nat → Bool, (∀ n, alloc n = true) →
      joinWith separator id alloc vector = .ok (some (join vector separator)) := by
  refine ⟨?_, ?_, split_filtered, ?_⟩
  · intro string delimiter
    by_cases empty : string = []
    · rw [splitDelimiter, split_eq, if_pos empty, empty]
      rfl
    · rw [splitDelimiter_all empty, join_eq, List.intercalate_splitOn]
  · intro vector delimiter given notBlank free
    have whole : join vector [delimiter] ≠ [] := by
      intro blank
      have same := List.splitOn_intercalate delimiter free given
      rw [← join_eq, blank, List.splitOn_nil] at same
      exact notBlank same.symm
    rw [splitDelimiter_all whole, join_eq, List.splitOn_intercalate delimiter free given]
  · intro vector separator small alloc granted
    rw [← List.map_id vector] at small
    rcases @joinWith_cases _ separator id alloc vector small with ⟨_, n, refused⟩ | joined
    · rw [granted n] at refused
      cases refused
    · rwa [List.map_id] at joined

/-- `join({ "a", "" }, ",")`, split again, and `join` of the same as of any container. -/
theorem split_join_comma :
    splitDelimiter (join [[97], []] [44]) 44 false = [[97], []] ∧
      joinWith [44] id (fun _ => true) [[97], []] = .ok (some (join [[97], []] [44])) :=
  ⟨split_join.2.1 [[97], []] 44 nofun nofun (by decide),
    split_join.2.2.2 [[97], []] [44] (by decide) (fun _ => true) fun _ => rfl⟩

end Hlib
