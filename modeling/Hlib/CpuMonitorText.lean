import Hlib.BrokenTime
import Hlib.CpuMonitorRuns

namespace Hlib

section Tokens

/-- What stands between the delimiters, joined and split again. -/
theorem splitDelimiter_intercalate {tokens : List (List Byte)} {delimiter : Byte}
    (apart : ∀ token ∈ tokens, delimiter ∉ token) (given : tokens ≠ []) (some : tokens ≠ [[]]) :
    splitDelimiter ([delimiter].intercalate tokens) delimiter false = tokens := by
  have same := List.splitOn_intercalate delimiter apart given
  have whole : [delimiter].intercalate tokens ≠ [] := by
    intro blank
    rw [blank, List.splitOn_nil] at same
    exact some same.symm
  rw [splitDelimiter_all whole, same]

theorem splitDelimiter_given_tokens {tokens : List (List Byte)} {delimiter : Byte}
    (apart : ∀ token ∈ tokens, delimiter ∉ token) (given : tokens ≠ []) (some : tokens ≠ [[]]) :
    splitDelimiter ([delimiter].intercalate tokens) delimiter true = tokens.filter (· ≠ []) := by
  have all := splitDelimiter_intercalate apart given some
  rw [splitDelimiter] at all ⊢
  rw [split_filtered, all]

theorem mem_intercalate {separator c : Byte} {tokens : List (List Byte)}
    (h : c ∈ [separator].intercalate tokens) : c = separator ∨ ∃ token ∈ tokens, c ∈ token := by
  cases tokens with
  | nil => cases h
  | cons token tokens =>
    rw [intercalate_cons, List.mem_append, List.mem_flatMap] at h
    rcases h with first | ⟨later, member, inside⟩
    · exact Or.inr ⟨token, List.mem_cons_self, first⟩
    · rcases List.mem_cons.mp inside with same | inside
      · exact Or.inl same
      · exact Or.inr ⟨later, List.mem_cons_of_mem _ member, inside⟩

end Tokens

section Decimals

theorem number_decimal (n : Nat) : number (decimal n) = n := by
  have values : (decimal n).map (fun c => c.toNat - 48) =
      (Nat.toDigits 10 n).map fun c => c.toNat - '0'.toNat := by
    rw [decimal, List.map_map]
    refine List.map_congr_left fun c hc => ?_
    have digit := Nat.isDigit_of_mem_toDigits (by omega) (by omega) hc
    exact congrArg (· - 48) (ascii_digit digit).1
  rw [number_eq_foldl, values, List.foldl_map, ← Nat.ofDigitChars_eq_foldl, Nat.ofDigitChars_ten_toDigits]

theorem denotes_signedDecimal (n : Int) : Denotes (signedDecimal n) n := by
  have digits : Decimal (decimal n.natAbs) := ⟨decimal_ne_nil _, fun _ inside => isDigit_decimal inside⟩
  unfold signedDecimal
  split
  next negative =>
    have value : -((n.natAbs : Nat) : Int) = n := by omega
    have denoted := Denotes.minus digits
    rwa [number_decimal, value] at denoted
  next positive =>
    have value : ((n.natAbs : Nat) : Int) = n := by omega
    have denoted := Denotes.plain digits
    rwa [number_decimal, value] at denoted

theorem mem_signedDecimal {n : Int} {c : Byte} (h : c ∈ signedDecimal n) : isDigit c = true ∨ c = ascii '-' := by
  unfold signedDecimal at h
  split at h
  next =>
    rcases List.mem_cons.mp h with dash | digit
    · exact Or.inr dash
    · exact Or.inl (isDigit_decimal digit)
  next => exact Or.inl (isDigit_decimal h)

theorem not_mem_signedDecimal {c : Byte} (digit : isDigit c = false) (dash : c ≠ ascii '-') (n : Int) :
    c ∉ signedDecimal n := by
  intro h
  rcases mem_signedDecimal h with same | same
  · rw [digit] at same
    cases same
  · exact dash same

theorem signedDecimal_ne_nil (n : Int) : signedDecimal n ≠ [] := by
  unfold signedDecimal
  split
  next => exact List.cons_ne_nil _ _
  next => exact decimal_ne_nil _

end Decimals

namespace CpuMonitor

open StringTo

/-- A name or a column of a line. -/
structure Word (text : List Byte) : Prop where
  unspaced : ascii ' ' ∉ text
  unbroken : ascii '\n' ∉ text

/-- Each number is of its type, and so is the total at any of them. -/
structure Printable (s : Statistics) : Prop where
  numbers : ∀ number ∈ numbers s, SignedRange .eight number
  total : (CpuMonitor.numbers s).foldlM accumulate 0 = some s.total

/-- A line of the file, with one more blank behind the name for each of `gap`, and more columns at its end. -/
def printLine (label : List Byte) (gap : Nat) (s : Statistics) (more : List (List Byte)) : List Byte :=
  [ascii ' '].intercalate (label :: (List.replicate gap [] ++ ((numbers s).map signedDecimal ++ more)))

/-- A table, with the columns that stand behind its numbers in each line, and more lines. -/
structure StatFile where
  table : Table
  more : Nat → List (List Byte)
  rest : List (List Byte)

/-- The line of all processors, one for each of them, and the other lines. -/
def printFile (file : StatFile) : List Byte :=
  [ascii '\n'].intercalate (printLine (literal "cpu") 1 file.table.total (file.more 0) ::
    (file.table.cpus.mapIdx (fun cpu s => printLine (literal "cpu" ++ decimal cpu) 0 s (file.more (cpu + 1))) ++
      file.rest))

theorem columns_front {front : List (List Byte)} {numbers : List Int} (more : List (List Byte))
    (range : ∀ number ∈ numbers, SignedRange .eight number) :
    Columns (front ++ (numbers.map signedDecimal ++ more)) front.length numbers := by
  induction numbers generalizing front with
  | nil => trivial
  | cons number numbers ih =>
    refine ⟨⟨signedDecimal number, ?_, ?_⟩, ?_⟩
    · rw [List.getElem?_append_right (Nat.le_refl _), Nat.sub_self, List.map_cons, List.cons_append,
        List.getElem?_cons_zero]
    · have same : cString (signedDecimal number) = signedDecimal number :=
        cString_eq.mpr (not_mem_signedDecimal (by decide) (by decide) number)
      rw [Holds, same]
      exact Or.inr ⟨denotes_signedDecimal number, range number List.mem_cons_self⟩
    · have rest := @ih (front ++ [signedDecimal number]) fun n member => range n (List.mem_cons_of_mem _ member)
      rw [List.append_assoc, List.length_append] at rest
      exact rest

theorem printLine_words {label : List Byte} {s : Statistics} {more : List (List Byte)} (name : Word label)
    (words : ∀ text ∈ more, Word text) {gap : Nat} :
    ∀ text ∈ label :: (List.replicate gap [] ++ ((numbers s).map signedDecimal ++ more)), Word text := by
  intro text member
  rw [List.mem_cons, List.mem_append, List.mem_append] at member
  rcases member with rfl | blank | number | extra
  · exact name
  · rw [List.eq_of_mem_replicate blank]
    exact ⟨List.not_mem_nil, List.not_mem_nil⟩
  · obtain ⟨n, _, rfl⟩ := List.mem_map.mp number
    exact ⟨not_mem_signedDecimal (by decide) (by decide) n, not_mem_signedDecimal (by decide) (by decide) n⟩
  · exact words text extra

theorem printLine_shows {label : List Byte} {s : Statistics} {more : List (List Byte)} (name : Word label)
    (given : label ≠ []) (words : ∀ text ∈ more, Word text) (printable : Printable s) (gap : Nat) :
    Shows (printLine label gap s more) s := by
  have apart := fun text member => (@printLine_words label s more name words gap text member).unspaced
  refine ⟨?_, printable.total⟩
  rw [printLine, splitDelimiter_given_tokens apart (List.cons_ne_nil _ _) (fun h => given (List.cons.inj h).1)]
  have blanks : (List.replicate gap ([] : List Byte)).filter (· ≠ []) = [] := by
    rw [List.filter_replicate_of_neg (by decide)]
  have kept : ((numbers s).map signedDecimal).filter (· ≠ []) = (numbers s).map signedDecimal := by
    refine List.filter_eq_self.mpr fun text member => ?_
    obtain ⟨n, _, rfl⟩ := List.mem_map.mp member
    exact decide_eq_true (signedDecimal_ne_nil n)
  have named : ([label] : List (List Byte)).filter (· ≠ []) = [label] :=
    List.filter_eq_self.mpr fun text member => decide_eq_true (List.mem_singleton.mp member ▸ given)
  rw [← List.singleton_append, List.filter_append, named, List.filter_append, List.filter_append, blanks, kept,
    List.nil_append]
  exact @columns_front [label] (numbers s) _ printable.numbers

theorem printLine_unbroken {label : List Byte} {s : Statistics} {more : List (List Byte)} (name : Word label)
    (words : ∀ text ∈ more, Word text) (gap : Nat) : ascii '\n' ∉ printLine label gap s more := by
  intro broken
  rcases mem_intercalate broken with same | ⟨text, member, inside⟩
  · exact absurd same (by decide)
  · exact (printLine_words name words text member).unbroken inside

theorem word_cpu : Word (literal "cpu") := ⟨by decide, by decide⟩

theorem word_decimal (cpu : Nat) : Word (literal "cpu" ++ decimal cpu) := by
  have apart {c : Byte} (name : c ∉ literal "cpu") (digit : isDigit c = false) :
      c ∉ literal "cpu" ++ decimal cpu := by
    intro h
    rcases List.mem_append.mp h with front | number
    · exact name front
    · rw [isDigit_decimal number] at digit
      cases digit
  exact ⟨apart (by decide) (by decide), apart (by decide) (by decide)⟩

/-- A table of so many processors. -/
structure Table.Printable (table : Table) (count : Nat) : Prop where
  length : table.cpus.length = count
  total : CpuMonitor.Printable table.total
  cpus : ∀ s ∈ table.cpus, CpuMonitor.Printable s

/-- A file of such a table whose other columns and lines are ones. -/
structure StatFile.Printable (file : StatFile) (count : Nat) : Prop where
  table : file.table.Printable count
  words : ∀ line, ∀ text ∈ file.more line, Word text
  unbroken : ∀ line ∈ file.rest, ascii '\n' ∉ line

/-- The file that shows a table lists it, whatever columns and lines there are more. -/
theorem printFile_lists {count : Nat} {file : StatFile} (printable : file.Printable count) :
    Lists (printFile file) count file.table := by
  obtain ⟨⟨length, total, cpus⟩, words, unbroken⟩ := printable
  have apart : ∀ line ∈ printLine (literal "cpu") 1 file.table.total (file.more 0) ::
      (file.table.cpus.mapIdx (fun cpu s => printLine (literal "cpu" ++ decimal cpu) 0 s (file.more (cpu + 1))) ++
        file.rest), ascii '\n' ∉ line := by
    intro line member
    rw [List.mem_cons, List.mem_append] at member
    rcases member with rfl | row | last
    · exact printLine_unbroken word_cpu (words 0) 1
    · obtain ⟨cpu, inside, rfl⟩ := List.mem_mapIdx.mp row
      exact printLine_unbroken (word_decimal cpu) (words (cpu + 1)) 0
    · exact unbroken line last
  have first : printLine (literal "cpu") 1 file.table.total (file.more 0) ≠ [] := by
    rw [printLine, intercalate_cons]
    exact List.append_ne_nil_of_left_ne_nil (by decide) _
  have lines := splitDelimiter_intercalate apart (List.cons_ne_nil _ _) (fun h => first (List.cons.inj h).1)
  refine ⟨⟨_, ?_, printLine_shows word_cpu (by decide) (words 0) total 1⟩, length, fun cpu s at_cpu => ?_⟩
  · rw [fileLines, printFile, lines, List.getElem?_cons_zero]
  · have inside := (List.getElem?_eq_some_iff.mp at_cpu).1
    have shown := printLine_shows (word_decimal cpu) (List.append_ne_nil_of_left_ne_nil (by decide) _)
      (words (cpu + 1)) (cpus s (List.mem_of_getElem? at_cpu)) 0
    refine ⟨_, ?_, shown⟩
    rw [fileLines, printFile, lines, List.getElem?_cons_succ, List.getElem?_append_left, List.getElem?_mapIdx,
      at_cpu]
    · rfl
    · rw [List.length_mapIdx]
      exact inside

section Run

variable {ε : Type} {n : Nat}

/-- The calls that read these files. -/
def printed (ε : Type) (first : StatFile) (files : List StatFile) : List (Call ε) :=
  .doInitialize (.ok ()) (.ok (printFile first)) :: files.map fun file => .update (.ok (printFile file))

theorem contents_updates (files : List (List Byte)) :
    contents n n (files.map fun content => (Call.update (.ok content) : Call ε)) =
      files.map fun content => (n, content) := by
  induction files with
  | nil => rfl
  | cons content files ih => exact congrArg (_ :: ·) ih

theorem counted_updates (files : List (List Byte)) :
    counted n (files.map fun content => (Call.update (.ok content) : Call ε)) n = n := by
  induction files with
  | nil => rfl
  | cons content files ih => exact ih

/-- The tables that are printed to the file are read back from it, by whatever number of calls. -/
theorem printed_read_back {first : StatFile} {files : List StatFile}
    (printable : ∀ file ∈ first :: files, file.Printable n) :
    (printed ε first files).foldlM (called n) {} = .ok (showing n ((first :: files).map StatFile.table)) := by
  have mapped : (files.map fun file => (Call.update (.ok (printFile file)) : Call ε)) =
      (files.map printFile).map fun content => .update (.ok content) := by
    rw [List.map_map]
    rfl
  have reads : contents n 0 (printed ε first files) = (first :: files).map fun file => (n, printFile file) := by
    change (n, printFile first) :: contents n n (files.map _) = _
    rw [mapped, contents_updates, List.map_map]
    rfl
  have known : counted n (printed ε first files) 0 = n := by
    change counted n (files.map _) n = n
    rw [mapped, counted_updates]
  refine reached_iff.mpr ⟨(first :: files).map StatFile.table, ?_, by rw [known]⟩
  rw [reads]
  generalize first :: files = all at printable
  induction all with
  | nil => exact .nil
  | cons file all ih =>
    exact .cons (printFile_lists (printable file List.mem_cons_self))
      (ih fun other member => printable other (List.mem_cons_of_mem _ member))

/-- Two readings of a processor. -/
def sampleBefore : Statistics := ⟨1, 2, 3, 4, 5, 6, 7, 8, 9, 45⟩

def sampleAfter : Statistics := ⟨2, 2, 3, 14, 5, 6, 7, 8, 9, 56⟩

def sampleFirst : Table := ⟨sampleBefore, [sampleBefore]⟩

def sampleSecond : Table := ⟨sampleAfter, [sampleAfter]⟩

def fileFirst : StatFile := ⟨sampleFirst, fun _ => [literal "0"], [literal "btime 1"]⟩

/-- The line of the processor has no further column here. -/
def fileSecond : StatFile := ⟨sampleSecond, fun line => if line = 0 then [literal "0"] else [], []⟩

theorem sample_printable {s : Statistics} (h : s = sampleBefore ∨ s = sampleAfter) :
    Table.Printable ⟨s, [s]⟩ 1 := by
  have printable : Printable s := by
    rcases h with rfl | rfl
    · exact ⟨by decide, rfl⟩
    · exact ⟨by decide, rfl⟩
  exact ⟨rfl, printable, fun t member => List.mem_singleton.mp member ▸ printable⟩

theorem printed_read_back_sample :
    (printed Unit fileFirst [fileSecond]).foldlM (called 1) {} =
      .ok (showing 1 [sampleFirst, sampleSecond]) := by
  have zero : Word (literal "0") := ⟨by decide, by decide⟩
  refine @printed_read_back Unit 1 fileFirst [fileSecond] fun file member => ?_
  rcases List.mem_pair.mp member with rfl | rfl
  · refine ⟨sample_printable (Or.inl rfl), fun line text member => ?_, by decide⟩
    exact List.mem_singleton.mp member ▸ zero
  · refine ⟨sample_printable (Or.inr rfl), fun line text member => ?_, by decide⟩
    change text ∈ if line = 0 then [literal "0"] else [] at member
    split at member
    · exact List.mem_singleton.mp member ▸ zero
    · cases member

end Run

end CpuMonitor

end Hlib
