import Hlib.CpuMonitorUpdate

namespace Hlib.CpuMonitor

variable {ε : Type} {n count : Nat} {m m' : CpuMonitor}

section Calls

/-- The calls that read the file. On a system of `n` processors `cpu_get_count` finds them, or fails. -/
inductive Call (ε : Type)
  | doInitialize (found : Except ε Unit) (file : Except ε (List Byte))
  | update (file : Except ε (List Byte))

namespace Call

def run (n : Nat) (m : CpuMonitor) : Call ε → Evaluated (Except ε Unit × CpuMonitor)
  | doInitialize found file => m.doInitialize (found.map fun _ => n) file
  | update file => m.update file

/-- The processors that the monitor knows of. -/
def knows (n before : Nat) : Call ε → Nat
  | doInitialize (.ok _) _ => n
  | doInitialize (.error _) _ => before
  | update _ => before

/-- The content that is read, with the number of processors it is read for. -/
def read (n before : Nat) : Call ε → List (Nat × List Byte)
  | doInitialize (.ok _) (.ok content) => [(n, content)]
  | update (.ok content) => [(before, content)]
  | _ => []

end Call

/-- The monitor after a call, whether that failed or not. -/
def called (n : Nat) (m : CpuMonitor) (call : Call ε) : Evaluated CpuMonitor := Prod.snd <$> call.run n m

def counted (n : Nat) (calls : List (Call ε)) (before : Nat) : Nat :=
  calls.foldl (fun count call => call.knows n count) before

def contents (n : Nat) : Nat → List (Call ε) → List (Nat × List Byte)
  | _, [] => []
  | count, call :: calls => call.read n count ++ contents n (call.knows n count) calls

end Calls

section History

/-- The latest table, those before it, and one of zeros before the first. -/
def latest (tables : List Table) (back : Nat) : Table := tables.reverse[back]?.getD ⟨{}, []⟩

/-- The row of a processor, or that of all of them; zeros where the table has none. -/
def Table.row (table : Table) (cpu : Int) : Statistics :=
  if cpu < 0 then table.total else table.cpus[cpu.toNat]?.getD {}

def Table.rows (table : Table) (count : Nat) : List Statistics :=
  (List.range count).map fun cpu : Nat => table.row (cpu : Int)

/-- A monitor that knows of these processors and has read these tables. -/
def showing (count : Nat) (tables : List Table) : CpuMonitor where
  count := count
  totalPrevious := (latest tables 1).total
  totalCurrent := (latest tables 0).total
  cpuPrevious := (latest tables 1).rows count
  cpuCurrent := (latest tables 0).rows count

/-- As long as the monitor does not know of the processors, the tables have no rows for them. -/
def Known (n count : Nat) (tables : List Table) : Prop :=
  count = n ∨ count = 0 ∧ ∀ table ∈ tables, table.cpus = []

theorem latest_snoc (tables : List Table) (table : Table) : latest (tables ++ [table]) 0 = table := by
  rw [latest, List.reverse_concat, List.getElem?_cons_zero]
  rfl

theorem latest_snoc_succ (tables : List Table) (table : Table) (back : Nat) :
    latest (tables ++ [table]) (back + 1) = latest tables back := by
  rw [latest, List.reverse_concat, List.getElem?_cons_succ]
  rfl

theorem rows_length (table : Table) : (table.rows count).length = count := by
  rw [Table.rows, List.length_map, List.length_range]

theorem rows_full {table : Table} (length : table.cpus.length = count) : table.rows count = table.cpus := by
  refine List.ext_getElem ((rows_length table).trans length.symm) fun cpu _ inside => ?_
  have positive : ¬(cpu : Int) < 0 := by omega
  simp only [Table.rows, List.getElem_map, List.getElem_range, Table.row, if_neg positive, Int.toNat_natCast,
    List.getElem?_eq_getElem inside, Option.getD_some]

theorem rows_none {table : Table} (none_ : table.cpus = []) : table.rows count = List.replicate count {} := by
  refine List.ext_getElem ((rows_length table).trans List.length_replicate.symm) fun cpu _ _ => ?_
  have positive : ¬(cpu : Int) < 0 := by omega
  simp only [Table.rows, List.getElem_map, List.getElem_range, Table.row, if_neg positive, none_,
    List.getElem?_nil, Option.getD_none, List.getElem_replicate]

theorem fitted_showing (tables : List Table) : Fitted (showing count tables) := ⟨rows_length _, rows_length _⟩

theorem latest_none {tables : List Table} (none_ : ∀ table ∈ tables, table.cpus = []) (back : Nat) :
    (latest tables back).cpus = [] := by
  unfold latest
  cases at_back : tables.reverse[back]? with
  | none => rfl
  | some table => exact none_ table (List.mem_reverse.mp (List.mem_of_getElem? at_back))

/-- The vectors that are made longer get the zeros that stand for the missing rows. -/
theorem resize_rows {tables : List Table} (known : Known n count tables) (back : Nat) :
    resize ((latest tables back).rows count) n = (latest tables back).rows n := by
  rw [resize, rows_length]
  rcases known with rfl | ⟨rfl, none_⟩
  · rw [Nat.sub_self, List.replicate_zero, List.append_nil]
    exact List.take_of_length_le (Nat.le_of_eq (rows_length _))
  · rw [rows_none (latest_none none_ back), rows_none (latest_none none_ back), List.replicate_zero, List.take_nil,
      List.nil_append, Nat.sub_zero]

theorem shift_showing (tables : List Table) {table : Table} (length : table.cpus.length = count) :
    shift (showing count tables) table = showing count (tables ++ [table]) := by
  simp only [shift, showing, latest_snoc, latest_snoc_succ, rows_full length]

end History

section Runs

/-- Each content lists the processors it is read for, and shows this table of them. -/
def Read (reads : List (Nat × List Byte)) (tables : List Table) : Prop :=
  List.Forall₂ (fun read table => Lists read.2 read.1 table) reads tables

theorem read_one_iff {content : List Byte} {tables : List Table} :
    Read [(count, content)] tables ↔ ∃ table, Lists content count table ∧ tables = [table] := by
  constructor
  · intro h
    cases h with
    | cons listed rest =>
      cases rest
      exact ⟨_, listed, rfl⟩
  · rintro ⟨table, listed, rfl⟩
    exact .cons listed .nil

theorem read_split {front rest : List (Nat × List Byte)} {tables : List Table} (h : Read (front ++ rest) tables) :
    ∃ one later, Read front one ∧ Read rest later ∧ tables = one ++ later := by
  induction front generalizing tables with
  | nil => exact ⟨[], tables, .nil, h, rfl⟩
  | cons read front ih =>
    cases h with
    | cons listed h =>
      obtain ⟨one, later, reads, last, rfl⟩ := ih h
      exact ⟨_ :: one, later, .cons listed reads, last, rfl⟩

theorem updated_iff {past : List Table} (file : Except ε (List Byte)) :
    Prod.snd <$> update file (showing count past) = .ok m' ↔
      ∃ tables, Read ((Call.update file).read n count) tables ∧ m' = showing count (past ++ tables) := by
  cases file with
  | error e =>
    constructor
    · intro h
      cases h
      exact ⟨[], .nil, by rw [List.append_nil]⟩
    · rintro ⟨tables, read, rfl⟩
      cases read
      rw [List.append_nil]
      rfl
  | ok content =>
    have content_iff := fun r => @update_content_iff (showing count past) m' content ε (fitted_showing past) r
    constructor
    · intro h
      obtain ⟨⟨r, _⟩, updated, rfl⟩ : ∃ a, update (.ok content) (showing count past) = .ok a ∧ a.2 = m' := by
        cases updated : update (ε := ε) (.ok content) (showing count past) with
        | error stop =>
          rw [updated] at h
          cases h
        | ok a =>
          rw [updated] at h
          exact ⟨a, rfl, Except.ok.inj h⟩
      obtain ⟨rfl, table, listed, shifted⟩ := (content_iff r).mp updated
      exact ⟨[table], read_one_iff.mpr ⟨table, listed, rfl⟩, shifted.trans (shift_showing past listed.length)⟩
    · rintro ⟨tables, read, rfl⟩
      obtain ⟨table, listed, rfl⟩ := read_one_iff.mp read
      rw [(content_iff (.ok ())).mpr ⟨rfl, table, listed, (shift_showing past listed.length).symm⟩]
      rfl

/-- What a call makes of a monitor. -/
theorem called_iff {past : List Table} (known : Known n count past) (call : Call ε) :
    called n (showing count past) call = .ok m' ↔
      ∃ tables, Read (call.read n count) tables ∧ m' = showing (call.knows n count) (past ++ tables) := by
  cases call with
  | update file => exact updated_iff file
  | doInitialize found file =>
    cases found with
    | error e =>
      constructor
      · intro h
        cases h
        exact ⟨[], .nil, by rw [List.append_nil]; rfl⟩
      · rintro ⟨tables, read, rfl⟩
        cases read
        rw [List.append_nil]
        rfl
    | ok _ =>
      have resized : ({ showing count past with
          count := n
          cpuPrevious := resize (showing count past).cpuPrevious n
          cpuCurrent := resize (showing count past).cpuCurrent n } : CpuMonitor) = showing n past := by
        simp only [showing, resize_rows known]
      have same : called n (showing count past) (.doInitialize (.ok ()) file) =
          Prod.snd <$> update file (showing n past) := by
        rw [← resized]
        rfl
      rw [same, updated_iff (n := n) file]
      cases file <;> exact Iff.rfl

theorem known_next {past tables : List Table} (known : Known n count past) (call : Call ε)
    (read : Read (call.read n count) tables) : Known n (call.knows n count) (past ++ tables) := by
  have quiet (none_ : tables = []) : Known n count (past ++ tables) := by rw [none_, List.append_nil]; exact known
  cases call with
  | doInitialize found file =>
    cases found with
    | error e =>
      cases read
      exact quiet rfl
    | ok _ => exact Or.inl rfl
  | update file =>
    cases file with
    | error e =>
      cases read
      exact quiet rfl
    | ok content =>
      obtain ⟨table, listed, rfl⟩ := read_one_iff.mp read
      rcases known with same | ⟨zero, none_⟩
      · exact Or.inl same
      · refine Or.inr ⟨zero, fun t member => ?_⟩
        rcases List.mem_append.mp member with earlier | last
        · exact none_ t earlier
        · rw [List.mem_singleton.mp last]
          exact List.eq_nil_of_length_eq_zero (listed.length.trans zero)

theorem run_iff {past : List Table} (known : Known n count past) (calls : List (Call ε)) :
    calls.foldlM (called n) (showing count past) = .ok m' ↔
      ∃ tables, Read (contents n count calls) tables ∧
        m' = showing (counted n calls count) (past ++ tables) := by
  induction calls generalizing count past with
  | nil =>
    constructor
    · intro h
      cases h
      exact ⟨[], .nil, by rw [List.append_nil]; rfl⟩
    · rintro ⟨tables, read, rfl⟩
      cases read
      rw [List.append_nil]
      rfl
  | cons call calls ih =>
    rw [List.foldlM_cons]
    constructor
    · intro h
      obtain ⟨m'', first, rest⟩ := evaluated_bind h
      obtain ⟨one, read, rfl⟩ := (called_iff known call).mp first
      obtain ⟨later, reads, rfl⟩ := (ih (known_next known call read)).mp rest
      exact ⟨one ++ later, List.rel_append read reads, by rw [List.append_assoc]; rfl⟩
    · rintro ⟨tables, read, rfl⟩
      obtain ⟨one, later, first, rest, rfl⟩ := read_split read
      rw [(called_iff known call).mpr ⟨one, first, rfl⟩, evaluated_ok, ih (known_next known call first)]
      exact ⟨later, rest, by rw [List.append_assoc]; rfl⟩

theorem known_run {past tables : List Table} (known : Known n count past) {calls : List (Call ε)}
    (read : Read (contents n count calls) tables) : Known n (counted n calls count) (past ++ tables) := by
  induction calls generalizing count past tables with
  | nil =>
    cases read
    rw [List.append_nil]
    exact known
  | cons call calls ih =>
    obtain ⟨one, later, first, rest, rfl⟩ := read_split read
    rw [← List.append_assoc]
    exact ih (known_next known call first) rest

theorem index_rows {table : Table} {cpu : Int} (positive : ¬cpu < 0) (known : cpu < count) :
    index (table.rows count) cpu.toNat = .ok (table.row cpu) := by
  have inside : cpu.toNat < count := by omega
  have same : (cpu.toNat : Int) = cpu := Int.toNat_of_nonneg (not_lt.mp positive)
  rw [index_ok_iff, Table.rows, List.getElem?_map, List.getElem?_range inside, Option.map_some, same]

theorem current_showing (tables : List Table) {cpu : Int} (known : cpu < count) :
    current cpu (showing count tables) = .ok ((latest tables 0).row cpu) := by
  have required : lift (require (cpu < (showing count tables).count) .assertion) = .ok () :=
    lift_require_iff.mpr known
  rw [current, required, evaluated_ok]
  split
  next negative => rw [Table.row, if_pos negative]; rfl
  next positive => exact index_rows positive known

theorem previous_showing (tables : List Table) {cpu : Int} (known : cpu < count) :
    previous cpu (showing count tables) = .ok ((latest tables 1).row cpu) := by
  have required : lift (require (cpu < (showing count tables).count) .assertion) = .ok () :=
    lift_require_iff.mpr known
  rw [previous, required, evaluated_ok]
  split
  next negative => rw [Table.row, if_pos negative]; rfl
  next positive => exact index_rows positive known

theorem current_known {cpu : Int} {s : Statistics} (h : current cpu m = .ok s) : cpu < m.count := by
  obtain ⟨_, required, _⟩ := evaluated_bind h
  exact lift_require_iff.mp required

theorem showing_nil : showing 0 [] = {} := rfl

theorem reached_iff {calls : List (Call ε)} :
    calls.foldlM (called n) {} = .ok m ↔
      ∃ tables, Read (contents n 0 calls) tables ∧ m = showing (counted n calls 0) tables := by
  rw [← showing_nil]
  exact run_iff (Or.inr ⟨rfl, fun _ member => absurd member List.not_mem_nil⟩) calls

/-- Calls come to an end just when each content they read lists the processors known then. The latest table is the
current one then and the one before it the previous one, whatever failed in between, and what a function of a field
returns is the difference of the two. -/
theorem monitored_iff (n : Nat) (calls : List (Call ε)) (m : CpuMonitor) :
    (calls.foldlM (called n) {} = .ok m ↔
      ∃ tables, Read (contents n 0 calls) tables ∧ m = showing (counted n calls 0) tables) ∧
    ∀ (tables : List Table) (count : Nat) (field : Statistics → Int) (cpu : Int), cpu < count →
      delta field cpu (showing count tables) =
        int64T (field ((latest tables 0).row cpu) - field ((latest tables 1).row cpu)) := by
  refine ⟨reached_iff, fun tables count field cpu known => ?_⟩
  rw [delta, current_showing tables known, evaluated_ok, previous_showing tables known, evaluated_ok]

end Runs

end Hlib.CpuMonitor
