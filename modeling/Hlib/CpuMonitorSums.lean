import Hlib.CpuMonitorText

namespace Hlib.CpuMonitor

variable {ε : Type} {n count : Nat} {m : CpuMonitor} {cpu : Int}

section Sums

/-- What a caller is told who takes the difference after each call that succeeds. -/
def poll (n : Nat) (field : Statistics → Int) (cpu : Int) : CpuMonitor → List (Call ε) →
    Evaluated (List Int × CpuMonitor)
  | m, [] => .ok ([], m)
  | m, call :: calls => do
    let next ← call.run n m
    match next.1 with
    | .error _ => poll n field cpu next.2 calls
    | .ok () => do
      let difference ← delta field cpu next.2
      let later ← poll n field cpu next.2 calls
      .ok (difference :: later.1, later.2)

/-- A call that fails has read nothing, and one that succeeds has read one content. -/
theorem run_result {call : Call ε} {next : Except ε Unit × CpuMonitor} (h : call.run n m = .ok next)
    (before : Nat) :
    (∃ e, next.1 = .error e) ∧ call.read n before = [] ∨
      next.1 = .ok () ∧ ∃ count content, call.read n before = [(count, content)] := by
  have updated {m : CpuMonitor} {content : List Byte} (h : update (ε := ε) (.ok content) m = .ok next) :
      next.1 = .ok () := by
    obtain ⟨_, _, h⟩ := evaluated_bind h
    obtain ⟨_, _, h⟩ := evaluated_bind h
    obtain ⟨_, _, h⟩ := evaluated_bind h
    obtain ⟨_, _, h⟩ := evaluated_bind h
    cases h
    rfl
  cases call with
  | update file =>
    cases file with
    | error e =>
      cases h
      exact Or.inl ⟨⟨e, rfl⟩, rfl⟩
    | ok content => exact Or.inr ⟨updated h, before, content, rfl⟩
  | doInitialize found file =>
    cases found with
    | error e =>
      cases h
      exact Or.inl ⟨⟨e, rfl⟩, rfl⟩
    | ok _ =>
      cases file with
      | error e =>
        cases h
        exact Or.inl ⟨⟨e, rfl⟩, rfl⟩
      | ok content => exact Or.inr ⟨updated h, n, content, rfl⟩

theorem knows_mono {past : List Table} (known : Known n count past) (call : Call ε) :
    count ≤ call.knows n count := by
  cases call with
  | update file => exact Nat.le_refl _
  | doInitialize found file =>
    cases found with
    | error e => exact Nat.le_refl _
    | ok _ =>
      rcases known with rfl | ⟨rfl, _⟩
      · exact Nat.le_refl _
      · exact Nat.zero_le _

theorem poll_showing {past : List Table} (known : Known n count past) {cpu : Int} (inside : cpu < count)
    (field : Statistics → Int) {calls : List (Call ε)} {differences : List Int} {last : CpuMonitor}
    (h : poll n field cpu (showing count past) calls = .ok (differences, last)) :
    ∃ after, current cpu last = .ok after ∧
      differences.sum = field after - field ((latest past 0).row cpu) := by
  induction calls generalizing count past differences with
  | nil =>
    cases h
    exact ⟨_, current_showing past inside, (sub_self _).symm⟩
  | cons call calls ih =>
    obtain ⟨next, ran, h⟩ := evaluated_bind h
    have reached : called n (showing count past) call = .ok next.2 := by rw [called, ran]; rfl
    obtain ⟨tables, read, same⟩ := (called_iff known call).mp reached
    have known' := known_next known call read
    have inside' : cpu < call.knows n count := lt_of_lt_of_le inside (Int.ofNat_le.mpr (knows_mono known call))
    rw [same] at h
    rcases run_result ran count with ⟨⟨e, failed⟩, none_⟩ | ⟨succeeded, _, content, one⟩
    · rw [failed] at h
      rw [none_] at read
      cases read
      rw [List.append_nil] at h known'
      exact ih known' inside' h
    · rw [succeeded] at h
      rw [one] at read
      obtain ⟨table, _, rfl⟩ := read_one_iff.mp read
      obtain ⟨difference, taken, h⟩ := evaluated_bind h
      obtain ⟨later, rest, h⟩ := evaluated_bind h
      cases h
      obtain ⟨after, at_last, sum⟩ := ih known' inside' rest
      rw [delta, current_showing _ inside', evaluated_ok, previous_showing _ inside', evaluated_ok,
        int64T_ok_iff, latest_snoc, latest_snoc_succ] at taken
      rw [latest_snoc] at sum
      have exact_ : difference = field (table.row cpu) - field ((latest past 0).row cpu) := (int64_iff.mp taken).2
      refine ⟨after, at_last, ?_⟩
      rw [List.sum_cons, sum, exact_]
      omega

/-- The differences that are told after the calls that succeed add up to that of the last and the first reading, so
that no tick is lost and none is counted twice. -/
theorem poll_sum {calls' calls : List (Call ε)} (start : calls'.foldlM (called n) {} = .ok m) {cpu : Int}
    {first : Statistics} (reading : current cpu m = .ok first) {field : Statistics → Int}
    {differences : List Int} {last : CpuMonitor} (h : poll n field cpu m calls = .ok (differences, last)) :
    ∃ after, current cpu last = .ok after ∧ differences.sum = field after - field first := by
  obtain ⟨tables, read, rfl⟩ := reached_iff.mp start
  have inside : cpu < counted n calls' 0 := current_known reading
  rw [current_showing tables inside] at reading
  cases reading
  exact poll_showing (known_run (Or.inr ⟨rfl, fun _ member => absurd member List.not_mem_nil⟩) read) inside field h

theorem poll_sum_sample :
    ∃ after, current 0 (showing 1 [sampleFirst, sampleSecond]) = .ok after ∧
      [11].sum = after.total - sampleBefore.total := by
  have start : (printed Unit fileFirst []).foldlM (called 1) {} = .ok (showing 1 [sampleFirst]) := rfl
  have reading : current 0 (showing 1 [sampleFirst]) = .ok sampleBefore := rfl
  have polled : poll 1 Statistics.total 0 (showing 1 [sampleFirst])
      [.update (.error ()), .update (.ok (printFile fileSecond))] =
      .ok ([11], showing 1 [sampleFirst, sampleSecond]) := rfl
  exact poll_sum start reading polled

end Sums

section Shares

/-- No counter is negative or falls. -/
def Grows (before after : Statistics) : Prop :=
  List.Forall₂ (fun earlier later : Int => 0 ≤ earlier ∧ earlier ≤ later) (numbers before) (numbers after)

/-- The counters of all that is done. -/
def work (s : Statistics) : Int :=
  s.user + s.nice + s.system + s.irq + s.softirq + s.steal + s.guestNice

/-- The total is the sum of the counters, and of the type. -/
structure Summed (s : Statistics) : Prop where
  total : s.total = work s + s.idle + s.iowait
  range : -2 ^ 63 ≤ s.total ∧ s.total < 2 ^ 63

theorem accumulated {numbers : List Int} {start total : Int} (within : -2 ^ 63 ≤ start ∧ start < 2 ^ 63)
    (h : numbers.foldlM accumulate start = some total) :
    total = start + numbers.sum ∧ -2 ^ 63 ≤ total ∧ total < 2 ^ 63 := by
  induction numbers generalizing start with
  | nil =>
    cases h
    exact ⟨(add_zero _).symm, within⟩
  | cons number numbers ih =>
    rw [List.foldlM_cons] at h
    obtain ⟨next, added, h⟩ := Option.bind_eq_some_iff.mp h
    obtain ⟨range, rfl⟩ := int64_iff.mp added
    obtain ⟨sum, final⟩ := ih range h
    rw [List.sum_cons, ← add_assoc]
    exact ⟨sum, final⟩

theorem Shows.summed {line : List Byte} {s : Statistics} (h : Shows line s) : Summed s := by
  obtain ⟨sum, range⟩ := accumulated ⟨by decide, by decide⟩ h.total
  refine ⟨?_, range⟩
  simp only [numbers, List.sum_cons, List.sum_nil] at sum
  rw [sum, work]
  omega

theorem summed_zero : Summed {} := ⟨rfl, by decide, by decide⟩

theorem read_mem {reads : List (Nat × List Byte)} {tables : List Table} (read : Read reads tables) {table : Table}
    (member : table ∈ tables) : ∃ content count, Lists content count table := by
  induction read with
  | nil => cases member
  | cons listed _ ih =>
    rcases List.mem_cons.mp member with rfl | later
    · exact ⟨_, _, listed⟩
    · exact ih later

theorem Lists.summed {content : List Byte} {table : Table} (listed : Lists content count table) (cpu : Int) :
    Summed (table.row cpu) := by
  unfold Table.row
  split
  next =>
    obtain ⟨_, _, shown⟩ := listed.total
    exact shown.summed
  next =>
    cases at_cpu : table.cpus[cpu.toNat]? with
    | none => exact summed_zero
    | some s =>
      obtain ⟨_, _, shown⟩ := listed.cpus _ s at_cpu
      exact shown.summed

theorem row_summed {reads : List (Nat × List Byte)} {tables : List Table} (read : Read reads tables) (back : Nat)
    (cpu : Int) : Summed ((latest tables back).row cpu) := by
  unfold latest
  cases at_back : tables.reverse[back]? with
  | none =>
    have zero : Table.row ⟨{}, []⟩ cpu = {} := by
      unfold Table.row
      split <;> rfl
    rw [Option.getD_none, zero]
    exact summed_zero
  | some table =>
    obtain ⟨_, _, listed⟩ := read_mem read (List.mem_reverse.mp (List.mem_of_getElem? at_back))
    exact listed.summed cpu

theorem delta_ok {before after : Statistics} (reading : previous cpu m = .ok before)
    (reading' : current cpu m = .ok after) (field : Statistics → Int)
    (range : -2 ^ 63 ≤ field after - field before ∧ field after - field before < 2 ^ 63) :
    delta field cpu m = .ok (field after - field before) := by
  rw [delta, reading', evaluated_ok, reading, evaluated_ok]
  exact int64T_ok_iff.mpr (int64_iff.mpr ⟨range, rfl⟩)

/-- In the time between two readings of counters that do not fall, the busy ticks are those of the counters other
than `idle` and `iowait`, and with these two they make up the total. -/
theorem busy_share {calls : List (Call ε)} (run : calls.foldlM (called n) {} = .ok m) {before after : Statistics}
    (reading : previous cpu m = .ok before) (reading' : current cpu m = .ok after) (grows : Grows before after) :
    ∃ busy total idle iowait, m.busy cpu = .ok busy ∧ m.total cpu = .ok total ∧ m.idle cpu = .ok idle ∧
      m.iowait cpu = .ok iowait ∧ busy = work after - work before ∧ total = busy + idle + iowait ∧
      0 ≤ busy ∧ 0 ≤ idle ∧ 0 ≤ iowait := by
  obtain ⟨tables, read, same⟩ := reached_iff.mp run
  have inside : cpu < counted n calls 0 := by
    have := current_known reading'
    rw [same] at this
    exact this
  have earlier : Summed before := by
    rw [same, previous_showing tables inside] at reading
    cases reading
    exact row_summed read 1 cpu
  have later : Summed after := by
    rw [same, current_showing tables inside] at reading'
    cases reading'
    exact row_summed read 0 cpu
  simp only [Grows, numbers, List.forall₂_cons] at grows
  obtain ⟨user, nice, system, idle, iowait, irq, softirq, steal, guestNice, _⟩ := grows
  obtain ⟨sum, range⟩ := earlier
  obtain ⟨sum', range'⟩ := later
  have worked : 0 ≤ work before ∧ work before ≤ work after := by
    unfold work
    omega
  have totals : m.total cpu = .ok (after.total - before.total) :=
    delta_ok reading reading' Statistics.total (by omega)
  have idles : m.idle cpu = .ok (after.idle - before.idle) :=
    delta_ok reading reading' Statistics.idle (by omega)
  have iowaits : m.iowait cpu = .ok (after.iowait - before.iowait) :=
    delta_ok reading reading' Statistics.iowait (by omega)
  have waited : int64T (after.idle - before.idle + (after.iowait - before.iowait)) =
      .ok (after.idle - before.idle + (after.iowait - before.iowait)) :=
    int64T_ok_iff.mpr (int64_iff.mpr ⟨by omega, rfl⟩)
  have rest : int64T (after.total - before.total - (after.idle - before.idle + (after.iowait - before.iowait))) =
      .ok (work after - work before) :=
    int64T_ok_iff.mpr (int64_iff.mpr ⟨by omega, by omega⟩)
  refine ⟨work after - work before, _, _, _, ?_, totals, idles, iowaits, rfl, ?_, ?_, ?_, ?_⟩
  · rw [busy, totals, evaluated_ok, idles, evaluated_ok, iowaits, evaluated_ok, waited, evaluated_ok, rest]
  all_goals omega

theorem busy_share_sample :
    ∃ busy total idle iowait, (showing 1 [sampleFirst, sampleSecond]).busy 0 = .ok busy ∧
      (showing 1 [sampleFirst, sampleSecond]).total 0 = .ok total ∧
      (showing 1 [sampleFirst, sampleSecond]).idle 0 = .ok idle ∧
      (showing 1 [sampleFirst, sampleSecond]).iowait 0 = .ok iowait ∧
      busy = work sampleAfter - work sampleBefore ∧ total = busy + idle + iowait ∧
      0 ≤ busy ∧ 0 ≤ idle ∧ 0 ≤ iowait := by
  have run : (printed Unit fileFirst [fileSecond]).foldlM (called 1) {} =
      .ok (showing 1 [sampleFirst, sampleSecond]) := rfl
  refine busy_share run rfl rfl ?_
  simp only [Grows, numbers, sampleBefore, sampleAfter, List.forall₂_cons]
  decide

end Shares

end Hlib.CpuMonitor
