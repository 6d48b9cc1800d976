import Hlib.Duration
import Hlib.StringInteger
import Hlib.StringSplit
import Hlib.TestSuite

namespace Hlib

/-- `CPUMonitor::Statistics`. -/
structure Statistics where
  user : Int := 0
  nice : Int := 0
  system : Int := 0
  idle : Int := 0
  iowait : Int := 0
  irq : Int := 0
  softirq : Int := 0
  steal : Int := 0
  guestNice : Int := 0
  total : Int := 0
  deriving DecidableEq, Repr

structure CpuMonitor where
  count : Nat := 0
  totalPrevious : Statistics := {}
  totalCurrent : Statistics := {}
  cpuPrevious : List Statistics := []
  cpuCurrent : List Statistics := []
  deriving DecidableEq, Repr

namespace CpuMonitor

/-- How an evaluation ends without a value. -/
inductive Stop
  | fault (fault : Fault)
  /-- A signed expression that overflows. -/
  | overflow
  deriving DecidableEq, Repr

abbrev Evaluated (α : Type) := Except Stop α

def lift {α : Type} : Checked α → Evaluated α := Except.mapError .fault

/-- The value of a `std::int64_t` expression. -/
def int64T (n : Int) : Evaluated Int :=
  match int64 n with
  | some number => .ok number
  | none => .error .overflow

/-- `operator[]` of a vector. -/
def index {α : Type} (vector : List α) (i : Nat) : Evaluated α :=
  match vector[i]? with
  | some element => .ok element
  | none => .error (.fault .outOfBounds)

/-- The assignment to an element of a vector. -/
def assign {α : Type} (vector : List α) (i : Nat) (element : α) : Evaluated (List α) :=
  if i < vector.length then .ok (vector.set i element) else .error (.fault .outOfBounds)

/-- `parse_number(index)`: the number and the total with it. `string_to`, which sets `errno` to 0 first, throws
where there is none, which ends in the `noexcept` of `parse`. -/
def parseNumber (columns : List (List Byte)) (i : Nat) (total : Int) : Evaluated (Int × Int) := do
  let column ← index columns i
  match (StringTo.signedOrThrow Libc.strtol Libc.strtoll .eight column 10 0).1 with
  | .error _ => .error (.fault .terminate)
  | .ok number => do
    let total ← int64T (total + number)
    .ok (number, total)

def parse (line : List Byte) : Evaluated Statistics := do
  let columns := splitDelimiter line (ascii ' ') true
  let (user, total) ← parseNumber columns 1 0
  let (nice, total) ← parseNumber columns 2 total
  let (system, total) ← parseNumber columns 3 total
  let (idle, total) ← parseNumber columns 4 total
  let (iowait, total) ← parseNumber columns 5 total
  let (irq, total) ← parseNumber columns 6 total
  let (softirq, total) ← parseNumber columns 7 total
  let (steal, total) ← parseNumber columns 8 total
  let (guestNice, total) ← parseNumber columns 9 total
  .ok { user, nice, system, idle, iowait, irq, softirq, steal, guestNice, total }

/-- A pass of the loop over the processors. -/
def updateCpu (lines : List (List Byte)) (m : CpuMonitor) (cpu : Nat) : Evaluated CpuMonitor := do
  let current ← index m.cpuCurrent cpu
  let cpuPrevious ← assign m.cpuPrevious cpu current
  let line ← index lines (cpu + 1)
  let parsed ← parse line
  let cpuCurrent ← assign m.cpuCurrent cpu parsed
  .ok { m with cpuPrevious, cpuCurrent }

/-- `update()`, for what `read("/proc/stat")` gives. -/
def update {ε : Type} (file : Except ε (List Byte)) (m : CpuMonitor) : Evaluated (Except ε Unit × CpuMonitor) :=
  match file with
  | .error e => .ok (.error e, m)
  | .ok content => do
    let lines := splitDelimiter content (ascii '\n') false
    lift (require (lines.length ≥ m.count + 1) .assertion)
    let line ← index lines 0
    let total ← parse line
    let m := { m with totalPrevious := m.totalCurrent, totalCurrent := total }
    let m ← (List.range m.count).foldlM (updateCpu lines) m
    .ok (.ok (), m)

/-- `resize(count, {})` of a vector. -/
def resize (vector : List Statistics) (count : Nat) : List Statistics :=
  vector.take count ++ List.replicate (count - vector.length) ({} : Statistics)

/-- `initialize()`, for what `cpu_get_count` gives. -/
def doInitialize {ε : Type} (processors : Except ε Nat) (file : Except ε (List Byte)) (m : CpuMonitor) :
    Evaluated (Except ε Unit × CpuMonitor) :=
  match processors with
  | .error e => .ok (.error e, m)
  | .ok count => update file { m with
      count := count
      cpuPrevious := resize m.cpuPrevious count
      cpuCurrent := resize m.cpuCurrent count }

/-- `previous(cpu)`; a negative number stands for all processors. -/
def previous (cpu : Int) (m : CpuMonitor) : Evaluated Statistics := do
  lift <| require (cpu < m.count) .assertion
  if cpu < 0 then .ok m.totalPrevious else index m.cpuPrevious cpu.toNat

def current (cpu : Int) (m : CpuMonitor) : Evaluated Statistics := do
  lift <| require (cpu < m.count) .assertion
  if cpu < 0 then .ok m.totalCurrent else index m.cpuCurrent cpu.toNat

/-- The functions that take a field of `previous` from that of `current`. -/
def delta (field : Statistics → Int) (cpu : Int) (m : CpuMonitor) : Evaluated Int := do
  let after ← m.current cpu
  let before ← m.previous cpu
  int64T (field after - field before)

def user : Int → CpuMonitor → Evaluated Int := delta Statistics.user

def nice : Int → CpuMonitor → Evaluated Int := delta Statistics.nice

def system : Int → CpuMonitor → Evaluated Int := delta Statistics.system

def idle : Int → CpuMonitor → Evaluated Int := delta Statistics.idle

def iowait : Int → CpuMonitor → Evaluated Int := delta Statistics.iowait

def irq : Int → CpuMonitor → Evaluated Int := delta Statistics.irq

def softirq : Int → CpuMonitor → Evaluated Int := delta Statistics.softirq

def steal : Int → CpuMonitor → Evaluated Int := delta Statistics.steal

def guestNice : Int → CpuMonitor → Evaluated Int := delta Statistics.guestNice

def total : Int → CpuMonitor → Evaluated Int := delta Statistics.total

def busy (cpu : Int) (m : CpuMonitor) : Evaluated Int := do
  let total ← m.total cpu
  let idle ← m.idle cpu
  let iowait ← m.iowait cpu
  let waited ← int64T (idle + iowait)
  int64T (total - waited)

/-- `cpu_get_frequency(cpu)`, for what `read` gives before it trims; an exception of `string_to` ends in the
`noexcept`. -/
def cpuGetFrequency {ε : Type} (file : Except ε (List Byte)) : Checked (Except ε Int) :=
  match file with
  | .error e => .ok (.error e)
  | .ok content =>
    match (StringTo.signedOrThrow Libc.strtol Libc.strtoll .four (TestSuite.trim content) 10 0).1 with
    | .error _ => .error .terminate
    | .ok frequency => .ok (.ok frequency)

/-- `cpu_get_cache_size(cpu, cache_index)`. Without a suffix the factor has no value. -/
def cpuGetCacheSize {ε : Type} (file : Except ε (List Byte)) : Checked (Except ε Nat) :=
  match file with
  | .error e => .ok (.error e)
  | .ok content => do
    let string := TestSuite.trim content
    require (string ≠ []) .assertion
    let suffix := string.getLast?
    let string := string.rdropWhile [ascii 'K', ascii 'M'].contains
    match (StringTo.unsignedOrThrow Libc.strtoul Libc.strtoull .eight string 10 0).1 with
    | .error _ => .error .terminate
    | .ok size =>
      if suffix = some (ascii 'K') then .ok (.ok (sizeT (size * 1024)))
      else if suffix = some (ascii 'M') then .ok (.ok (sizeT (size * (1024 * 1024))))
      else .error .uninitialised

end CpuMonitor

end Hlib
