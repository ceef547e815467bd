import Dlir.Collectives.Rendezvous
import Dlir.Math.Text

namespace Dlir.Cli

open Dlir.Collectives Dlir.Math

/-- Limits and usage that a process reads from its control group. -/
structure ResourceObservation where
  cpuMillis : Option Nat
  memoryLimitBytes : Option Nat
  memoryCurrentBytes : Option Nat
  cpusetCpus : Option String
  cpusetCpuCount : Option Nat
  cgroupVersion : Option String
  deriving DecidableEq, Repr

def trim (value : String) : String := String.ofList (trimMatches isWhiteSpace value.toList)

/-- The fields of a text between runs of white space. -/
def splitWhitespace (value : String) : List (List Char) :=
  (value.toList.splitOnP isWhiteSpace).filter (· ≠ [])

/-- `parse::<i64>`: an optional sign, then digits that denote a number in range. -/
def parseI64 (s : List Char) : Option Int :=
  let digits := if s.head? = some '+' ∨ s.head? = some '-' then s.tail else s
  if digits = [] ∨ ¬ digits.all Char.isDigit then none
  else if s.head? = some '-' then
    if digitsValue digits ≤ 2 ^ 63 then some (-(digitsValue digits : Int)) else none
  else if digitsValue digits < 2 ^ 63 then some (digitsValue digits)
  else none

/-- A quota per period in thousandths of one CPU. -/
def quotaMillis (quota period : Nat) : Option Nat := do
  let scaled ← checkedMul quota 1000
  some (scaled / period)

def parseCpuMax (value : String) : Option Nat :=
  match splitWhitespace value with
  | quota :: period :: rest => do
    let period ← parseU64 period
    if quota = "max".toList ∨ period = 0 ∨ rest ≠ [] then none
    else do
      let quota ← parseU64 quota
      quotaMillis quota period
  | _ => none

def parseCpuV1 (quota period : String) : Option Nat := do
  let quota ← parseI64 (trim quota).toList
  let period ← parseU64 (trim period).toList
  if quota < 0 ∨ period = 0 then none else quotaMillis quota.toNat period

def parseMemoryLimit (value : String) : Option Nat :=
  let value := trim value
  if value = "max" then none else parseU64 value.toList

/-- The bounds of one group, where a single number stands for both. -/
def cpusetBounds (group : List Char) : Option (Nat × Nat) :=
  match (trimMatches isWhiteSpace group).splitOn '-' with
  | [first] => do
    let first ← parseU64 first
    some (first, first)
  | [first, last] => do
    let first ← parseU64 first
    let last ← parseU64 last
    if last < first then none else some (first, last)
  | _ => none

/-- The sum of the groups; the size of a single group is not a checked operation. -/
def parseCpusetCount (value : String) : Option Nat :=
  if trim value = "" then none
  else (value.toList.splitOn ',').foldlM (fun count group => do
    let bounds ← cpusetBounds group
    checkedAdd count ((bounds.2 - bounds.1 + 1) % 2 ^ 64)) 0

/-- Reads the limits, given the contents of the files that exist. -/
def observeCgroupResources (files : String → Option String) : ResourceObservation :=
  let readOptional := fun path => (files path).map trim
  let v2Cpu := readOptional "/sys/fs/cgroup/cpu.max"
  let v2Memory := readOptional "/sys/fs/cgroup/memory.max"
  if v2Cpu.isSome || v2Memory.isSome then
    let cpuset := (readOptional "/sys/fs/cgroup/cpuset.cpus.effective").or
      (readOptional "/sys/fs/cgroup/cpuset.cpus")
    { cpuMillis := v2Cpu.bind parseCpuMax
      memoryLimitBytes := v2Memory.bind parseMemoryLimit
      memoryCurrentBytes := (readOptional "/sys/fs/cgroup/memory.current").bind parseMemoryLimit
      cpusetCpus := cpuset
      cpusetCpuCount := cpuset.bind parseCpusetCount
      cgroupVersion := some "v2" }
  else
    let quota := readOptional "/sys/fs/cgroup/cpu/cpu.cfs_quota_us"
    let period := readOptional "/sys/fs/cgroup/cpu/cpu.cfs_period_us"
    let memory := readOptional "/sys/fs/cgroup/memory/memory.limit_in_bytes"
    let cpuset := readOptional "/sys/fs/cgroup/cpuset/cpuset.cpus"
    let present := quota.isSome || memory.isSome || cpuset.isSome
    { cpuMillis := quota.bind fun quota => period.bind fun period => parseCpuV1 quota period
      memoryLimitBytes := memory.bind parseMemoryLimit
      memoryCurrentBytes :=
        (readOptional "/sys/fs/cgroup/memory/memory.usage_in_bytes").bind parseMemoryLimit
      cpusetCpus := cpuset
      cpusetCpuCount := cpuset.bind parseCpusetCount
      cgroupVersion := if present then some "v1" else none }

end Dlir.Cli
