import Dlir.Cli.Cgroup
import Dlir.Cli.Cpu
import Dlir.Pipeline.Admission

namespace Dlir.Cli

open Dlir.Framework Dlir.Math Dlir.Pipeline

def minWorldSize : Nat := 2
def maxWorldSize : Nat := 64
def minCpuMillis : Nat := 100
def minMemoryBytes : Nat := 128 * 1024 * 1024
def mib : Nat := 1024 * 1024

/-- Capacity of the Docker engine. -/
structure DockerEngineReport where
  cpuMillis : Nat
  memoryBytes : Nat
  cpu_lt : cpuMillis < 2 ^ 64
  memory_lt : memoryBytes < 2 ^ 64

structure ResourcePlan where
  requestedCpuMillis : Nat
  requestedMemoryBytes : Nat
  perRankCpuMillis : Nat
  perRankMemoryBytes : Nat
  allocatedCpuMillis : Nat
  allocatedMemoryBytes : Nat
  unusedCpuMillis : Nat
  unusedMemoryBytes : Nat
  engineCpuHeadroomMillis : Nat
  engineMemoryHeadroomBytes : Nat
  deriving DecidableEq, Repr

inductive ResourceVerification
  | passed
  | notEvaluated
  deriving DecidableEq, Repr

def validateWorldSize (worldSize : Nat) : Except String Unit :=
  refuse (¬ (minWorldSize ≤ worldSize ∧ worldSize ≤ maxWorldSize))
    s!"nproc must be between {minWorldSize} and {maxWorldSize}, got {worldSize}"

section

-- Sizes are printed with floating point arithmetic.
variable (formatBytes : Nat → String)

/-- Divides the requested totals among the ranks. -/
def planResources (worldSize : Nat) (totalCpus : CpuAmount) (totalMemory : Nat)
    (engine : DockerEngineReport) : Except String ResourcePlan := do
  validateWorldSize worldSize
  refuse (totalCpus.millis > engine.cpuMillis)
    s!"requested {formatCpu totalCpus.millis} CPUs but Docker Engine exposes {formatCpu engine.cpuMillis}"
  refuse (totalMemory > engine.memoryBytes)
    s!"requested {formatBytes totalMemory} memory but Docker Engine exposes {formatBytes engine.memoryBytes}"
  let perRankCpuMillis := totalCpus.millis / worldSize
  let perRankMemoryBytes := totalMemory / worldSize / mib * mib
  refuse (perRankCpuMillis < minCpuMillis)
    s!"each rank requires at least {formatCpu minCpuMillis} CPU after division"
  refuse (perRankMemoryBytes < minMemoryBytes)
    s!"each rank requires at least {formatBytes minMemoryBytes} after division"
  let allocatedCpuMillis := perRankCpuMillis * worldSize
  let allocatedMemoryBytes := perRankMemoryBytes * worldSize
  pure {
    requestedCpuMillis := totalCpus.millis
    requestedMemoryBytes := totalMemory
    perRankCpuMillis, perRankMemoryBytes, allocatedCpuMillis, allocatedMemoryBytes
    unusedCpuMillis := totalCpus.millis - allocatedCpuMillis
    unusedMemoryBytes := totalMemory - allocatedMemoryBytes
    engineCpuHeadroomMillis := engine.cpuMillis - allocatedCpuMillis
    engineMemoryHeadroomBytes := engine.memoryBytes - allocatedMemoryBytes }

def verifyResources (observed : ResourceObservation)
    (expectedCpuMillis expectedMemoryBytes : Option Nat) : Except String ResourceVerification :=
  match expectedCpuMillis, expectedMemoryBytes with
  | none, none => .ok .notEvaluated
  | some cpu, some memory => do
    let actualCpu ← okOr "container cgroup does not expose an enforced CPU quota" observed.cpuMillis
    let actualMemory ← okOr "container cgroup does not expose an enforced memory maximum"
      observed.memoryLimitBytes
    refuse (actualCpu - cpu + (cpu - actualCpu) > 1)
      s!"cgroup CPU quota is {formatCpu actualCpu} but launcher requested {formatCpu cpu}"
    refuse (actualMemory ≠ memory)
      s!"cgroup memory maximum is {formatBytes actualMemory} but launcher requested {formatBytes memory}"
    pure .passed
  | _, _ => .error "expected CPU and memory limits must be supplied together"

end

def resourceSnapshot (observed : ResourceObservation) : ResourceSnapshot where
  cpuMillis := observed.cpuMillis
  memoryCurrentBytes := observed.memoryCurrentBytes
  memoryLimitBytes := observed.memoryLimitBytes
  cpusetCpus := observed.cpusetCpus
  cgroupVersion := observed.cgroupVersion

namespace ResourcePlan

/-- The values of `--expected-cpu-millis` and `--expected-memory-bytes` as the rank parses them. -/
def expectedCpuMillis (plan : ResourcePlan) : Option Nat :=
  parseU64 (toString plan.perRankCpuMillis).toList

def expectedMemoryBytes (plan : ResourcePlan) : Option Nat :=
  parseU64 (toString plan.perRankMemoryBytes).toList

end ResourcePlan

theorem parseU64_toString {n : Nat} (h : n < 2 ^ 64) : parseU64 (toString n).toList = some n := by
  have hlist : (toString n).toList = Nat.toDigits 10 n := by simp [toString, Nat.repr]
  have hdigits := all_isDigit_toDigits n
  rw [hlist, parseU64_eq_some (head_ne_of_digits hdigits (by decide))]
  exact ⟨Nat.toDigits_ne_nil, hdigits, digitsValue_toDigits n, h⟩

variable {formatBytes : Nat → String} {worldSize totalMemory : Nat} {totalCpus : CpuAmount}
  {engine : DockerEngineReport} {plan : ResourcePlan} {observed : ResourceObservation}

/-- The limits of a plan are positive machine integers. -/
theorem planResources_ok
    (h : planResources formatBytes worldSize totalCpus totalMemory engine = .ok plan) :
    0 < plan.perRankCpuMillis ∧ plan.perRankCpuMillis < 2 ^ 64 ∧
      0 < plan.perRankMemoryBytes ∧ plan.perRankMemoryBytes < 2 ^ 64 := by
  simp only [planResources, bind_eq_ok, refuse_eq_ok, pure_eq_ok] at h
  obtain ⟨-, -, -, hcpus, -, hmemory, -, hminCpu, -, hminMemory, rfl⟩ := h
  have hcpuLe := Nat.div_le_self totalCpus.millis worldSize
  have hmemoryLe : totalMemory / worldSize / mib * mib ≤ totalMemory :=
    (Nat.div_mul_le_self _ _).trans (Nat.div_le_self _ _)
  have hcpuLt := engine.cpu_lt
  have hmemoryLt := engine.memory_lt
  rw [minCpuMillis] at hminCpu
  rw [minMemoryBytes] at hminMemory
  dsimp only
  refine ⟨?_, ?_, ?_, ?_⟩ <;> omega

theorem verifyResources_eq_ok {cpu memory : Nat} :
    (∃ verification, verifyResources formatBytes observed (some cpu) (some memory) =
        .ok verification) ↔
      (∃ actual, observed.cpuMillis = some actual ∧ actual ≤ cpu + 1 ∧ cpu ≤ actual + 1) ∧
        observed.memoryLimitBytes = some memory := by
  simp only [verifyResources, bind_eq_ok, okOr_eq_ok, refuse_eq_ok, pure_eq_ok]
  constructor
  · rintro ⟨verification, actual, hactual, actualMemory, hmemory, -, hcpu, -, hsame, -⟩
    refine ⟨⟨actual, hactual, by omega, by omega⟩, ?_⟩
    rw [hmemory, not_not.mp hsame]
  · rintro ⟨⟨actual, hactual, hle, hge⟩, hmemory⟩
    exact ⟨.passed, actual, hactual, memory, hmemory, (), by omega, (), by simp, rfl⟩

/-- When the check of the command line and the check of the request agree: unless the observed
quota is one thousandth off and the memory is right. -/
theorem resourceGates_agree_iff (formatBytes : Nat → String) (worldSize : Nat)
    (totalCpus : CpuAmount) (totalMemory : Nat) (engine : DockerEngineReport) (plan : ResourcePlan)
    (hplan : planResources formatBytes worldSize totalCpus totalMemory engine = .ok plan)
    (manifest : PipelineManifest) (hcpu : manifest.expectedCpuMillis = plan.perRankCpuMillis)
    (hmemory : manifest.expectedMemoryBytes = plan.perRankMemoryBytes) (rank : Nat)
    (observed : ResourceObservation) :
    ((∃ verification, verifyResources formatBytes observed plan.expectedCpuMillis
          plan.expectedMemoryBytes = .ok verification) ↔
        checkResources rank manifest (resourceSnapshot observed) = .ok ()) ↔
      ¬ ((observed.cpuMillis = some (plan.perRankCpuMillis + 1) ∨
          observed.cpuMillis = some (plan.perRankCpuMillis - 1)) ∧
        observed.memoryLimitBytes = some plan.perRankMemoryBytes) := by
  obtain ⟨hcpuPos, hcpuLt, hmemoryPos, hmemoryLt⟩ := planResources_ok hplan
  have hexpectedCpu : plan.expectedCpuMillis = some plan.perRankCpuMillis :=
    parseU64_toString hcpuLt
  have hexpectedMemory : plan.expectedMemoryBytes = some plan.perRankMemoryBytes :=
    parseU64_toString hmemoryLt
  rw [hexpectedCpu, hexpectedMemory, verifyResources_eq_ok,
    checkResources_eq_ok (by omega) (by omega), hcpu, hmemory]
  simp only [resourceSnapshot]
  by_cases hsame : observed.memoryLimitBytes = some plan.perRankMemoryBytes
  swap
  · simp [hsame]
  cases hactual : observed.cpuMillis with
  | none => simp
  | some actual =>
    simp only [hsame, and_true, Option.some.injEq, exists_eq_left']
    omega

/-- A cgroup v2 file system with this quota per 100 ms and this memory maximum. -/
def cgroupFiles (quota memory : String) : String → Option String := fun path =>
  if path = "/sys/fs/cgroup/cpu.max" then some (quota ++ " 100000\n")
  else if path = "/sys/fs/cgroup/memory.max" then some (memory ++ "\n")
  else none

/-- Three CPUs and 4 GiB for two ranks. -/
def twoRankPlan : ResourcePlan where
  requestedCpuMillis := 3000
  requestedMemoryBytes := 4294967296
  perRankCpuMillis := 1500
  perRankMemoryBytes := 2147483648
  allocatedCpuMillis := 3000
  allocatedMemoryBytes := 4294967296
  unusedCpuMillis := 0
  unusedMemoryBytes := 0
  engineCpuHeadroomMillis := 5000
  engineMemoryHeadroomBytes := 12884901888

def twoRankEngine : DockerEngineReport := ⟨8000, 17179869184, by norm_num, by norm_num⟩

def twoRankManifest : PipelineManifest where
  runId := "run"
  requestId := "request"
  spec := Runtime.SupportedModelId.smolLm2_135MInstruct.spec
  dtype := .f32
  promptTokenIds := [1]
  requestedMaxNewTokens := 1
  effectiveMaxNewTokens := 1
  contextCapacity := 2
  partition := ⟨30, []⟩
  memoryPlans := []
  expectedCpuMillis := 1500
  expectedMemoryBytes := 2147483648

theorem resourceGates_agree_iff_exact :
    (∃ verification, verifyResources toString
        (observeCgroupResources (cgroupFiles "150000" "2147483648")) twoRankPlan.expectedCpuMillis
        twoRankPlan.expectedMemoryBytes = .ok verification) ↔
      checkResources 0 twoRankManifest
        (resourceSnapshot (observeCgroupResources (cgroupFiles "150000" "2147483648"))) = .ok () := by
  have hplan : planResources toString 2 ⟨3000⟩ 4294967296 twoRankEngine = .ok twoRankPlan := by
    decide +kernel
  exact (resourceGates_agree_iff toString 2 ⟨3000⟩ 4294967296 twoRankEngine twoRankPlan hplan
    twoRankManifest rfl rfl 0 _).mpr (by decide +kernel)

theorem resourceGates_disagree :
    planResources toString 2 ⟨3000⟩ 4294967296 twoRankEngine = .ok twoRankPlan ∧
    verifyResources toString (observeCgroupResources (cgroupFiles "150100" "2147483648"))
      twoRankPlan.expectedCpuMillis twoRankPlan.expectedMemoryBytes = .ok .passed ∧
    twoRankManifest.expectedCpuMillis = twoRankPlan.perRankCpuMillis ∧
    twoRankManifest.expectedMemoryBytes = twoRankPlan.perRankMemoryBytes ∧
    checkResources 0 twoRankManifest
        (resourceSnapshot (observeCgroupResources (cgroupFiles "150100" "2147483648"))) =
      .error (.invalidTopology ("rank 0 observed CPU/memory Some(1501)/Some(2147483648), " ++
        "expected 1500/2147483648")) := by
  refine ⟨?_, ?_, rfl, rfl, ?_⟩ <;> decide +kernel

end Dlir.Cli
