import Dlir.Collectives.Aggregation
import Dlir.Collectives.Operations
import Dlir.Collectives.Runner
import Dlir.Framework.Reports

namespace Dlir.Collectives

open Dlir.Framework Dlir.Math

/-- The `Debug` rendering of an algorithm. -/
def AllReduceAlgorithm.name : AllReduceAlgorithm → String
  | centralized => "Centralized"
  | ring => "Ring"

/-- The answers of the shared barrier and of the clock to the calls of one thread. -/
structure Surroundings where
  barrier : Nat → Except CollectivesError Unit
  elapsedNs : Nat → Nat

def ns (duration : Nat) : Nat := min duration (2 ^ 64 - 1)

/-- Arguments of `run_in_memory_all_reduce_benchmark`. The timeout only decides when a thread gives
up. -/
structure InMemoryBenchmark where
  worldSize : Nat
  sizes : List Nat
  algorithms : List AllReduceAlgorithm
  warmup : Nat
  iterations : Nat
  deriving DecidableEq, Repr

/-- A rank of an in-memory world. Nothing observes its collectives. -/
def inMemoryEndpoint {world : Nat} (rank : Rank world) : Endpoint world Unit :=
  ⟨.inMemory, rank, fun _ => ()⟩

namespace InMemoryBenchmark

section Worker

variable (self : InMemoryBenchmark) {world : Nat} {α : Type} [Add α] (rank : Rank world)
  (around : Surroundings)

/-- One all-reduce behind the barrier. -/
def synchronizedAllReduce (input : Tensor α) (algorithm : AllReduceAlgorithm) (call : Nat) :
    Native world α Unit Unit := do
  liftExcept id (around.barrier call)
  let _ ← (inMemoryEndpoint rank).allReduce input algorithm

/-- The thread of one rank. It panics where the sum of the sent bytes does. -/
def worker (profile : Profile) (value : α) (algorithm : AllReduceAlgorithm) (elements : Nat) :
    Native world α Unit (List Nat × Except Panic Nat) := do
  let input ← liftExcept .tensor (Tensor.fromVec (List.replicate elements value) [elements])
  (List.range self.warmup).forM (synchronizedAllReduce rank around input algorithm)
  modify fun state => { state with traces := [] }
  let latencies ← (List.range self.iterations).mapM fun iteration => do
    synchronizedAllReduce rank around input algorithm (self.warmup + iteration)
    pure (ns (around.elapsedNs iteration))
  let state ← get
  pure (latencies, profile.sum (state.traces.map (·.sentBytes)))

/-- A successful thread has one latency for each iteration. -/
theorem worker_latencies (profile : Profile) (value : α) (algorithm : AllReduceAlgorithm)
    (elements : Nat) : Always (fun r => r.1.length = self.iterations)
      (self.worker rank around profile value algorithm elements) := by
  unfold worker
  refine (Always.trivial _).bind fun input _ => ?_
  refine (Always.trivial _).bind fun _ _ => ?_
  refine (Always.trivial _).bind fun _ _ => ?_
  refine Always.bind (Always.mapM (R := fun _ _ => True) fun _ _ => Always.trivial _)
    fun latencies hlatencies => ?_
  refine (Always.trivial _).bind fun state _ => ?_
  refine Always.pure ?_
  rw [← hlatencies.length_eq, List.length_range]

end Worker

/-- The cases in the order of the loops. -/
def cases (self : InMemoryBenchmark) : List (AllReduceAlgorithm × Nat) :=
  self.algorithms.flatMap fun algorithm => self.sizes.map fun payloadBytes => (algorithm, payloadBytes)

/-- How the threads of all cases end. A thread may not be started, and may fail or panic in any way; a
result is one that its code comes to. -/
structure Threads (benchmark : InMemoryBenchmark) (profile : Profile) (α : Type) [Add α] where
  value : Rank benchmark.worldSize → α
  join : Nat → Nat → Option (Joined (List Nat × Nat))
  possible : ∀ n algorithm payloadBytes, benchmark.cases[n]? = some (algorithm, payloadBytes) →
    ∀ (rank : Rank benchmark.worldSize) latencies sent,
      join n rank.val = some (.returned (.ok (latencies, sent))) → ∃ around state,
        ((benchmark.worker rank around profile (value rank) algorithm
          (payloadBytes / 4)).run.run .new).Yields (.ok (latencies, .ok sent), state)

variable (self : InMemoryBenchmark)

/-- Whether a payload is no number of values, or cannot be cut into equal chunks. -/
def invalidSize (algorithm : AllReduceAlgorithm) (payloadBytes : Nat) : Except Panic Bool :=
  if payloadBytes = 0 ∨ payloadBytes % 4 ≠ 0 then .ok true
  else if algorithm = .ring then do
    let rest ← remainder (payloadBytes / 4) self.worldSize
    pure (rest != 0)
  else .ok false

/-- The slowest rank's latency in one iteration. -/
def slowestRank (ranks : List (List Nat × Nat)) (iteration : Nat) : Except Panic Nat := do
  let samples ← ranks.mapM fun rank => index rank.1 iteration
  pure (samples.max?.getD 0)

def runCase (profile : Profile) (threads : Nat → Option (Joined (List Nat × Nat)))
    (algorithm : AllReduceAlgorithm) (payloadBytes : Nat) :
    Panicking RunnerError CollectiveBenchmarkCase := do
  let invalid ← ExceptT.lift (self.invalidSize algorithm payloadBytes)
  ExceptT.mk <| .ok <| refuse (invalid = true) <| .collectives <| .collective
    s!"benchmark size {payloadBytes} is invalid for {algorithm.name} with {self.worldSize} ranks"
  let ranks ← runInMemory self.worldSize threads
  let maximums ← ExceptT.lift ((List.range self.iterations).mapM (slowestRank ranks))
  ExceptT.lift <| CollectiveBenchmarkCase.summarize profile algorithm payloadBytes self.iterations
    (max self.iterations 1) maximums (.ok (ranks.map (·.2)))

/-- Benchmarks native all-reduce over in-memory ranks. -/
def run (profile : Profile) {α : Type} [Add α] (threads : self.Threads profile α) :
    Panicking RunnerError CollectiveBenchmarkReport := do
  let cases ← self.cases.zipIdx.mapM fun entry =>
    self.runCase profile (threads.join entry.2) entry.1.1 entry.1.2
  pure {
    schemaVersion := 1
    backend := "in_memory"
    collectiveBackend := "native"
    worldSize := self.worldSize
    warmup := self.warmup
    iterations := self.iterations
    cases
    resources := none
    ranks := []
    success := true }

section Threads

variable {self : InMemoryBenchmark} {profile : Profile} {α : Type} [Add α]
  (threads : self.Threads profile α)

/-- A thread that returns a result has one latency for each iteration. -/
theorem Threads.latencies {n rank : Nat} {case : AllReduceAlgorithm × Nat}
    (hcase : self.cases[n]? = some case) (hrank : rank < self.worldSize) {result : List Nat × Nat}
    (h : threads.join n rank = some (.returned (.ok result))) :
    result.1.length = self.iterations := by
  obtain ⟨around, state, hyields⟩ :=
    threads.possible n case.1 case.2 hcase ⟨rank, hrank⟩ result.1 result.2 h
  have halways := self.worker_latencies (⟨rank, hrank⟩ : Rank self.worldSize) around profile
    (threads.value ⟨rank, hrank⟩) case.1 (case.2 / 4)
  exact hyields.of_reports (Proc.Reports.of_always (halways.ensures .new)) _ rfl

/-- A remainder of a division by no ranks is taken. -/
def TakesRemainderByZero (self : InMemoryBenchmark) (case : AllReduceAlgorithm × Nat) : Prop :=
  self.worldSize = 0 ∧ case.1 = .ring ∧ case.2 ≠ 0 ∧ case.2 % 4 = 0

/-- The payload is a number of values that the ranks can share as the algorithm needs it. -/
def ValidSize (self : InMemoryBenchmark) (case : AllReduceAlgorithm × Nat) : Prop :=
  case.2 ≠ 0 ∧ case.2 % 4 = 0 ∧ (case.1 = .ring → case.2 / 4 % self.worldSize = 0)

/-- The largest latency over the ranks, for every iteration. -/
def slowestLatencies (self : InMemoryBenchmark) (results : List (List Nat × Nat)) : List Nat :=
  (List.range self.iterations).map fun iteration =>
    largest (results.map fun result => result.1[iteration]?.getD 0)

/-- The arithmetic over these results succeeds. -/
def Computes (self : InMemoryBenchmark) (profile : Profile) (results : List (List Nat × Nat)) :
    Prop :=
  Summable profile (max self.iterations 1) (self.slowestLatencies results) (results.map (·.2))

/-- All threads of a case come back with these results. -/
def Threads.Measured (n : Nat) (results : List (List Nat × Nat)) : Prop :=
  ∃ case, self.cases[n]? = some case ∧ self.ValidSize case ∧ self.worldSize ≠ 0 ∧
    Spawned self.worldSize (threads.join n) ∧
    returnedValues self.worldSize (threads.join n) = some results

/-- The run comes to the threads of a case: all cases before are measured. -/
def Threads.Reached (n : Nat) : Prop :=
  (∃ case, self.cases[n]? = some case ∧ self.ValidSize case) ∧ self.worldSize ≠ 0 ∧
    ∀ m, m < n → ∃ earlier, threads.Measured m earlier

end Threads

section Case

variable {self : InMemoryBenchmark} {profile : Profile} {case : AllReduceAlgorithm × Nat}

theorem invalidSize_error (h : self.TakesRemainderByZero case) :
    self.invalidSize case.1 case.2 = .error .remainderByZero := by
  obtain ⟨hworld, hring, hne, hmod⟩ := h
  unfold invalidSize remainder
  rw [if_neg (by omega), if_pos hring, if_pos hworld]
  rfl

theorem invalidSize_ok (h : ¬ self.TakesRemainderByZero case) :
    ∃ invalid, self.invalidSize case.1 case.2 = .ok invalid ∧
      (invalid = false ↔ self.ValidSize case) := by
  unfold invalidSize
  by_cases hbytes : case.2 = 0 ∨ case.2 % 4 ≠ 0
  · refine ⟨true, if_pos hbytes, ?_⟩
    constructor
    · intro hinvalid
      cases hinvalid
    · intro hvalid
      rcases hbytes with hzero | hmod
      · exact absurd hzero hvalid.1
      · exact absurd hvalid.2.1 hmod
  · rw [if_neg hbytes]
    push Not at hbytes
    by_cases hring : case.1 = .ring
    · have hworld : 0 < self.worldSize := by
        by_contra hzero
        exact h ⟨by omega, hring, hbytes⟩
      rw [if_pos hring, remainder_of_pos hworld]
      refine ⟨_, rfl, ?_⟩
      rw [bne_eq_false_iff_eq]
      exact ⟨fun hrest => ⟨hbytes.1, hbytes.2, fun _ => hrest⟩, fun hvalid => hvalid.2.2 hring⟩
    · rw [if_neg hring]
      exact ⟨false, rfl, fun _ => ⟨hbytes.1, hbytes.2, fun h => absurd h hring⟩, fun _ => rfl⟩

/-- The maxima over results that have all samples. -/
theorem slowestRanks_eq {results : List (List Nat × Nat)}
    (h : ∀ result ∈ results, result.1.length = self.iterations) :
    (List.range self.iterations).mapM (slowestRank results) = .ok (self.slowestLatencies results) := by
  refine mapM_eq_map fun iteration ht => ?_
  rw [List.mem_range] at ht
  have hmap : results.mapM (fun result => index result.1 iteration) =
      .ok (results.map fun result => result.1[iteration]?.getD 0) := by
    refine mapM_eq_map fun result hr => ?_
    have hlt : iteration < result.1.length := by rw [h result hr]; exact ht
    rw [index_of_lt hlt, List.getElem?_eq_getElem hlt, Option.getD_some]
  rw [slowestRank, hmap, ← max?_getD]
  rfl

variable {threads : Nat → Option (Joined (List Nat × Nat))}

theorem run_runCase_of_remainder (h : self.TakesRemainderByZero case) :
    (self.runCase profile threads case.1 case.2).run = .error .remainderByZero := by
  unfold runCase
  rw [invalidSize_error h]
  rfl

variable (profile threads) in
/-- A case of an invalid size is refused. -/
theorem run_runCase_of_invalid (hzero : ¬ self.TakesRemainderByZero case)
    (h : ¬ self.ValidSize case) :
    ∃ e, (self.runCase profile threads case.1 case.2).run = .ok (.error e) := by
  obtain ⟨invalid, hinvalid, hiff⟩ := invalidSize_ok hzero
  have htrue : invalid = true := by
    rw [← Bool.not_eq_false, hiff]
    exact h
  subst htrue
  unfold runCase
  rw [hinvalid]
  exact ⟨_, rfl⟩

variable (profile) in
/-- A case of a valid size runs its world. -/
theorem run_runCase_of_valid (hzero : ¬ self.TakesRemainderByZero case) (h : self.ValidSize case) :
    (self.runCase profile threads case.1 case.2).run = (do
      let ranks ← runInMemory self.worldSize threads
      let maximums ← ExceptT.lift ((List.range self.iterations).mapM (slowestRank ranks))
      ExceptT.lift <| CollectiveBenchmarkCase.summarize profile case.1 case.2 self.iterations
        (max self.iterations 1) maximums (.ok (ranks.map (·.2))) :
          Panicking RunnerError CollectiveBenchmarkCase).run := by
  obtain ⟨invalid, hinvalid, hiff⟩ := invalidSize_ok hzero
  obtain rfl := hiff.mpr h
  unfold runCase
  rw [hinvalid]
  rfl

variable (profile) in
/-- A case that is measured ends with its metrics where the arithmetic succeeds. -/
theorem run_runCase_of_results (hvalid : self.ValidSize case) (hworld : self.worldSize ≠ 0)
    (hspawned : Spawned self.worldSize threads) {results : List (List Nat × Nat)}
    (h : returnedValues self.worldSize threads = some results)
    (hsamples : ∀ result ∈ results, result.1.length = self.iterations) :
    (self.runCase profile threads case.1 case.2).run =
      (ExceptT.lift <| CollectiveBenchmarkCase.summarize profile case.1 case.2 self.iterations
        (max self.iterations 1) (self.slowestLatencies results) (.ok (results.map (·.2))) :
          Panicking RunnerError CollectiveBenchmarkCase).run := by
  rw [run_runCase_of_valid profile (fun hzero => hworld hzero.1) hvalid,
    run_bind_of_ok (run_runInMemory_of_values hworld hspawned h), run_lift_bind,
    slowestRanks_eq hsamples]
  rfl

end Case

section Run

variable {self : InMemoryBenchmark} {profile : Profile} {α : Type} [Add α]
  {threads : self.Threads profile α} {n : Nat} {case : AllReduceAlgorithm × Nat}

theorem Threads.samples (hcase : self.cases[n]? = some case) {results : List (List Nat × Nat)}
    (h : returnedValues self.worldSize (threads.join n) = some results) :
    ∀ result ∈ results, result.1.length = self.iterations := by
  intro result hr
  obtain ⟨rank, hrank, hjoin⟩ := exists_rank_of_returnedValues h hr
  exact threads.latencies hcase hrank hjoin

theorem Threads.Measured.run_runCase {results : List (List Nat × Nat)}
    (h : threads.Measured n results) (hcase : self.cases[n]? = some case) :
    (Returns (self.runCase profile (threads.join n) case.1 case.2) ↔ self.Computes profile results) ∧
      (Succeeds (self.runCase profile (threads.join n) case.1 case.2) ↔
        self.Computes profile results) := by
  obtain ⟨case', hcase', hvalid, hworld, hspawned, hresults⟩ := h
  obtain rfl := Option.some.inj (hcase.symm.trans hcase')
  have hrun := run_runCase_of_results profile hvalid hworld hspawned hresults
    (Threads.samples hcase hresults)
  have hsummary : (∃ case', CollectiveBenchmarkCase.summarize profile case.1 case.2 self.iterations
      (max self.iterations 1) (self.slowestLatencies results) (.ok (results.map (·.2))) =
        .ok case') ↔ self.Computes profile results :=
    CollectiveBenchmarkCase.summarize_returns case.1 case.2 self.iterations
  unfold Returns Succeeds
  rw [hrun, ← hsummary]
  exact ⟨returns_lift, succeeds_lift⟩

/-- A case that succeeds is measured. -/
theorem measured_of_succeeds (hcase : self.cases[n]? = some case)
    (h : Succeeds (self.runCase profile (threads.join n) case.1 case.2)) :
    ∃ results, threads.Measured n results := by
  obtain ⟨metrics, hrun⟩ := h
  have hzero : ¬ self.TakesRemainderByZero case := by
    intro hzero
    rw [run_runCase_of_remainder hzero] at hrun
    cases hrun
  have hvalid : self.ValidSize case := by
    by_contra hinvalid
    obtain ⟨e, he⟩ := run_runCase_of_invalid profile (threads.join n) hzero hinvalid
    rw [he] at hrun
    cases hrun
  rw [run_runCase_of_valid profile hzero hvalid] at hrun
  obtain ⟨results, hresults, -⟩ := run_bind_eq_ok.mp hrun
  have hreturns : Returns (runInMemory self.worldSize (threads.join n)) := ⟨_, hresults⟩
  have hworld : self.worldSize ≠ 0 := by
    intro hworld
    rw [hworld] at hresults
    cases hresults
  have hspawned := (returns_runInMemory.mp hreturns).resolve_left hworld
  cases hvalues : returnedValues self.worldSize (threads.join n) with
  | none =>
    obtain ⟨e, he⟩ := run_runInMemory_of_none hworld hspawned hvalues
    rw [he] at hresults
    cases hresults
  | some values => exact ⟨values, case, hcase, hvalid, hworld, hspawned, hvalues⟩

theorem succeeds_runCase (hcase : self.cases[n]? = some case) :
    Succeeds (self.runCase profile (threads.join n) case.1 case.2) ↔
      ∃ results, threads.Measured n results ∧ self.Computes profile results := by
  constructor
  · intro h
    obtain ⟨results, hmeasured⟩ := measured_of_succeeds hcase h
    exact ⟨results, hmeasured, (hmeasured.run_runCase hcase).2.mp h⟩
  · intro h
    obtain ⟨results, hmeasured, hcomputes⟩ := h
    exact (hmeasured.run_runCase hcase).2.mpr hcomputes

/-- When a case comes to an end. -/
theorem returns_runCase (hcase : self.cases[n]? = some case) :
    Returns (self.runCase profile (threads.join n) case.1 case.2) ↔
      ¬ self.TakesRemainderByZero case ∧
        (self.ValidSize case → self.worldSize ≠ 0 → Spawned self.worldSize (threads.join n)) ∧
        ∀ results, threads.Measured n results → self.Computes profile results := by
  by_cases hzero : self.TakesRemainderByZero case
  · refine ⟨fun h => ?_, fun h => absurd hzero h.1⟩
    obtain ⟨r, hr⟩ := h
    rw [run_runCase_of_remainder hzero] at hr
    cases hr
  by_cases hvalid : self.ValidSize case
  · constructor
    · intro h
      refine ⟨hzero, fun _ hworld => ?_, fun results hmeasured => (hmeasured.run_runCase hcase).1.mp h⟩
      obtain ⟨r, hr⟩ := h
      rw [run_runCase_of_valid profile hzero hvalid] at hr
      have hworldReturns := (returns_bind.mp ⟨r, hr⟩).1
      exact (returns_runInMemory.mp hworldReturns).resolve_left hworld
    · intro h
      obtain ⟨-, hspawned, hcomputes⟩ := h
      by_cases hworld : self.worldSize = 0
      · rw [Returns, run_runCase_of_valid profile hzero hvalid, hworld]
        exact ⟨_, rfl⟩
      have hspawned := hspawned hvalid hworld
      cases hvalues : returnedValues self.worldSize (threads.join n) with
      | none =>
        obtain ⟨e, he⟩ := run_runInMemory_of_none hworld hspawned hvalues
        rw [Returns, run_runCase_of_valid profile hzero hvalid, ExceptT.run_bind, he]
        exact ⟨_, rfl⟩
      | some results =>
        have hmeasured : threads.Measured n results :=
          ⟨case, hcase, hvalid, hworld, hspawned, hvalues⟩
        exact (hmeasured.run_runCase hcase).1.mpr (hcomputes results hmeasured)
  · refine ⟨fun _ => ⟨hzero, fun h => absurd h hvalid, fun results hmeasured => ?_⟩, fun _ => ?_⟩
    · obtain ⟨case', hcase', hvalid', -⟩ := hmeasured
      obtain rfl := Option.some.inj (hcase.symm.trans hcase')
      exact absurd hvalid' hvalid
    · obtain ⟨e, he⟩ := run_runCase_of_invalid profile (threads.join n) hzero hvalid
      exact ⟨_, he⟩

variable (self threads) in
/-- The run takes no remainder by zero in its first case. In every case that it comes to there is
room for the world, all threads are started, and the arithmetic over what they measure succeeds. -/
def Sound : Prop :=
  (∀ case, self.cases[0]? = some case → ¬ self.TakesRemainderByZero case) ∧
  ∀ n, threads.Reached n → Spawned self.worldSize (threads.join n) ∧
    ∀ results, threads.Measured n results → self.Computes profile results

theorem returns_cases : Returns (self.cases.zipIdx.mapM fun entry =>
      self.runCase profile (threads.join entry.2) entry.1.1 entry.1.2) ↔ self.Sound threads := by
  rw [returns_mapM_iff]
  simp only [List.getElem_zipIdx, List.length_zipIdx, Nat.zero_add]
  have hget : ∀ n (hn : n < self.cases.length), self.cases[n]? = some self.cases[n] :=
    fun n hn => List.getElem?_eq_getElem hn
  constructor
  · intro h
    constructor
    · intro case hcase
      obtain ⟨hlt, rfl⟩ := List.getElem?_eq_some_iff.mp hcase
      have hfirst := h 0 hlt fun j hj => absurd hj (by omega)
      exact ((returns_runCase (hget 0 hlt)).mp hfirst).1
    · intro n
      induction n using Nat.strong_induction_on with
      | _ n ih =>
        intro hreached
        obtain ⟨⟨case, hcase, hvalid⟩, hworld, hbefore⟩ := hreached
        obtain ⟨hlt, rfl⟩ := List.getElem?_eq_some_iff.mp hcase
        have hreturns := h n hlt fun j hj => by
          obtain ⟨earlier, hearlier⟩ := hbefore j hj
          have ⟨case', hcase', hvalid', _⟩ := hearlier
          have hcomputes := (ih j hj ⟨⟨case', hcase', hvalid'⟩, hworld,
            fun m hm => hbefore m (by omega)⟩).2 earlier hearlier
          exact (succeeds_runCase (hget j (by omega))).mpr ⟨earlier, hearlier, hcomputes⟩
        have hcase := (returns_runCase (hget n hlt)).mp hreturns
        exact ⟨hcase.2.1 hvalid hworld, hcase.2.2⟩
  · intro h n hlt hbefore
    obtain ⟨hfirst, hsound⟩ := h
    have hearlier : ∀ m, m < n → ∃ earlier, threads.Measured m earlier := fun m hm =>
      measured_of_succeeds (hget m (by omega)) (hbefore m hm)
    rw [returns_runCase (hget n hlt)]
    refine ⟨fun hzero => ?_, fun hvalid hworld =>
      (hsound n ⟨⟨_, hget n hlt, hvalid⟩, hworld, hearlier⟩).1, fun results hmeasured => ?_⟩
    · rcases Nat.eq_zero_or_pos n with rfl | hpos
      · exact hfirst _ (hget 0 hlt) hzero
      · obtain ⟨earlier, -, -, -, hworld, -⟩ := hearlier 0 hpos
        exact hworld hzero.1
    · have ⟨case, hcase, hvalid, hworld, _⟩ := hmeasured
      exact (hsound n ⟨⟨case, hcase, hvalid⟩, hworld, hearlier⟩).2 results hmeasured

theorem returns_run : Returns (self.run profile threads) ↔ self.Sound threads := by
  rw [← returns_cases]
  unfold run
  rw [returns_bind]
  exact ⟨fun h => h.1, fun h => ⟨h, fun cases _ => (succeeds_pure _).returns⟩⟩

end Run

end InMemoryBenchmark

/-- When the benchmarks come to an end. The in-memory one must not take a remainder by zero, and its
worlds must be spawned. Aggregation needs a rank for every case that it computes, and an iteration.
With overflow checks the number of cases must fit, and what is computed for a case. -/
theorem benchmarks_return_iff (profile : Profile) (benchmark : InMemoryBenchmark) (α : Type) [Add α]
    (threads : benchmark.Threads profile α) (manifest : CollectiveBenchmarkManifest)
    (reports : List CollectiveBenchmarkRankReport) (resources : CollectiveBenchmarkResources) :
    (Returns (benchmark.run profile threads) ↔ benchmark.Sound threads) ∧
    (Returns (manifest.aggregateAllReduceBenchmark profile reports resources) ↔
      ((reports.map (·.rank)).Perm (List.range manifest.worldSize) →
        profile.Fits manifest.numberOfCases) ∧
      ∀ i, manifest.Computed (manifest.numberOfCases % 2 ^ 64) reports i →
        1 ≤ manifest.worldSize ∧ manifest.Computes profile reports i) :=
  ⟨InMemoryBenchmark.returns_run,
    CollectiveBenchmarkManifest.returns_aggregateAllReduceBenchmark resources⟩

/-- One value in a ring or at a root, over so many ranks. -/
def oneCase (algorithm : AllReduceAlgorithm) (worldSize : Nat) : InMemoryBenchmark :=
  ⟨worldSize, [4], [algorithm], 0, 1⟩

/-- Threads of which none is started. -/
def noThreads (algorithm : AllReduceAlgorithm) (worldSize : Nat) :
    (oneCase algorithm worldSize).Threads .release Nat where
  value := fun _ => 0
  join := fun _ _ => none
  possible := fun _ _ _ _ _ _ _ h => nomatch h

/-- Without ranks the benchmark divides by their number, and for too many of them no table has room.
Aggregation divides by the number of iterations, and asks for the first of no reports. -/
theorem benchmarks_panic :
    ((oneCase .ring 0).run .release (noThreads .ring 0)).run = .error .remainderByZero ∧
    ((oneCase .centralized (2 ^ 64 - 1)).run .release (noThreads .centralized (2 ^ 64 - 1))).run =
      .error .capacityOverflow ∧
    ((⟨1, "", 1, [4], [.ring], 0, 0⟩ : CollectiveBenchmarkManifest).aggregateAllReduceBenchmark
      .release [⟨1, 0, [⟨.ring, 4, [], 0, []⟩], true⟩] ⟨0, 0, 0, 0, 0, 0, 0, 0⟩).run =
      .error .divisionByZero ∧
    ((⟨1, "", 0, [4], [.ring], 0, 1⟩ : CollectiveBenchmarkManifest).aggregateAllReduceBenchmark
      .release [] ⟨0, 0, 0, 0, 0, 0, 0, 0⟩).run = .error .indexOutOfBounds := by
  refine ⟨rfl, rfl, ?_, ?_⟩
  · have hcase : ((⟨1, "", 1, [4], [.ring], 0, 0⟩ : CollectiveBenchmarkManifest).aggregateCase
        .release [⟨1, 0, [⟨.ring, 4, [], 0, []⟩], true⟩] 0).run = .error .divisionByZero := by
      show (ExceptT.lift (CollectiveBenchmarkCase.summarize .release .ring 4 0 0 [] _)).run = _
      rw [CollectiveBenchmarkCase.summarize, sortUnstable, List.mergeSort_nil]
      rfl
    rw [CollectiveBenchmarkManifest.aggregateAllReduceBenchmark, List.mergeSort_singleton]
    show (CollectiveBenchmarkManifest.aggregateCase _ .release _ 0 >>= _ >>= _).run = _
    rw [ExceptT.run_bind, ExceptT.run_bind, hcase]
    rfl
  · rw [CollectiveBenchmarkManifest.aggregateAllReduceBenchmark, List.mergeSort_nil]
    rfl

end Dlir.Collectives
