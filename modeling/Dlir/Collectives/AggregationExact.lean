import Dlir.Collectives.Aggregation

namespace Dlir.Collectives

open Dlir.Framework Dlir.Math

namespace CollectiveBenchmarkManifest

variable (manifest : CollectiveBenchmarkManifest)

/-- Which reports are complete and agree. -/
def Acceptable (reports : List CollectiveBenchmarkRankReport) : Prop :=
  manifest.Complete manifest.numberOfCases reports ∧
    ∀ i, i < manifest.numberOfCases → Consistent reports i

/-- No sum over the ranks or the iterations of a case leaves the 64 bits. -/
def SumsFit (reports : List CollectiveBenchmarkRankReport) : Prop :=
  ∀ i, manifest.Computed manifest.numberOfCases reports i →
    (manifest.maxima reports i).sum < 2 ^ 64 ∧ (reports.map (·.sent i)).sum < 2 ^ 64

/-- Some reports are taken or refused, they are taken when they are acceptable, their order does not
matter, and the metrics of every case describe the slowest ranks. -/
structure Sane (profile : Profile) (resources : CollectiveBenchmarkResources)
    (reports : List CollectiveBenchmarkRankReport) : Prop where
  returns : Returns (manifest.aggregateAllReduceBenchmark profile reports resources)
  accepts : Succeeds (manifest.aggregateAllReduceBenchmark profile reports resources) ↔
    manifest.Acceptable reports
  order : ∀ reports', reports.Perm reports' →
    manifest.aggregateAllReduceBenchmark profile reports' resources =
      manifest.aggregateAllReduceBenchmark profile reports resources
  describes : ∀ report : CollectiveBenchmarkReport,
    (manifest.aggregateAllReduceBenchmark profile reports resources).run = .ok (.ok report) →
    report.cases.length = manifest.numberOfCases ∧
    ∀ (i : Nat) (case : CollectiveBenchmarkCase), report.cases[i]? = some case →
      case.Describes (manifest.maxima reports i)

/-- The products that aggregation computes fit in 64 bits: the number of cases, and where there is a
case the index of its percentiles. -/
def ProductsFit : Prop :=
  manifest.numberOfCases < 2 ^ 64 ∧
    (manifest.numberOfCases = 0 ∨ (manifest.iterations - 1) * 95 < 2 ^ 64)

section Sufficient

variable {manifest} {profile : Profile} {reports : List CollectiveBenchmarkRankReport}

theorem maxima_length (i : Nat) : (manifest.maxima reports i).length = manifest.iterations := by
  rw [maxima, List.length_map, List.length_range]

/-- Where the products and the sums fit, the metrics of a case are computed. -/
theorem ProductsFit.computes (h : manifest.ProductsFit) (hiterations : 1 ≤ manifest.iterations)
    (hsums : manifest.SumsFit reports) {i : Nat}
    (hi : manifest.Computed manifest.numberOfCases reports i) :
    manifest.Computes profile reports i := by
  obtain ⟨hmaxima, hsent⟩ := hsums i hi
  have hlt := hi.2.1
  have hindex := h.2.resolve_left (by omega)
  constructor
  · omega
  · exact fun _ => hmaxima
  · rw [maxima_length]
    exact fun _ => hindex
  · exact fun _ => hsent

theorem ProductsFit.sane (h : manifest.ProductsFit) (hworld : 1 ≤ manifest.worldSize)
    (hiterations : 1 ≤ manifest.iterations) (resources : CollectiveBenchmarkResources)
    (hsums : manifest.SumsFit reports) : manifest.Sane profile resources reports := by
  have hmod : manifest.numberOfCases % 2 ^ 64 = manifest.numberOfCases := Nat.mod_eq_of_lt h.1
  have hcomputed : manifest.Acceptable reports → ∀ i, i < manifest.numberOfCases →
      manifest.Computed manifest.numberOfCases reports i :=
    fun hall i hi => ⟨hall.1, hi, fun j hj => hall.2 j (by omega)⟩
  have haccepts : Succeeds (manifest.aggregateAllReduceBenchmark profile reports resources) ↔
      manifest.Acceptable reports := by
    rw [succeeds_aggregateAllReduceBenchmark resources hworld, hmod]
    constructor
    · intro hall
      exact ⟨hall.2.1, fun i hi => (hall.2.2 i hi).1⟩
    · intro hall
      exact ⟨fun _ => h.1, hall.1, fun i hi =>
        ⟨hall.2 i hi, h.computes hiterations hsums (hcomputed hall i hi)⟩⟩
  constructor
  · rw [returns_aggregateAllReduceBenchmark, hmod]
    exact ⟨fun _ _ => h.1, fun i hi => ⟨hworld, h.computes hiterations hsums hi⟩⟩
  · exact haccepts
  · intro reports' hperm
    exact (aggregateAllReduceBenchmark_perm manifest profile hperm resources).symm
  · intro report hrun
    obtain ⟨hlen, hcases⟩ := cases_of_aggregateAllReduceBenchmark resources hworld hrun
    rw [hmod] at hlen
    refine ⟨hlen, fun i case hcase => ?_⟩
    obtain ⟨hi, -⟩ := List.getElem?_eq_some_iff.mp hcase
    rw [hlen] at hi
    obtain ⟨algorithm, payloadBytes, sent, hsummary⟩ := hcases i case hcase
    have hmaxima := (hsums i (hcomputed (haccepts.mp ⟨report, hrun⟩) i hi)).1
    have hsamples : (manifest.maxima reports i).length = manifest.iterations := maxima_length i
    have hsummary' : CollectiveBenchmarkCase.summarize profile algorithm payloadBytes
        manifest.iterations (manifest.maxima reports i).length (manifest.maxima reports i)
        (.ok sent) = .ok case := by
      rw [hsamples]
      exact hsummary
    have hindex := h.2.resolve_left (by omega)
    refine CollectiveBenchmarkCase.describes_of_summarize hsummary' ?_ hmaxima ?_
    · intro hnil
      rw [hnil, List.length_nil] at hsamples
      omega
    · rw [hsamples]
      exact hindex

end Sufficient

section Necessary

/-- The report of a rank that measured the same latencies in every case. -/
def evenReport (count : Nat) (latenciesNs : List Nat) (rank : Nat) : CollectiveBenchmarkRankReport :=
  ⟨1, rank, List.replicate count ⟨.ring, 4, latenciesNs, 0, []⟩, true⟩

/-- The reports of ranks that all measured the same latencies in every case. -/
def evenReports (count : Nat) (latenciesNs : List Nat) : List CollectiveBenchmarkRankReport :=
  (List.range manifest.worldSize).map (evenReport count latenciesNs)

variable {manifest} {profile : Profile} {resources : CollectiveBenchmarkResources} {count i : Nat}
  {latenciesNs : List Nat}

theorem evenReports_complete (h : latenciesNs.length = manifest.iterations) :
    manifest.Complete count (manifest.evenReports count latenciesNs) := by
  constructor
  · rw [evenReports, List.map_map]
    exact .of_eq (List.map_id _)
  · simp [evenReports, evenReport]
  · simp [evenReports, evenReport]
  · simp only [evenReports, evenReport, List.mem_map]
    intro report hreport case hcase
    obtain ⟨rank, -, rfl⟩ := hreport
    rw [List.eq_of_mem_replicate hcase]
    exact h

theorem evenReports_consistent : Consistent (manifest.evenReports count latenciesNs) i := by
  simp only [Consistent, evenReports, List.mem_map]
  intro report hreport other hother
  obtain ⟨rank, -, rfl⟩ := hreport
  obtain ⟨rank', -, rfl⟩ := hother
  rfl

theorem evenReport_latency (hi : i < count) (rank iteration : Nat) :
    (evenReport count latenciesNs rank).latency i iteration = latenciesNs[iteration]?.getD 0 := by
  simp [evenReport, CollectiveBenchmarkRankReport.latency, hi]

theorem largest_replicate {n : Nat} (hn : 1 ≤ n) (x : Nat) : largest (List.replicate n x) = x := by
  induction n with
  | zero => omega
  | succ n ih =>
    rw [List.replicate_succ, largest, List.foldr_cons]
    rcases Nat.eq_zero_or_pos n with hzero | hpos
    · rw [hzero]
      simp
    · have hrest := ih hpos
      rw [largest] at hrest
      rw [hrest, Nat.max_self]

theorem evenReports_maxima (h : latenciesNs.length = manifest.iterations)
    (hworld : 1 ≤ manifest.worldSize) (hi : i < count) :
    manifest.maxima (manifest.evenReports count latenciesNs) i = latenciesNs := by
  have hmap : ∀ iteration, (manifest.evenReports count latenciesNs).map (·.latency i iteration) =
      List.replicate manifest.worldSize (latenciesNs[iteration]?.getD 0) := by
    intro iteration
    rw [evenReports, List.map_map, ← List.length_range (n := manifest.worldSize),
      ← List.map_const', List.length_range]
    exact List.map_congr_left fun rank _ => evenReport_latency hi rank iteration
  apply List.ext_getElem
  · rw [maxima_length, h]
  · intro iteration _ hlt
    simp only [maxima, List.getElem_map, List.getElem_range, hmap]
    rw [largest_replicate hworld, List.getElem?_eq_getElem hlt, Option.getD_some]

theorem evenReports_sent : ((manifest.evenReports count latenciesNs).map (·.sent i)).sum = 0 := by
  rw [List.sum_eq_zero_iff]
  simp only [evenReports, List.map_map, List.mem_map]
  intro bytes hbytes
  obtain ⟨rank, -, rfl⟩ := hbytes
  simp only [Function.comp_apply, evenReport, CollectiveBenchmarkRankReport.sent,
    List.getElem?_replicate]
  split_ifs <;> rfl

variable (profile resources) in
/-- Even reports with the number of cases that 64 bits hold are taken where they are not stopped. -/
theorem evenReports_accepted (h : latenciesNs.length = manifest.iterations)
    (hworld : 1 ≤ manifest.worldSize)
    (hreturns : Returns (manifest.aggregateAllReduceBenchmark profile
      (manifest.evenReports (manifest.numberOfCases % 2 ^ 64) latenciesNs) resources)) :
    Succeeds (manifest.aggregateAllReduceBenchmark profile
      (manifest.evenReports (manifest.numberOfCases % 2 ^ 64) latenciesNs) resources) := by
  obtain ⟨hfits, hcomputes⟩ := (returns_aggregateAllReduceBenchmark resources).mp hreturns
  have hcomplete : manifest.Complete (manifest.numberOfCases % 2 ^ 64)
      (manifest.evenReports (manifest.numberOfCases % 2 ^ 64) latenciesNs) := evenReports_complete h
  refine (succeeds_aggregateAllReduceBenchmark resources hworld).mpr
    ⟨hfits hcomplete.ranks, hcomplete, fun i hi => ⟨evenReports_consistent, ?_⟩⟩
  exact (hcomputes i ⟨hcomplete, hi, fun _ _ => evenReports_consistent⟩).2

theorem ProductsFit.of_sane_cases (hworld : 1 ≤ manifest.worldSize)
    (h : ∀ reports, manifest.SumsFit reports → manifest.Sane profile resources reports) :
    manifest.numberOfCases < 2 ^ 64 := by
  by_contra hlarge
  have hmod : manifest.numberOfCases % 2 ^ 64 < 2 ^ 64 := Nat.mod_lt _ (by omega)
  have hlen := List.length_replicate (n := manifest.iterations) (a := 0)
  have hcomplete : manifest.Complete (manifest.numberOfCases % 2 ^ 64) (manifest.evenReports
      (manifest.numberOfCases % 2 ^ 64) (List.replicate manifest.iterations 0)) :=
    evenReports_complete hlen
  -- These reports have fewer cases than the manifest, so that none of their sums is computed.
  have hnot : ¬ manifest.Complete manifest.numberOfCases (manifest.evenReports
      (manifest.numberOfCases % 2 ^ 64) (List.replicate manifest.iterations 0)) := by
    intro hall
    obtain ⟨report, hreport⟩ := List.exists_mem_of_ne_nil _ (hall.ne_nil hworld)
    have heq := (hall.cases report hreport).symm.trans (hcomplete.cases report hreport)
    omega
  have hsane := h _ fun i hi => absurd hi.1 hnot
  exact hnot (hsane.accepts.mp (evenReports_accepted profile resources hlen hworld hsane.returns)).1

theorem wrapped_le {n : Nat} (h : 2 ^ 64 ≤ n) : n % 2 ^ 64 + 2 ^ 64 ≤ n := by
  have hle := Nat.mod_le (n - 2 ^ 64) (2 ^ 64)
  rw [← Nat.mod_eq_sub_mod h] at hle
  omega

/-- An index whose product wraps around leaves more than 5 percent of the samples behind it. -/
theorem wrapped_index {iterations : Nat} (h : 2 ^ 64 ≤ (iterations - 1) * 95) :
    100 * (divCeil ((iterations - 1) * 95 % 2 ^ 64) 100 + 1) < 95 * iterations := by
  have hwrapped := wrapped_le h
  have hceil := divCeil_lt ((iterations - 1) * 95 % 2 ^ 64)
  generalize (iterations - 1) * 95 % 2 ^ 64 = product at hwrapped hceil
  omega

theorem steps_sorted (zeros ones : Nat) :
    (List.replicate zeros 0 ++ List.replicate ones 1).Pairwise (· ≤ ·) := by
  rw [List.pairwise_append]
  simp [List.pairwise_replicate]

/-- The 95th percentile of zeros and ones is 0 where its index meets a zero. -/
theorem percentile_of_zeros {zeros ones p : Nat}
    (hzeros : divCeil ((zeros + ones - 1) * 95 % 2 ^ 64) 100 < zeros)
    (h : percentile profile (sortUnstable (List.replicate zeros 0 ++ List.replicate ones 1)) 95 =
      .ok p) : p = 0 := by
  have hsorted : sortUnstable (List.replicate zeros 0 ++ List.replicate ones 1) =
      List.replicate zeros 0 ++ List.replicate ones 1 :=
    List.mergeSort_of_pairwise ((steps_sorted zeros ones).imp fun hle => decide_eq_true hle)
  rw [hsorted, percentile_eq_ok, List.length_append, List.length_replicate, List.length_replicate]
    at h
  rw [h.2, List.getElem?_append_left (by simpa using hzeros), List.getElem?_replicate, if_pos hzeros]
  rfl

theorem ProductsFit.of_sane_index (hworld : 1 ≤ manifest.worldSize)
    (husize : manifest.iterations < 2 ^ 64) (hcases : manifest.numberOfCases < 2 ^ 64)
    (hsome : manifest.numberOfCases ≠ 0)
    (h : ∀ reports, manifest.SumsFit reports → manifest.Sane profile resources reports) :
    (manifest.iterations - 1) * 95 < 2 ^ 64 := by
  by_contra hlarge
  have hwrapped := wrapped_index (Nat.le_of_not_lt hlarge)
  obtain ⟨zeros, hzeros⟩ :
      ∃ zeros, zeros = divCeil ((manifest.iterations - 1) * 95 % 2 ^ 64) 100 + 1 := ⟨_, rfl⟩
  rw [← hzeros] at hwrapped
  obtain ⟨ones, hones⟩ := Nat.exists_eq_add_of_le (show zeros ≤ manifest.iterations by omega)
  have hlen : (List.replicate zeros 0 ++ List.replicate ones 1).length = manifest.iterations := by
    simp [hones]
  have hmaxima : ∀ i, i < manifest.numberOfCases → manifest.maxima (manifest.evenReports
      manifest.numberOfCases (List.replicate zeros 0 ++ List.replicate ones 1)) i =
        List.replicate zeros 0 ++ List.replicate ones 1 :=
    fun i hi => evenReports_maxima hlen hworld hi
  have hsane := h (manifest.evenReports manifest.numberOfCases
      (List.replicate zeros 0 ++ List.replicate ones 1)) fun i hi => by
    rw [hmaxima i hi.2.1, evenReports_sent]
    simp only [List.sum_append, List.sum_replicate, smul_eq_mul]
    omega
  have haccepted := evenReports_accepted profile resources hlen hworld
  rw [Nat.mod_eq_of_lt hcases] at haccepted
  obtain ⟨report, hrun⟩ := haccepted hsane.returns
  obtain ⟨hlength, hdescribes⟩ := hsane.describes report hrun
  have hfirst := List.getElem?_eq_getElem (show 0 < report.cases.length by omega)
  obtain ⟨algorithm, payloadBytes, sent, hsummary⟩ :=
    (cases_of_aggregateAllReduceBenchmark resources hworld hrun).2 0 _ hfirst
  have hmost := (hdescribes 0 _ hfirst).most_of_all
  rw [hmaxima 0 (by omega)] at hsummary hmost
  have hp95 := CollectiveBenchmarkCase.percentile_of_summarize hsummary
  have hindex : divCeil ((zeros + ones - 1) * 95 % 2 ^ 64) 100 < zeros := by
    rw [← hones, hzeros]
    exact Nat.lt_succ_self _
  rw [percentile_of_zeros hindex hp95, hlen, List.countP_append, List.countP_replicate,
    List.countP_replicate] at hmost
  simp at hmost
  omega

variable (manifest) in
/-- In every build, all reports are treated sanely exactly when the products fit. -/
theorem aggregateAllReduceBenchmark_exact (profile : Profile)
    (resources : CollectiveBenchmarkResources) (hworld : 1 ≤ manifest.worldSize)
    (hiterations : 1 ≤ manifest.iterations) (husize : manifest.iterations < 2 ^ 64) :
    (∀ reports, manifest.SumsFit reports → manifest.Sane profile resources reports) ↔
      manifest.ProductsFit := by
  constructor
  · intro h
    have hcases := ProductsFit.of_sane_cases hworld h
    refine ⟨hcases, or_iff_not_imp_left.mpr fun hsome => ?_⟩
    exact ProductsFit.of_sane_index hworld husize hcases hsome h
  · intro h reports hsums
    exact h.sane hworld hiterations resources hsums

end Necessary

/-- Two ranks, one case and two iterations. -/
def smallManifest : CollectiveBenchmarkManifest := ⟨1, "test", 2, [4096], [.ring], 1, 2⟩

def smallReport (rank : Nat) (latenciesNs : List Nat) : CollectiveBenchmarkRankReport :=
  ⟨1, rank, [⟨.ring, 4096, latenciesNs, 8192, []⟩], true⟩

def noResources : CollectiveBenchmarkResources := ⟨0, 0, 0, 0, 0, 0, 0, 0⟩

theorem aggregateAllReduceBenchmark_exact_two_ranks :
    smallManifest.SumsFit [smallReport 1 [20, 30], smallReport 0 [10, 40]] ∧
    smallManifest.Acceptable [smallReport 1 [20, 30], smallReport 0 [10, 40]] ∧
    smallManifest.Sane .dev noResources [smallReport 1 [20, 30], smallReport 0 [10, 40]] := by
  have hsums : smallManifest.SumsFit [smallReport 1 [20, 30], smallReport 0 [10, 40]] := by
    intro i hi
    have hlt : i < 1 := hi.2.1
    obtain rfl : i = 0 := by omega
    decide
  have hcomplete : smallManifest.Complete 1 [smallReport 1 [20, 30], smallReport 0 [10, 40]] := by
    constructor <;> decide
  have hconsistent : ∀ i, i < 1 → Consistent [smallReport 1 [20, 30], smallReport 0 [10, 40]] i := by
    intro i hi
    obtain rfl : i = 0 := by omega
    unfold Consistent
    decide
  have hexact := (aggregateAllReduceBenchmark_exact smallManifest .dev noResources
    (by decide) (by decide) (by decide)).mpr ⟨by decide, .inr (by decide)⟩
  exact ⟨hsums, ⟨hcomplete, hconsistent⟩, hexact _ hsums⟩

/-- So many algorithms and sizes that the number of cases wraps around to 0. -/
def wideManifest : CollectiveBenchmarkManifest :=
  ⟨1, "test", 1, List.replicate (2 ^ 32) 4, List.replicate (2 ^ 32) .ring, 0, 1⟩

theorem wideManifest_numberOfCases : wideManifest.numberOfCases = 2 ^ 64 := by
  have halgorithms : wideManifest.algorithms.length = 2 ^ 32 := List.length_replicate
  have hsizes : wideManifest.sizes.length = 2 ^ 32 := List.length_replicate
  rw [numberOfCases, halgorithms, hsizes, ← Nat.pow_add]

/-- A report without cases is taken in one build, and stops the other. -/
theorem aggregateAllReduceBenchmark_wraps :
    wideManifest.SumsFit [⟨1, 0, [], true⟩] ∧
    Succeeds (wideManifest.aggregateAllReduceBenchmark .release [⟨1, 0, [], true⟩] noResources) ∧
    ¬ wideManifest.Acceptable [⟨1, 0, [], true⟩] ∧
    ¬ Returns (wideManifest.aggregateAllReduceBenchmark .dev [⟨1, 0, [], true⟩] noResources) := by
  have hnone : ¬ wideManifest.Complete wideManifest.numberOfCases [⟨1, 0, [], true⟩] := by
    intro h
    have hlen : 0 = wideManifest.numberOfCases := h.cases _ List.mem_cons_self
    rw [wideManifest_numberOfCases] at hlen
    omega
  have hcount : wideManifest.numberOfCases % 2 ^ 64 = 0 := by
    rw [wideManifest_numberOfCases, Nat.mod_self]
  have hcomplete : wideManifest.Complete 0 [⟨1, 0, [], true⟩] := by
    have hworld : wideManifest.worldSize = 1 := rfl
    constructor <;> simp [hworld]
  refine ⟨fun i hi => absurd hi.1 hnone, ?_, fun h => hnone h.1, fun h => ?_⟩
  · rw [succeeds_aggregateAllReduceBenchmark noResources le_rfl, hcount]
    exact ⟨nofun, hcomplete, fun i hi => absurd hi (Nat.not_lt_zero i)⟩
  · rw [returns_aggregateAllReduceBenchmark] at h
    have hfits := h.1 hcomplete.ranks rfl
    rw [wideManifest_numberOfCases] at hfits
    exact lt_irrefl _ hfits

end CollectiveBenchmarkManifest

end Dlir.Collectives
