import Dlir.Collectives.Metrics

namespace Dlir.Collectives

open Dlir.Framework Dlir.Math

namespace CollectiveBenchmarkRankReport

/-- The latency of one iteration of one case, or 0 where the report has none. -/
def latency (self : CollectiveBenchmarkRankReport) (caseIndex iteration : Nat) : Nat :=
  ((self.cases[caseIndex]?).bind fun case => case.latenciesNs[iteration]?).getD 0

/-- What one rank sent in one case. -/
def sent (self : CollectiveBenchmarkRankReport) (caseIndex : Nat) : Nat :=
  ((self.cases[caseIndex]?).map (·.sentBytes)).getD 0

/-- What a case is about. -/
def identity (self : CollectiveBenchmarkRankReport) (caseIndex : Nat) :
    Option (AllReduceAlgorithm × Nat) :=
  (self.cases[caseIndex]?).map fun case => (case.algorithm, case.payloadBytes)

end CollectiveBenchmarkRankReport

namespace CollectiveBenchmarkManifest

variable (manifest : CollectiveBenchmarkManifest)

/-- The largest latency over the ranks, for every iteration of a case. -/
def maxima (reports : List CollectiveBenchmarkRankReport) (caseIndex : Nat) : List Nat :=
  (List.range manifest.iterations).map fun iteration =>
    largest (reports.map (·.latency caseIndex iteration))

/-- All reports are there, with the manifest's schema and samples and with this many cases. -/
structure Complete (count : Nat) (reports : List CollectiveBenchmarkRankReport) : Prop where
  ranks : (reports.map (·.rank)).Perm (List.range manifest.worldSize)
  schema : ∀ report ∈ reports, report.schemaVersion = 1
  cases : ∀ report ∈ reports, report.cases.length = count
  samples : ∀ report ∈ reports, ∀ case ∈ report.cases,
    case.latenciesNs.length = manifest.iterations

/-- The reports agree about what a case is. -/
def Consistent (reports : List CollectiveBenchmarkRankReport) (caseIndex : Nat) : Prop :=
  ∀ report ∈ reports, ∀ other ∈ reports, report.identity caseIndex = other.identity caseIndex

/-- The sums of a case are computed: the reports are complete and agree up to this case. -/
def Computed (count : Nat) (reports : List CollectiveBenchmarkRankReport) (caseIndex : Nat) : Prop :=
  manifest.Complete count reports ∧ caseIndex < count ∧
    ∀ earlier ≤ caseIndex, Consistent reports earlier

section Checks

variable {manifest} {ranks : List CollectiveBenchmarkRankReport} {count : Nat}

theorem zipIdx_any_eq_false {α : Type} (f : α → Nat) (xs : List α) (start : Nat) :
    (xs.zipIdx start).any (fun entry => f entry.1 != entry.2) = false ↔
      xs.map f = List.range' start xs.length := by
  induction xs generalizing start with
  | nil => simp
  | cons x xs ih =>
    rw [List.zipIdx_cons, List.any_cons, Bool.or_eq_false_iff, ih, List.map_cons, List.length_cons,
      List.range'_succ, List.cons.injEq]
    simp

/-- Which reports pass the check of their ranks. -/
theorem checkRanks_eq_ok (u : Unit) : manifest.checkRanks ranks = .ok u ↔
    ranks.map (·.rank) = List.range manifest.worldSize := by
  rw [checkRanks, refuse_eq_ok, not_or, not_not, Bool.not_eq_true, zipIdx_any_eq_false,
    ← List.range_eq_range']
  constructor
  · intro h
    rw [← h.1]
    exact h.2
  · intro h
    have hlen : ranks.length = manifest.worldSize := by
      simpa using congrArg List.length h
    exact ⟨hlen, by rw [hlen]; exact h⟩

theorem checkCases_eq_ok (u : Unit) : manifest.checkCases ranks count = .ok u ↔
    (∀ report ∈ ranks, report.cases.length = count) ∧
    ∀ report ∈ ranks, report.schemaVersion = 1 ∧
      ∀ case ∈ report.cases, case.latenciesNs.length = manifest.iterations := by
  simp only [checkCases, bind_eq_ok, refuse_eq_ok]
  simp

/-- The check of the ranks does not depend on the order of the reports. -/
theorem checkRanks_sorted (reports : List CollectiveBenchmarkRankReport) (u : Unit) :
    manifest.checkRanks (reports.mergeSort fun a b => decide (a.rank ≤ b.rank)) = .ok u ↔
      (reports.map (·.rank)).Perm (List.range manifest.worldSize) := by
  have hperm := List.mergeSort_perm reports fun a b => decide (a.rank ≤ b.rank)
  have hsorted : ((reports.mergeSort fun a b => decide (a.rank ≤ b.rank)).map (·.rank)).Pairwise
      (· ≤ ·) :=
    List.pairwise_map.mpr (mergeSort_sorted (·.rank) reports)
  rw [checkRanks_eq_ok]
  constructor
  · intro h
    rw [← h]
    exact (hperm.map _).symm
  · intro h
    have hrange : (List.range manifest.worldSize).Pairwise (· ≤ ·) :=
      (List.pairwise_lt_range).imp Nat.le_of_lt
    exact List.Perm.eq_of_pairwise (fun a b _ _ => Nat.le_antisymm) hsorted hrange
      ((hperm.map _).trans h)

/-- Reports whose ranks are there pass the other checks when they are complete. -/
theorem checkCases_perm {reports : List CollectiveBenchmarkRankReport} (hperm : ranks.Perm reports)
    (hranks : (reports.map (·.rank)).Perm (List.range manifest.worldSize)) (u : Unit) :
    manifest.checkCases ranks count = .ok u ↔ manifest.Complete count reports := by
  rw [checkCases_eq_ok]
  constructor
  · intro h
    obtain ⟨hcases, hrest⟩ := h
    exact ⟨hranks, fun r hr => (hrest r (hperm.mem_iff.mpr hr)).1,
      fun r hr => hcases r (hperm.mem_iff.mpr hr), fun r hr => (hrest r (hperm.mem_iff.mpr hr)).2⟩
  · intro h
    exact ⟨fun r hr => h.cases r (hperm.mem_iff.mp hr),
      fun r hr => ⟨h.schema r (hperm.mem_iff.mp hr), h.samples r (hperm.mem_iff.mp hr)⟩⟩

end Checks

section Order

variable {reports reports' : List CollectiveBenchmarkRankReport}

/-- Reports of different ranks have one order. -/
theorem sorted_eq_of_perm (h : reports.Perm reports') (hnodup : (reports.map (·.rank)).Nodup) :
    (reports.mergeSort fun a b => decide (a.rank ≤ b.rank)) =
      reports'.mergeSort fun a b => decide (a.rank ≤ b.rank) := by
  have hperm := List.mergeSort_perm reports fun a b => decide (a.rank ≤ b.rank)
  have hperm' := List.mergeSort_perm reports' fun a b => decide (a.rank ≤ b.rank)
  refine List.Perm.eq_of_pairwise (fun a b ha hb hab hba => ?_)
    (mergeSort_sorted (·.rank) reports) (mergeSort_sorted (·.rank) reports')
    (hperm.trans (h.trans hperm'.symm))
  have ha := hperm.mem_iff.mp ha
  have hb := h.mem_iff.mpr (hperm'.mem_iff.mp hb)
  exact List.inj_on_of_nodup_map hnodup ha hb (Nat.le_antisymm hab hba)

theorem checkRanks_refused {ranks : List CollectiveBenchmarkRankReport}
    (h : ranks.map (·.rank) ≠ List.range manifest.worldSize) : manifest.checkRanks ranks =
      .error (.collective "benchmark rank reports are incomplete or unordered") := by
  unfold checkRanks refuse
  rw [if_pos]
  by_contra hpass
  rw [not_or, not_not, Bool.not_eq_true, zipIdx_any_eq_false, ← List.range_eq_range'] at hpass
  exact h (by rw [← hpass.1]; exact hpass.2)

/-- The order in which the reports come in does not matter. -/
theorem aggregateAllReduceBenchmark_perm (profile : Profile) (h : reports.Perm reports')
    (resources : CollectiveBenchmarkResources) :
    manifest.aggregateAllReduceBenchmark profile reports resources =
      manifest.aggregateAllReduceBenchmark profile reports' resources := by
  unfold aggregateAllReduceBenchmark
  by_cases hranks : (reports.map (·.rank)).Perm (List.range manifest.worldSize)
  · have hnodup := hranks.nodup_iff.mpr List.nodup_range
    rw [sorted_eq_of_perm h hnodup]
  · have hrefused : ∀ xs : List CollectiveBenchmarkRankReport, reports.Perm xs →
        manifest.checkRanks (xs.mergeSort fun a b => decide (a.rank ≤ b.rank)) =
          .error (.collective "benchmark rank reports are incomplete or unordered") := by
      intro xs hxs
      refine manifest.checkRanks_refused fun heq => hranks ?_
      have hperm := (List.mergeSort_perm xs fun a b => decide (a.rank ≤ b.rank)).map (·.rank)
      rw [heq] at hperm
      exact (hxs.map _).trans hperm.symm
    simp only [hrefused reports (.refl _), hrefused reports' h]
    rfl

end Order

section Cases

variable {ranks : List CollectiveBenchmarkRankReport} {count i : Nat}

theorem anyM_eq_any {α : Type} {f : α → Except Panic Bool} {v : α → Bool} {xs : List α}
    (h : ∀ x ∈ xs, f x = .ok (v x)) : xs.anyM f = .ok (xs.any v) := by
  induction xs with
  | nil => rfl
  | cons x xs ih =>
    obtain ⟨hx, hxs⟩ := List.forall_mem_cons.mp h
    rw [List.anyM, hx, List.any_cons]
    cases v x with
    | true => rfl
    | false => exact ih hxs

variable {manifest} (hcases : ∀ report ∈ ranks, report.cases.length = count)
  (hsamples : ∀ report ∈ ranks, ∀ case ∈ report.cases,
    case.latenciesNs.length = manifest.iterations)
  (hi : i < count)

include hcases hi in
/-- Every report has the case. -/
theorem exists_case {report : CollectiveBenchmarkRankReport} (hr : report ∈ ranks) :
    ∃ case ∈ report.cases, index report.cases i = .ok case ∧ report.cases[i]? = some case := by
  have hlt : i < report.cases.length := by rw [hcases report hr]; exact hi
  exact ⟨_, List.getElem_mem hlt, index_of_lt hlt, List.getElem?_eq_getElem hlt⟩

include hcases hsamples hi in
theorem slowest_eq {iteration : Nat} (ht : iteration < manifest.iterations) :
    slowest ranks i iteration = .ok (largest (ranks.map (·.latency i iteration))) := by
  have hmap : ranks.mapM (fun rank => do
      let case ← index rank.cases i
      index case.latenciesNs iteration) = .ok (ranks.map (·.latency i iteration)) := by
    refine mapM_eq_map fun report hr => ?_
    obtain ⟨case, hmem, hindex, hcase⟩ := exists_case hcases hi hr
    have hlt : iteration < case.latenciesNs.length := by
      rw [hsamples report hr case hmem]
      exact ht
    rw [hindex, CollectiveBenchmarkRankReport.latency, hcase]
    show index case.latenciesNs iteration = _
    rw [index_of_lt hlt, Option.bind_some, List.getElem?_eq_getElem hlt, Option.getD_some]
  rw [slowest, hmap, ← max?_getD]
  rfl

include hcases hsamples hi in
theorem maximums_eq : (List.range manifest.iterations).mapM (slowest ranks i) =
    .ok (manifest.maxima ranks i) :=
  mapM_eq_map fun _ ht => slowest_eq hcases hsamples hi (List.mem_range.mp ht)

include hcases hi in
theorem sent_eq : ranks.mapM (fun rank => do
    let case ← index rank.cases i
    pure case.sentBytes) = .ok (ranks.map (·.sent i)) := by
  refine mapM_eq_map fun report hr => ?_
  obtain ⟨case, -, hindex, hcase⟩ := exists_case hcases hi hr
  rw [hindex, CollectiveBenchmarkRankReport.sent, hcase]
  rfl

include hcases hi in
/-- The comparison with the first report finds out whether the reports agree. -/
theorem differs_eq {report : CollectiveBenchmarkRankReport} {first : CollectiveBenchmarkRankCase}
    (hreport : report ∈ ranks) (hfirst : report.cases[i]? = some first) :
    ∃ differs, ranks.anyM (fun rank => do
      let case ← index rank.cases i
      pure (case.algorithm != first.algorithm || case.payloadBytes != first.payloadBytes)) =
        .ok differs ∧ (differs = false ↔ Consistent ranks i) := by
  refine ⟨_, anyM_eq_any (v := fun rank =>
    decide (rank.identity i ≠ some (first.algorithm, first.payloadBytes))) fun rank hr => ?_, ?_⟩
  · obtain ⟨case, -, hindex, hcase⟩ := exists_case hcases hi hr
    rw [hindex, CollectiveBenchmarkRankReport.identity, hcase]
    show Except.ok _ = Except.ok _
    rw [Except.ok.injEq, Bool.eq_iff_iff]
    simp only [Bool.or_eq_true, bne_iff_ne, decide_eq_true_eq, Option.map_some, ne_eq,
      Option.some.injEq, Prod.mk.injEq]
    exact (not_and_or).symm
  · have hown : report.identity i = some (first.algorithm, first.payloadBytes) := by
      rw [CollectiveBenchmarkRankReport.identity, hfirst, Option.map_some]
    rw [List.any_eq_false]
    constructor
    · intro h r hr other hother
      have hall : ∀ rank ∈ ranks, rank.identity i = some (first.algorithm, first.payloadBytes) := by
        intro rank hrank
        simpa using h rank hrank
      rw [hall r hr, hall other hother]
    · intro h rank hrank
      rw [h rank hrank report hreport, hown]
      simp

variable (profile : Profile) (hne : ranks ≠ [])

include hcases hi hne

/-- A case about which the reports do not agree is refused. -/
theorem run_aggregateCase_of_not_consistent (h : ¬ Consistent ranks i) :
    (manifest.aggregateCase profile ranks i).run =
      .ok (.error (.collective "benchmark ranks emitted inconsistent case identities")) := by
  obtain ⟨report, rest, rfl⟩ := List.exists_cons_of_ne_nil hne
  obtain ⟨first, -, hindex, hfirst⟩ := exists_case hcases hi List.mem_cons_self
  obtain ⟨differs, hdiffers, hiff⟩ := differs_eq hcases hi List.mem_cons_self hfirst
  have htrue : differs = true := by
    rw [← Bool.not_eq_false, hiff]
    exact h
  subst htrue
  unfold aggregateCase
  rw [show index (report :: rest) 0 = .ok report from rfl]
  show (ExceptT.lift (index report.cases i) >>= _).run = _
  rw [hindex]
  show (ExceptT.lift (List.anyM _ _) >>= _).run = _
  rw [hdiffers]
  rfl

include hsamples

/-- What is computed for a case about which the reports agree. -/
theorem run_aggregateCase_of_consistent (h : Consistent ranks i) :
    ∃ algorithm payloadBytes, (manifest.aggregateCase profile ranks i).run = (do
      let case ← CollectiveBenchmarkCase.summarize profile algorithm payloadBytes manifest.iterations
        manifest.iterations (manifest.maxima ranks i) (.ok (ranks.map (·.sent i)))
      .ok (.ok case)) := by
  obtain ⟨report, rest, rfl⟩ := List.exists_cons_of_ne_nil hne
  obtain ⟨first, -, hindex, hfirst⟩ := exists_case hcases hi List.mem_cons_self
  obtain ⟨differs, hdiffers, hiff⟩ := differs_eq hcases hi List.mem_cons_self hfirst
  obtain rfl := hiff.mpr h
  refine ⟨first.algorithm, first.payloadBytes, ?_⟩
  unfold aggregateCase
  rw [show index (report :: rest) 0 = .ok report from rfl]
  show (ExceptT.lift (index report.cases i) >>= _).run = _
  rw [hindex]
  show (ExceptT.lift (List.anyM _ _) >>= _).run = _
  rw [hdiffers]
  show (ExceptT.lift (List.mapM _ _) >>= _).run = _
  rw [maximums_eq hcases hsamples hi, sent_eq hcases hi]
  show (ExceptT.lift (CollectiveBenchmarkCase.summarize _ _ _ _ _ _ _)).run = _
  cases CollectiveBenchmarkCase.summarize profile first.algorithm first.payloadBytes
    manifest.iterations manifest.iterations (manifest.maxima (report :: rest) i)
    (.ok ((report :: rest).map (·.sent i))) <;> rfl

end Cases

section Sums

variable {profile : Profile} {ranks : List CollectiveBenchmarkRankReport} {count i : Nat}

/-- The arithmetic of a case of some reports succeeds. -/
def Computes (profile : Profile) (reports : List CollectiveBenchmarkRankReport) (caseIndex : Nat) :
    Prop :=
  Summable profile manifest.iterations (manifest.maxima reports caseIndex)
    (reports.map (·.sent caseIndex))

variable {manifest} (hcases : ∀ report ∈ ranks, report.cases.length = count)
  (hsamples : ∀ report ∈ ranks, ∀ case ∈ report.cases,
    case.latenciesNs.length = manifest.iterations)
  (hi : i < count) (hne : ranks ≠ [])

include hcases hsamples hi hne

theorem succeeds_of_consistent (h : Consistent ranks i) :
    (Returns (manifest.aggregateCase profile ranks i) ↔ manifest.Computes profile ranks i) ∧
      (Succeeds (manifest.aggregateCase profile ranks i) ↔ manifest.Computes profile ranks i) := by
  obtain ⟨algorithm, payloadBytes, hrun⟩ :=
    run_aggregateCase_of_consistent hcases hsamples hi profile hne h
  have hsucceeds : manifest.Computes profile ranks i →
      Succeeds (manifest.aggregateCase profile ranks i) := by
    intro hsums
    obtain ⟨case, hcase⟩ := (CollectiveBenchmarkCase.summarize_returns algorithm payloadBytes
      manifest.iterations).mpr hsums
    exact ⟨case, by rw [hrun, hcase]; rfl⟩
  have hreturns : Returns (manifest.aggregateCase profile ranks i) →
      manifest.Computes profile ranks i := by
    intro hr
    obtain ⟨r, hr⟩ := hr
    rw [hrun] at hr
    obtain ⟨case, hcase, -⟩ := ok_of_bind hr
    exact (CollectiveBenchmarkCase.summarize_returns algorithm payloadBytes manifest.iterations).mp
      ⟨case, hcase⟩
  exact ⟨⟨hreturns, fun hsums => (hsucceeds hsums).returns⟩,
    ⟨fun hs => hreturns hs.returns, hsucceeds⟩⟩

/-- A round over the cases: reports that do not agree are refused. -/
theorem returns_aggregateCase : Returns (manifest.aggregateCase profile ranks i) ↔
    (Consistent ranks i → manifest.Computes profile ranks i) := by
  by_cases h : Consistent ranks i
  · rw [(succeeds_of_consistent hcases hsamples hi hne h).1]
    exact ⟨fun hs _ => hs, fun hs => hs h⟩
  · exact ⟨fun _ hc => absurd hc h,
      fun _ => ⟨_, run_aggregateCase_of_not_consistent hcases hi profile hne h⟩⟩

theorem succeeds_aggregateCase : Succeeds (manifest.aggregateCase profile ranks i) ↔
    Consistent ranks i ∧ manifest.Computes profile ranks i := by
  by_cases h : Consistent ranks i
  · rw [(succeeds_of_consistent hcases hsamples hi hne h).2]
    exact ⟨fun hs => ⟨h, hs⟩, fun hs => hs.2⟩
  · constructor
    · intro hs
      obtain ⟨case, hcase⟩ := hs
      rw [run_aggregateCase_of_not_consistent hcases hi profile hne h] at hcase
      cases hcase
    · exact fun hs => absurd hs.1 h

end Sums

section Permuted

variable {manifest} {profile : Profile} {reports reports' : List CollectiveBenchmarkRankReport}

theorem maxima_perm (h : reports.Perm reports') (caseIndex : Nat) :
    manifest.maxima reports caseIndex = manifest.maxima reports' caseIndex :=
  List.map_congr_left fun _ _ => largest_perm (h.map _)

theorem consistent_perm (h : reports.Perm reports') {caseIndex : Nat} :
    Consistent reports caseIndex ↔ Consistent reports' caseIndex := by
  simp only [Consistent, h.mem_iff]

theorem computes_perm (h : reports.Perm reports') {caseIndex : Nat} :
    manifest.Computes profile reports caseIndex ↔ manifest.Computes profile reports' caseIndex := by
  rw [Computes, Computes, maxima_perm h]
  exact summable_congr (h.map _).sum_nat

end Permuted

section Loop

variable {manifest} {profile : Profile} {reports ranks : List CollectiveBenchmarkRankReport}
  {count : Nat}

/-- Rounds that stop at the first case without `C`, and need `S` otherwise. -/
theorem forall_rounds_iff {C S : Nat → Prop} {n : Nat} :
    (∀ i, i < n → (∀ j, j < i → C j ∧ S j) → C i → S i) ↔
      ∀ i, i < n → (∀ j, j ≤ i → C j) → S i := by
  constructor
  · intro h i
    induction i using Nat.strong_induction_on with
    | _ i ih =>
      intro hi hC
      refine h i hi (fun j hj => ⟨hC j (by omega), ?_⟩) (hC i le_rfl)
      exact ih j hj (by omega) fun k hk => hC k (by omega)
  · intro h i hi hbefore hC
    refine h i hi fun j hj => ?_
    rcases Nat.lt_or_eq_of_le hj with hlt | rfl
    · exact (hbefore j hlt).1
    · exact hC

/-- Complete reports in the order of their ranks have what the checks look at. -/
theorem Complete.perm (h : manifest.Complete count reports) (hperm : ranks.Perm reports) :
    manifest.Complete count ranks where
  ranks := (hperm.map _).trans h.ranks
  schema := fun r hr => h.schema r (hperm.mem_iff.mp hr)
  cases := fun r hr => h.cases r (hperm.mem_iff.mp hr)
  samples := fun r hr => h.samples r (hperm.mem_iff.mp hr)

theorem Complete.length (h : manifest.Complete count reports) :
    reports.length = manifest.worldSize := by
  have hlen := h.ranks.length_eq
  rwa [List.length_map, List.length_range] at hlen

theorem Complete.ne_nil (h : manifest.Complete count reports) (hworld : 1 ≤ manifest.worldSize) :
    reports ≠ [] := by
  intro hnil
  have hlen := h.length
  rw [hnil, List.length_nil] at hlen
  omega

/-- When the loop over the cases comes to an end. -/
theorem returns_cases (h : manifest.Complete count ranks) :
    Returns ((List.range count).mapM (manifest.aggregateCase profile ranks)) ↔
      ∀ i, i < count → (∀ j, j ≤ i → Consistent ranks j) →
        1 ≤ manifest.worldSize ∧ manifest.Computes profile ranks i := by
  rw [returns_mapM_range]
  by_cases hworld : 1 ≤ manifest.worldSize
  · have hne := h.ne_nil hworld
    have hrounds := forall_rounds_iff (C := Consistent ranks) (S := manifest.Computes profile ranks)
      (n := count)
    simp only [hworld, true_and]
    rw [← hrounds]
    constructor
    · intro hall i hi hbefore
      refine (returns_aggregateCase h.cases h.samples hi hne).mp (hall i hi fun j hj => ?_)
      exact (succeeds_aggregateCase h.cases h.samples (by omega) hne).mpr (hbefore j hj)
    · intro hall i hi hbefore
      refine (returns_aggregateCase h.cases h.samples hi hne).mpr (hall i hi fun j hj => ?_)
      exact (succeeds_aggregateCase h.cases h.samples (by omega) hne).mp (hbefore j hj)
  · have hnil : ranks = [] := List.length_eq_zero_iff.mp (by rw [h.length]; omega)
    subst hnil
    constructor
    · intro hall i hi _
      obtain ⟨r, hr⟩ := hall 0 (by omega) fun j hj => absurd hj (by omega)
      cases hr
    · intro hall i hi _
      have hpos := (hall i hi fun j _ r hr => absurd hr List.not_mem_nil).1
      exact absurd hpos hworld

theorem succeeds_cases (h : manifest.Complete count ranks) (hworld : 1 ≤ manifest.worldSize) :
    Succeeds ((List.range count).mapM (manifest.aggregateCase profile ranks)) ↔
      ∀ i, i < count → Consistent ranks i ∧ manifest.Computes profile ranks i := by
  simp only [succeeds_mapM, List.mem_range]
  refine forall_congr' fun i => forall_congr' fun hi => ?_
  exact succeeds_aggregateCase h.cases h.samples hi (h.ne_nil hworld)

end Loop

section Aggregate

variable {manifest} {profile : Profile} {reports : List CollectiveBenchmarkRankReport}
  (resources : CollectiveBenchmarkResources)

/-- When the number of cases is computed: it is the product as 64 bits hold it. -/
theorem caseCount_eq_ok {count : Nat} : manifest.caseCount profile = .ok count ↔
    profile.Fits manifest.numberOfCases ∧ count = manifest.numberOfCases % 2 ^ 64 :=
  Profile.word_eq_ok

/-- When aggregation comes to an end: the number of cases fits where it is computed, and in every
case whose metrics are computed there is a rank, and the arithmetic succeeds. -/
theorem returns_aggregateAllReduceBenchmark :
    Returns (manifest.aggregateAllReduceBenchmark profile reports resources) ↔
      ((reports.map (·.rank)).Perm (List.range manifest.worldSize) →
        profile.Fits manifest.numberOfCases) ∧
      ∀ i, manifest.Computed (manifest.numberOfCases % 2 ^ 64) reports i →
        1 ≤ manifest.worldSize ∧ manifest.Computes profile reports i := by
  have hperm := List.mergeSort_perm reports fun a b => decide (a.rank ≤ b.rank)
  have hranks := manifest.checkRanks_sorted reports ()
  unfold aggregateAllReduceBenchmark
  simp only [returns_check_bind, returns_lift_bind, caseCount_eq_ok]
  generalize (reports.mergeSort fun a b => decide (a.rank ≤ b.rank)) = ranks at hperm hranks
  constructor
  · intro h
    constructor
    · intro hall
      obtain ⟨count, ⟨hfits, -⟩, -⟩ := h () (hranks.mpr hall)
      exact hfits
    · intro i hi
      obtain ⟨hcomplete, hlt, hagree⟩ := hi
      obtain ⟨count, ⟨-, rfl⟩, hrest⟩ := h () (hranks.mpr hcomplete.ranks)
      have hloop := returns_bind.mp (hrest () ((checkCases_perm hperm hcomplete.ranks ()).mpr hcomplete))
      have hcase := (returns_cases (hcomplete.perm hperm)).mp hloop.1 i hlt fun j hj =>
        (consistent_perm hperm).mpr (hagree j hj)
      exact ⟨hcase.1, (computes_perm hperm).mp hcase.2⟩
  · intro h u hu
    obtain ⟨hfits, hcases⟩ := h
    have hall := hranks.mp hu
    refine ⟨_, ⟨hfits hall, rfl⟩, fun u hu => ?_⟩
    have hcomplete := (checkCases_perm hperm hall u).mp hu
    refine returns_bind.mpr ⟨(returns_cases (hcomplete.perm hperm)).mpr fun i hi hagree => ?_,
      fun cases _ => (succeeds_pure _).returns⟩
    have hcase := hcases i ⟨hcomplete, hi, fun j hj => (consistent_perm hperm).mp (hagree j hj)⟩
    exact ⟨hcase.1, (computes_perm hperm).mpr hcase.2⟩

/-- Which reports aggregation takes. -/
theorem succeeds_aggregateAllReduceBenchmark (hworld : 1 ≤ manifest.worldSize) :
    Succeeds (manifest.aggregateAllReduceBenchmark profile reports resources) ↔
      profile.Fits manifest.numberOfCases ∧
      manifest.Complete (manifest.numberOfCases % 2 ^ 64) reports ∧
      ∀ i, i < manifest.numberOfCases % 2 ^ 64 →
        Consistent reports i ∧ manifest.Computes profile reports i := by
  have hperm := List.mergeSort_perm reports fun a b => decide (a.rank ≤ b.rank)
  have hranks := manifest.checkRanks_sorted reports ()
  unfold aggregateAllReduceBenchmark
  simp only [succeeds_check_bind, succeeds_lift_bind, caseCount_eq_ok]
  generalize (reports.mergeSort fun a b => decide (a.rank ≤ b.rank)) = ranks at hperm hranks
  have hcases : manifest.Complete (manifest.numberOfCases % 2 ^ 64) reports →
      (Succeeds ((List.range (manifest.numberOfCases % 2 ^ 64)).mapM
        (manifest.aggregateCase profile ranks)) ↔
        ∀ i, i < manifest.numberOfCases % 2 ^ 64 →
          Consistent reports i ∧ manifest.Computes profile reports i) := by
    intro hcomplete
    rw [succeeds_cases (hcomplete.perm hperm) hworld]
    simp only [consistent_perm hperm, computes_perm hperm]
  constructor
  · intro h
    obtain ⟨u, hu, count, ⟨hfits, rfl⟩, u', hu', h⟩ := h
    have hcomplete := (checkCases_perm hperm (hranks.mp hu) u').mp hu'
    obtain ⟨cases, hrun, -⟩ := succeeds_bind.mp h
    exact ⟨hfits, hcomplete, (hcases hcomplete).mp ⟨cases, hrun⟩⟩
  · intro h
    obtain ⟨hfits, hcomplete, hall⟩ := h
    obtain ⟨cases, hrun⟩ := (hcases hcomplete).mpr hall
    exact ⟨(), hranks.mpr hcomplete.ranks, _, ⟨hfits, rfl⟩, (),
      (checkCases_perm hperm hcomplete.ranks ()).mpr hcomplete,
      succeeds_bind.mpr ⟨cases, hrun, succeeds_pure _⟩⟩

/-- The cases of a report of aggregation. -/
theorem cases_of_aggregateAllReduceBenchmark (hworld : 1 ≤ manifest.worldSize)
    {report : CollectiveBenchmarkReport}
    (h : (manifest.aggregateAllReduceBenchmark profile reports resources).run = .ok (.ok report)) :
    report.cases.length = manifest.numberOfCases % 2 ^ 64 ∧
    ∀ (i : Nat) (case : CollectiveBenchmarkCase), report.cases[i]? = some case →
      ∃ algorithm payloadBytes sent, CollectiveBenchmarkCase.summarize profile algorithm payloadBytes
        manifest.iterations manifest.iterations (manifest.maxima reports i) (.ok sent) =
          .ok case := by
  have hperm := List.mergeSort_perm reports fun a b => decide (a.rank ≤ b.rank)
  obtain ⟨-, hcomplete, hall⟩ := (succeeds_aggregateAllReduceBenchmark resources hworld).mp ⟨_, h⟩
  unfold aggregateAllReduceBenchmark at h
  simp only at h
  generalize (reports.mergeSort fun a b => decide (a.rank ≤ b.rank)) = ranks at hperm h
  obtain ⟨u, -, h⟩ := run_bind_eq_ok.mp h
  rw [run_lift_bind] at h
  obtain ⟨count, hcount, h⟩ := ok_of_bind h
  obtain ⟨-, rfl⟩ := caseCount_eq_ok.mp hcount
  obtain ⟨u', -, h⟩ := run_bind_eq_ok.mp h
  obtain ⟨cases, hcases, hreport⟩ := run_bind_eq_ok.mp h
  obtain rfl := Except.ok.inj (Except.ok.inj hreport)
  have hrounds := run_mapM_eq_ok hcases
  have hlen : cases.length = manifest.numberOfCases % 2 ^ 64 := by
    rw [← hrounds.length_eq, List.length_range]
  refine ⟨hlen, fun i case hcase => ?_⟩
  obtain ⟨hi, rfl⟩ := List.getElem?_eq_some_iff.mp hcase
  have hi : i < manifest.numberOfCases % 2 ^ 64 := by
    rw [← hlen]
    exact hi
  have hround : (manifest.aggregateCase profile ranks i).run = .ok (.ok cases[i]) := by
    have hget := hrounds.get (by simpa using hi) (by rw [hlen]; exact hi)
    rw [List.get_eq_getElem, List.getElem_range] at hget
    exact hget
  have hranks := hcomplete.perm hperm
  obtain ⟨algorithm, payloadBytes, hrun⟩ := run_aggregateCase_of_consistent hranks.cases
    hranks.samples hi profile (hranks.ne_nil hworld) ((consistent_perm hperm).mpr (hall i hi).1)
  rw [hround] at hrun
  obtain ⟨case, hsummary, heq⟩ := ok_of_bind hrun.symm
  obtain rfl := Except.ok.inj (Except.ok.inj heq)
  rw [← maxima_perm hperm]
  exact ⟨algorithm, payloadBytes, _, hsummary⟩

end Aggregate

end CollectiveBenchmarkManifest

end Dlir.Collectives
