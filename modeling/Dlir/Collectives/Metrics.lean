import Dlir.Collectives.Benchmark

namespace Dlir.Collectives

open Dlir.Framework Dlir.Math

section Percentiles

variable {xs : List Nat} {percent : Nat}

/-- The percentile where the product fits. -/
def nearestRank (sorted : List Nat) (percent : Nat) : Nat :=
  sorted[divCeil ((sorted.length - 1) * percent) 100]?.getD 0

/-- When a percentile is computed, and from which index. -/
theorem percentile_eq_ok {profile : Profile} {p : Nat} : percentile profile xs percent = .ok p ↔
    profile.Fits ((xs.length - 1) * percent) ∧
      p = xs[divCeil ((xs.length - 1) * percent % 2 ^ 64) 100]?.getD 0 := by
  simp only [percentile, bind_eq_ok, Profile.word_eq_ok, pure_eq_ok]
  constructor
  · intro h
    obtain ⟨product, ⟨hfits, rfl⟩, hp⟩ := h
    exact ⟨hfits, hp⟩
  · intro h
    exact ⟨_, ⟨h.1, rfl⟩, h.2⟩

theorem percentile_of_lt (profile : Profile) (h : (xs.length - 1) * percent < 2 ^ 64) :
    percentile profile xs percent = .ok (nearestRank xs percent) := by
  refine percentile_eq_ok.mpr ⟨fun _ => h, ?_⟩
  rw [Nat.mod_eq_of_lt h, nearestRank]

theorem percentile_returns {profile : Profile} :
    (∃ p, percentile profile xs percent = .ok p) ↔ profile.Fits ((xs.length - 1) * percent) := by
  simp [percentile_eq_ok]

theorem le_divCeil (a : Nat) : a ≤ 100 * divCeil a 100 := by
  unfold divCeil
  split_ifs <;> omega

theorem divCeil_lt (a : Nat) : 100 * divCeil a 100 < a + 100 := by
  unfold divCeil
  split_ifs <;> omega

theorem divCeil_le {a b : Nat} (h : a ≤ 100 * b) : divCeil a 100 ≤ b := by
  unfold divCeil
  split_ifs <;> omega

theorem nearestRank_index_lt (hne : xs ≠ []) (h : percent ≤ 100) :
    divCeil ((xs.length - 1) * percent) 100 < xs.length := by
  have hpos := List.length_pos_iff.mpr hne
  have hmul := Nat.mul_le_mul_left (xs.length - 1) h
  have hle := divCeil_le (a := (xs.length - 1) * percent) (b := xs.length - 1) (by omega)
  omega

theorem nearestRank_eq (h : divCeil ((xs.length - 1) * percent) 100 < xs.length) :
    nearestRank xs percent = xs[divCeil ((xs.length - 1) * percent) 100] := by
  rw [nearestRank, List.getElem?_eq_getElem h, Option.getD_some]

theorem nearestRank_mem (hne : xs ≠ []) (h : percent ≤ 100) : nearestRank xs percent ∈ xs := by
  rw [nearestRank_eq (nearestRank_index_lt hne h)]
  exact List.getElem_mem _

/-- At least this percentage of the numbers is not above the percentile. -/
theorem nearestRank_countP (hsorted : xs.Pairwise (· ≤ ·)) (hne : xs ≠ []) (h : percent ≤ 100) :
    percent * xs.length ≤ 100 * xs.countP (· ≤ nearestRank xs percent) := by
  have hcount := lt_countP_of_sorted hsorted (nearestRank_index_lt hne h)
  rw [← nearestRank_eq (nearestRank_index_lt hne h)] at hcount
  have hceil := le_divCeil ((xs.length - 1) * percent)
  have hpos := List.length_pos_iff.mpr hne
  calc percent * xs.length = (xs.length - 1 + 1) * percent := by
        rw [Nat.sub_add_cancel hpos, Nat.mul_comm]
    _ = (xs.length - 1) * percent + percent := by rw [Nat.add_mul, Nat.one_mul]
    _ ≤ 100 * divCeil ((xs.length - 1) * percent) 100 + 100 := by omega
    _ ≤ 100 * xs.countP (· ≤ nearestRank xs percent) := by omega

theorem nearestRank_mono (hsorted : xs.Pairwise (· ≤ ·)) (hne : xs ≠ []) {percent' : Nat}
    (hle : percent ≤ percent') (h : percent' ≤ 100) :
    nearestRank xs percent ≤ nearestRank xs percent' := by
  rw [nearestRank_eq (nearestRank_index_lt hne (by omega)), nearestRank_eq (nearestRank_index_lt hne h)]
  refine getElem_le_of_sorted hsorted (divCeil_le ?_) _
  exact (Nat.mul_le_mul_left _ hle).trans (le_divCeil _)

/-- What the metrics of a case say about the latencies of its iterations. -/
structure CollectiveBenchmarkCase.Describes (case : CollectiveBenchmarkCase) (M : List Nat) :
    Prop where
  mean : case.meanLatencyNs = M.sum / M.length
  least : ∃ low ∈ M, (∀ x ∈ M, low ≤ x) ∧ low ≤ case.meanLatencyNs
  most : ∃ high ∈ M, (∀ x ∈ M, x ≤ high) ∧ case.meanLatencyNs ≤ high ∧ case.p95LatencyNs ≤ high
  ordered : case.p50LatencyNs ≤ case.p95LatencyNs
  p50_mem : case.p50LatencyNs ∈ M
  p95_mem : case.p95LatencyNs ∈ M
  half : M.length ≤ 2 * M.countP (· ≤ case.p50LatencyNs)
  most_of_all : 95 * M.length ≤ 100 * M.countP (· ≤ case.p95LatencyNs)

/-- The metrics of the percentiles of some latencies. -/
theorem CollectiveBenchmarkCase.describes_of_percentiles {case : CollectiveBenchmarkCase}
    {M : List Nat} (hne : M ≠ []) (hmean : case.meanLatencyNs = M.sum / M.length)
    (hp50 : case.p50LatencyNs = nearestRank (sortUnstable M) 50)
    (hp95 : case.p95LatencyNs = nearestRank (sortUnstable M) 95) : case.Describes M := by
  have hperm := sortUnstable_perm M
  have hsorted := sortUnstable_sorted M
  have hsome : sortUnstable M ≠ [] := fun hnil => hne (List.Perm.nil_eq (hnil ▸ hperm)).symm
  have hpos := List.length_pos_iff.mpr hsome
  have hbetween : ∀ x ∈ M, (sortUnstable M)[0] ≤ x ∧
      x ≤ (sortUnstable M)[(sortUnstable M).length - 1] := by
    intro x hx
    obtain ⟨i, hi, rfl⟩ := List.mem_iff_getElem.mp (hperm.mem_iff.mpr hx)
    exact ⟨getElem_le_of_sorted hsorted (Nat.zero_le i) hi,
      getElem_le_of_sorted hsorted (by omega) (by omega)⟩
  have hmem : ∀ percent ≤ 100, nearestRank (sortUnstable M) percent ∈ M := fun percent h =>
    hperm.mem_iff.mp (nearestRank_mem hsome h)
  have hcount : ∀ percent ≤ 100, percent * M.length ≤
      100 * M.countP (· ≤ nearestRank (sortUnstable M) percent) := by
    intro percent h
    have hsortedCount := nearestRank_countP hsorted hsome h
    rwa [hperm.length_eq, hperm.countP_eq] at hsortedCount
  constructor
  · exact hmean
  · rw [hmean]
    exact ⟨_, hperm.mem_iff.mp (List.getElem_mem hpos), fun x hx => (hbetween x hx).1,
      le_mean hne fun x hx => (hbetween x hx).1⟩
  · rw [hmean, hp95]
    exact ⟨_, hperm.mem_iff.mp (List.getElem_mem (Nat.sub_lt hpos Nat.one_pos)),
      fun x hx => (hbetween x hx).2, mean_le hne fun x hx => (hbetween x hx).2,
      (hbetween _ (hmem 95 (by omega))).2⟩
  · rw [hp50, hp95]
    exact nearestRank_mono hsorted hsome (by omega) (by omega)
  · rw [hp50]
    exact hmem 50 (by omega)
  · rw [hp95]
    exact hmem 95 (by omega)
  · have hhalf := hcount 50 (by omega)
    rw [hp50]
    omega
  · rw [hp95]
    exact hcount 95 (by omega)

end Percentiles

section Summaries

variable {profile : Profile} {maximums sent : List Nat} {divisor : Nat}

/-- The arithmetic of a case succeeds. -/
structure Summable (profile : Profile) (divisor : Nat) (maximums sent : List Nat) : Prop where
  divisor : divisor ≠ 0
  latencies : profile.Fits maximums.sum
  index : profile.Fits ((maximums.length - 1) * 95)
  bytes : profile.Fits sent.sum

theorem summable_congr {sent' : List Nat} (h : sent.sum = sent'.sum) :
    Summable profile divisor maximums sent ↔ Summable profile divisor maximums sent' := by
  constructor
  · intro hs
    exact ⟨hs.divisor, hs.latencies, hs.index, h ▸ hs.bytes⟩
  · intro hs
    exact ⟨hs.divisor, hs.latencies, hs.index, h ▸ hs.bytes⟩

/-- When the metrics of a case are computed. -/
theorem CollectiveBenchmarkCase.summarize_returns (algorithm : AllReduceAlgorithm)
    (payloadBytes iterations : Nat) : (∃ case, CollectiveBenchmarkCase.summarize profile algorithm
      payloadBytes iterations divisor maximums (.ok sent) = .ok case) ↔
      Summable profile divisor maximums sent := by
  have hperm := sortUnstable_perm maximums
  constructor
  · intro h
    obtain ⟨case, h⟩ := h
    obtain ⟨sum, hsum, h⟩ := ok_of_bind h
    obtain ⟨mean, hmean, h⟩ := ok_of_bind h
    obtain ⟨p50, -, h⟩ := ok_of_bind h
    obtain ⟨p95, hp95, h⟩ := ok_of_bind h
    obtain ⟨bytes, hbytes, h⟩ := ok_of_bind h
    obtain ⟨observed, hobserved, -⟩ := ok_of_bind h
    obtain rfl := Except.ok.inj hbytes
    constructor
    · intro hzero
      rw [divide, if_pos hzero] at hmean
      cases hmean
    · rw [← hperm.sum_nat]
      exact Profile.sum_returns.mp ⟨sum, hsum⟩
    · rw [← hperm.length_eq]
      exact percentile_returns.mp ⟨p95, hp95⟩
    · exact Profile.sum_returns.mp ⟨observed, hobserved⟩
  · intro h
    obtain ⟨sum, hsum⟩ := Profile.sum_returns.mpr (hperm.sum_nat.symm ▸ h.latencies)
    have hindex : profile.Fits (((sortUnstable maximums).length - 1) * 95) :=
      hperm.length_eq.symm ▸ h.index
    have hhalf : profile.Fits (((sortUnstable maximums).length - 1) * 50) := by
      intro hdev
      have hlt := hindex hdev
      omega
    obtain ⟨p50, hp50⟩ := percentile_returns.mpr hhalf
    obtain ⟨p95, hp95⟩ := percentile_returns.mpr hindex
    obtain ⟨observed, hobserved⟩ := Profile.sum_returns.mpr h.bytes
    have hdivide : divide sum divisor = .ok (sum / divisor) := if_neg h.divisor
    unfold summarize
    simp only [hsum, hdivide, hp50, hp95, hobserved, bind, Except.bind]
    exact ⟨_, rfl⟩

/-- Where the 95th percentile comes from. -/
theorem CollectiveBenchmarkCase.percentile_of_summarize {algorithm : AllReduceAlgorithm}
    {payloadBytes iterations : Nat} {case : CollectiveBenchmarkCase}
    (h : CollectiveBenchmarkCase.summarize profile algorithm payloadBytes iterations divisor
      maximums (.ok sent) = .ok case) :
    percentile profile (sortUnstable maximums) 95 = .ok case.p95LatencyNs := by
  obtain ⟨sum, -, h⟩ := ok_of_bind h
  obtain ⟨mean, -, h⟩ := ok_of_bind h
  obtain ⟨p50, -, h⟩ := ok_of_bind h
  obtain ⟨p95, hp95, h⟩ := ok_of_bind h
  obtain ⟨bytes, -, h⟩ := ok_of_bind h
  obtain ⟨observed, -, h⟩ := ok_of_bind h
  obtain rfl := Except.ok.inj h
  exact hp95

/-- What the metrics of a case say where its arithmetic stays within 64 bits. -/
theorem CollectiveBenchmarkCase.describes_of_summarize {algorithm : AllReduceAlgorithm}
    {payloadBytes iterations : Nat} {case : CollectiveBenchmarkCase}
    (h : CollectiveBenchmarkCase.summarize profile algorithm payloadBytes iterations maximums.length
      maximums (.ok sent) = .ok case) (hne : maximums ≠ []) (hsum : maximums.sum < 2 ^ 64)
    (hindex : (maximums.length - 1) * 95 < 2 ^ 64) : case.Describes maximums := by
  have hperm := sortUnstable_perm maximums
  have hlen := hperm.length_eq
  have hpos := List.length_pos_iff.mpr hne
  obtain ⟨sum, hsum', h⟩ := ok_of_bind h
  obtain ⟨mean, hmean, h⟩ := ok_of_bind h
  obtain ⟨p50, hp50, h⟩ := ok_of_bind h
  obtain ⟨p95, hp95, h⟩ := ok_of_bind h
  obtain ⟨bytes, -, h⟩ := ok_of_bind h
  obtain ⟨observed, -, h⟩ := ok_of_bind h
  rw [profile.sum_of_lt (hperm.sum_nat.symm ▸ hsum), hperm.sum_nat] at hsum'
  obtain rfl := Except.ok.inj hsum'
  rw [divide_of_pos hpos] at hmean
  obtain rfl := Except.ok.inj hmean
  rw [percentile_of_lt profile (by rw [hlen]; omega)] at hp50 hp95
  obtain rfl := Except.ok.inj hp50
  obtain rfl := Except.ok.inj hp95
  obtain rfl := Except.ok.inj h
  exact describes_of_percentiles hne rfl rfl rfl

end Summaries

end Dlir.Collectives
