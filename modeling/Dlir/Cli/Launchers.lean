import Dlir.Cli.Tensor

namespace Dlir.Cli

open Dlir.Framework Dlir.Pipeline Dlir.Runtime Dlir.Tensor

/-- What a verdict depends on in a record: rank and sequence of an event, or rank and success flag
of a result. -/
abbrev Essentials : Type := (Nat × UInt64) ⊕ (Nat × Bool)

def eventEssentials (event : PipelineEvent) : Nat × UInt64 :=
  (event.event.rank, event.event.sequence)

def pipelineOutcome (result : PipelineRankReport) : Nat × Bool := (result.rank, result.success)

def tensorOutcome (result : TensorParallelRankReport) : Nat × Bool := (result.rank, result.success)

def StreamRecord.essentials {Report : Type} (outcome : Report → Nat × Bool) :
    StreamRecord Report → Essentials
  | .event published => .inl (eventEssentials published)
  | .result report => .inr (outcome report)

/-- Streams that the two launchers read alike: the same lines are rejected with the same error, and
the other lines have the same essentials. -/
def ReadAlike {n : Nat} (tensorRead : String → Except String (StreamRecord TensorParallelRankReport))
    (pipelineRead : String → Except String (StreamRecord PipelineRankReport))
    (containers : Fin n → Container) : Prop :=
  ∀ rank, ∀ line ∈ (containers rank).stdout,
    (tensorRead line).map (StreamRecord.essentials tensorOutcome) =
      (pipelineRead line).map (StreamRecord.essentials pipelineOutcome)

section

variable {Report : Type} {fromStr : String → Except String (StreamRecord Report)}

theorem map_events (outcome : Report → Nat × Bool) (container : Container) :
    (container.events fromStr).map eventEssentials =
      ((container.records fromStr).map (StreamRecord.essentials outcome)).filterMap Sum.getLeft? := by
  rw [Container.events, List.filterMap_map, List.map_filterMap]
  congr 1
  funext record
  cases record <;> rfl

theorem map_results (outcome : Report → Nat × Bool) (container : Container) :
    (container.results fromStr).map outcome =
      ((container.records fromStr).map (StreamRecord.essentials outcome)).filterMap Sum.getRight? := by
  rw [Container.results, List.filterMap_map, List.map_filterMap]
  congr 1
  funext record
  cases record <;> rfl

theorem numbered_iff_map (number : Nat → UInt64) (rank : Nat) (events : List PipelineEvent) :
    Numbered number rank events ↔
      ∀ i key, (events.map eventEssentials)[i]? = some key → key = (rank, number i) := by
  simp only [Numbered, List.getElem?_map, Option.map_eq_some_iff]
  constructor
  · intro h i key hkey
    obtain ⟨event, hevent, heq⟩ := hkey
    rw [← heq, eventEssentials, (h i event hevent).1, (h i event hevent).2]
  · intro h i event hevent
    exact Prod.mk.inj (h i _ ⟨event, hevent, rfl⟩)

end

section

variable {n : Nat} {tensorRead : String → Except String (StreamRecord TensorParallelRankReport)}
  {pipelineRead : String → Except String (StreamRecord PipelineRankReport)}
  {containers : Fin n → Container} {rank : Fin n}

namespace ReadAlike

theorem records (h : ReadAlike tensorRead pipelineRead containers) :
    ((containers rank).records tensorRead).map (StreamRecord.essentials tensorOutcome) =
      ((containers rank).records pipelineRead).map (StreamRecord.essentials pipelineOutcome) := by
  rw [Container.records, Container.records, List.map_filterMap, List.map_filterMap]
  apply List.filterMap_congr
  intro line hline
  have hmap := h rank line hline
  cases ht : tensorRead line with
  | error error =>
    cases hp : pipelineRead line with
    | error error' => rfl
    | ok record => simp [ht, hp, Except.map] at hmap
  | ok record =>
    cases hp : pipelineRead line with
    | error error => simp [ht, hp, Except.map] at hmap
    | ok record' =>
      simp only [ht, hp, Except.map, Except.ok.injEq] at hmap
      simp [Except.toOption, hmap]

theorem numbered (h : ReadAlike tensorRead pipelineRead containers) (number : Nat → UInt64) :
    Numbered number rank.val ((containers rank).events tensorRead) ↔
      Numbered number rank.val ((containers rank).events pipelineRead) := by
  rw [numbered_iff_map, numbered_iff_map, map_events tensorOutcome, map_events pipelineOutcome,
    h.records]

theorem outcomes (h : ReadAlike tensorRead pipelineRead containers) :
    ((containers rank).results tensorRead).map tensorOutcome =
      ((containers rank).results pipelineRead).map pipelineOutcome := by
  rw [map_results, map_results, h.records]

theorem results (h : ReadAlike tensorRead pipelineRead containers) :
    (∀ result ∈ (containers rank).results tensorRead, result.rank = rank.val) ↔
      ∀ result ∈ (containers rank).results pipelineRead, result.rank = rank.val := by
  have hkeys : (∀ key ∈ ((containers rank).results tensorRead).map tensorOutcome,
      key.1 = rank.val) ↔ ∀ key ∈ ((containers rank).results pipelineRead).map pipelineOutcome,
      key.1 = rank.val := by rw [h.outcomes]
  simp only [List.forall_mem_map] at hkeys
  exact hkeys

theorem last (h : ReadAlike tensorRead pipelineRead containers) :
    (∃ result, ((containers rank).results tensorRead).getLast? = some result ∧
      result.success = true) ↔
    ∃ result, ((containers rank).results pipelineRead).getLast? = some result ∧
      result.success = true := by
  have hkeys : (∃ key, (((containers rank).results tensorRead).map tensorOutcome).getLast? = some key ∧
      key.2 = true) ↔ ∃ key, (((containers rank).results pipelineRead).map pipelineOutcome).getLast? =
        some key ∧ key.2 = true := by rw [h.outcomes]
  simpa [List.getLast?_map, tensorOutcome, pipelineOutcome] using hkeys

theorem valid (h : ReadAlike tensorRead pipelineRead containers) {line : String}
    (hline : line ∈ (containers rank).stdout) :
    (∃ record, tensorRead line = .ok record) ↔ ∃ record, pipelineRead line = .ok record := by
  have hmap := h rank line hline
  cases ht : tensorRead line with
  | error error =>
    cases hp : pipelineRead line with
    | error error' => simp
    | ok record => simp [ht, hp, Except.map] at hmap
  | ok record =>
    cases hp : pipelineRead line with
    | error error => simp [ht, hp, Except.map] at hmap
    | ok record' => simp

end ReadAlike

/-- The two ways of counting the events of a stream agree up to `2 ^ 64` events. -/
theorem numbered_ofNat_iff {events : List PipelineEvent} {r : Nat}
    (h : Numbered Tensor.Collecting.number r events) :
    Numbered .ofNat r events ↔ events.length ≤ UInt64.size := by
  constructor
  · intro hcounted
    by_contra hlong
    obtain ⟨event, hevent⟩ : ∃ event, events[UInt64.size]? = some event :=
      ⟨_, List.getElem?_eq_getElem (by omega)⟩
    have hsame := (h _ event hevent).2.symm.trans (hcounted _ event hevent).2
    exact absurd hsame (by decide)
  · intro hshort i event hevent
    refine ⟨(h i event hevent).1, (h i event hevent).2.trans ?_⟩
    obtain ⟨hi, -⟩ := List.getElem?_eq_some_iff.mp hevent
    rw [Tensor.Collecting.number, Nat.min_eq_left (by omega)]

/-- What the pipeline launcher checks and the tensor launcher does not. -/
structure Unchecked (tensorRead : String → Except String (StreamRecord TensorParallelRankReport))
    (containers : Fin n → Container) (interrupt : Option Nat)
    (taken : List (Poll n PipelineRankReport)) : Prop where
  results : ∀ rank, ∀ result ∈ (containers rank).results tensorRead, result.rank = rank.val
  valid : ∀ rank, ∀ line ∈ (containers rank).stdout, ∃ record, tensorRead line = .ok record
  logs : ∀ rank line, ((rank, Source.stderr), HostMessage.log rank line) ∈ received taken →
    ¬ StartsWith invalidMarker line
  interrupt : isInterrupted interrupt taken.length = false
  counted : ∀ rank, ((containers rank).events tensorRead).length ≤ UInt64.size

/-- The pipeline launcher requires of a rank what the tensor launcher does, and more. -/
theorem cleanRank_iff (h : ReadAlike tensorRead pipelineRead containers)
    (hclean : Tensor.CleanRank tensorRead rank.val (containers rank)) :
    Pipeline.CleanRank pipelineRead rank.val (containers rank) ↔
      (∀ result ∈ (containers rank).results tensorRead, result.rank = rank.val) ∧
      (∀ line ∈ (containers rank).stdout, ∃ record, tensorRead line = .ok record) ∧
      ((containers rank).events tensorRead).length ≤ UInt64.size := by
  rw [← numbered_ofNat_iff hclean.events]
  constructor
  · intro hpipeline
    exact ⟨h.results.mpr hpipeline.results,
      fun line hline => (h.valid hline).mpr (hpipeline.valid line hline),
      (h.numbered _).mpr hpipeline.events⟩
  · intro hchecks
    exact ⟨(h.numbered _).mp hchecks.2.2, h.results.mp hchecks.1, h.last.mp hclean.last,
      fun line hline => (h.valid hline).mp (hchecks.2.1 line hline), hclean.exit⟩

/-- When the tensor launcher is no laxer than the pipeline launcher. -/
theorem tensor_no_laxer_iff
    (tensorRead : String → Except String (StreamRecord TensorParallelRankReport))
    (pipelineRead : String → Except String (StreamRecord PipelineRankReport))
    (containers : Fin n → Container) (tensorPolls : List (Poll n TensorParallelRankReport))
    (pipelinePolls : List (Poll n PipelineRankReport)) (interrupt : Option Nat)
    (htensor : Delivers tensorRead containers tensorPolls)
    (hpipeline : Delivers pipelineRead containers pipelinePolls)
    (halike : ReadAlike tensorRead pipelineRead containers) :
    ∃ taken, taken <+: pipelinePolls ∧ AllDone taken ∧
      (∀ shorter, shorter <+: taken → shorter ≠ taken → ¬ AllDone shorter) ∧
      (((Tensor.report (Tensor.collectRankStreams tensorPolls).1).success = true →
          (Pipeline.report (Pipeline.collectRankStreams interrupt pipelinePolls).1).success = true) ↔
        ((∀ rank, Tensor.CleanRank tensorRead rank.val (containers rank)) →
          Unchecked tensorRead containers interrupt taken)) := by
  obtain ⟨taken, rest, hsplit, hloop, hdone, hfirst⟩ :=
    Pipeline.Collecting.collectLoop_start hpipeline.allDone
  refine ⟨taken, ⟨rest, hsplit.symm⟩, hdone, hfirst, ?_⟩
  rw [Pipeline.success_iff hpipeline hsplit hloop hdone, Tensor.success_iff htensor]
  apply imp_congr_right
  intro hclean
  constructor
  · intro h
    have hchecks := fun rank => (cleanRank_iff halike (hclean rank)).mp (h.1 rank)
    exact ⟨fun rank => (hchecks rank).1, fun rank => (hchecks rank).2.1, h.2.1, h.2.2,
      fun rank => (hchecks rank).2.2⟩
  · intro h
    refine ⟨fun rank => ?_, h.logs, h.interrupt⟩
    exact (cleanRank_iff halike (hclean rank)).mpr ⟨h.results rank, h.valid rank, h.counted rank⟩

end

/-- Two ranks that report success and exit, while the user asks for the launch to stop. -/
def stoppedRank (rank : Nat) : Container where
  name := s!"rank-{rank}"
  pipes := some ⟨[some s!"result of rank {rank}"], []⟩
  code := some 0

def stoppedTensorReport (rank : Nat) : TensorParallelRankReport where
  schemaVersion := 1
  runId := "run"
  requestId := "request"
  rank := rank
  peers := []
  memory := {
    rank
    shard := ⟨⟨rank, 2, 0, 1, 0, 1⟩, ⟨0, 0⟩, ⟨0, 0⟩, ⟨0, 0⟩, ⟨0, 0⟩, 0, 0, 0, 0⟩
    dtype := .f32
    contextCapacity := 0
    localWeightBytes := 0
    kvCacheCapacityBytes := 0
    persistentBytes := 0
    budgetBytes := none
    placement := .notEvaluated }
  resources := ⟨none, none, none, none, none⟩
  finalKvCacheBytes := 0
  collectives := []
  sentBytes := 0
  receivedBytes := 0
  generatedTokens := []
  completion := ""
  stopReason := .eos
  timings := ⟨0, 0, 0, 0, 0⟩
  events := []
  barriersPassed := true
  success := true

def stoppedPipelineReport (rank : Nat) : PipelineRankReport where
  schemaVersion := 1
  runId := "run"
  requestId := "request"
  rank := rank
  peers := []
  assignment := ⟨rank, 2, rank, rank + 1, rank == 0, rank == 1, false⟩
  memory := ⟨rank, rank, rank + 1, 0, 0, 0, 0, 0, 0, 0, 0, 0, .fitsPersistentEstimate, false⟩
  resources := ⟨none, none, none, none, none⟩
  finalKvCacheBytes := 0
  communication := {}
  timings := ⟨0, 0, 0, 0, 0, none, 0⟩
  generatedTokens := []
  completion := ""
  stopReason := .eos
  barriersPassed := true
  events := []
  success := true

/-- A reader that knows the two lines that the ranks write. -/
def readStopped {Report : Type} (report : Nat → Report) (line : String) :
    Except String (StreamRecord Report) :=
  if line = "result of rank 0" then .ok (.result (report 0))
  else if line = "result of rank 1" then .ok (.result (report 1))
  else .error "expected value at line 1 column 1"

def stoppedPolls {Report : Type} (report : Nat → Report) : List (Poll 2 Report) :=
  (List.finRange 2).flatMap fun rank => [
    some ((rank, .stdout), .record rank (.result (report rank.val))),
    some ((rank, .stdout), .streamEnded rank),
    some ((rank, .wait), .exit rank 0)]

/-- An interrupt that only the pipeline launcher looks for. -/
theorem tensor_laxer :
    Delivers (readStopped stoppedTensorReport) (fun rank : Fin 2 => stoppedRank rank.val)
      (stoppedPolls stoppedTensorReport) ∧
    Delivers (readStopped stoppedPipelineReport) (fun rank : Fin 2 => stoppedRank rank.val)
      (stoppedPolls stoppedPipelineReport) ∧
    ReadAlike (readStopped stoppedTensorReport) (readStopped stoppedPipelineReport)
      (fun rank : Fin 2 => stoppedRank rank.val) ∧
    (Tensor.report (Tensor.collectRankStreams (stoppedPolls stoppedTensorReport)).1).success = true ∧
    (Pipeline.report
      (Pipeline.collectRankStreams (some 3) (stoppedPolls stoppedPipelineReport)).1).success = false := by
  refine ⟨?_, ?_, ?_, ?_, ?_⟩
  · unfold Delivers
    decide +kernel
  · unfold Delivers
    decide +kernel
  · unfold ReadAlike
    decide +kernel
  · apply (Tensor.report_success _).mpr
    refine ⟨by decide +kernel, fun rank => ⟨stoppedTensorReport rank.val, ?_⟩, by decide +kernel⟩
    revert rank
    decide +kernel
  · decide +kernel

theorem tensor_no_laxer_iff_stopped : ∃ taken, taken <+: stoppedPolls stoppedPipelineReport ∧
    AllDone taken ∧ (∀ shorter, shorter <+: taken → shorter ≠ taken → ¬ AllDone shorter) ∧
    (((Tensor.report (Tensor.collectRankStreams (stoppedPolls stoppedTensorReport)).1).success = true →
        (Pipeline.report
          (Pipeline.collectRankStreams none (stoppedPolls stoppedPipelineReport)).1).success = true) ↔
      ((∀ rank : Fin 2, Tensor.CleanRank (readStopped stoppedTensorReport) rank.val
          (stoppedRank rank.val)) →
        Unchecked (readStopped stoppedTensorReport) (fun rank : Fin 2 => stoppedRank rank.val) none
          taken)) := by
  apply tensor_no_laxer_iff (readStopped stoppedTensorReport) (readStopped stoppedPipelineReport)
    (fun rank : Fin 2 => stoppedRank rank.val) (stoppedPolls stoppedTensorReport)
    (stoppedPolls stoppedPipelineReport) none
  · unfold Delivers
    decide +kernel
  · unfold Delivers
    decide +kernel
  · unfold ReadAlike
    decide +kernel

end Dlir.Cli
