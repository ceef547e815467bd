import Dlir.Pipeline.Run

namespace Dlir.Pipeline

open Dlir.Collectives Dlir.Framework Dlir.Math Dlir.Runtime Dlir.Runtime.Model

section Equivalence

variable {n : Nat} {α : Type} [Zero α]

/-- A pipeline that serves a request of one process: the ranks find what the process finds, and each
is admitted with a plan. -/
structure Serves (run : PipelineWorld (n + 1) α) (found : GenerationWorld α)
    (request : GenerationRequest) (promptTokens : List Nat)
    (plans : Rank (n + 1) → StageMemoryPlan) : Prop where
  ranks : 0 < n
  layers : n + 1 ≤ request.spec.config.numHiddenLayers
  lib : run.lib = found.lib
  argmax : run.argmax = found.argmax
  varBuilder : run.varBuilder = found.varBuilder
  tokenizer : run.tokenizer = found.tokenizer
  spec : run.manifest.spec = request.spec
  dtype : run.manifest.dtype = request.dtype
  prompt : run.manifest.promptTokenIds = promptTokens
  requested : run.manifest.requestedMaxNewTokens = request.maxNewTokens
  effective : run.manifest.effectiveMaxNewTokens =
    GenerationWorld.effectiveNewTokens request.spec.config promptTokens.length request.maxNewTokens
  capacity : run.manifest.contextCapacity = promptTokens.length +
    GenerationWorld.effectiveNewTokens request.spec.config promptTokens.length request.maxNewTokens
  admitted : ∀ rank, admitRank rank.val (n + 1) run.manifest (run.resources rank) =
    .ok (assignmentOf run rank, plans rank)

/-- What is relied on of the libraries. -/
structure Reliable {world : Nat} (run : PipelineWorld world α) : Prop extends Dependable run where
  shaped : ∀ vb, run.varBuilder = .ok vb → VarBuilder.Shaped vb
  nothing : ∀ tokenizer, run.tokenizer = .ok tokenizer → tokenizer.decode [] = .ok ""

variable {self : PipelineWorld (n + 1) α} {found : GenerationWorld α} {request : GenerationRequest}
  {report : GenerationReport} {tokenizer : Tokenizer} {promptTokens : List Nat}
  {model : Llama (Tensor α) (RotaryEmbedding α)} {cache last : Model.KvCache α} {first : Nat}
  {tokens : List Nat} {plans : Rank (n + 1) → StageMemoryPlan}

/-- The ranks load the parts of the model of the process. -/
theorem prepared_of_serves (hserves : Serves self found request promptTokens plans)
    (hreliable : Reliable self)
    (hcompleted : found.Completed request report tokenizer promptTokens model cache first tokens last) :
    ∃ kv, Prepared self model tokenizer kv plans ∧ Abreast self model cache kv ∧
      Llama.Loaded self.lib self.config model := by
  have hconfig : self.config = request.spec.config := congrArg ModelSpec.config hserves.spec
  have hlayers : n + 1 ≤ self.manifest.spec.config.numHiddenLayers := by
    rw [hserves.spec]
    exact hserves.layers
  have hworld : 2 ≤ n + 1 := Nat.succ_le_succ hserves.ranks
  have hcapacity : report.memory.contextLength = self.manifest.contextCapacity := by
    rw [forModel_contextLength hcompleted.memory, hserves.capacity]
  obtain ⟨vb, hvb, hload⟩ := hcompleted.load
  have hallocated := hcompleted.allocated
  rw [← hserves.varBuilder] at hvb
  rw [← hserves.lib, ← hconfig, hcapacity] at hload
  rw [← hconfig, hcapacity] at hallocated
  have hparts : LoadedParts (RotaryEmbedding.new self.lib) vb self.manifest.spec.config
      self.manifest.contextCapacity model := loadedParts hload
  obtain ⟨layer, rfl, hnew⟩ := newForLayers_of_new hallocated
  refine ⟨cachePart self.manifest.spec (n + 1) layer self.manifest.contextCapacity, ⟨hserves.admitted,
    hserves.dtype.trans hcompleted.dtype, fun rank => ?_, hserves.tokenizer.trans hcompleted.opened⟩,
    inStep_new (layers_length_of_mapM hparts) hallocated,
    ⟨vb, _, [], hreliable.shaped vb hvb, hload⟩⟩
  have hstage := load_stage hworld hlayers hparts rank.isLt
  have hcache := new_cache hworld hlayers hnew rank.isLt
  simp only [PipelineWorld.load, bind_eq_ok, mapError_eq_ok, pure_eq_ok]
  exact ⟨vb, hvb, _, hstage, _, hcache, rfl⟩

omit [Zero α] in
/-- The positions of a whole cache are spread over the caches of the ranks. -/
theorem usedBytes_abreast {kv : Nat → Model.KvCache α} {d elementBytes bytes : Nat} (hn : 0 < n)
    (hlayers : n + 1 ≤ self.config.numHiddenLayers)
    (hcount : model.blocks.length = self.config.numHiddenLayers) (hd : self.config.Heads d)
    (h : Abreast self model last kv) (hbytes : last.usedBytes self.config elementBytes = .ok bytes) :
    ∃ own : Rank (n + 1) → Nat, ∑ rank, own rank = bytes ∧
      ∀ rank, (kv rank.val).usedBytes self.config elementBytes = .ok (own rank) := by
  have hslices : Slices model (partAt self model 0) ((List.range' 1 n).map (partAt self model)) :=
    slices_stages hn hlayers hcount
  have hshares := h.shares hslices
  rw [cons_parts, cons_parts, List.forall₂_map_left_iff, List.forall₂_map_right_iff,
    List.forall₂_same] at hshares
  have hown : ∀ rank : Rank (n + 1), (kv rank.val).usedBytes self.config elementBytes =
      .ok (2 * (assignmentOf self rank).layerCount * last.len * self.config.numKeyValueHeads * d *
        elementBytes) := by
    intro rank
    have hshare := hshares rank.val (List.mem_range.mpr rank.isLt)
    have hlength := length_stagePart hcount rank.isLt
    have hlayersOf : (kv rank.val).layers.length = (assignmentOf self rank).layerCount :=
      hshare.count.trans hlength
    have hle : (kv rank.val).layers.length ≤ last.layers.length := by
      have hend := layerEnd_le self.manifest.spec rank.isLt
      rw [hlayersOf, h.count, hcount]
      exact (Nat.sub_le _ _).trans hend
    rw [← hlayersOf]
    exact usedBytes_of_le hd hshare.len hle hbytes
  refine ⟨_, ?_, hown⟩
  obtain ⟨-, -, -, -, -, rfl⟩ := (usedBytes_eq_ok hd).mp hbytes
  have hsum : ∑ rank ∈ Finset.range (n + 1), (stageOf self.manifest.spec (n + 1) rank).layerCount =
      self.config.numHiddenLayers := sum_layerCount (Nat.succ_pos n)
  rw [← Fin.sum_univ_eq_sum_range fun rank => (stageOf self.manifest.spec (n + 1) rank).layerCount]
    at hsum
  rw [h.count, hcount, ← hsum]
  simp only [Finset.mul_sum, Finset.sum_mul]
  rfl

/-- A generation has at least one token, and at most as many as its limit. -/
theorem length_tokens (hserves : Serves self found request promptTokens plans)
    (hcompleted : found.Completed request report tokenizer promptTokens model cache first tokens last)
    (hhidden : 0 < request.spec.config.hiddenSize) : (first :: tokens).length ≤ 2 ^ 60 := by
  obtain ⟨d, hplan⟩ := RankMemoryPlan.accepted_of_forModel hcompleted.memory
  have hd := hplan.heads
  have hrequested := hcompleted.requested
  have hshort := hcompleted.short
  have hlimit : 0 + (first :: tokens).length ≤ GenerationWorld.effectiveNewTokens
      request.spec.config promptTokens.length request.maxNewTokens := hcompleted.run.length_le ?_ ?_
  · have hlayers := hserves.layers
    have hranks := hserves.ranks
    have hdim : 0 < d := by
      rw [hd.hidden_eq] at hhidden
      exact Nat.pos_of_mul_pos_left hhidden
    have hbytes : 2 * request.spec.config.numHiddenLayers * (promptTokens.length +
        GenerationWorld.effectiveNewTokens request.spec.config promptTokens.length
          request.maxNewTokens) * request.spec.config.numKeyValueHeads * d * 4 < 2 ^ 64 := by
      have hfits := (kvCacheBytes_eq_some.mp hplan.cache).2.2.2.2.1
      rwa [hcompleted.dtype] at hfits
    have hleast : 2 * 2 * (first :: tokens).length * 1 * 1 * 4 ≤
        2 * request.spec.config.numHiddenLayers * (promptTokens.length +
          GenerationWorld.effectiveNewTokens request.spec.config promptTokens.length
            request.maxNewTokens) * request.spec.config.numKeyValueHeads * d * 4 := by
      have hkeys := hd.keys_pos
      gcongr <;> omega
    omega
  · intro step token hle
    unfold stopsAt
    split_ifs
    · exact Option.some_ne_none _
    · exact Option.some_ne_none _
  · unfold GenerationWorld.effectiveNewTokens
    omega

omit [Zero α] in
/-- A text that is empty is decoded from no tokens. -/
theorem decode_generated (hcompleted : if first = request.spec.config.eosTokenId
      then report.completion = "" else tokenizer.decode report.generatedTokens = .ok report.completion)
    {requested effective : Nat} (hnothing : tokenizer.decode [] = .ok "")
    (hrun : found.Generates request.spec.config requested effective model tokenizer 0
      (cache, []) promptTokens (first :: tokens) report.stopReason (last, report.generatedTokens)) :
    tokenizer.decode report.generatedTokens = .ok report.completion := by
  by_cases heos : first = request.spec.config.eosTokenId
  · rw [if_pos heos] at hcompleted
    have hend : stopsAt request.spec.config requested effective 0 first ≠ none := by
      rw [stopsAt, if_pos heos]
      exact Option.some_ne_none _
    have hgenerated : report.generatedTokens = [] := by
      cases hrun with
      | last hcall _ =>
        have hwith := hcall.generated
        rwa [generatedWith, if_pos heos] at hwith
      | next _ hstop _ => exact absurd hstop hend
    rw [hgenerated, hcompleted]
    exact hnothing
  · rwa [if_neg heos] at hcompleted

/-- The ranks do together what the process does alone. -/
theorem ranks_together (hserves : Serves self found request promptTokens plans)
    (hreliable : Reliable self) (hhidden : 0 < request.spec.config.hiddenSize)
    (hcompleted : found.Completed request report tokenizer promptTokens model cache first tokens last) :
    ∃ own : Rank (n + 1) → Nat, ∑ rank, own rank = report.finalKvCacheBytes ∧
      TogetherSt (fun rank => self.runPipelineRank rank) (fun _ => {})
        (fun rank => rankEvents self tokenizer rank (first :: tokens) report.stopReason)
        (fun rank => .ok (outcomeOf self tokenizer (plans rank) (own rank) report.generatedTokens
          (first :: tokens) report.stopReason report.completion rank))
        (fun rank => (rankEvents self tokenizer rank (first :: tokens) report.stopReason).foldl
          CommunicationReport.record {}) := by
  have hconfig : self.config = request.spec.config := congrArg ModelSpec.config hserves.spec
  obtain ⟨kv, hprepared, habreast, hmodel⟩ := prepared_of_serves hserves hreliable hcompleted
  obtain ⟨rows, width, -, hcount⟩ := hmodel.fits hreliable.lib
  obtain ⟨d, hd⟩ := hcompleted.heads
  have hsteps := length_tokens hserves hcompleted hhidden
  have hlayers := hserves.layers
  have hrun := hcompleted.run
  have hbytes := hcompleted.finalKvCacheBytes
  have hdecode := decode_generated hcompleted.completion (hreliable.nothing tokenizer hprepared.opened)
    hcompleted.run
  rw [← hserves.effective, ← hserves.requested] at hrun
  rw [← hserves.dtype] at hbytes
  rw [← hconfig] at hrun hbytes hd hlayers
  have hids : promptTokens.length = rowsOf self 0 := congrArg List.length hserves.prompt.symm
  obtain ⟨trace, kv', hne, habreast', hranks⟩ := generationLoop_performs hreliable.toDependable
    hserves.lib.symm hserves.argmax.symm hserves.ranks hlayers hmodel hrun habreast rfl hids
    (by rwa [Nat.zero_add])
  obtain ⟨own, hsum, hown⟩ := usedBytes_abreast hserves.ranks hlayers hcount hd habreast' hbytes
  refine ⟨own, hsum, Enacts.together (TcpTransport.barrierTrace n α 0 ++
    (trace ++ TcpTransport.barrierTrace n α 1)) ?_ fun rank => ?_⟩
  · intro x hx
    rcases List.mem_append.mp hx with hbefore | hrest
    · exact TcpTransport.barrierTrace_ne 0 x hbefore
    · rcases List.mem_append.mp hrest with hloop | hafter
      · exact hne x hloop
      · exact TcpTransport.barrierTrace_ne 1 x hafter
  · have hready : Ready self rank 0 promptTokens [] kv ⟨kv rank.val, [], none, 0⟩ :=
      ⟨rfl, rfl, (ite_self _).symm, fun _ => by rw [← hserves.prompt]; rfl⟩
    obtain ⟨s, hloop, hfinished⟩ := hranks rank _ (2 ^ 60 + 1) hready (by omega)
    rw [Nat.zero_add] at hfinished
    exact run_enacts hprepared hloop hfinished hdecode (hown rank)

end Equivalence

end Dlir.Pipeline
