import Dlir.Runtime.Outcome
import Dlir.Tensor.Runner

namespace Dlir.Tensor

open Dlir.Collectives Dlir.Framework Dlir.Pipeline Dlir.Runtime Dlir.Runtime.Model

variable {world : Nat} {α : Type} [Add α]

theorem communicator_reduces {ω : Type} (endpoint : Endpoint world ω) :
    (communicator endpoint : CollectiveCommunicator _ α).Reduces :=
  fun t algorithm => (endpoint.allReduce_always t algorithm).run_exceptT

/-- A part that neither communicates nor observes anything returns what it is made of. -/
theorem always_settleWith {ι μ ω ε ε' σ β : Type} {wrap : ε' → ε} {x : Except ε' β} {P : β → Prop}
    (h : ∀ b, x = .ok b → P b) :
    Always P (settleWith wrap x : ExceptT ε (StateT σ (Proc ι μ ω)) β) := by
  refine Always.of_exceptT (Always.pure fun b hb => ?_)
  exact h b (mapError_eq_ok.mp hb)

namespace TensorWorld

variable [Zero α] (self : TensorWorld world α) (rank : Rank world)

/-- The widths of a rank's share. -/
def localConfig : ModelConfig := Runtime.KvCache.localConfig self.config self.manifest.tensorParallel

/-- The positions that a step adds: those of the prompt, then one at a time. -/
def rows : Nat → Nat
  | 0 => self.manifest.promptTokenIds.length
  | _ + 1 => 1

/-- The positions before a step. -/
def positions : Nat → Nat
  | 0 => 0
  | step + 1 => self.manifest.promptTokenIds.length + step

omit [Add α] [Zero α] in
theorem positions_succ (step : Nat) : self.positions (step + 1) = self.positions step + self.rows step := by
  cases step with
  | zero => exact (Nat.zero_add _).symm
  | succ step => rfl

/-- Where a rank stands before a step. -/
structure Stands (launch : TensorWorld world α) (d step : Nat) (s : Generation α) : Prop where
  decodes : s.decodeForwardCount = step - 1
  cached : Holds launch.localConfig d launch.manifest.contextCapacity (launch.positions step) s.cache

variable {self rank} {d : Nat}
  {model : TensorParallelLlama (Tensor α) (RotaryEmbedding α)}

omit [Add α] in
theorem stands_of_load (hsource : ∀ path source parallel, self.varBuilder path = .ok source →
      WeightSource.Shaped source parallel)
    (hd : self.localConfig.Heads d) {cache : Model.KvCache α} (h : self.load rank = .ok (model, cache)) :
    TensorParallelLlama.Loaded self.lib self.config model ∧
      Holds self.localConfig d self.manifest.contextCapacity 0 cache := by
  simp only [load, bind_eq_ok, mapError_eq_ok, pure_eq_ok, Model.KvCache.newTensorParallel,
    refuse_eq_ok, exists_const] at h
  obtain ⟨source, hvb, parallel, -, loaded, hload, empty, ⟨-, hnew⟩, heq⟩ := h
  obtain ⟨rfl, rfl⟩ := Prod.mk.inj heq
  exact ⟨⟨source, parallel, _, _, [], hsource _ source parallel hvb, hload⟩, Holds.of_new hd hnew⟩

variable (hlib : self.lib.Documented) (hmodel : TensorParallelLlama.Loaded self.lib self.config model)

include hlib hmodel

omit [Zero α] in
/-- A pass that succeeds adds the positions of its input. -/
theorem forward_caches {step : Nat} {s : Generation α} (h : self.Stands d step s)
    (hinput : s.input.ids.shape = [1, self.rows step]) :
    Always (fun r => Holds self.localConfig d self.manifest.contextCapacity
      (self.positions (step + 1)) r.2) (self.forward rank model step s) := by
  obtain ⟨capacity, width, hfits⟩ := hmodel.fits hlib
  obtain ⟨hfilled, hlayers, hpos, hcapacity⟩ := h.cached
  unfold forward
  refine Always.of_exceptT (Always.bind (tensor_extends hlib hfits
    (communicator_reduces (self.endpoint rank)) (layerObserver (phaseOf step) step)
    (by rw [hlayers]; exact hpos) hfilled) fun r hr => Always.pure fun a ha => ?_)
  obtain ⟨result, kv⟩ := r
  cases result with
  | error e => cases ha
  | ok logits =>
    obtain rfl := Except.ok.inj ha
    have hextended := hr logits rfl
    rw [hinput] at hextended
    have hfilled' := hextended.filled (Nat.le_refl _) hfilled
    rw [positions_succ]
    exact ⟨hfilled', hextended.length.trans hlayers, hpos, hextended.capacity.trans hcapacity⟩

omit [Zero α] in
/-- A step leads to where the rank stands before the next one. -/
theorem generationStep_caches {step : Nat} {s : Generation α} (h : self.Stands d step s)
    (hinput : s.input.ids.shape = [1, self.rows step]) :
    Always (fun r => self.Stands d (step + 1) r.1 ∧ (r.2 = none → r.1.input.ids.shape = [1, 1]))
      (self.generationStep rank model step s) := by
  unfold generationStep
  refine (Always.trivial _).bind fun _ _ => ?_
  refine (forward_caches hlib hmodel h hinput).bind ?_
  rintro ⟨logits, cache⟩ hcache
  refine (Always.trivial _).bind fun decision _ => ?_
  refine (Always.trivial _).bind fun _ _ => ?_
  refine (Always.trivial _).bind fun _ _ => ?_
  refine (Always.trivial _).bind fun _ _ => ?_
  have hdecodes : (if step = 0 then s.decodeForwardCount else s.decodeForwardCount + 1) = step := by
    rw [h.decodes]
    split_ifs
    · omega
    · omega
  have hrest : ∀ s' : Generation α, self.Stands d (step + 1) s' →
      Always (fun r => self.Stands d (step + 1) r.1 ∧ (r.2 = none → r.1.input.ids.shape = [1, 1]))
        (if decision.continueGeneration then do
          let s ← settleWith id (advance s' decision.token)
          pure (s, none)
        else do
          let reason ← settleWith id <| okOr
            (.invalidRequest "terminal decision omitted stop reason") decision.stopReason
          pure (s', some reason) : RankCode world α (Generation α × Option StopReason)) := by
    intro s' hs'
    split_ifs
    · refine (always_settleWith (P := fun s'' : Generation α => self.Stands d (step + 1) s'' ∧
        s''.input.ids.shape = [1, 1]) fun s'' hs'' => ?_).bind fun s'' h => Always.pure ⟨h.1, fun _ => h.2⟩
      simp only [advance, bind_eq_ok, mapError_eq_ok, pure_eq_ok] at hs''
      obtain ⟨length, -, input, hrow, rfl⟩ := hs''
      exact ⟨⟨hs'.decodes, hs'.cached⟩, tokenRow_shape hrow⟩
    · refine (Always.trivial _).bind fun reason _ => Always.pure ⟨hs', fun hnone => ?_⟩
      cases hnone
  exact hrest _ ⟨hdecodes, hcache⟩

omit [Zero α] in
/-- A loop that stops has taken fewer decodes than it may take steps. -/
theorem generationLoop_caches (remaining step : Nat) (s : Generation α) (h : self.Stands d step s)
    (hinput : s.input.ids.shape = [1, self.rows step]) :
    Always (fun r => r.2 ≠ none → ∃ last < step + remaining, self.Stands d (last + 1) r.1)
      (self.generationLoop rank model remaining step s) := by
  induction remaining generalizing step s with
  | zero => exact Always.pure fun hnone => absurd rfl hnone
  | succ remaining ih =>
    unfold generationLoop
    refine (generationStep_caches hlib hmodel h hinput).bind ?_
    rintro ⟨s', stop⟩ ⟨hstands, hnext⟩
    cases stop with
    | some reason => exact Always.pure fun _ => ⟨step, by omega, hstands⟩
    | none =>
      refine (ih (step + 1) s' hstands (hnext rfl)).imp fun r hr hstop => ?_
      obtain ⟨last, hlast, hstands'⟩ := hr hstop
      exact ⟨last, by omega, hstands'⟩

omit hmodel

variable (rank) in
/-- The bytes that a rank reports are those of the prompt and of a position for each decode. -/
theorem run_caches (hsource : ∀ path source parallel, self.varBuilder path = .ok source →
      WeightSource.Shaped source parallel) (hd : self.localConfig.Heads d) :
    Always (fun outcome => outcome.decodeForwardCount < self.manifest.effectiveMaxNewTokens ∧
      outcome.finalKvCacheBytes = (self.manifest.promptTokenIds.length + outcome.decodeForwardCount) *
        positionBytes self.localConfig d .f32) (self.runTensorParallelRankObserved rank) := by
  unfold runTensorParallelRankObserved
  refine (Always.trivial _).bind fun memory _ => ?_
  refine (Always.trivial _).bind fun _ _ => ?_
  refine (Always.trivial _).bind fun _ _ => ?_
  refine (always_settleWith fun loaded hloaded => hloaded).bind ?_
  rintro ⟨model, cache⟩ hload
  obtain ⟨hmodel, hempty⟩ := stands_of_load hsource hd hload
  refine (Always.trivial _).bind fun _ _ => ?_
  refine (Always.trivial _).bind fun generation _ => ?_
  refine (always_settleWith fun prompt hprompt => tokenRow_shape hprompt).bind fun prompt hprompt => ?_
  refine (Always.trivial _).bind fun tokenizer _ => ?_
  refine (generationLoop_caches hlib hmodel _ 0 ⟨prompt, 0, [], 0, cache⟩ ⟨rfl, hempty⟩ hprompt).bind ?_
  rintro ⟨s, stop⟩ hstands
  refine (always_settleWith (P := fun _ => stop ≠ none) fun reason hreason hnone => ?_).bind
    fun reason hreason => ?_
  · rw [hnone] at hreason
    cases hreason
  obtain ⟨last, hlast, hdecodes, hcached⟩ := hstands hreason
  refine (Always.trivial _).bind fun _ _ => ?_
  refine (Always.trivial _).bind fun _ _ => ?_
  refine (Always.trivial _).bind fun traces _ => ?_
  refine always_settleWith fun outcome houtcome => ?_
  simp only [summarize, bind_eq_ok, mapError_eq_ok, pure_eq_ok] at houtcome
  obtain ⟨sent, -, received, -, completion, -, bytes, hbytes, rfl⟩ := houtcome
  have hbytes := ((usedBytes_eq_ok hd).mp hbytes).2.2.2.2.2
  rw [hcached.layers, hcached.len] at hbytes
  dsimp only
  rw [hdecodes, Nat.add_sub_cancel]
  refine ⟨by omega, ?_⟩
  rw [hbytes, positionBytes, positions]
  ring

omit hlib

variable (self rank) in
/-- A rank reports the plan that it was let in with. -/
theorem run_admitted : Always (fun outcome => self.admitRank rank = .ok outcome.memory)
    (self.runTensorParallelRankObserved rank) := by
  unfold runTensorParallelRankObserved
  refine (always_settleWith fun memory hmemory => hmemory).bind fun memory hmemory => ?_
  refine (Always.trivial _).bind fun _ _ => ?_
  refine (Always.trivial _).bind fun _ _ => ?_
  refine (Always.trivial _).bind fun loaded _ => ?_
  refine (Always.trivial _).bind fun _ _ => ?_
  refine (Always.trivial _).bind fun generation _ => ?_
  refine (Always.trivial _).bind fun prompt _ => ?_
  refine (Always.trivial _).bind fun tokenizer _ => ?_
  refine (Always.trivial _).bind fun generated _ => ?_
  refine (Always.trivial _).bind fun reason _ => ?_
  refine (Always.trivial _).bind fun _ _ => ?_
  refine (Always.trivial _).bind fun _ _ => ?_
  refine (Always.trivial _).bind fun traces _ => ?_
  refine always_settleWith fun outcome houtcome => ?_
  simp only [summarize, bind_eq_ok, mapError_eq_ok, pure_eq_ok] at houtcome
  obtain ⟨sent, -, received, -, completion, -, bytes, -, rfl⟩ := houtcome
  exact hmemory

end TensorWorld

end Dlir.Tensor
