import Dlir.Pipeline.Accord
import Dlir.Runtime.Outcome

namespace Dlir.Pipeline

open Dlir.Collectives Dlir.Framework Dlir.Math Dlir.Runtime Dlir.Runtime.Model PipelineRank

variable {n : Nat} {α : Type} [Zero α] {self : PipelineWorld (n + 1) α} {rank : Rank (n + 1)}

omit [Zero α] in
variable (self rank) in
/-- The configuration with the layers of one stage only. -/
def stageConfig : ModelConfig :=
  { self.config with numHiddenLayers := (assignmentOf self rank).layerCount }

/-- The calls of a stage add the positions of their input to the cache that it starts with. -/
theorem stage_caches (hlib : self.lib.Documented)
    (hshaped : ∀ vb, self.varBuilder = .ok vb → VarBuilder.Shaped vb) {d : Nat} (hd : self.config.Heads d)
    {stage : LlamaStage (Tensor α) (RotaryEmbedding α)} {kv : Model.KvCache α}
    (hload : self.load (assignmentOf self rank) = .ok (stage, kv)) :
    Holds (stageConfig self rank) d self.manifest.contextCapacity 0 kv ∧
      ∀ {m rows kv y kv'}, Holds (stageConfig self rank) d self.manifest.contextCapacity m kv →
        Calls self stage rows kv y kv' →
        Holds (stageConfig self rank) d self.manifest.contextCapacity (m + rows) kv' := by
  simp only [PipelineWorld.load, bind_eq_ok, mapError_eq_ok, pure_eq_ok] at hload
  obtain ⟨vb, hvb, loaded, hstage, empty, hempty, heq⟩ := hload
  obtain ⟨rfl, rfl⟩ := Prod.mk.inj heq
  have hloaded : LlamaStage.Loaded self.lib self.config stage :=
    ⟨vb, _, _, _, _, _, [], hshaped vb hvb, hstage⟩
  obtain ⟨hfilled, hlayers, hcapacity, hpos⟩ := Model.KvCache.filled_of_newForLayers hd hempty
  refine ⟨⟨hfilled, hlayers, hpos, hcapacity⟩, fun {m rows kv y kv'} hholds hcalls => ?_⟩
  obtain ⟨hy, x, hx, hcall⟩ := hcalls
  obtain ⟨capacity, width, hfits⟩ := hloaded.fits hlib
  have hrows : x.shape = [1, rows, self.config.hiddenSize] := hx.trans hy
  have hsome := Forward.call_spec (stage_forwardHidden hlib hfits silent
    (by rw [hholds.layers]; exact hholds.pos) hholds.filled (.inr (by rw [hrows]; rfl)) kv.len) hcall
  obtain ⟨-, hextended⟩ := hsome
  rw [hrows] at hextended
  exact ⟨hextended.filled (Nat.le_refl _) hholds.filled, hextended.length.trans hholds.layers, hholds.pos,
    hextended.capacity.trans hholds.capacity⟩

end Dlir.Pipeline
