import Dlir.Framework.Reports
import Dlir.Runtime.Model.TensorParallel

namespace Dlir.Runtime.Model

open Dlir.Collectives Dlir.Framework Forward

variable {ι μ ω σ α β γ : Type} {Rel : σ → List ω → σ → Prop}

/-- Whatever a forward pass receives and whatever its cache holds, it changes the state of its
communicator only in this way. -/
def Forward.Keeps (Rel : σ → List ω → σ → Prop) (c : Forward (StateT σ (Proc ι μ ω)) α β) : Prop :=
  ∀ cache, Framework.Keeps Rel (c.run.run cache)

/-- A communicator and an observer that do. -/
structure CollectiveCommunicator.Keeps (Rel : σ → List ω → σ → Prop)
    (comm : CollectiveCommunicator (StateT σ (Proc ι μ ω)) α) : Prop where
  allReduce : ∀ t algorithm, Framework.Keeps Rel (comm.allReduce t algorithm)
  allGather : ∀ t axis, Framework.Keeps Rel (comm.allGather t axis)

structure LayerObserver.Keeps (Rel : σ → List ω → σ → Prop)
    (observer : LayerObserver (StateT σ (Proc ι μ ω))) : Prop where
  layerStarted : ∀ layer, Framework.Keeps Rel (observer.layerStarted layer)
  layerCompleted : ∀ layer, Framework.Keeps Rel (observer.layerCompleted layer)

section Rules

variable (hrel : Composable Rel)

include hrel

namespace Forward.Keeps

theorem pure (b : β) : Forward.Keeps Rel (Pure.pure b : Forward (StateT σ (Proc ι μ ω)) α β) :=
  fun _ => Framework.Keeps.pure hrel _

theorem ofResult (x : Except DlirError β) :
    Forward.Keeps Rel (Forward.ofResult x : Forward (StateT σ (Proc ι μ ω)) α β) :=
  fun _ => Framework.Keeps.pure hrel _

theorem append (lib : Library α) (layer : Nat) (keys values : Tensor α) :
    Forward.Keeps Rel (Forward.append lib layer keys values : Forward (StateT σ (Proc ι μ ω)) α _) :=
  fun _ => Framework.Keeps.pure hrel _

theorem cache : Forward.Keeps Rel (Forward.cache : Forward (StateT σ (Proc ι μ ω)) α _) :=
  fun _ => Framework.Keeps.pure hrel _

theorem lift {x : StateT σ (Proc ι μ ω) (Except DlirError β)} (h : Framework.Keeps Rel x) :
    Forward.Keeps Rel (Forward.lift x : Forward (StateT σ (Proc ι μ ω)) α β) :=
  fun _ => Framework.Keeps.bind hrel h fun _ => Framework.Keeps.pure hrel _

theorem bind {c : Forward (StateT σ (Proc ι μ ω)) α β}
    {f : β → Forward (StateT σ (Proc ι μ ω)) α γ} (h : Forward.Keeps Rel c)
    (hf : ∀ b, Forward.Keeps Rel (f b)) : Forward.Keeps Rel (c >>= f) := by
  intro cache
  rw [ExceptT.run_bind, StateT.run_bind]
  refine Framework.Keeps.bind hrel (h cache) fun r => ?_
  obtain ⟨result, cache'⟩ := r
  cases result with
  | ok b => exact hf b cache'
  | error e => exact Framework.Keeps.pure hrel _

theorem foldlM {κ : Type} {f : β → κ → Forward (StateT σ (Proc ι μ ω)) α β}
    (h : ∀ b x, Forward.Keeps Rel (f b x)) (l : List κ) (b : β) :
    Forward.Keeps Rel (l.foldlM f b) := by
  induction l generalizing b with
  | nil => exact pure hrel b
  | cons x l ih =>
    rw [List.foldlM_cons]
    exact bind hrel (h b x) ih

theorem collective {x : StateT σ (Proc ι μ ω) (Except CollectivesError (Tensor α))}
    (h : Framework.Keeps Rel x) :
    Forward.Keeps Rel (Model.collective x : Forward (StateT σ (Proc ι μ ω)) α _) :=
  lift hrel (h.map hrel _)

theorem notify {x : StateT σ (Proc ι μ ω) Unit} (h : Framework.Keeps Rel x) :
    Forward.Keeps Rel (Forward.lift (.ok <$> x) : Forward (StateT σ (Proc ι μ ω)) α Unit) :=
  lift hrel (h.map hrel _)

end Forward.Keeps

variable {lib : Library α} {collectives : CollectiveCommunicator (StateT σ (Proc ι μ ω)) α}
  (hcoll : collectives.Keeps Rel)

include hcoll

open Forward.Keeps

theorem columnParallel_keeps (layer : ColumnParallelLinear (Tensor α)) (x : Tensor α) :
    Forward.Keeps Rel (ColumnParallelLinear.forward lib layer collectives x) := by
  unfold ColumnParallelLinear.forward
  refine bind hrel (ofResult hrel _) fun own => ?_
  split_ifs
  · refine bind hrel (ofResult hrel _) fun _ => ?_
    refine bind hrel (Forward.Keeps.collective hrel (hcoll.allGather own _)) fun gathered => ?_
    refine bind hrel (ofResult hrel _) fun width => ?_
    exact bind hrel (ofResult hrel _) fun _ => pure hrel _
  · exact pure hrel _

theorem rowParallel_keeps (layer : RowParallelLinear (Tensor α)) (x : Tensor α) :
    Forward.Keeps Rel (RowParallelLinear.forward lib layer collectives x) := by
  unfold RowParallelLinear.forward
  refine bind hrel (ofResult hrel _) fun summand => ?_
  exact Forward.Keeps.collective hrel (hcoll.allReduce summand _)

theorem embeddings_keep (table : VocabParallelEmbedding (Tensor α)) (tokens : TokenTensor) :
    Forward.Keeps Rel (VocabParallelEmbedding.forward lib table collectives tokens) := by
  unfold VocabParallelEmbedding.forward
  refine bind hrel (ofResult hrel _) fun own => ?_
  exact Forward.Keeps.collective hrel (hcoll.allReduce own _)

theorem tensorBlock_keeps (block : TensorParallelBlock (Tensor α)) (x : Tensor α)
    (position layer : Nat) (rope : RotaryEmbedding α) :
    Forward.Keeps Rel (TensorParallelBlock.forward lib block collectives x position layer rope) := by
  have hattention : ∀ n, Forward.Keeps Rel
      (TensorParallelAttention.forward lib block.attention collectives n position layer rope) := by
    intro n
    unfold TensorParallelAttention.forward Projections.cached
    refine bind hrel (ofResult hrel _) fun dims => ?_
    refine bind hrel (bind hrel (ofResult hrel _) fun heads => ?_) fun heads => ?_
    · exact bind hrel (append hrel lib layer _ _) fun views => pure hrel _
    · refine bind hrel (ofResult hrel _) fun own => ?_
      exact rowParallel_keeps hrel hcoll _ own
  have hmlp : ∀ n, Forward.Keeps Rel (TensorParallelMlp.forward lib block.mlp collectives n) := by
    intro n
    unfold TensorParallelMlp.forward
    refine bind hrel (ofResult hrel _) fun own => ?_
    exact rowParallel_keeps hrel hcoll _ own
  unfold TensorParallelBlock.forward
  refine bind hrel (ofResult hrel _) fun normed => ?_
  refine bind hrel (hattention normed) fun attention => ?_
  refine bind hrel (ofResult hrel _) fun hidden => ?_
  refine bind hrel (ofResult hrel _) fun normed => ?_
  exact bind hrel (hmlp normed) fun mlp => ofResult hrel _

variable (lib) in
/-- A pass does to the state what its collectives and the announcements of its layers do. -/
theorem forwardObserved_keeps {observer : LayerObserver (StateT σ (Proc ι μ ω))}
    (hobs : observer.Keeps Rel) (model : TensorParallelLlama (Tensor α) (RotaryEmbedding α))
    (tokens : TokenTensor) (position : Nat) :
    Forward.Keeps Rel
      (TensorParallelLlama.forwardObserved lib model collectives observer tokens position) := by
  unfold TensorParallelLlama.forwardObserved
  refine bind hrel (ofResult hrel _) fun _ => ?_
  refine bind hrel (ofResult hrel _) fun dims => ?_
  refine bind hrel (ofResult hrel _) fun _ => ?_
  refine bind hrel (cache hrel) fun kv => ?_
  refine bind hrel (ofResult hrel _) fun _ => ?_
  refine bind hrel (ofResult hrel _) fun _ => ?_
  refine bind hrel (embeddings_keep hrel hcoll _ tokens) fun hidden => ?_
  refine bind hrel (foldlM hrel (fun hidden entry => ?_) _ hidden) fun hidden => ?_
  · refine bind hrel (notify hrel (hobs.layerStarted _)) fun _ => ?_
    refine bind hrel (tensorBlock_keeps hrel hcoll _ hidden position _ _) fun hidden => ?_
    exact bind hrel (notify hrel (hobs.layerCompleted _)) fun _ => pure hrel _
  · refine bind hrel (ofResult hrel _) fun last => ?_
    refine bind hrel (columnParallel_keeps hrel hcoll _ last) fun logits => ?_
    exact ofResult hrel _

end Rules

section Stages

open Forward.Keeps

variable (hrel : Composable Rel) (lib : Library α)

include hrel

theorem block_keeps (block : Block (Tensor α)) (x : Tensor α) (position layer : Nat)
    (rope : RotaryEmbedding α) : Forward.Keeps Rel
      (Block.forward lib block x position layer rope : Forward (StateT σ (Proc ι μ ω)) α _) := by
  have hattention : ∀ normed, Forward.Keeps Rel (CausalSelfAttention.forward lib block.attention normed
      position layer rope : Forward (StateT σ (Proc ι μ ω)) α _) := by
    intro normed
    unfold CausalSelfAttention.forward Projections.cached
    refine bind hrel (ofResult hrel _) fun dims => ?_
    refine bind hrel (bind hrel (ofResult hrel _) fun heads => ?_) fun heads => ?_
    · exact bind hrel (append hrel lib layer _ _) fun views => pure hrel _
    · exact bind hrel (ofResult hrel _) fun own => ofResult hrel _
  unfold Block.forward
  refine bind hrel (ofResult hrel _) fun normed => ?_
  refine bind hrel (hattention normed) fun attention => ?_
  refine bind hrel (ofResult hrel _) fun hidden => ?_
  refine bind hrel (ofResult hrel _) fun normed => ?_
  exact bind hrel (ofResult hrel _) fun mlp => ofResult hrel _

variable {observer : LayerObserver (StateT σ (Proc ι μ ω))} (hobs : observer.Keeps Rel)
  (stage : LlamaStage (Tensor α) (RotaryEmbedding α))

include hobs

/-- A stage does to the state what the announcements of its layers do. -/
theorem forwardHidden_keeps (hidden : Tensor α) (position : Nat) :
    Forward.Keeps Rel (LlamaStage.forwardHidden lib stage observer hidden position) := by
  unfold LlamaStage.forwardHidden
  refine bind hrel (ofResult hrel _) fun dims => ?_
  refine bind hrel (ofResult hrel _) fun _ => ?_
  refine bind hrel (cache hrel) fun kv => ?_
  refine bind hrel (ofResult hrel _) fun _ => ?_
  refine bind hrel (ofResult hrel _) fun _ => ?_
  refine bind hrel (ofResult hrel _) fun _ => ?_
  refine foldlM hrel (fun hidden entry => ?_) _ hidden
  refine bind hrel (notify hrel (hobs.layerStarted _)) fun _ => ?_
  refine bind hrel (block_keeps hrel lib _ hidden position _ _) fun hidden => ?_
  exact bind hrel (notify hrel (hobs.layerCompleted _)) fun _ => pure hrel _

theorem forwardTokens_keeps (tokens : TokenTensor) (position : Nat) :
    Forward.Keeps Rel (LlamaStage.forwardTokens lib stage observer tokens position) := by
  unfold LlamaStage.forwardTokens
  refine bind hrel (ofResult hrel _) fun embeddings => ?_
  refine bind hrel (ofResult hrel _) fun dims => ?_
  refine bind hrel (ofResult hrel _) fun _ => ?_
  refine bind hrel (ofResult hrel _) fun hidden => ?_
  exact forwardHidden_keeps hrel lib hobs stage hidden position

end Stages

end Dlir.Runtime.Model
