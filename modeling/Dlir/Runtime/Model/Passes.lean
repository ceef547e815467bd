import Dlir.Runtime.Model.Composition
import Dlir.Runtime.Model.Loaded

namespace Dlir.Runtime.Model

open Dlir.Collectives Dlir.Framework Forward

variable {m : Type → Type} [Monad m] [LawfulMonad m] {α β γ : Type}

/-- Where the pass succeeds, `R` holds of its notifications, its result and the cache that it leaves. -/
def Passes (c : Forward m α β) (kv : KvCache α) (R : m Unit → β → KvCache α → Prop) : Prop :=
  ∃ notes result, Ends c kv notes result ∧ ∀ y, result.1 = .ok y → R notes y result.2

namespace Passes

variable {f : β → Forward m α γ} {kv : KvCache α} {R : m Unit → γ → KvCache α → Prop}

theorem ofResult {x : Except DlirError β} (h : ∀ b, x = .ok b → Passes (f b) kv R) :
    Passes (Forward.ofResult x >>= f) kv R := by
  cases x with
  | error e => exact ⟨_, _, ends_ofResult_error rfl, fun y hy => by cases hy⟩
  | ok b =>
    obtain ⟨notes, result, hends, hresult⟩ := h b rfl
    refine ⟨notes, result, ?_, hresult⟩
    unfold Ends at hends ⊢
    rw [run_ofResult_bind rfl, hends]

theorem refused {p : Prop} [Decidable p] {e : DlirError} {f : Unit → Forward m α γ}
    (h : ¬ p → Passes (f ()) kv R) : Passes (Forward.ofResult (refuse p e) >>= f) kv R :=
  ofResult fun _ hb => h (refuse_eq_ok.mp hb)

theorem cache {f : KvCache α → Forward m α γ} (h : Passes (f kv) kv R) :
    Passes (Forward.cache >>= f) kv R := by
  obtain ⟨notes, result, hends, hresult⟩ := h
  refine ⟨notes, result, ?_, hresult⟩
  unfold Ends at hends ⊢
  rw [run_cache, hends]

end Passes

section Stage

variable {σ : Type} {lib : Library α} (hlib : lib.Documented)
  (stage : LlamaStage (Tensor α) (RotaryEmbedding α)) (observer : LayerObserver m)
  (other : LayerObserver (StateM σ)) (s : σ) (kv : KvCache α)

/-- What the observer of a stage hears when all its layers run. -/
def stageNotes : m Unit :=
  notify (notesOf observer.layerStarted observer.layerCompleted
    (List.range' stage.layerStart stage.blocks.length))

include hlib

/-- Where a stage succeeds, all its layers run and keep the shape of its input, as in a call with
another observer. -/
theorem forwardHidden_passes (x : Tensor α) :
    Passes (LlamaStage.forwardHidden lib stage observer x kv.len) kv fun notes y kv' =>
      notes = stageNotes stage observer ∧ y.shape = x.shape ∧
        LlamaStage.onHidden lib other s stage x kv = (.ok y, kv') := by
  by_cases hgood : ∃ sequence hidden, x.shape = [1, sequence, hidden] ∧ 0 < sequence ∧
      kv.layerCount = stage.blocks.length ∧ kv.len + sequence ≤ kv.capacity
  · obtain ⟨sequence, hidden, hx, hpos, hcount, hroom⟩ := hgood
    obtain ⟨notes, hends, hnotes⟩ := ends_stage lib observer hx hpos hroom hcount
    obtain ⟨hushed, hcall, -⟩ := ends_stage (m := StateM σ) lib other hx hpos hroom hcount
    refine ⟨_, _, hends, fun y hy => ⟨?_, ?_, ?_⟩⟩
    · rw [hnotes y hy]
      rfl
    · exact cascade_preserves (P := fun y : Tensor α => y.shape = x.shape)
        (fun block x layer y layer' hlayer hx => (onLayer_shape hlib hlayer).trans hx) rfl hy
    · exact (hcall.call s).trans (Prod.ext hy rfl)
  · unfold LlamaStage.forwardHidden
    refine Passes.ofResult fun dims hdims => ?_
    obtain ⟨batch, sequence, hidden⟩ := dims
    refine .refused fun hinput => .cache (.refused fun hcount => .refused fun _ => .refused fun hroom => ?_)
    have hshape := dims3_ok.mp hdims
    obtain ⟨hbatch, hsequence⟩ := not_or.mp hinput
    rw [not_not.mp hbatch] at hshape
    exact absurd ⟨sequence, hidden, hshape, by omega, not_not.mp hcount, by omega⟩ hgood

/-- The first stage embeds its tokens. -/
theorem forwardTokens_passes {tokens : TokenTensor} {sequence hidden : Nat}
    (htokens : tokens.ids.shape = [1, sequence])
    (htable : ∀ table, stage.embeddings = some table → table.hiddenSize = hidden) :
    Passes (LlamaStage.forwardTokens lib stage observer tokens kv.len) kv fun notes y kv' =>
      notes = stageNotes stage observer ∧ ∃ x : Tensor α, x.shape = [1, sequence, hidden] ∧
        y.shape = x.shape ∧ LlamaStage.onHidden lib other s stage x kv = (.ok y, kv') := by
  unfold LlamaStage.forwardTokens
  refine Passes.ofResult fun table hfound => Passes.ofResult fun dims _ => ?_
  refine .refused fun _ => Passes.ofResult fun x hembed => ?_
  have hx : x.shape = [1, sequence, hidden] := by
    rw [hlib.embed_shape hembed, htokens, htable table (okOr_eq_ok.mp hfound)]
    rfl
  obtain ⟨notes, result, hends, hresult⟩ := forwardHidden_passes hlib stage observer other s kv x
  refine ⟨notes, result, hends, fun y hy => ?_⟩
  obtain ⟨hnotes, hshape, hcall⟩ := hresult y hy
  exact ⟨hnotes, x, hx, hshape, hcall⟩

end Stage

section Load

variable {τ κ : Type} {rotary : ModelConfig → Nat → Except DlirError κ} {vb : VarBuilder τ}
  {config : ModelConfig}

/-- A stage has the layers that it is loaded with. -/
theorem stage_parts (start stop : Nat) (first last : Bool) (capacity : Nat) :
    Always (fun stage => stage.layerStart = start ∧ stage.blocks.length = stop - start ∧
        ∀ table, stage.embeddings = some table → table.hiddenSize = config.hiddenSize)
      (LlamaStage.load rotary vb config start stop first last capacity) := by
  unfold LlamaStage.load
  refine (Always.trivial _).bind fun _ _ => ?_
  refine (loadWhen_always (P := fun table => table.hiddenSize = config.hiddenSize) ?_).bind
    fun table htable => ?_
  · unfold embedding
    exact (Always.trivial _).bind fun t _ => Always.pure rfl
  refine (Always.mapM (R := fun _ _ => True) fun index _ => Always.trivial _).bind fun blocks hblocks => ?_
  refine (Always.trivial _).bind fun norm _ => ?_
  refine (Always.trivial _).bind fun head _ => ?_
  refine (Always.trivial _).bind fun rope _ => Always.pure ⟨rfl, ?_, htable⟩
  rw [← hblocks.length_eq, List.length_range']

end Load

end Dlir.Runtime.Model
