import Dlir.Collectives.Tags
import Dlir.Runtime.Config
import Dlir.Runtime.Report

namespace Dlir.Pipeline

open Dlir.Collectives Dlir.Math Dlir.Runtime

/-- Failure detected while planning or executing a pipeline rank. -/
inductive PipelineError
  | invalidTopology (message : String)
  | protocol (message : String)
  | placementFailed (rank requiredBytes budgetBytes : Nat)
  | runtime (error : DlirError)
  | collectives (error : CollectivesError)
  | tensor (error : CandleError)
  | json
  | tokenizer (message : String)
  deriving DecidableEq, Repr

/-- Rank-0 decision following one final-stage token selection. -/
inductive PipelineDecision
  | continueGeneration
  | stop (reason : StopReason)
  deriving DecidableEq, Repr

/-- Small typed messages exchanged outside the activation tensor stream. -/
inductive PipelineControl
  | token (step tokenId : Nat)
  | decision (step : Nat) (decision : PipelineDecision)
  deriving DecidableEq, Repr

def activationBase : Nat := 0x1000_0000_0000_0000
def tokenBase : Nat := 0x2000_0000_0000_0000
def decisionBase : Nat := 0x3000_0000_0000_0000

def stepTag (base step : Nat) : Except PipelineError MessageTag :=
  match (checkedAdd base step).filter (· < base + (1 <<< 60)) with
  | some tag => .ok ⟨.ofNat tag⟩
  | none => .error (.protocol "pipeline message-tag overflow")

def activationTag (step : Nat) : Except PipelineError MessageTag := stepTag activationBase step

def tokenTag (step : Nat) : Except PipelineError MessageTag := stepTag tokenBase step

def decisionTag (step : Nat) : Except PipelineError MessageTag := stepTag decisionBase step

/-- The tag of the decision after a step of a tensor-parallel run, which the source computes without
a check. -/
def tensorDecisionTag (step : Nat) : MessageTag := ⟨.ofNat (decisionBase + step)⟩

/-- A tag that is given out lies less than `2 ^ 60` above its base. -/
theorem stepTag_ok {base step : Nat} {tag : MessageTag} (h : stepTag base step = .ok tag) :
    step < 2 ^ 60 ∧ tag.value.toNat = base + step := by
  unfold stepTag at h
  split at h
  · rename_i value hvalue
    simp only [Option.filter_eq_some_iff, decide_eq_true_eq] at hvalue
    obtain ⟨hadd, hlt⟩ := hvalue
    rw [checkedAdd] at hadd
    split_ifs at hadd with hfit
    obtain rfl := Option.some.inj hadd
    obtain rfl := Except.ok.inj h
    rw [Nat.shiftLeft_eq] at hlt
    exact ⟨by omega, by simpa using hfit⟩
  · cases h

end Dlir.Pipeline
