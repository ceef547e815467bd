import Dlir.Tensor.Accounts
import Dlir.Tui.Confluence

namespace Dlir.Tui

open Dlir.Framework Dlir.Pipeline Dlir.Runtime

theorem Effect.count_of (elapsedNs : Nat) (kind : RunEventKind) {total : Nat}
    (h : total + kind.sentBytes < 2 ^ 64) :
    (Effect.of elapsedNs kind).count total = total + kind.sentBytes := by
  cases kind <;> simp only [Effect.of, Effect.count, RunEventKind.sentBytes, saturatingAdd] at h ⊢ <;>
    omega

theorem Effect.tokens_of (elapsedNs : Nat) (kind : RunEventKind) :
    (Effect.of elapsedNs kind).tokens = kind.tokens := by
  cases kind <;> rfl

namespace DashboardState

/-- An event of a known rank adds its bytes and its tokens to the totals. -/
theorem apply_totals (self : DashboardState) {published : PipelineEvent}
    (hknown : published.event.rank < self.ranks.length)
    (hfits : self.communicationBytes + published.event.event.sentBytes < 2 ^ 64) :
    (self.apply published).communicationBytes =
        self.communicationBytes + published.event.event.sentBytes ∧
      (self.apply published).generatedTokens =
        self.generatedTokens + published.event.event.tokens ∧
      (self.apply published).ranks.length = self.ranks.length := by
  have happly := quiet_apply self published
  have hview := List.getElem?_eq_getElem hknown
  simp only [Effect.on, hview] at happly
  have hbytes := congrArg DashboardState.communicationBytes happly
  have htokens := congrArg DashboardState.generatedTokens happly
  have hranks := congrArg (fun state : DashboardState => state.ranks.length) happly
  simp only [quiet, List.length_set] at hbytes htokens hranks
  refine ⟨?_, ?_, hranks⟩
  · rw [hbytes, Effect.count_of _ _ hfits]
  · rw [htokens, Effect.tokens_of]

/-- The totals after a sequence of events of known ranks. -/
theorem applyAll_totals (self : DashboardState) {arrived : List PipelineEvent}
    (hknown : ∀ published ∈ arrived, published.event.rank < self.ranks.length)
    (hfits : self.communicationBytes +
      (arrived.map fun published => published.event.event.sentBytes).sum < 2 ^ 64) :
    (self.applyAll arrived).communicationBytes = self.communicationBytes +
        (arrived.map fun published => published.event.event.sentBytes).sum ∧
      (self.applyAll arrived).generatedTokens = self.generatedTokens +
        (arrived.map fun published => published.event.event.tokens).sum := by
  induction arrived generalizing self with
  | nil => exact ⟨rfl, rfl⟩
  | cons published arrived ih =>
    rw [List.map_cons, List.sum_cons] at hfits ⊢
    rw [List.map_cons, List.sum_cons]
    obtain ⟨hbytes, htokens, hranks⟩ := self.apply_totals (hknown published List.mem_cons_self)
      (by omega)
    obtain ⟨hallBytes, hallTokens⟩ := ih (self.apply published)
      (fun other hother => by rw [hranks]; exact hknown other (List.mem_cons_of_mem _ hother))
      (by rw [hbytes]; omega)
    constructor
    · show ((self.apply published).applyAll arrived).communicationBytes = _
      rw [hallBytes, hbytes, Nat.add_assoc]
    · show ((self.apply published).applyAll arrived).generatedTokens = _
      rw [hallTokens, htokens, Nat.add_assoc]

end DashboardState

end Dlir.Tui
