import Dlir.Pipeline.Event
import Dlir.Tui.Totals
import Mathlib.Algebra.BigOperators.Fin

namespace Dlir.Pipeline.EventRecorder

open Dlir.Runtime

/-- The recorder of a rank after the events of a run. -/
def after (rank : Nat) (runId requestId : String) (measured : Measured) (kinds : List RunEventKind) :
    EventRecorder :=
  emitAll (new rank runId requestId) (measured.stamp kinds)

variable (rank : Nat) (runId requestId : String) (measured : Measured) (kinds : List RunEventKind)

theorem after_consistent : (after rank runId requestId measured kinds).Consistent ∧
    (after rank runId requestId measured kinds).rank = rank := by
  have hall := (consistent_new rank runId requestId).emitAll (measured.stamp kinds)
  exact ⟨hall.1, hall.2.1⟩

/-- What the clock does not change can be read off the events that a rank keeps. -/
theorem map_after {β : Type} {f : RunEventKind → β}
    (hf : ∀ durationNs kind, f (kind.lasting durationNs) = f kind) :
    (after rank runId requestId measured kinds).events.map (fun event => f event.event.event) =
      kinds.map f := by
  have hkinds : (after rank runId requestId measured kinds).events.map (·.event.event) =
      (measured.stamp kinds).map Prod.snd := kinds_emitAll _ _
  have hmap := congrArg (List.map f) hkinds
  rw [List.map_map, List.map_map] at hmap
  exact hmap.trans (measured.map_stamp hf kinds)

theorem rank_of_published {event : PipelineEvent}
    (h : event ∈ (after rank runId requestId measured kinds).published) : event.event.rank = rank := by
  obtain ⟨hconsistent, hrank⟩ := after_consistent rank runId requestId measured kinds
  rw [hconsistent.published] at h
  obtain ⟨i, hi, hget⟩ := List.mem_iff_getElem.mp h
  have hcounted := hconsistent.counted i event (by rw [List.getElem?_eq_getElem hi, hget])
  exact hcounted.1.trans hrank

end Dlir.Pipeline.EventRecorder

namespace Dlir.Tui

open Dlir.Framework Dlir.Pipeline Dlir.Runtime

section Arrivals

variable {n : Nat}

/-- What the recorders of some ranks have published, by the numbers of the ranks. -/
def streams (recorders : Fin n → EventRecorder) (rank : Nat) : List PipelineEvent :=
  if h : rank < n then (recorders ⟨rank, h⟩).published else []

variable {runId requestId : String} {measured : Fin n → Measured} {logs : Fin n → List RunEventKind}
  {arrived : List PipelineEvent}

theorem fromStream_published (rank i : Nat) (measured : Measured) (kinds : List RunEventKind) :
    fromStream i ((EventRecorder.after rank runId requestId measured kinds).published.map byRank) =
      if rank = i then (EventRecorder.after rank runId requestId measured kinds).published else [] := by
  have hfirst : ∀ entry ∈ (EventRecorder.after rank runId requestId measured kinds).published.map byRank,
      entry.1 = rank := by
    intro entry hentry
    obtain ⟨event, hevent, rfl⟩ := List.mem_map.mp hentry
    exact EventRecorder.rank_of_published _ _ _ _ _ hevent
  unfold fromStream
  split_ifs with h
  · rw [List.filter_eq_self.mpr fun entry hentry => decide_eq_true ((hfirst entry hentry).trans h),
      List.map_map]
    exact List.map_id _
  · rw [List.filter_eq_nil_iff.mpr fun entry hentry => by simpa [hfirst entry hentry] using h]
    rfl

/-- The streams can come one after the other. -/
theorem interleaves_streams (runId requestId : String) (measured : Fin n → Measured)
    (logs : Fin n → List RunEventKind) :
    Interleaves (streams fun rank => .after rank.val runId requestId (measured rank) (logs rank))
      (((List.finRange n).flatMap fun rank =>
        (EventRecorder.after rank.val runId requestId (measured rank) (logs rank)).published).map
          byRank) := by
  intro i
  rw [List.map_flatMap, fromStream_flatMap]
  simp only [fromStream_published]
  unfold streams
  split_ifs with h
  · have hrank : ∀ rank : Fin n, rank.val = i ↔ rank = ⟨i, h⟩ :=
      fun rank => ⟨fun hval => Fin.ext hval, fun heq => congrArg Fin.val heq⟩
    simp only [hrank]
    exact flatMap_ite_eq (List.nodup_finRange n) (List.mem_finRange _) _
  · rw [List.flatMap_eq_nil_iff]
    intro rank _
    rw [if_neg]
    intro heq
    exact h (by rw [← heq]; exact rank.isLt)

theorem rank_of_arrived {recorders : Fin n → EventRecorder}
    (h : Interleaves (streams recorders) (arrived.map byRank)) {event : PipelineEvent}
    (hmem : event ∈ arrived) : event.event.rank < n := by
  have hstream : event ∈ streams recorders event.event.rank :=
    h.mem.mp (List.mem_map.mpr ⟨event, hmem, rfl⟩)
  unfold streams at hstream
  by_contra hout
  rw [dif_neg hout] at hstream
  cases hstream

/-- A total over the events that arrive, whatever their order, is the sum over the ranks. -/
theorem sum_arrived (h : Interleaves (streams fun rank =>
      .after rank.val runId requestId (measured rank) (logs rank)) (arrived.map byRank))
    {f : RunEventKind → Nat} (hf : ∀ durationNs kind, f (kind.lasting durationNs) = f kind) :
    (arrived.map fun event => f event.event.event).sum = ∑ rank, ((logs rank).map f).sum := by
  have hranks : ∀ entry ∈ arrived.map byRank, entry.1 ∈ Finset.range n := by
    intro entry hentry
    obtain ⟨event, hevent, rfl⟩ := List.mem_map.mp hentry
    exact Finset.mem_range.mpr (rank_of_arrived h hevent)
  have hsum := sum_fromStream (fun event : PipelineEvent => f event.event.event) hranks
  have hstreams : ∀ rank : Fin n,
      ((fromStream rank.val (arrived.map byRank)).map fun event => f event.event.event).sum =
        ((logs rank).map f).sum := by
    intro rank
    obtain ⟨hconsistent, -⟩ :=
      EventRecorder.after_consistent rank.val runId requestId (measured rank) (logs rank)
    rw [h rank.val, streams, dif_pos rank.isLt, hconsistent.published, EventRecorder.map_after _ _ _ _ _ hf]
  rw [List.map_map] at hsum
  calc (arrived.map fun event => f event.event.event).sum
      = ∑ i ∈ Finset.range n,
          ((fromStream i (arrived.map byRank)).map fun event => f event.event.event).sum := hsum
    _ = ∑ rank : Fin n,
          ((fromStream rank.val (arrived.map byRank)).map fun event => f event.event.event).sum :=
        Finset.sum_range _
    _ = ∑ rank, ((logs rank).map f).sum := Finset.sum_congr rfl fun rank _ => hstreams rank

/-- The totals of a new dashboard after all events are those of the ranks, as long as they fit. -/
theorem DashboardState.applyAll_arrived (self : DashboardState) (hbytes : self.communicationBytes = 0)
    (htokens : self.generatedTokens = 0) (hknown : n ≤ self.ranks.length)
    (h : Interleaves (streams fun rank =>
      .after rank.val runId requestId (measured rank) (logs rank)) (arrived.map byRank))
    (hfits : (arrived.map fun event => event.event.event.sentBytes).sum < 2 ^ 64) :
    (self.applyAll arrived).communicationBytes = ∑ rank, Tensor.sentBytes (logs rank) ∧
      (self.applyAll arrived).generatedTokens = ∑ rank, Tensor.tokens (logs rank) := by
  have hranks : ∀ event ∈ arrived, event.event.rank < self.ranks.length := by
    intro event hevent
    exact (rank_of_arrived h hevent).trans_le hknown
  have hsum := sum_arrived h (f := RunEventKind.sentBytes) fun _ kind => by cases kind <;> rfl
  have hcount := sum_arrived h (f := RunEventKind.tokens) fun _ kind => by cases kind <;> rfl
  obtain ⟨htotal, hgenerated⟩ := self.applyAll_totals hranks (by rw [hbytes, Nat.zero_add]; exact hfits)
  constructor
  · rw [htotal, hbytes, Nat.zero_add, hsum]
    rfl
  · rw [hgenerated, htokens, Nat.zero_add, hcount]
    rfl

end Arrivals

end Dlir.Tui
