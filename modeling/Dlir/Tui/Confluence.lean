import Dlir.Tui.Dashboard

namespace Dlir.Tui

open Dlir.Framework Dlir.Math Dlir.Pipeline Dlir.Runtime Dlir.Tensor

/-- The fields that only events of rank 0 write. -/
structure Clock where
  prefillNs : Option Nat
  decodeNs : Option Nat
  timeToFirstTokenNs : Option Nat
  decodeTotalNs : Nat
  decodeCount : Nat
  prefillStartedNs : Option Nat

/-- What an event does: to the row of its rank, to the two totals, and to the clock when its rank
is 0. -/
structure Effect where
  row : RankView → RankView := id
  bytes : Option Nat := none
  tokens : Nat := 0
  clock : RankView → Clock → Clock := fun _ clock => clock

namespace DashboardState

/-- The state without its activity lines. -/
def quiet (self : DashboardState) : DashboardState := { self with recent := [] }

def clock (self : DashboardState) : Clock :=
  ⟨self.prefillNs, self.decodeNs, self.timeToFirstTokenNs, self.decodeTotalNs, self.decodeCount,
    self.prefillStartedNs⟩

def setClock (self : DashboardState) (clock : Clock) : DashboardState :=
  { self with
    prefillNs := clock.prefillNs
    decodeNs := clock.decodeNs
    timeToFirstTokenNs := clock.timeToFirstTokenNs
    decodeTotalNs := clock.decodeTotalNs
    decodeCount := clock.decodeCount
    prefillStartedNs := clock.prefillStartedNs }

end DashboardState

namespace Effect

def onDecodeFinished (elapsedNs : Nat) (view : RankView) (clock : Clock) : Clock :=
  let decodeTotalNs := saturatingAdd clock.decodeTotalNs
    ((view.phaseStartedNs.map (elapsedNs - ·)).getD 0)
  let decodeCount := saturatingAdd clock.decodeCount 1
  { clock with decodeTotalNs, decodeCount, decodeNs := some (decodeTotalNs / decodeCount) }

def onToken (elapsedNs : Nat) (clock : Clock) : Clock :=
  if clock.timeToFirstTokenNs.isNone then
    { clock with timeToFirstTokenNs := clock.prefillStartedNs.map (elapsedNs - ·) }
  else clock

/-- The effect of every kind of event. -/
def of (elapsedNs : Nat) : RunEventKind → Effect
  | .modelLoadStarted => { row := fun view => { view with state := "LOADING" } }
  | .modelLoadFinished => { row := fun view => { view with state := "READY" } }
  | .layerStarted layer phase _ =>
    { row := fun view =>
        { view with layer := some layer, phase := phaseName phase, state := "COMPUTE" } }
  | .layerCompleted layer _ _ durationNs =>
    { row := fun view =>
        { view with layer := some layer, computeNs := durationNs, state := "READY" } }
  | .tensorSent _ _ _ _ _ bytes durationNs =>
    { row := fun view => { view with communicationNs := durationNs, state := "SEND" }
      bytes := some bytes }
  | .tensorReceived _ _ _ _ _ _ durationNs =>
    { row := fun view => { view with communicationNs := durationNs, state := "RECV" } }
  | .controlSent _ _ _ _ bytes durationNs =>
    { row := fun view => { view with communicationNs := durationNs, state := "SEND CTRL" }
      bytes := some bytes }
  | .controlReceived _ _ _ _ _ durationNs =>
    { row := fun view => { view with communicationNs := durationNs, state := "RECV CTRL" } }
  | .collectiveStarted _ _ => { row := fun view => { view with state := "BARRIER" } }
  | .collectiveCompleted _ _ _ => { row := fun view => { view with state := "READY" } }
  | .tensorCollectiveStarted collective _ sequence _ =>
    { row := fun view => { view with state := s!"{collective.toUpper} #{sequence}" } }
  | .tensorCollectiveCompleted _ _ sentBytes _ durationNs =>
    { row := fun view => { view with state := "READY", communicationNs := durationNs }
      bytes := some sentBytes }
  | .memorySample currentBytes limitBytes =>
    { row := fun view =>
        { view with memoryCurrentBytes := currentBytes, memoryLimitBytes := limitBytes } }
  | .prefillStarted _ =>
    { row := fun view => { view with phase := "prefill", phaseStartedNs := some elapsedNs }
      clock := fun _ clock => { clock with prefillStartedNs := some elapsedNs } }
  | .prefillFinished =>
    { row := fun view => { view with state := "READY" }
      clock := fun view clock =>
        { clock with prefillNs := view.phaseStartedNs.map (elapsedNs - ·) } }
  | .decodeStepStarted _ =>
    { row := fun view => { view with phase := "decode", phaseStartedNs := some elapsedNs } }
  | .decodeStepFinished _ =>
    { row := fun view => { view with state := "READY" }
      clock := onDecodeFinished elapsedNs }
  | .tokenGenerated _ _ => { tokens := 1, clock := fun _ => onToken elapsedNs }
  | .generationFinished _ => { row := fun view => { view with state := "DONE" } }
  | .artifactResolutionStarted => {}
  | .artifactResolutionFinished => {}

/-- Adds the bytes of an event that counts some. -/
def count (effect : Effect) (total : Nat) : Nat :=
  match effect.bytes with
  | some bytes => saturatingAdd total bytes
  | none => total

/-- Carries out an effect for a rank. -/
def on (effect : Effect) (rank : Nat) (state : DashboardState) : DashboardState :=
  match state.ranks[rank]? with
  | none => state
  | some view =>
    { state.setClock (if rank = 0 then effect.clock view state.clock else state.clock) with
      ranks := state.ranks.set rank (effect.row view)
      communicationBytes := effect.count state.communicationBytes
      generatedTokens := state.generatedTokens + effect.tokens }

end Effect

namespace DashboardState

@[simp]
theorem quiet_pushRecent (self : DashboardState) (line : String) :
    (self.pushRecent line).quiet = self.quiet := rfl

theorem set_getElem? {view : RankView} {ranks : List RankView} {rank : Nat}
    (h : ranks[rank]? = some view) : ranks.set rank view = ranks := by
  obtain ⟨hlt, rfl⟩ := List.getElem?_eq_some_iff.mp h
  exact List.set_getElem_self hlt

theorem quiet_applyKnown (self : DashboardState) {rank : Nat} {view : RankView}
    (hview : self.ranks[rank]? = some view) (elapsedNs : Nat) (event : RunEventKind) :
    (self.applyKnown rank view elapsedNs event).quiet =
      ((Effect.of elapsedNs event).on rank self).quiet := by
  have hself := set_getElem? hview
  simp only [Effect.on, hview]
  cases event with
  | tokenGenerated tokenId text =>
    by_cases hrank : rank = 0
    · subst hrank
      cases hfirst : self.timeToFirstTokenNs <;>
        simp [applyKnown, hfirst, Effect.of, Effect.onToken, Effect.count, quiet, pushRecent,
          setClock, clock, hself]
    · simp [applyKnown, hrank, Effect.of, Effect.count, quiet, pushRecent, setClock, clock, hself]
  | prefillStarted promptTokens =>
    by_cases hrank : rank = 0 <;> simp [applyKnown, hrank, Effect.of, Effect.count, quiet, setView,
      setClock, clock]
  | prefillFinished =>
    by_cases hrank : rank = 0 <;> simp [applyKnown, hrank, Effect.of, Effect.count, quiet, setView,
      setClock, clock]
  | decodeStepFinished step =>
    by_cases hrank : rank = 0 <;> simp [applyKnown, hrank, Effect.of, Effect.count, quiet, setView,
      finishDecode, Effect.onDecodeFinished, setClock, clock]
  | artifactResolutionStarted =>
    simp [applyKnown, Effect.of, Effect.count, quiet, setClock, clock, hself]
  | artifactResolutionFinished =>
    simp [applyKnown, Effect.of, Effect.count, quiet, setClock, clock, hself]
  | _ =>
    simp [applyKnown, Effect.of, Effect.count, quiet, setView, addBytes, pushRecent, setClock, clock]

/-- Up to the activity lines, an event does what its effect says. -/
theorem quiet_apply (self : DashboardState) (published : PipelineEvent) :
    (self.apply published).quiet =
      ((Effect.of published.event.elapsedNs published.event.event).on published.event.rank
        self).quiet := by
  cases hview : self.ranks[published.event.rank]? with
  | none => simp [apply, Effect.on, hview]
  | some view =>
    rw [apply]
    simp only [hview]
    exact quiet_applyKnown self hview _ _

theorem quiet_on (effect : Effect) (rank : Nat) (self : DashboardState) :
    (effect.on rank self).quiet = effect.on rank self.quiet := by
  cases hview : self.ranks[rank]? <;> simp [Effect.on, quiet, hview, setClock, clock]

end DashboardState

theorem saturatingAdd_comm (total a b : Nat) :
    saturatingAdd (saturatingAdd total a) b = saturatingAdd (saturatingAdd total b) a := by
  unfold saturatingAdd
  omega

theorem Effect.count_comm (effect effect' : Effect) (total : Nat) :
    effect'.count (effect.count total) = effect.count (effect'.count total) := by
  unfold Effect.count
  cases effect.bytes <;> cases effect'.bytes
  · rfl
  · rfl
  · rfl
  · exact saturatingAdd_comm _ _ _

/-- Effects for different ranks do not depend on their order. -/
theorem Effect.on_comm (effect effect' : Effect) {rank rank' : Nat} (hne : rank ≠ rank')
    (state : DashboardState) :
    effect'.on rank' (effect.on rank state) = effect.on rank (effect'.on rank' state) := by
  cases hview : state.ranks[rank]? with
  | none =>
    cases hview' : state.ranks[rank']? with
    | none => simp [Effect.on, hview, hview']
    | some view' =>
      have hother : (state.ranks.set rank' (effect'.row view'))[rank]? = none := by
        rw [List.getElem?_set_ne hne.symm, hview]
      simp [Effect.on, hview, hview', hother]
  | some view =>
    have hother : ∀ row, (state.ranks.set rank row)[rank']? = state.ranks[rank']? :=
      fun row => List.getElem?_set_ne hne
    have hother' : ∀ row, (state.ranks.set rank' row)[rank]? = some view := fun row => by
      rw [List.getElem?_set_ne hne.symm, hview]
    cases hview' : state.ranks[rank']? with
    | none => simp [Effect.on, hview, hview', hother]
    | some view' =>
      have hclock : ¬ (rank = 0 ∧ rank' = 0) := fun h => hne (h.1.trans h.2.symm)
      simp only [Effect.on, hview, hview', hother, hother', Effect.count_comm effect effect',
        List.set_comm _ _ hne, DashboardState.setClock, DashboardState.clock]
      by_cases hrank : rank = 0
      · have hrank' : rank' ≠ 0 := fun h => hclock ⟨hrank, h⟩
        simp [hrank, hrank', Nat.add_right_comm]
      · simp [hrank, Nat.add_right_comm]

/-- An event with the rank it comes from. -/
def byRank (published : PipelineEvent) : Nat × PipelineEvent := (published.event.rank, published)

namespace DashboardState

/-- What an entry of a merged stream does to a state without activity lines. -/
def absorb (state : DashboardState) (entry : Nat × PipelineEvent) : DashboardState :=
  (Effect.of entry.2.event.elapsedNs entry.2.event.event).on entry.1 state

theorem quiet_applyAll (self : DashboardState) (arrived : List PipelineEvent) :
    (self.applyAll arrived).quiet = (arrived.map byRank).foldl absorb self.quiet := by
  induction arrived generalizing self with
  | nil => rfl
  | cons published arrived ih =>
    have hstep : (self.apply published).quiet = self.quiet.absorb (byRank published) := by
      rw [quiet_apply, quiet_on]
      rfl
    rw [applyAll, List.foldl_cons, List.map_cons, List.foldl_cons, ← hstep]
    exact ih (self.apply published)

theorem length_recent_pushRecent {self : DashboardState} (h : self.recent.length ≤ 5)
    (line : String) : (self.pushRecent line).recent.length ≤ 5 := by
  simp only [pushRecent]
  split_ifs <;> simp_all

theorem length_recent_apply {self : DashboardState} (h : self.recent.length ≤ 5)
    (published : PipelineEvent) : (self.apply published).recent.length ≤ 5 := by
  cases hview : self.ranks[published.event.rank]? with
  | none =>
    simp only [apply, hview]
    exact length_recent_pushRecent h _
  | some view =>
    simp only [apply, hview]
    cases published.event.event with
    | tensorCollectiveStarted collective algorithm sequence shape =>
      exact length_recent_pushRecent (by exact h) _
    | tensorCollectiveCompleted collective sequence sentBytes receivedBytes durationNs =>
      exact length_recent_pushRecent (by exact h) _
    | tokenGenerated tokenId text =>
      apply length_recent_pushRecent
      dsimp only
      split_ifs <;> exact h
    | generationFinished stopReason => exact length_recent_pushRecent (by exact h) _
    | prefillStarted promptTokens =>
      simp only [applyKnown]
      split_ifs <;> exact h
    | prefillFinished =>
      simp only [applyKnown]
      split_ifs <;> exact h
    | decodeStepFinished step =>
      simp only [applyKnown]
      split_ifs <;> exact h
    | _ => exact h

theorem length_recent_applyAll {self : DashboardState} (h : self.recent.length ≤ 5)
    (arrived : List PipelineEvent) : (self.applyAll arrived).recent.length ≤ 5 := by
  induction arrived generalizing self with
  | nil => exact h
  | cons published arrived ih => exact ih (length_recent_apply h published)

/-- A dashboard as the launchers start it. -/
def Started (self : DashboardState) : Prop :=
  (∃ model assignments memory, self = new model assignments memory) ∨
    ∃ model memory allReduce, self = newTensor model memory allReduce

theorem Started.recent_eq {self : DashboardState} (h : self.Started) : self.recent = [] := by
  rcases h with ⟨model, assignments, memory, rfl⟩ | ⟨model, memory, allReduce, rfl⟩ <;> rfl

/-- The dashboard does not depend on how the ranks' streams are merged, activity lines apart, and
of these it never has more than five. -/
theorem applyAll_confluent (initial : DashboardState) (streams : Nat → List PipelineEvent)
    (arrived arrived' : List PipelineEvent) (h : Interleaves streams (arrived.map byRank))
    (h' : Interleaves streams (arrived'.map byRank)) :
    (initial.applyAll arrived).quiet = (initial.applyAll arrived').quiet ∧
      (initial.Started → (initial.applyAll arrived).recent.length ≤ 5) := by
  refine ⟨?_, fun hstarted => length_recent_applyAll (by simp [hstarted.recent_eq]) arrived⟩
  rw [quiet_applyAll, quiet_applyAll]
  apply foldl_eq_of_fromStream
  · intro state entry entry' hne
    exact Effect.on_comm _ _ hne state
  · intro rank
    rw [h rank, h' rank]

/-- An event of a rank at a time. -/
def eventAt (rank elapsedNs : Nat) (event : RunEventKind) : PipelineEvent :=
  ⟨1, "run", "request", ⟨0, rank, elapsedNs, event⟩⟩

/-- A dashboard of two waiting ranks. -/
def pair : DashboardState :=
  { newTensor "model" [] "ring" with
    ranks := [⟨0, "0..1", "startup", none, "WAITING", 0, 0, 0, none, none, none⟩,
      ⟨1, "1..2", "startup", none, "WAITING", 0, 0, 0, none, none, none⟩] }

theorem applyAll_confluent_pair :
    (pair.applyAll [eventAt 0 3 (.prefillStarted 2),
      eventAt 1 4 (.tensorSent 0 .activation .prefill 0 [2] 8 1), eventAt 0 7 .prefillFinished]).quiet =
    (pair.applyAll [eventAt 0 3 (.prefillStarted 2), eventAt 0 7 .prefillFinished,
      eventAt 1 4 (.tensorSent 0 .activation .prefill 0 [2] 8 1)]).quiet := by
  refine (applyAll_confluent pair (fun rank => fromStream rank
    ([eventAt 0 3 (.prefillStarted 2), eventAt 1 4 (.tensorSent 0 .activation .prefill 0 [2] 8 1),
      eventAt 0 7 .prefillFinished].map byRank)) _ _ (fun _ => rfl) ?_).1
  intro rank
  rcases rank with _ | _ | rank <;> rfl

end DashboardState

end Dlir.Tui
