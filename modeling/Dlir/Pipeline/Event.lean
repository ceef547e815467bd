import Dlir.Pipeline.Report
import Mathlib.Data.List.Basic

namespace Dlir.Pipeline

open Dlir.Runtime

/-- What a rank has emitted: the events that it keeps, and those that its sink has got. -/
structure EventRecorder where
  rank : Nat
  sequence : UInt64
  runId : String
  requestId : String
  published : List PipelineEvent
  events : List PipelineEvent

namespace EventRecorder

def new (rank : Nat) (runId requestId : String) : EventRecorder := ⟨rank, 0, runId, requestId, [], []⟩

def emit (self : EventRecorder) (elapsedNs : Nat) (kind : RunEventKind) : EventRecorder :=
  let event : PipelineEvent :=
    ⟨1, self.runId, self.requestId, ⟨self.sequence, self.rank, elapsedNs, kind⟩⟩
  { self with
    sequence := self.sequence + 1
    published := self.published ++ [event]
    events := self.events ++ [event] }

/-- Emits some events, each with the time at which it happens. -/
def emitAll (self : EventRecorder) (kinds : List (Nat × RunEventKind)) : EventRecorder :=
  kinds.foldl (fun recorder entry => recorder.emit entry.1 entry.2) self

end EventRecorder

/-- The clock readings of a rank: when it emits its events, and how long took what they report. -/
structure Measured where
  elapsedNs : Nat → Nat
  durationNs : Nat → Nat

/-- What a rank emits, with the times. -/
def Measured.stamp (self : Measured) (kinds : List RunEventKind) : List (Nat × RunEventKind) :=
  kinds.zipIdx.map fun entry =>
    (self.elapsedNs entry.2, entry.1.lasting (self.durationNs entry.2))

/-- What does not depend on durations does not depend on the clock. -/
theorem Measured.map_stamp {β : Type} (self : Measured) {f : RunEventKind → β}
    (hf : ∀ durationNs kind, f (kind.lasting durationNs) = f kind) (kinds : List RunEventKind) :
    (self.stamp kinds).map (fun entry => f entry.2) = kinds.map f := by
  have hfst := congrArg (List.map f) (List.zipIdx_map_fst 0 kinds)
  rw [List.map_map] at hfst
  simpa only [stamp, List.map_map, Function.comp_def, hf] using hfst

/-- Events that carry a rank and, one after the other, the numbers from zero on. -/
def Counted (rank : Nat) (events : List PipelineEvent) : Prop :=
  ∀ (i : Nat) (event : PipelineEvent), events[i]? = some event →
    event.event.rank = rank ∧ event.event.sequence = .ofNat i

theorem Counted.append {rank : Nat} {events : List PipelineEvent} {event : PipelineEvent}
    (h : Counted rank events) (hrank : event.event.rank = rank)
    (hsequence : event.event.sequence = .ofNat events.length) : Counted rank (events ++ [event]) := by
  intro i found hfound
  rcases Nat.lt_trichotomy i events.length with hlt | heq | hgt
  · rw [List.getElem?_append_left hlt] at hfound
    exact h i found hfound
  · rw [heq, List.getElem?_concat_length] at hfound
    obtain rfl := Option.some.inj hfound
    rw [heq]
    exact ⟨hrank, hsequence⟩
  · have hlength : (events ++ [event]).length ≤ i := by
      rw [List.length_append, List.length_singleton]
      omega
    rw [List.getElem?_eq_none hlength] at hfound
    cases hfound

namespace EventRecorder

/-- The books of a recorder. -/
structure Consistent (recorder : EventRecorder) : Prop where
  published : recorder.published = recorder.events
  sequence : recorder.sequence = .ofNat recorder.events.length
  counted : Counted recorder.rank recorder.events

theorem consistent_new (rank : Nat) (runId requestId : String) :
    (new rank runId requestId).Consistent :=
  ⟨rfl, rfl, fun _ _ h => by cases h⟩

theorem Consistent.emit {self : EventRecorder} (h : self.Consistent) (elapsedNs : Nat)
    (kind : RunEventKind) : (self.emit elapsedNs kind).Consistent where
  published := by
    show self.published ++ _ = self.events ++ _
    rw [h.published]
  sequence := by
    show self.sequence + 1 = .ofNat (self.events ++ _).length
    rw [List.length_append, UInt64.ofNat_add, h.sequence]
    rfl
  counted := h.counted.append rfl h.sequence

theorem Consistent.emitAll {self : EventRecorder} (h : self.Consistent)
    (kinds : List (Nat × RunEventKind)) :
    (self.emitAll kinds).Consistent ∧ (self.emitAll kinds).rank = self.rank ∧
      (self.emitAll kinds).events.length = self.events.length + kinds.length := by
  induction kinds generalizing self with
  | nil => exact ⟨h, rfl, rfl⟩
  | cons entry kinds ih =>
    obtain ⟨hconsistent, hrank, hlength⟩ := ih (h.emit entry.1 entry.2)
    refine ⟨hconsistent, hrank, hlength.trans ?_⟩
    show (self.events ++ _).length + kinds.length = _
    rw [List.length_append, List.length_singleton, List.length_cons]
    omega

/-- The kinds of the events are the ones that were emitted. -/
theorem kinds_emitAll (self : EventRecorder) (kinds : List (Nat × RunEventKind)) :
    (self.emitAll kinds).events.map (·.event.event) =
      self.events.map (·.event.event) ++ kinds.map Prod.snd := by
  induction kinds generalizing self with
  | nil => exact (List.append_nil _).symm
  | cons entry kinds ih =>
    show ((self.emit entry.1 entry.2).emitAll kinds).events.map _ = _
    rw [ih, List.map_cons]
    show (self.events ++ [_]).map _ ++ _ = _
    rw [List.map_append, List.append_assoc]
    rfl

end EventRecorder

/-- The sample that a rank process appends to the events of its report. -/
def finalMemorySample (runId requestId : String) (rank totalNs : Nat) (resources : ResourceSnapshot)
    (events : List PipelineEvent) : PipelineEvent where
  schemaVersion := 1
  runId := runId
  requestId := requestId
  event := {
    sequence := .ofNat events.length
    rank := rank
    elapsedNs := totalNs
    event := .memorySample resources.memoryCurrentBytes resources.memoryLimitBytes }

end Dlir.Pipeline
