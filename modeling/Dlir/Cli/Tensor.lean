import Dlir.Cli.Pipeline
import Dlir.Tensor.Report

namespace Dlir.Cli.Tensor

open Dlir.Framework Dlir.Pipeline Dlir.Runtime Dlir.Tensor

variable {n : Nat}

structure Collected (n : Nat) where
  ranks : Fin n → Option TensorParallelRankReport
  events : List ReceivedPipelineEvent
  exitCodes : Fin n → Option Int
  failures : List String

/-- The variables of the loop in `collect_rank_streams`. The lines that it prints and the copies of
the events that it passes to the dashboard are left out. -/
structure Collecting (n : Nat) extends Collected n where
  expectedSequence : Fin n → UInt64
  ended : Nat
  exited : Nat

/-- `saturating_add` of two `u64`. -/
def saturatingAdd (a b : UInt64) : UInt64 := .ofNat (min (a.toNat + b.toNat) (UInt64.size - 1))

namespace Collecting

def start : Collecting n where
  ranks _ := none
  events := []
  exitCodes _ := none
  failures := []
  expectedSequence _ := 0
  ended := 0
  exited := 0

def push (s : Collecting n) (failure : String) : Collecting n :=
  { s with failures := s.failures ++ [failure] }

def mismatch (rank : Fin n) (expected actual : UInt64) : String :=
  s!"rank {rank} event sequence mismatch: expected {expected}, got {actual}"

def onEvent (s : Collecting n) (rank : Fin n) (event : PipelineEvent) : Collecting n :=
  let s :=
    if event.event.rank ≠ rank.val ∨ event.event.sequence ≠ s.expectedSequence rank then
      s.push (mismatch rank (s.expectedSequence rank) event.event.sequence)
    else s
  { s with
    expectedSequence := Function.update s.expectedSequence rank
      (saturatingAdd event.event.sequence 1)
    events := s.events ++ [⟨s.events.length, event⟩] }

def onEnded (s : Collecting n) (rank : Fin n) : Collecting n :=
  let s := { s with ended := s.ended + 1 }
  if (s.ranks rank).isNone then s.push s!"rank {rank} stream ended without a result" else s

def onExit (s : Collecting n) (rank : Fin n) (code : Int) : Collecting n :=
  let s := { s with
    exited := s.exited + 1
    exitCodes := Function.update s.exitCodes rank (some code) }
  if code ≠ 0 then s.push s!"rank {rank} exited with status {code}" else s

def receive (s : Collecting n) : HostMessage n TensorParallelRankReport → Collecting n
  | .record rank (.event event) => s.onEvent rank event
  | .record rank (.result result) => { s with ranks := Function.update s.ranks rank (some result) }
  | .log _ _ => s
  | .streamEnded rank => s.onEnded rank
  | .exit rank code => s.onExit rank code

end Collecting

/-- The loop: its last state, and the messages that it left. It waits for each message without a
timeout, and ends at the latest when all senders are gone. -/
def collectLoop : Collecting n → List ((Fin n × Source) × HostMessage n TensorParallelRankReport) →
    Collecting n × List ((Fin n × Source) × HostMessage n TensorParallelRankReport)
  | s, [] => (s, [])
  | s, (_, message) :: sent =>
    let s := s.receive message
    if s.ended = n ∧ s.exited = n then (s, sent) else collectLoop s sent

def collectRankStreams (polls : List (Poll n TensorParallelRankReport)) :
    Collected n × List ((Fin n × Source) × HostMessage n TensorParallelRankReport) :=
  let (s, rest) := collectLoop .start (received polls)
  (s.toCollected, rest)

/-- The parts of the launcher's report that are made from what it collected. -/
structure TensorParallelReport where
  generatedTokens : List Nat
  completion : String
  stopReason : StopReason
  ranks : List TensorParallelRankReport
  events : List ReceivedPipelineEvent
  communicationBytes : Nat
  failures : List String
  success : Bool

/-- `run_tensor` after it has joined the collector. The sum of the bytes is taken not to leave 64
bits; no verdict depends on it. -/
def report (collected : Collected n) : TensorParallelReport :=
  let ranks := ((List.finRange n).filterMap collected.ranks).mergeSort fun a b => a.rank ≤ b.rank
  let rankZero := ranks.find? fun rank => rank.rank == 0
  { generatedTokens := rankZero.elim [] (·.generatedTokens)
    completion := rankZero.elim "" (·.completion)
    stopReason := rankZero.elim .maxNewTokens (·.stopReason)
    ranks
    events := collected.events
    communicationBytes := (ranks.map (·.sentBytes)).sum
    failures := collected.failures
    success := collected.failures.isEmpty && ranks.length == n && ranks.all (·.success) &&
      (List.finRange n).all fun rank => collected.exitCodes rank == some 0 }

namespace Collecting

variable {s : Collecting n} {message : HostMessage n TensorParallelRankReport} {rank : Fin n}

/-- The handlers, field by field. -/
theorem onEvent_eq (rank : Fin n) (event : PipelineEvent) : s.onEvent rank event = { s with
    events := s.events ++ [⟨s.events.length, event⟩]
    expectedSequence := Function.update s.expectedSequence rank
      (saturatingAdd event.event.sequence 1)
    failures := if event.event.rank = rank.val ∧ event.event.sequence = s.expectedSequence rank then
      s.failures else s.failures ++
        [mismatch rank (s.expectedSequence rank) event.event.sequence] } := by
  unfold onEvent
  by_cases h : event.event.rank = rank.val ∧ event.event.sequence = s.expectedSequence rank
  · simp [h]
  · rw [if_pos (by tauto)]
    simp [h, push]

theorem onEnded_eq (rank : Fin n) : s.onEnded rank = { s with
    ended := s.ended + 1
    failures := if (s.ranks rank).isNone then
      s.failures ++ [s!"rank {rank} stream ended without a result"] else s.failures } := by
  unfold onEnded
  by_cases h : (s.ranks rank).isNone
  · simp [h, push]
  · simp [h]

theorem onExit_eq (rank : Fin n) (code : Int) : s.onExit rank code = { s with
    exited := s.exited + 1
    exitCodes := Function.update s.exitCodes rank (some code)
    failures := if code ≠ 0 then s.failures ++ [s!"rank {rank} exited with status {code}"] else
      s.failures } := by
  unfold onExit
  by_cases h : code = 0
  · simp [h]
  · simp [h, push]

theorem receive_ended :
    (s.receive message).ended = s.ended + (message.ended?.isSome).toNat := by
  cases message with
  | record stream line =>
    cases line with
    | event event => simp [receive, onEvent_eq, HostMessage.ended?]
    | result result => simp [receive, HostMessage.ended?]
  | log stream line => simp [receive, HostMessage.ended?]
  | streamEnded stream => simp [receive, onEnded_eq, HostMessage.ended?]
  | exit stream code => simp [receive, onExit_eq, HostMessage.ended?]

theorem receive_exited :
    (s.receive message).exited = s.exited + (message.exited?.isSome).toNat := by
  cases message with
  | record stream line =>
    cases line with
    | event event => simp [receive, onEvent_eq, HostMessage.exited?]
    | result result => simp [receive, HostMessage.exited?]
  | log stream line => simp [receive, HostMessage.exited?]
  | streamEnded stream => simp [receive, onEnded_eq, HostMessage.exited?]
  | exit stream code => simp [receive, onExit_eq, HostMessage.exited?]

theorem receive_exitCodes :
    (s.receive message).exitCodes rank = (message.code? rank).or (s.exitCodes rank) := by
  cases message with
  | record stream line =>
    cases line with
    | event event => simp [receive, onEvent_eq, HostMessage.code?]
    | result result => simp [receive, HostMessage.code?]
  | log stream line => simp [receive, HostMessage.code?]
  | streamEnded stream => simp [receive, onEnded_eq, HostMessage.code?]
  | exit stream code =>
    by_cases h : rank = stream
    · simp [receive, onExit_eq, HostMessage.code?, h]
    · simp [receive, onExit_eq, HostMessage.code?, h, Ne.symm h]

theorem receive_ranks :
    (s.receive message).ranks rank = (message.result? rank).or (s.ranks rank) := by
  cases message with
  | record stream line =>
    cases line with
    | event event =>
      by_cases h : stream = rank
      · simp [receive, onEvent_eq, HostMessage.result?, HostMessage.record?, StreamRecord.result?, h]
      · simp [receive, onEvent_eq, HostMessage.result?, HostMessage.record?, h]
    | result result =>
      by_cases h : stream = rank
      · simp [receive, HostMessage.result?, HostMessage.record?, StreamRecord.result?, h]
      · simp [receive, HostMessage.result?, HostMessage.record?, h, Ne.symm h]
  | log stream line => simp [receive, HostMessage.result?, HostMessage.record?]
  | streamEnded stream => simp [receive, onEnded_eq, HostMessage.result?, HostMessage.record?]
  | exit stream code => simp [receive, onExit_eq, HostMessage.result?, HostMessage.record?]

/-- What a message must be like to add no failure. -/
def Fits (expected : Fin n → UInt64) (reported : Fin n → Prop)
    (message : HostMessage n TensorParallelRankReport) : Prop :=
  (∀ rank event, message = .record rank (.event event) →
    event.event.rank = rank.val ∧ event.event.sequence = expected rank) ∧
  (∀ rank, message = .streamEnded rank → reported rank) ∧
  ∀ rank code, message = .exit rank code → code = 0

theorem receive_failures : (s.receive message).failures = [] ↔
    s.failures = [] ∧ Fits s.expectedSequence (fun rank => (s.ranks rank).isSome) message := by
  cases message with
  | record stream line =>
    cases line with
    | event event =>
      simp only [receive, onEvent_eq]
      split_ifs with h
      · simp [Fits, h]
      · simp [Fits, h]
    | result result => simp [receive, Fits]
  | log stream line => simp [receive, Fits]
  | streamEnded stream =>
    simp only [receive, onEnded_eq]
    split_ifs with h
    · simp [Fits, Option.isNone_iff_eq_none.mp h]
    · simp [Fits, Option.isSome_iff_ne_none, Option.isNone_iff_eq_none.not.mp h]
  | exit stream code =>
    simp only [receive, onExit_eq]
    split_ifs with h
    · simp [Fits, h]
    · simp [Fits, not_not.mp h]

theorem receive_expectedSequence : (s.receive message).expectedSequence rank =
    match message.event? rank with
    | some event => saturatingAdd event.event.sequence 1
    | none => s.expectedSequence rank := by
  cases message with
  | record stream line =>
    cases line with
    | event event =>
      by_cases h : stream = rank
      · simp [receive, onEvent_eq, HostMessage.event?, HostMessage.record?, StreamRecord.event?, h]
      · simp [receive, onEvent_eq, HostMessage.event?, HostMessage.record?, h, Ne.symm h]
    | result result =>
      by_cases h : stream = rank
      · simp [receive, HostMessage.event?, HostMessage.record?, StreamRecord.event?, h]
      · simp [receive, HostMessage.event?, HostMessage.record?, h]
  | log stream line => simp [receive, HostMessage.event?, HostMessage.record?]
  | streamEnded stream => simp [receive, onEnded_eq, HostMessage.event?, HostMessage.record?]
  | exit stream code => simp [receive, onExit_eq, HostMessage.event?, HostMessage.record?]

/-- The number that `expected_sequence` holds after `i` events in order. -/
def number (i : Nat) : UInt64 := .ofNat (min i (UInt64.size - 1))

theorem saturatingAdd_number (i : Nat) : saturatingAdd (number i) 1 = number (i + 1) := by
  have hlt : min i (UInt64.size - 1) < UInt64.size := by
    have : 0 < UInt64.size := by decide
    omega
  unfold saturatingAdd number
  rw [UInt64.toNat_ofNat_of_lt' hlt]
  congr 1
  simp only [UInt64.toNat_one]
  omega

/-- The state after some messages. -/
def after (taken : List (HostMessage n TensorParallelRankReport)) : Collecting n :=
  taken.foldl receive .start

variable {taken : List (HostMessage n TensorParallelRankReport)}

theorem after_ended : (after taken).ended = (taken.filterMap HostMessage.ended?).length := by
  rw [after, foldl_count (fun s : Collecting n => s.ended) (fun message => message.ended?.isSome)
    fun s message => receive_ended, List.length_filterMap_eq_countP]
  exact Nat.zero_add _

theorem after_exited : (after taken).exited = (taken.filterMap HostMessage.exited?).length := by
  rw [after, foldl_count (fun s : Collecting n => s.exited) (fun message => message.exited?.isSome)
    fun s message => receive_exited, List.length_filterMap_eq_countP]
  exact Nat.zero_add _

theorem after_exitCodes :
    (after taken).exitCodes rank = (taken.filterMap (HostMessage.code? rank)).getLast? := by
  rw [after, foldl_last (fun s : Collecting n => s.exitCodes rank) (HostMessage.code? rank)
    fun s message => receive_exitCodes]
  exact Option.or_none

theorem after_ranks :
    (after taken).ranks rank = (taken.filterMap (HostMessage.result? rank)).getLast? := by
  rw [after, foldl_last (fun s : Collecting n => s.ranks rank) (HostMessage.result? rank)
    fun s message => receive_ranks]
  exact Option.or_none

/-- As long as nothing has failed, the counter of a stream is the number of its events. -/
theorem after_expectedSequence (hclean : (after taken).failures = []) :
    (after taken).expectedSequence rank =
      number (taken.filterMap (HostMessage.event? rank)).length := by
  induction taken using List.reverseRecOn with
  | nil => rfl
  | append_singleton taken message ih =>
    rw [after, List.foldl_append, List.foldl_cons, List.foldl_nil] at hclean ⊢
    obtain ⟨hbefore, hfits⟩ := receive_failures.mp hclean
    rw [receive_expectedSequence, List.filterMap_append, List.length_append]
    cases hevent : message.event? rank with
    | none =>
      rw [show [message].filterMap (HostMessage.event? rank) = [] by simp [hevent]]
      exact ih hbefore
    | some event =>
      have hnumber := (hfits.1 rank event (HostMessage.event?_eq_some.mp hevent)).2
      rw [show [message].filterMap (HostMessage.event? rank) = [event] by simp [hevent]]
      show saturatingAdd event.event.sequence 1 = _
      rw [hnumber, show (taken.foldl receive start).expectedSequence rank = _ from ih hbefore,
        saturatingAdd_number]
      rfl

/-- Nothing fails if and only if every message fits the ones before. -/
theorem after_failures : (after taken).failures = [] ↔
    (∀ rank, Numbered number rank.val (taken.filterMap (HostMessage.event? rank))) ∧
    (∀ past rank, past ++ [.streamEnded rank] <+: taken →
      past.filterMap (HostMessage.result? rank) ≠ []) ∧
    ∀ rank code, HostMessage.exit rank code ∈ taken → code = 0 := by
  rw [after, foldl_clean_iff (fun s : Collecting n => s.failures = [])
    (fun past message => Fits
      (fun rank => number (past.filterMap (HostMessage.event? rank)).length)
      (fun rank => past.filterMap (HostMessage.result? rank) ≠ []) message)]
  · constructor
    · intro h
      refine ⟨fun rank => ?_, fun past rank hpast => ?_, fun rank code hexit => ?_⟩
      · apply (forall_event_iff some number rank taken).mp
        intro past message hpast message' hread
        obtain rfl := Option.some.inj hread
        exact (h past message hpast).1 rank
      · exact (h past _ hpast).2.1 rank rfl
      · exact (forall_past_iff _ taken).mp (fun past message hpast => (h past message hpast).2.2)
          _ hexit rank code rfl
    · intro h past message hpast
      refine ⟨fun rank => ?_, fun rank heq => ?_, fun rank code heq => ?_⟩
      · exact (forall_event_iff some number rank taken).mpr (h.1 rank) past message hpast message rfl
      · exact h.2.1 past rank (heq ▸ hpast)
      · exact h.2.2 rank code (heq ▸ hpast.subset (by simp))
  · rfl
  · intro past message hpast
    rw [receive_failures]
    apply and_congr_right
    intro hclean
    have hexpected : (past.foldl receive start).expectedSequence = fun rank =>
        number (past.filterMap (HostMessage.event? rank)).length :=
      funext fun rank => after_expectedSequence hclean
    have hreported : (fun rank => ((past.foldl receive start).ranks rank).isSome = true) =
        fun rank => past.filterMap (HostMessage.result? rank) ≠ [] := by
      funext rank
      rw [show (past.foldl receive start).ranks rank = _ from after_ranks]
      simp [Option.isSome_iff_ne_none]
    rw [hexpected, hreported]

/-- The loop takes the shortest part of the messages after which it breaks. -/
theorem collectLoop_eq {s : Collecting n}
    {sent : List ((Fin n × Source) × HostMessage n TensorParallelRankReport)} (hsent : sent ≠ [])
    (hstops : ((sent.map Prod.snd).foldl receive s).ended = n ∧
      ((sent.map Prod.snd).foldl receive s).exited = n) :
    ∃ taken rest, sent = taken ++ rest ∧
      collectLoop s sent = ((taken.map Prod.snd).foldl receive s, rest) ∧
      ((taken.map Prod.snd).foldl receive s).ended = n ∧
      ((taken.map Prod.snd).foldl receive s).exited = n := by
  induction sent generalizing s with
  | nil => exact absurd rfl hsent
  | cons entry sent ih =>
    obtain ⟨thread, message⟩ := entry
    by_cases hdone : (s.receive message).ended = n ∧ (s.receive message).exited = n
    · refine ⟨[(thread, message)], sent, rfl, ?_, hdone⟩
      rw [collectLoop, if_pos hdone]
      rfl
    · by_cases hnil : sent = []
      · subst hnil
        exact absurd hstops hdone
      · obtain ⟨taken, rest, hsplit, hloop, hend⟩ := ih hnil hstops
        refine ⟨(thread, message) :: taken, rest, by rw [hsplit]; rfl, ?_, hend⟩
        rw [collectLoop, if_neg hdone, hloop]
        rfl

end Collecting

/-- What the launcher requires of the container of a rank. -/
structure CleanRank (fromStr : String → Except String (StreamRecord TensorParallelRankReport))
    (rank : Nat) (container : Container) : Prop where
  events : Numbered Collecting.number rank (container.events fromStr)
  last : ∃ result, (container.results fromStr).getLast? = some result ∧ result.success = true
  exit : container.exitCode = 0

theorem report_success (collected : Collected n) : (report collected).success = true ↔
    collected.failures = [] ∧
      (∀ rank, ∃ result, collected.ranks rank = some result ∧ result.success = true) ∧
      ∀ rank, collected.exitCodes rank = some 0 := by
  have hperm := List.mergeSort_perm ((List.finRange n).filterMap collected.ranks)
    fun a b : TensorParallelRankReport => decide (a.rank ≤ b.rank)
  rw [← all_reported_iff collected.ranks (·.success), ← hperm.length_eq, ← hperm.all_eq]
  simp only [report, Bool.and_eq_true, List.isEmpty_iff, beq_iff_eq, List.all_eq_true (p := fun rank
    => collected.exitCodes rank == some 0), List.mem_finRange, true_implies, and_assoc]

section

variable {fromStr : String → Except String (StreamRecord TensorParallelRankReport)}
  {containers : Fin n → Container} {polls : List (Poll n TensorParallelRankReport)}

/-- The loop ends when every rank has ended and exited. -/
theorem collectLoop_start (h : Delivers fromStr containers polls) :
    ∃ taken rest, Delivers fromStr containers (taken ++ rest) ∧ AllDone taken ∧
      (collectLoop .start (received polls)).1 = Collecting.after (messages taken) := by
  by_cases hnil : received polls = []
  · have hempty : AllDone ([] : List (Poll n TensorParallelRankReport)) := by
      intro rank
      have hended := (h.allDone rank).1
      rw [messages, hnil] at hended
      cases hended
    refine ⟨[], polls, h, hempty, ?_⟩
    rw [hnil]
    rfl
  · have hwhole : Delivers fromStr containers (((received polls).map some) ++ []) := by
      rw [List.append_nil, Delivers, received_map_some]
      exact h
    have hcounts := hwhole.allDone_iff.mp (by simpa using hwhole.allDone)
    rw [messages, received_map_some, ← Collecting.after_ended, ← Collecting.after_exited] at hcounts
    obtain ⟨taken, rest, hsplit, hloop, hend⟩ := Collecting.collectLoop_eq hnil hcounts
    have hdelivers : Delivers fromStr containers (taken.map some ++ rest.map some) := by
      rw [Delivers, received_append, received_map_some, received_map_some, ← hsplit]
      exact h
    have hmessages : messages (taken.map some) = taken.map Prod.snd := by
      rw [messages, received_map_some]
    refine ⟨taken.map some, rest.map some, hdelivers, ?_, ?_⟩
    · rw [hdelivers.allDone_iff, hmessages, ← Collecting.after_ended, ← Collecting.after_exited]
      exact hend
    · rw [hloop, hmessages]
      rfl

/-- The verdict of the launcher, over what the containers wrote. -/
theorem success_iff (h : Delivers fromStr containers polls) :
    (report (collectRankStreams polls).1).success = true ↔
      ∀ rank, CleanRank fromStr rank.val (containers rank) := by
  obtain ⟨taken, rest, hdelivers, hdone, hloop⟩ := collectLoop_start h
  have hranks : ∀ rank, (Collecting.after (messages taken)).ranks rank =
      ((containers rank).results fromStr).getLast? := by
    intro rank
    rw [Collecting.after_ranks, hdelivers.filterMap_result? (hdone rank).1]
  have hcodes : ∀ rank, (Collecting.after (messages taken)).exitCodes rank =
      some (containers rank).exitCode := by
    intro rank
    obtain ⟨code, hcode⟩ := (hdone rank).2
    rw [Collecting.after_exitCodes, hdelivers.filterMap_code? hcode]
    rfl
  have hcollected : (collectRankStreams polls).1 =
      (Collecting.after (messages taken)).toCollected := congrArg Collecting.toCollected hloop
  rw [report_success, hcollected, Collecting.after_failures]
  simp only [hranks, hcodes, Option.some.injEq, fun rank => hdelivers.filterMap_event? (hdone rank).1]
  constructor
  · intro hsuccess rank
    exact ⟨hsuccess.1.1 rank, hsuccess.2.1 rank, hsuccess.2.2 rank⟩
  · intro hclean
    refine ⟨⟨fun rank => (hclean rank).events, fun past rank hpast => ?_, fun rank code hexit => ?_⟩,
      fun rank => (hclean rank).last, fun rank => (hclean rank).exit⟩
    · rw [hdelivers.filterMap_result?_past hpast]
      obtain ⟨result, hresult, -⟩ := (hclean rank).last
      intro hnil
      rw [hnil] at hresult
      cases hresult
    · rw [hdelivers.code_eq hexit, (hclean rank).exit]

end

end Dlir.Cli.Tensor
