import Dlir.Cli.Streams

namespace Dlir.Cli.Pipeline

open Dlir.Framework Dlir.Pipeline Dlir.Runtime

variable {n : Nat}

structure Collected (n : Nat) where
  ranks : Fin n → Option PipelineRankReport
  events : List ReceivedPipelineEvent
  exitCodes : Fin n → Option Int
  failures : List String

/-- The variables of the loop in `collect_rank_streams`. The lines that it prints and the copies of
the events that it passes to the dashboard are left out. -/
structure Collecting (n : Nat) extends Collected n where
  sequences : Fin n → UInt64
  ended : Fin n → Bool
  exited : Fin n → Bool
  stopped : Bool

namespace Collecting

def start : Collecting n where
  ranks _ := none
  events := []
  exitCodes _ := none
  failures := []
  sequences _ := 0
  ended _ := false
  exited _ := false
  stopped := false

def push (s : Collecting n) (failure : String) : Collecting n :=
  { s with failures := s.failures ++ [failure] }

def onEvent (s : Collecting n) (rank : Fin n) (event : PipelineEvent) : Collecting n :=
  let s :=
    if event.event.rank ≠ rank.val ∨ event.event.sequence ≠ s.sequences rank then
      s.push s!"rank {rank} event sequence {event.event.sequence}, expected {s.sequences rank}"
    else
      { s with sequences := Function.update s.sequences rank (s.sequences rank + 1) }
  { s with events := s.events ++ [⟨s.events.length, event⟩] }

def onResult (s : Collecting n) (rank : Fin n) (result : PipelineRankReport) : Collecting n :=
  if result.rank ≠ rank.val then
    s.push s!"rank {rank} stream reported result for rank {result.rank}"
  else
    { s with ranks := Function.update s.ranks rank (some result) }

def onLog (s : Collecting n) (rank : Fin n) (line : String) : Collecting n :=
  if StartsWith invalidMarker line then s.push s!"rank {rank}: {line}" else s

def onExit (s : Collecting n) (rank : Fin n) (code : Int) : Collecting n :=
  let s := { s with
    exited := Function.update s.exited rank true
    exitCodes := Function.update s.exitCodes rank (some code) }
  if code ≠ 0 ∧ ¬ s.stopped then
    { s.push s!"rank {rank} exited with code {code}" with stopped := true }
  else s

def receive (s : Collecting n) : HostMessage n PipelineRankReport → Collecting n
  | .record rank (.event event) => s.onEvent rank event
  | .record rank (.result result) => s.onResult rank result
  | .log rank line => s.onLog rank line
  | .streamEnded rank => { s with ended := Function.update s.ended rank true }
  | .exit rank code => s.onExit rank code

/-- The look at the interrupt flag with which an iteration begins. -/
def look (interrupted : Bool) (s : Collecting n) : Collecting n :=
  if interrupted && !s.stopped then { s with stopped := true } else s

def poll (s : Collecting n) : Poll n PipelineRankReport → Collecting n
  | none => s
  | some (_, message) => s.receive message

/-- The condition of the loop. -/
def running (s : Collecting n) : Bool :=
  (List.finRange n).any (fun rank => !s.ended rank) ||
    (List.finRange n).any fun rank => !s.exited rank

end Collecting

/-- The loop: its last state, how often it looked at the interrupt flag, and the readings that it
left. When nothing is left to read the channel is disconnected. -/
def collectLoop (interrupt : Option Nat) :
    Nat → Collecting n → List (Poll n PipelineRankReport) →
      Collecting n × Nat × List (Poll n PipelineRankReport)
  | looks, s, [] =>
    if s.running then (s.look (isInterrupted interrupt looks), looks + 1, []) else (s, looks, [])
  | looks, s, poll :: polls =>
    if s.running then
      collectLoop interrupt (looks + 1) ((s.look (isInterrupted interrupt looks)).poll poll) polls
    else (s, looks, poll :: polls)

/-- The failures that are added after the loop. -/
def finalFailures (interrupted : Bool) (s : Collecting n) : List String :=
  (if interrupted then ["pipeline launch interrupted"] else []) ++
    ((List.finRange n).filter fun rank => (s.ranks rank).isNone).map fun rank =>
      s!"rank {rank} emitted no final report"

def collectRankStreams (interrupt : Option Nat) (polls : List (Poll n PipelineRankReport)) :
    Collected n × List (Poll n PipelineRankReport) :=
  let (s, looks, rest) := collectLoop interrupt 0 .start polls
  ({ s.toCollected with
      failures := s.failures ++ finalFailures (isInterrupted interrupt looks) s }, rest)

/-- The parts of the launcher's report that are made from what it collected. -/
structure PipelineReport where
  generatedTokens : List Nat
  completion : String
  stopReason : StopReason
  ranks : List PipelineRankReport
  events : List ReceivedPipelineEvent
  communicationBytes : Nat
  failures : List String
  success : Bool

/-- `run_pipeline` after it has joined the collector. The sum of the bytes is taken not to leave 64
bits; no verdict depends on it. -/
def report (collected : Collected n) : PipelineReport :=
  let rankZero := ((List.finRange n).map collected.ranks).head?.join
  let ranks := (List.finRange n).filterMap collected.ranks
  { generatedTokens := rankZero.elim [] (·.generatedTokens)
    completion := rankZero.elim "" (·.completion)
    stopReason := rankZero.elim .maxNewTokens (·.stopReason)
    ranks
    events := collected.events
    communicationBytes :=
      (ranks.map fun rank => rank.communication.tensorBytesSent +
        rank.communication.controlBytesSent).sum
    failures := collected.failures
    success := collected.failures.isEmpty && ranks.length == n && ranks.all (·.success) &&
      (List.finRange n).all fun rank => collected.exitCodes rank == some 0 }

namespace Collecting

variable {s : Collecting n} {message : HostMessage n PipelineRankReport} {rank : Fin n}

@[simp]
theorem look_toCollected (interrupted : Bool) :
    (s.look interrupted).toCollected = s.toCollected := by
  unfold look
  split_ifs <;> rfl

@[simp]
theorem look_sequences (interrupted : Bool) : (s.look interrupted).sequences = s.sequences := by
  unfold look
  split_ifs <;> rfl

@[simp]
theorem look_ended (interrupted : Bool) : (s.look interrupted).ended = s.ended := by
  unfold look
  split_ifs <;> rfl

@[simp]
theorem look_exited (interrupted : Bool) : (s.look interrupted).exited = s.exited := by
  unfold look
  split_ifs <;> rfl

/-- The handlers, field by field. -/
theorem onEvent_eq (rank : Fin n) (event : PipelineEvent) : s.onEvent rank event = { s with
    events := s.events ++ [⟨s.events.length, event⟩]
    sequences := if event.event.rank = rank.val ∧ event.event.sequence = s.sequences rank then
      Function.update s.sequences rank (s.sequences rank + 1) else s.sequences
    failures := if event.event.rank = rank.val ∧ event.event.sequence = s.sequences rank then
      s.failures else s.failures ++
        [s!"rank {rank} event sequence {event.event.sequence}, expected {s.sequences rank}"] } := by
  unfold onEvent
  by_cases h : event.event.rank = rank.val ∧ event.event.sequence = s.sequences rank
  · simp [h]
  · rw [if_pos (by tauto)]
    simp [h, push]

theorem onResult_eq (rank : Fin n) (result : PipelineRankReport) : s.onResult rank result = { s with
    ranks := if result.rank = rank.val then Function.update s.ranks rank (some result) else s.ranks
    failures := if result.rank = rank.val then s.failures else s.failures ++
      [s!"rank {rank} stream reported result for rank {result.rank}"] } := by
  unfold onResult
  by_cases h : result.rank = rank.val
  · simp [h]
  · simp [h, push]

theorem onLog_eq (rank : Fin n) (line : String) : s.onLog rank line = { s with
    failures := if StartsWith invalidMarker line then s.failures ++ [s!"rank {rank}: {line}"] else
      s.failures } := by
  unfold onLog
  split_ifs <;> rfl

theorem onExit_eq (rank : Fin n) (code : Int) : s.onExit rank code = { s with
    exited := Function.update s.exited rank true
    exitCodes := Function.update s.exitCodes rank (some code)
    stopped := if code ≠ 0 then true else s.stopped
    failures := if code ≠ 0 ∧ ¬ s.stopped then
      s.failures ++ [s!"rank {rank} exited with code {code}"] else s.failures } := by
  unfold onExit
  by_cases hcode : code = 0
  · simp [hcode]
  · by_cases hstopped : s.stopped
    · obtain ⟨collected, sequences, ended, exited, stopped⟩ := s
      obtain rfl : stopped = true := hstopped
      simp
    · simp [hcode, hstopped, push]

theorem receive_ended : (s.receive message).ended rank = true ↔
    s.ended rank = true ∨ message = .streamEnded rank := by
  cases message with
  | record stream line =>
    cases line with
    | event event => simp [receive, onEvent_eq]
    | result result => simp [receive, onResult_eq]
  | log stream line => simp [receive, onLog_eq]
  | streamEnded stream =>
    by_cases h : rank = stream
    · simp [receive, h]
    · simp [receive, h, Ne.symm h]
  | exit stream code => simp [receive, onExit_eq]

theorem receive_exited : (s.receive message).exited rank = true ↔
    s.exited rank = true ∨ ∃ code, message = .exit rank code := by
  cases message with
  | record stream line =>
    cases line with
    | event event => simp [receive, onEvent_eq]
    | result result => simp [receive, onResult_eq]
  | log stream line => simp [receive, onLog_eq]
  | streamEnded stream => simp [receive]
  | exit stream code =>
    by_cases h : rank = stream
    · simp [receive, onExit_eq, h]
    · simp [receive, onExit_eq, h, Ne.symm h]

theorem receive_exitCodes :
    (s.receive message).exitCodes rank = (message.code? rank).or (s.exitCodes rank) := by
  cases message with
  | record stream line =>
    cases line with
    | event event => simp [receive, onEvent_eq, HostMessage.code?]
    | result result => simp [receive, onResult_eq, HostMessage.code?]
  | log stream line => simp [receive, onLog_eq, HostMessage.code?]
  | streamEnded stream => simp [receive, HostMessage.code?]
  | exit stream code =>
    by_cases h : rank = stream
    · simp [receive, onExit_eq, HostMessage.code?, h]
    · simp [receive, onExit_eq, HostMessage.code?, h, Ne.symm h]

/-- A report is kept if it names the rank of its stream. -/
theorem receive_ranks : (s.receive message).ranks rank =
    ((message.result? rank).filter fun result => result.rank = rank.val).or (s.ranks rank) := by
  cases message with
  | record stream line =>
    cases line with
    | event event =>
      by_cases h : stream = rank
      · simp [receive, onEvent_eq, HostMessage.result?, HostMessage.record?, StreamRecord.result?, h]
      · simp [receive, onEvent_eq, HostMessage.result?, HostMessage.record?, h]
    | result result =>
      by_cases h : stream = rank
      · by_cases hrank : result.rank = rank.val
        · simp [receive, onResult_eq, HostMessage.result?, HostMessage.record?,
            StreamRecord.result?, h, hrank, Option.filter]
        · simp [receive, onResult_eq, HostMessage.result?, HostMessage.record?,
            StreamRecord.result?, h, hrank, Option.filter]
      · have hne : rank ≠ stream := Ne.symm h
        simp only [receive, onResult_eq, HostMessage.result?, HostMessage.record?, if_neg h]
        split_ifs <;> simp [hne]
  | log stream line => simp [receive, onLog_eq, HostMessage.result?, HostMessage.record?]
  | streamEnded stream => simp [receive, HostMessage.result?, HostMessage.record?]
  | exit stream code => simp [receive, onExit_eq, HostMessage.result?, HostMessage.record?]

/-- What a message must be like to add no failure, when exit codes are left aside. -/
def Fits (sequences : Fin n → UInt64) (message : HostMessage n PipelineRankReport) : Prop :=
  (∀ rank event, message = .record rank (.event event) →
    event.event.rank = rank.val ∧ event.event.sequence = sequences rank) ∧
  (∀ rank result, message = .record rank (.result result) → result.rank = rank.val) ∧
  ∀ rank line, message = .log rank line → ¬ StartsWith invalidMarker line

theorem receive_failures (hzero : ∀ rank code, message = .exit rank code → code = 0) :
    (s.receive message).failures = [] ↔ s.failures = [] ∧ Fits s.sequences message := by
  cases message with
  | record stream line =>
    cases line with
    | event event =>
      simp only [receive, onEvent_eq]
      split_ifs with h
      · simp [Fits, h]
      · simp [Fits, h]
    | result result =>
      simp only [receive, onResult_eq]
      split_ifs with h
      · simp [Fits, h]
      · simp [Fits, h]
  | log stream line =>
    simp only [receive, onLog_eq]
    split_ifs with h
    · simp [Fits, h]
    · simp [Fits, h]
  | streamEnded stream => simp [receive, Fits]
  | exit stream code => simp [receive, onExit_eq, Fits, hzero stream code rfl]

theorem receive_sequences (hclean : (s.receive message).failures = []) :
    (s.receive message).sequences rank =
      s.sequences rank + .ofNat (message.event? rank).toList.length := by
  cases message with
  | record stream line =>
    cases line with
    | event event =>
      simp only [receive, onEvent_eq] at hclean ⊢
      split_ifs at hclean ⊢ with h
      · by_cases hrank : stream = rank
        · simp [HostMessage.event?, HostMessage.record?, StreamRecord.event?, hrank]
        · simp [HostMessage.event?, HostMessage.record?, hrank, Ne.symm hrank]
      · simp at hclean
    | result result =>
      have hnone : (HostMessage.record stream (.result result)).event? rank = none := by
        by_contra h
        obtain ⟨event, hevent⟩ := Option.ne_none_iff_exists'.mp h
        cases HostMessage.event?_eq_some.mp hevent
      simp [receive, onResult_eq, hnone]
  | log stream line => simp [receive, onLog_eq, HostMessage.event?, HostMessage.record?]
  | streamEnded stream => simp [receive, HostMessage.event?, HostMessage.record?]
  | exit stream code => simp [receive, onExit_eq, HostMessage.event?, HostMessage.record?]

theorem failures_of_receive (hclean : (s.receive message).failures = []) : s.failures = [] := by
  cases message with
  | record stream line =>
    cases line with
    | event event =>
      simp only [receive, onEvent_eq] at hclean
      split_ifs at hclean with h
      · exact hclean
      · simp at hclean
    | result result =>
      simp only [receive, onResult_eq] at hclean
      split_ifs at hclean with h
      · exact hclean
      · simp at hclean
  | log stream line =>
    simp only [receive, onLog_eq] at hclean
    split_ifs at hclean with h
    · simp at hclean
    · exact hclean
  | streamEnded stream => exact hclean
  | exit stream code =>
    simp only [receive, onExit_eq] at hclean
    split_ifs at hclean with h
    · simp at hclean
    · exact hclean

/-- One iteration of the loop, on a numbered poll. -/
def tick (interrupt : Option Nat) (s : Collecting n) (entry : Poll n PipelineRankReport × Nat) :
    Collecting n :=
  (s.look (isInterrupted interrupt entry.2)).poll entry.1

/-- The state after some polls. -/
def after (interrupt : Option Nat) (taken : List (Poll n PipelineRankReport)) : Collecting n :=
  taken.zipIdx.foldl (tick interrupt) .start

variable {interrupt : Option Nat} {taken : List (Poll n PipelineRankReport)}

theorem after_ended :
    (after interrupt taken).ended rank = true ↔ HostMessage.streamEnded rank ∈ messages taken := by
  rw [after, foldl_once (fun s : Collecting n => s.ended rank = true)
    (fun entry => reads some entry = some (.streamEnded rank)), mem_messages_iff]
  · simp [start]
  · intro s entry
    obtain ⟨poll, looks⟩ := entry
    cases poll with
    | none => simp [tick, poll, reads]
    | some sent => simp [tick, poll, reads, receive_ended]

theorem after_exited : (after interrupt taken).exited rank = true ↔
    ∃ code, HostMessage.exit rank code ∈ messages taken := by
  rw [after, foldl_once (fun s : Collecting n => s.exited rank = true)
    (fun entry => ∃ code, reads some entry = some (.exit rank code))]
  · simp only [mem_messages_iff]
    simp only [start, Bool.false_eq_true, false_or]
    constructor
    · rintro ⟨entry, hentry, code, hcode⟩
      exact ⟨code, entry, hentry, hcode⟩
    · rintro ⟨code, entry, hentry, hcode⟩
      exact ⟨entry, hentry, code, hcode⟩
  · intro s entry
    obtain ⟨poll, looks⟩ := entry
    cases poll with
    | none => simp [tick, poll, reads]
    | some sent => simp [tick, poll, reads, receive_exited]

/-- The loop ends when every rank has ended and exited. -/
theorem after_running : (after interrupt taken).running = false ↔ AllDone taken := by
  have h : (after interrupt taken).running = false ↔
      ∀ rank, (after interrupt taken).ended rank = true ∧
        (after interrupt taken).exited rank = true := by
    simp [running, forall_and]
  rw [h]
  simp only [after_ended, after_exited, AllDone]

theorem after_exitCodes : (after interrupt taken).exitCodes rank =
    ((messages taken).filterMap (HostMessage.code? rank)).getLast? := by
  rw [after, foldl_last (fun s : Collecting n => s.exitCodes rank)
    (reads (HostMessage.code? rank)), filterMap_reads]
  · simp [start]
  · intro s entry
    obtain ⟨poll, looks⟩ := entry
    cases poll with
    | none => simp [tick, poll, reads]
    | some sent => simp [tick, poll, reads, receive_exitCodes]

theorem after_ranks : (after interrupt taken).ranks rank =
    (((messages taken).filterMap (HostMessage.result? rank)).filter
      fun result => result.rank = rank.val).getLast? := by
  rw [after, foldl_last (fun s : Collecting n => s.ranks rank)
    (reads fun message => (message.result? rank).filter fun result => result.rank = rank.val),
    filterMap_reads, List.filter_filterMap]
  · simp [start]
  · intro s entry
    obtain ⟨poll, looks⟩ := entry
    cases poll with
    | none => simp [tick, poll, reads]
    | some sent => simp [tick, poll, reads, receive_ranks]

theorem failures_of_tick {entry : Poll n PipelineRankReport × Nat}
    (hclean : (tick interrupt s entry).failures = []) : s.failures = [] := by
  obtain ⟨poll, looks⟩ := entry
  cases poll with
  | none => simpa [tick, poll] using hclean
  | some sent => simpa using failures_of_receive hclean

/-- As long as nothing has failed, the counter of a stream is the number of its events. -/
theorem foldl_sequences (past : List (Poll n PipelineRankReport × Nat))
    (hclean : (past.foldl (tick interrupt) start).failures = []) :
    (past.foldl (tick interrupt) start).sequences rank =
      .ofNat (past.filterMap (reads (HostMessage.event? rank))).length := by
  induction past using List.reverseRecOn with
  | nil => rfl
  | append_singleton past entry ih =>
    rw [List.foldl_append, List.foldl_cons, List.foldl_nil] at hclean ⊢
    rw [List.filterMap_append, List.length_append, UInt64.ofNat_add,
      ← ih (failures_of_tick hclean)]
    obtain ⟨poll, looks⟩ := entry
    cases poll with
    | none => simp [tick, poll, reads, List.filterMap_cons]
    | some sent =>
      rw [tick, poll, receive_sequences hclean, look_sequences]
      cases hevent : sent.2.event? rank with
      | none => simp [reads, hevent]
      | some event => simp [reads, hevent]

/-- With exit codes zero, nothing fails if and only if every message fits the ones before. -/
theorem after_failures (hzero : ∀ rank code, HostMessage.exit rank code ∈ messages taken → code = 0) :
    (after interrupt taken).failures = [] ↔
    (∀ rank, Numbered .ofNat rank.val ((messages taken).filterMap (HostMessage.event? rank))) ∧
    (∀ rank, ∀ result ∈ (messages taken).filterMap (HostMessage.result? rank),
      result.rank = rank.val) ∧
    ∀ rank line, HostMessage.log rank line ∈ messages taken → ¬ StartsWith invalidMarker line := by
  rw [after, foldl_clean_iff (fun s : Collecting n => s.failures = [])
    (fun past entry => ∀ message, reads some entry = some message →
      Fits (fun rank => .ofNat (past.filterMap (reads (HostMessage.event? rank))).length) message)]
  · constructor
    · intro h
      have hmessage := (forall_message_iff (fun message =>
        (∀ rank result, message = .record rank (.result result) → result.rank = rank.val) ∧
          ∀ rank line, message = .log rank line → ¬ StartsWith invalidMarker line) taken).mp
        fun past entry hpast message hread => (h past entry hpast message hread).2
      refine ⟨fun rank => ?_, fun rank result hresult => ?_, fun rank line hline => ?_⟩
      · apply (numbered_iff .ofNat rank taken).mp
        intro past entry hpast message hread
        exact (h past entry hpast message hread).1 rank
      · obtain ⟨message, hmem, hread⟩ := List.mem_filterMap.mp hresult
        exact (hmessage message hmem).1 rank result (HostMessage.result?_eq_some.mp hread)
      · exact (hmessage _ hline).2 rank line rfl
    · intro h past entry hpast message hread
      have hmem : message ∈ messages taken :=
        mem_messages_iff.mpr ⟨entry, hpast.subset (by simp), hread⟩
      refine ⟨fun rank => ?_, fun rank result heq => ?_, fun rank line heq => ?_⟩
      · exact (numbered_iff .ofNat rank taken).mpr (h.1 rank) past entry hpast message hread
      · exact h.2.1 rank result
          (List.mem_filterMap.mpr ⟨message, hmem, HostMessage.result?_eq_some.mpr heq⟩)
      · exact h.2.2 rank line (heq ▸ hmem)
  · rfl
  · intro past entry hpast
    obtain ⟨poll, looks⟩ := entry
    cases poll with
    | none => simp [tick, poll, reads]
    | some sent =>
      have hmem : sent.2 ∈ messages taken :=
        mem_messages_iff.mpr ⟨(some sent, looks), hpast.subset (by simp), rfl⟩
      have hzero' : ∀ rank code, sent.2 = .exit rank code → code = 0 :=
        fun rank code hexit => hzero rank code (hexit ▸ hmem)
      rw [tick, poll, receive_failures hzero', look_toCollected, look_sequences]
      apply and_congr_right
      intro hclean
      have hsequences : (past.foldl (tick interrupt) start).sequences = fun rank =>
          .ofNat (past.filterMap (reads (HostMessage.event? rank))).length :=
        funext fun rank => foldl_sequences past hclean
      simp only [hsequences, reads, Option.bind_some, Option.some.injEq, forall_eq']

/-- The loop takes the shortest part of the polls after which its condition fails. -/
theorem collectLoop_eq {looks : Nat} {polls : List (Poll n PipelineRankReport)}
    (hstops : ((polls.zipIdx looks).foldl (tick interrupt) s).running = false) :
    ∃ taken rest, polls = taken ++ rest ∧
      collectLoop interrupt looks s polls =
        ((taken.zipIdx looks).foldl (tick interrupt) s, looks + taken.length, rest) ∧
      ((taken.zipIdx looks).foldl (tick interrupt) s).running = false ∧
      ∀ shorter, shorter <+: taken → shorter ≠ taken →
        ((shorter.zipIdx looks).foldl (tick interrupt) s).running = true := by
  induction polls generalizing looks s with
  | nil =>
    refine ⟨[], [], rfl, ?_, hstops, fun shorter hshorter hne => ?_⟩
    · rw [collectLoop, if_neg (by simpa using hstops)]
      rfl
    · exact absurd (List.prefix_nil.mp hshorter) hne
  | cons poll polls ih =>
    by_cases hrunning : s.running = true
    · obtain ⟨taken, rest, hpolls, hloop, hend, hfirst⟩ := ih hstops
      refine ⟨poll :: taken, rest, by rw [hpolls]; rfl, ?_, hend, fun shorter hshorter hne => ?_⟩
      · rw [collectLoop, if_pos hrunning]
        rw [tick] at hloop
        rw [hloop, List.zipIdx_cons, List.foldl_cons, List.length_cons]
        congr 2
        omega
      · rcases List.prefix_cons_iff.mp hshorter with hnil | ⟨shorter', heq, hshorter'⟩
        · rw [hnil]
          exact hrunning
        · rw [heq, List.zipIdx_cons, List.foldl_cons]
          apply hfirst shorter' hshorter'
          intro h
          exact hne (by rw [heq, h])
    · refine ⟨[], poll :: polls, rfl, ?_, by simpa using hrunning, fun shorter hshorter hne => ?_⟩
      · rw [collectLoop, if_neg hrunning]
        rfl
      · exact absurd (List.prefix_nil.mp hshorter) hne

theorem collectLoop_start {polls : List (Poll n PipelineRankReport)} (hall : AllDone polls) :
    ∃ taken rest, polls = taken ++ rest ∧
      collectLoop interrupt 0 .start polls = (after interrupt taken, taken.length, rest) ∧
      AllDone taken ∧ ∀ shorter, shorter <+: taken → shorter ≠ taken → ¬ AllDone shorter := by
  obtain ⟨taken, rest, hpolls, hloop, hend, hfirst⟩ := collectLoop_eq (after_running.mpr hall)
  rw [Nat.zero_add] at hloop
  refine ⟨taken, rest, hpolls, hloop, after_running.mp hend, fun shorter hshorter hne hdone => ?_⟩
  have hrunning : (after interrupt shorter).running = true := hfirst shorter hshorter hne
  rw [after_running.mpr hdone] at hrunning
  cases hrunning

end Collecting

/-- What the launcher requires of the container of a rank. -/
structure CleanRank (fromStr : String → Except String (StreamRecord PipelineRankReport))
    (rank : Nat) (container : Container) : Prop where
  events : Numbered .ofNat rank (container.events fromStr)
  results : ∀ result ∈ container.results fromStr, result.rank = rank
  last : ∃ result, (container.results fromStr).getLast? = some result ∧ result.success = true
  valid : ∀ line ∈ container.stdout, ∃ record, fromStr line = .ok record
  exit : container.exitCode = 0

theorem report_success (collected : Collected n) : (report collected).success = true ↔
    collected.failures = [] ∧
      (∀ rank, ∃ result, collected.ranks rank = some result ∧ result.success = true) ∧
      ∀ rank, collected.exitCodes rank = some 0 := by
  rw [← all_reported_iff collected.ranks (·.success)]
  simp only [report, Bool.and_eq_true, List.isEmpty_iff, beq_iff_eq, List.all_eq_true (p := fun rank
    => collected.exitCodes rank == some 0), List.mem_finRange, true_implies, and_assoc]

/-- The failures after the loop are those of the loop, an interrupt, and missing reports. -/
theorem collectRankStreams_failures {interrupt : Option Nat}
    {polls rest : List (Poll n PipelineRankReport)} {s : Collecting n} {looks : Nat}
    (hloop : collectLoop interrupt 0 .start polls = (s, looks, rest)) :
    (collectRankStreams interrupt polls).1.failures = [] ↔
      s.failures = [] ∧ isInterrupted interrupt looks = false ∧ ∀ rank, (s.ranks rank).isSome := by
  simp only [collectRankStreams, hloop, finalFailures, List.append_eq_nil_iff, List.map_eq_nil_iff,
    List.filter_eq_nil_iff, List.mem_finRange, true_implies]
  simp [Option.isSome_iff_ne_none]

section

variable {fromStr : String → Except String (StreamRecord PipelineRankReport)}
  {containers : Fin n → Container} {interrupt : Option Nat}
  {taken rest : List (Poll n PipelineRankReport)} {rank : Fin n}

theorem after_exitCodes_eq (h : Delivers fromStr containers (taken ++ rest))
    (hdone : AllDone taken) :
    (Collecting.after interrupt taken).exitCodes rank = some (containers rank).exitCode := by
  obtain ⟨code, hcode⟩ := (hdone rank).2
  rw [Collecting.after_exitCodes, h.filterMap_code? hcode]
  rfl

theorem after_ranks_eq (h : Delivers fromStr containers (taken ++ rest)) (hdone : AllDone taken)
    (hresults : ∀ result ∈ (containers rank).results fromStr, result.rank = rank.val) :
    (Collecting.after interrupt taken).ranks rank =
      ((containers rank).results fromStr).getLast? := by
  rw [Collecting.after_ranks, h.filterMap_result? (hdone rank).1, List.filter_eq_self.mpr]
  intro result hresult
  simpa using hresults result hresult

/-- The failures of the loop, over what the containers wrote. -/
theorem after_failures_eq (h : Delivers fromStr containers (taken ++ rest)) (hdone : AllDone taken)
    (hzero : ∀ rank, (containers rank).exitCode = 0) :
    (Collecting.after interrupt taken).failures = [] ↔
    (∀ rank, Numbered .ofNat rank.val ((containers rank).events fromStr)) ∧
    (∀ rank, ∀ result ∈ (containers rank).results fromStr, result.rank = rank.val) ∧
    (∀ rank, ∀ line ∈ (containers rank).stdout, ∃ record, fromStr line = .ok record) ∧
    ∀ rank line, ((rank, Source.stderr), HostMessage.log rank line) ∈ received taken →
      ¬ StartsWith invalidMarker line := by
  have hcodes : ∀ rank code, HostMessage.exit rank code ∈ messages taken → code = 0 :=
    fun rank code hmem => (h.code_eq hmem).trans (hzero rank)
  rw [Collecting.after_failures hcodes, h.forall_log_iff hdone]
  simp only [fun rank => h.filterMap_event? (hdone rank).1,
    fun rank => h.filterMap_result? (hdone rank).1]

end

/-- The verdict, over what the containers wrote, once the loop has ended. -/
theorem success_iff {fromStr : String → Except String (StreamRecord PipelineRankReport)}
    {containers : Fin n → Container} {polls taken rest : List (Poll n PipelineRankReport)}
    {interrupt : Option Nat} (h : Delivers fromStr containers polls) (hpolls : polls = taken ++ rest)
    (hloop : collectLoop interrupt 0 .start polls =
      (Collecting.after interrupt taken, taken.length, rest)) (hdone : AllDone taken) :
    (report (collectRankStreams interrupt polls).1).success = true ↔
      (∀ rank, CleanRank fromStr rank.val (containers rank)) ∧
      (∀ rank line, ((rank, Source.stderr), HostMessage.log rank line) ∈ received taken →
        ¬ StartsWith invalidMarker line) ∧
      isInterrupted interrupt taken.length = false := by
  have hranks : (collectRankStreams interrupt polls).1.ranks =
      (Collecting.after interrupt taken).ranks := by rw [collectRankStreams, hloop]
  have hcodes : (collectRankStreams interrupt polls).1.exitCodes =
      (Collecting.after interrupt taken).exitCodes := by rw [collectRankStreams, hloop]
  rw [report_success, collectRankStreams_failures hloop, hranks, hcodes]
  rw [hpolls] at h
  simp only [after_exitCodes_eq h hdone, Option.some.injEq]
  constructor
  · intro hsuccess
    obtain ⟨⟨hclean, hinterrupt, -⟩, hreports, hzero⟩ := hsuccess
    obtain ⟨hevents, hresults, hvalid, hlogs⟩ := (after_failures_eq h hdone hzero).mp hclean
    refine ⟨fun rank => ?_, hlogs, hinterrupt⟩
    have hlast := hreports rank
    rw [after_ranks_eq h hdone (hresults rank)] at hlast
    exact ⟨hevents rank, hresults rank, hlast, hvalid rank, hzero rank⟩
  · intro hclean
    obtain ⟨hranks, hlogs, hinterrupt⟩ := hclean
    have hreport : ∀ rank, (Collecting.after interrupt taken).ranks rank =
        ((containers rank).results fromStr).getLast? :=
      fun rank => after_ranks_eq h hdone (hranks rank).results
    simp only [hreport]
    refine ⟨⟨?_, hinterrupt, fun rank => ?_⟩, fun rank => (hranks rank).last,
      fun rank => (hranks rank).exit⟩
    · exact (after_failures_eq h hdone fun rank => (hranks rank).exit).mpr
        ⟨fun rank => (hranks rank).events, fun rank => (hranks rank).results,
          fun rank => (hranks rank).valid, hlogs⟩
    · obtain ⟨result, hresult, -⟩ := (hranks rank).last
      rw [hresult]
      rfl

/-- The launcher reads until every rank has ended and exited, and its verdict is exact. -/
theorem pipeline_verdict_exact (fromStr : String → Except String (StreamRecord PipelineRankReport))
    (containers : Fin n → Container) (polls : List (Poll n PipelineRankReport))
    (interrupt : Option Nat) (h : Delivers fromStr containers polls) :
    ∃ taken, polls = taken ++ (collectRankStreams interrupt polls).2 ∧
      AllDone taken ∧ (∀ shorter, shorter <+: taken → shorter ≠ taken → ¬ AllDone shorter) ∧
      ((report (collectRankStreams interrupt polls).1).success = true ↔
        (∀ rank, CleanRank fromStr rank.val (containers rank)) ∧
        (∀ rank line, ((rank, Source.stderr), HostMessage.log rank line) ∈ received taken →
          ¬ StartsWith invalidMarker line) ∧
        isInterrupted interrupt taken.length = false) := by
  obtain ⟨taken, rest, hpolls, hloop, hdone, hfirst⟩ := Collecting.collectLoop_start h.allDone
  have hrest : (collectRankStreams interrupt polls).2 = rest := by rw [collectRankStreams, hloop]
  refine ⟨taken, ?_, hdone, hfirst, success_iff h hpolls hloop hdone⟩
  rw [hrest, hpolls]

/-- The JSON text of an event. -/
def eventText (rank sequence elapsedNs : Nat) (kind : String) : String :=
  "\x7b\"schema_version\":1,\"run_id\":\"r\",\"request_id\":\"q\",\"event\":\x7b\"sequence\":" ++
    toString sequence ++ ",\"rank\":" ++ toString rank ++ ",\"elapsed_ns\":" ++
    toString elapsedNs ++ ",\"kind\":" ++ kind ++ "\x7d\x7d"

def startedText (rank : Nat) : String := eventText rank 0 7 "\"model_load_started\""

def sampledText (rank : Nat) : String :=
  eventText rank 1 9 "\"memory_sample\",\"current_bytes\":null,\"limit_bytes\":2048"

/-- The lines of a rank that starts to load, takes its final sample and reports. -/
def briefLines (report : String) (rank : Nat) : List String := [
  "\x7b\"record\":\"event\",\"event\":" ++ startedText rank ++ "\x7d",
  "\x7b\"record\":\"event\",\"event\":" ++ sampledText rank ++ "\x7d",
  "\x7b\"record\":\"result\",\"result\":" ++ report ++ "\x7d"]

def started (rank : Nat) : PipelineEvent := ⟨1, "r", "q", ⟨0, rank, 7, .modelLoadStarted⟩⟩

def sampled (rank : Nat) : PipelineEvent :=
  ⟨1, "r", "q", ⟨1, rank, 9, .memorySample none (some 2048)⟩⟩

def briefRecords {Report : Type} (report : Nat → Report) (rank : Nat) : List (StreamRecord Report) :=
  [.event (started rank), .event (sampled rank), .result (report rank)]

/-- A reader of the lines of two ranks. -/
def briefFromStr {Report : Type} (text : Nat → String) (report : Nat → Report) (line : String) :
    Except String (StreamRecord Report) :=
  let lines := briefLines (text 0) 0 ++ briefLines (text 1) 1
  match (lines.zip (briefRecords report 0 ++ briefRecords report 1)).lookup line with
  | some record => .ok record
  | none => .error "expected value at line 1 column 1"

def briefContainer (text : Nat → String) (rank : Nat) : Container :=
  ⟨"dlir-rank-" ++ toString rank, some ⟨(briefLines (text rank) rank).map some, []⟩, some 0⟩

/-- Readings between which the ranks alternate, with a timeout. -/
def briefPolls {Report : Type} (report : Nat → Report) : List (Poll 2 Report) :=
  let record (rank : Fin 2) (i : Nat) : Poll 2 Report :=
    (briefRecords report rank.val)[i]?.map fun record => ((rank, .stdout), .record rank record)
  let zero : Fin 2 := ⟨0, by decide⟩
  let one : Fin 2 := ⟨1, by decide⟩
  [record zero 0, record one 0, record one 1, none, record zero 1, record one 2,
    some ((one, .wait), .exit one 0), record zero 2, some ((one, .stdout), .streamEnded one),
    some ((zero, .stdout), .streamEnded zero), some ((zero, .wait), .exit zero 0)]

def briefText (rank : Nat) : String :=
  "\x7b\"schema_version\":1,\"run_id\":\"r\",\"request_id\":\"q\",\"rank\":" ++ toString rank ++
    ",\"peers\":[],\"assignment\":\x7b\"rank\":" ++ toString rank ++
    ",\"world_size\":2,\"layer_start\":" ++ toString rank ++ ",\"layer_end\":" ++
    toString (rank + 1) ++ ",\"owns_embeddings\":" ++ toString (rank == 0) ++
    ",\"owns_lm_head\":" ++ toString (rank == 1) ++
    ",\"duplicates_tied_embeddings\":false\x7d,\"memory\":\x7b\"rank\":" ++ toString rank ++
    ",\"layer_start\":" ++ toString rank ++ ",\"layer_end\":" ++ toString (rank + 1) ++
    ",\"block_parameters\":0,\"embedding_parameters\":0,\"final_norm_parameters\":0," ++
    "\"lm_head_parameters\":0,\"materialized_parameters\":0,\"weight_bytes\":0," ++
    "\"kv_cache_capacity_bytes\":0,\"persistent_bytes\":0,\"budget_bytes\":2048," ++
    "\"placement\":\"fits_persistent_estimate\"," ++
    "\"duplicates_tied_embeddings\":false\x7d,\"resources\":\x7b\"cpu_millis\":null," ++
    "\"memory_current_bytes\":null,\"memory_limit_bytes\":2048,\"cpuset_cpus\":null," ++
    "\"cgroup_version\":null\x7d,\"final_kv_cache_bytes\":0," ++
    "\"communication\":\x7b\"tensor_messages_sent\":0,\"tensor_messages_received\":0," ++
    "\"tensor_bytes_sent\":0,\"tensor_bytes_received\":0,\"control_messages_sent\":0," ++
    "\"control_messages_received\":0,\"control_bytes_sent\":0," ++
    "\"control_bytes_received\":0,\"communication_ns\":0\x7d," ++
    "\"timings\":\x7b\"model_load_ns\":0,\"prefill_ns\":0,\"decode_total_ns\":0," ++
    "\"layer_compute_ns\":0,\"decode_forward_count\":0,\"time_to_first_token_ns\":null," ++
    "\"total_ns\":9\x7d,\"generated_tokens\":[],\"completion\":\"\"," ++
    "\"stop_reason\":\"eos\",\"barriers_passed\":true,\"events\":[" ++ startedText rank ++ "," ++
    sampledText rank ++ "],\"success\":true\x7d"

def briefReport (rank : Nat) : PipelineRankReport where
  schemaVersion := 1
  runId := "r"
  requestId := "q"
  rank := rank
  peers := []
  assignment := ⟨rank, 2, rank, rank + 1, rank == 0, rank == 1, false⟩
  memory := ⟨rank, rank, rank + 1, 0, 0, 0, 0, 0, 0, 0, 0, 2048, .fitsPersistentEstimate, false⟩
  resources := ⟨none, none, some 2048, none, none⟩
  finalKvCacheBytes := 0
  communication := {}
  timings := ⟨0, 0, 0, 0, 0, none, 9⟩
  generatedTokens := []
  completion := ""
  stopReason := .eos
  barriersPassed := true
  events := [started rank, sampled rank]
  success := true

theorem pipeline_verdict_exact_brief :
    (report (collectRankStreams none (briefPolls briefReport)).1).success = true ∧ ∃ taken,
      briefPolls briefReport = taken ++ (collectRankStreams none (briefPolls briefReport)).2 ∧
      AllDone taken ∧ (∀ shorter, shorter <+: taken → shorter ≠ taken → ¬ AllDone shorter) ∧
      ((report (collectRankStreams none (briefPolls briefReport)).1).success = true ↔
        (∀ rank : Fin 2, CleanRank (briefFromStr briefText briefReport) rank.val
          (briefContainer briefText rank.val)) ∧
        (∀ rank line, ((rank, Source.stderr), HostMessage.log rank line) ∈ received taken →
          ¬ StartsWith invalidMarker line) ∧
        isInterrupted none taken.length = false) := by
  refine ⟨by decide +kernel, ?_⟩
  apply pipeline_verdict_exact (briefFromStr briefText briefReport)
    (fun rank => briefContainer briefText rank.val) (briefPolls briefReport) none
  unfold Delivers
  decide +kernel

end Dlir.Cli.Pipeline
