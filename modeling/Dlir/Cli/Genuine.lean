import Dlir.Cli.Tensor
import Dlir.Math.Text
import Dlir.Pipeline.Event

namespace Dlir.Cli

open Dlir.Framework Dlir.Math Dlir.Pipeline Dlir.Runtime Dlir.Tensor

/-- The failures that both launchers record for an event with a wrong rank or number. -/
def SequenceFailure (failure : String) : Prop :=
  ∃ (rank : Nat) (rest : String), failure = s!"rank {rank} event sequence {rest}"

theorem toList_rank (rank : Nat) (rest : String) :
    (s!"rank {rank}" ++ rest).toList = "rank ".toList ++ Nat.toDigits 10 rank ++ rest.toList := by
  have hdigits : (toString rank).toList = Nat.toDigits 10 rank := by simp [toString, Nat.repr]
  show (("rank " ++ toString rank) ++ rest).toList = _
  rw [String.toList_append, String.toList_append, hdigits]

theorem dropWhile_toDigits (rank : Nat) {rest : List Char}
    (hrest : ∀ c, rest.head? = some c → c.isDigit = false) :
    (Nat.toDigits 10 rank ++ rest).dropWhile Char.isDigit = rest := by
  rw [List.dropWhile_append_of_pos fun c hc => List.all_eq_true.mp (all_isDigit_toDigits rank) c hc]
  cases rest with
  | nil => rfl
  | cons c rest => exact List.dropWhile_cons_of_neg (by simp [hrest c rfl])

/-- What follows the number tells the failures apart. -/
theorem SequenceFailure.tail {rank : Nat} {rest : String}
    (hrest : ∀ c, rest.toList.head? = some c → c.isDigit = false)
    (h : SequenceFailure (s!"rank {rank}" ++ rest)) : " event sequence ".toList <+: rest.toList := by
  obtain ⟨found, tail, heq⟩ := h
  have hsplit : s!"rank {found} event sequence {tail}" =
      s!"rank {found}" ++ (" event sequence " ++ tail) := by
    show ("rank " ++ toString found ++ " event sequence " ++ tail) = _
    rw [String.append_assoc]
    rfl
  rw [hsplit] at heq
  have hlist := congrArg String.toList heq
  rw [toList_rank, toList_rank, List.append_assoc, List.append_assoc] at hlist
  have htail := congrArg (List.dropWhile Char.isDigit) (List.append_cancel_left hlist)
  rw [dropWhile_toDigits rank hrest, dropWhile_toDigits found] at htail
  · rw [htail, String.toList_append]
    exact List.prefix_append _ _
  · intro c hc
    rw [String.toList_append] at hc
    obtain rfl : ' ' = c := by simpa using hc
    rfl

/-- A failure whose text goes on differently after the rank. -/
theorem not_sequenceFailure (rank : Nat) (front rest : String)
    (hhead : ∀ c, (front.toList ++ rest.toList).head? = some c → c.isDigit = false)
    (hfront : ¬ front.toList.take 3 <+: " event sequence ".toList) :
    ¬ SequenceFailure ("rank " ++ toString rank ++ front ++ rest) := by
  intro h
  rw [String.append_assoc] at h
  rw [← String.toList_append] at hhead
  have hstart := SequenceFailure.tail hhead h
  rw [String.toList_append] at hstart
  have htake : front.toList.take 3 <+: front.toList ++ rest.toList :=
    (List.take_prefix _ _).trans (List.prefix_append _ _)
  refine hfront (List.prefix_of_prefix_length_le htake hstart ?_)
  exact (List.length_take_le _ _).trans (by decide)

section Messages

variable {n : Nat} {Report : Type}

/-- The event that a message brings, on whatever stream. -/
def HostMessage.published? : HostMessage n Report → Option PipelineEvent
  | .record _ (.event event) => some event
  | _ => none

/-- Events in the order in which they are received. -/
def enumerate (events : List PipelineEvent) : List ReceivedPipelineEvent :=
  events.zipIdx.map fun entry => ⟨entry.2, entry.1⟩

theorem enumerate_append (events : List PipelineEvent) (event : PipelineEvent) :
    enumerate (events ++ [event]) = enumerate events ++ [⟨events.length, event⟩] := by
  simp [enumerate, List.zipIdx_append]

theorem length_enumerate (events : List PipelineEvent) :
    (enumerate events).length = events.length := by
  simp [enumerate]

theorem published_enumerate (events : List PipelineEvent) :
    (enumerate events).map (·.published) = events := by
  simp [enumerate, Function.comp_def]

theorem receiveSequence_enumerate {events : List PipelineEvent} {i : Nat}
    {event : ReceivedPipelineEvent} (h : (enumerate events)[i]? = some event) :
    event.receiveSequence = i := by
  simp only [enumerate, List.getElem?_map, List.getElem?_zipIdx, Nat.zero_add,
    Option.map_eq_some_iff] at h
  obtain ⟨entry, ⟨found, -, rfl⟩, rfl⟩ := h
  rfl

/-- Where every event has the rank of its stream, the events of a rank are those of its stream. -/
theorem filter_published (messages : List (HostMessage n Report))
    (hrank : ∀ rank event, HostMessage.record rank (.event event) ∈ messages →
      event.event.rank = rank.val) (rank : Fin n) :
    (messages.filterMap HostMessage.published?).filter (fun event => event.event.rank = rank.val) =
      messages.filterMap (HostMessage.event? rank) := by
  rw [List.filter_filterMap]
  apply List.filterMap_congr
  intro message hmessage
  cases message with
  | record stream line =>
    cases line with
    | event event =>
      have hstream := hrank stream event hmessage
      by_cases h : stream = rank
      · subst h
        simp [HostMessage.published?, HostMessage.event?, HostMessage.record?, StreamRecord.event?,
          Option.filter, hstream]
      · have hne : ¬ event.event.rank = rank.val := by
          rw [hstream]
          exact fun heq => h (Fin.ext heq)
        simp [HostMessage.published?, HostMessage.event?, HostMessage.record?, h, Option.filter, hne]
    | result report =>
      have hnone : (HostMessage.record stream (.result report)).event? rank = none := by
        by_cases h : stream = rank
        · simp [HostMessage.event?, HostMessage.record?, StreamRecord.event?, h]
        · simp [HostMessage.event?, HostMessage.record?, h]
      rw [hnone]
      rfl
  | log stream line => rfl
  | streamEnded stream => rfl
  | exit stream code => rfl

theorem Numbered.left {number : Nat → UInt64} {rank : Nat} {events events' : List PipelineEvent}
    (h : Numbered number rank (events ++ events')) : Numbered number rank events := by
  intro i event hevent
  obtain ⟨hlt, -⟩ := List.getElem?_eq_some_iff.mp hevent
  exact h i event (by rw [List.getElem?_append_left hlt, hevent])

theorem Numbered.last {number : Nat → UInt64} {rank : Nat} {events : List PipelineEvent}
    {event : PipelineEvent} (h : Numbered number rank (events ++ [event])) :
    event.event.rank = rank ∧ event.event.sequence = number events.length :=
  h events.length event (by simp)

/-- The counters, events and failures of a collector that has found no event out of order. -/
structure Accepts (number : Nat → UInt64) (expected : Fin n → UInt64)
    (events : List ReceivedPipelineEvent) (failures : List String)
    (past : List (HostMessage n Report)) : Prop where
  expected : ∀ rank, expected rank = number (past.filterMap (HostMessage.event? rank)).length
  events : events = enumerate (past.filterMap HostMessage.published?)
  failures : ∀ failure ∈ failures, ¬ SequenceFailure failure

/-- A message that the counters let through. -/
def InOrder (expected : Fin n → UInt64) (message : HostMessage n Report) : Prop :=
  ∀ rank event, message = .record rank (.event event) →
    event.event.rank = rank.val ∧ event.event.sequence = expected rank

theorem Accepts.inOrder {number : Nat → UInt64} {expected : Fin n → UInt64}
    {events : List ReceivedPipelineEvent} {failures : List String}
    {past : List (HostMessage n Report)} {message : HostMessage n Report}
    (h : Accepts number expected events failures past)
    (hnumbered : ∀ rank, Numbered number rank.val
      ((past ++ [message]).filterMap (HostMessage.event? rank))) : InOrder expected message := by
  intro rank event hmessage
  have hrank := hnumbered rank
  have hevent : message.event? rank = some event := HostMessage.event?_eq_some.mpr hmessage
  rw [List.filterMap_append, List.filterMap_cons_some hevent] at hrank
  rw [h.expected rank]
  exact hrank.last

end Messages

namespace Pipeline.Collecting

variable {n : Nat} {s : Collecting n} {message : HostMessage n PipelineRankReport} {rank : Fin n}

theorem receive_sequences_of_inOrder (h : InOrder s.sequences message) :
    (s.receive message).sequences rank =
      s.sequences rank + .ofNat (message.event? rank).toList.length := by
  cases message with
  | record stream line =>
    cases line with
    | event event =>
      simp only [receive, onEvent_eq, if_pos (h stream event rfl)]
      by_cases hrank : stream = rank
      · simp [HostMessage.event?, HostMessage.record?, StreamRecord.event?, hrank]
      · simp [HostMessage.event?, HostMessage.record?, hrank, Ne.symm hrank]
    | result result =>
      have hnone : (HostMessage.record stream (.result result)).event? rank = none := by
        by_contra hsome
        obtain ⟨event, hevent⟩ := Option.ne_none_iff_exists'.mp hsome
        cases HostMessage.event?_eq_some.mp hevent
      simp [receive, onResult_eq, hnone]
  | log stream line => simp [receive, onLog_eq, HostMessage.event?, HostMessage.record?]
  | streamEnded stream => simp [receive, HostMessage.event?, HostMessage.record?]
  | exit stream code => simp [receive, onExit_eq, HostMessage.event?, HostMessage.record?]

theorem receive_events : (s.receive message).events =
    s.events ++ (message.published?.map fun event => ⟨s.events.length, event⟩).toList := by
  cases message with
  | record stream line =>
    cases line with
    | event event => simp [receive, onEvent_eq, HostMessage.published?]
    | result result => simp [receive, onResult_eq, HostMessage.published?]
  | log stream line => simp [receive, onLog_eq, HostMessage.published?]
  | streamEnded stream => simp [receive, HostMessage.published?]
  | exit stream code => simp [receive, onExit_eq, HostMessage.published?]

/-- The other failures are no sequence failures. -/
theorem receive_failures_of_inOrder (h : InOrder s.sequences message) :
    ∀ failure ∈ (s.receive message).failures, failure ∈ s.failures ∨ ¬ SequenceFailure failure := by
  intro failure hfailure
  cases message with
  | record stream line =>
    cases line with
    | event event =>
      simp only [receive, onEvent_eq, if_pos (h stream event rfl)] at hfailure
      exact .inl hfailure
    | result result =>
      simp only [receive, onResult_eq] at hfailure
      split_ifs at hfailure with hrank
      · exact .inl hfailure
      · rcases List.mem_append.mp hfailure with hold | hnew
        · exact .inl hold
        · rw [List.mem_singleton.mp hnew]
          exact .inr (not_sequenceFailure stream.val " stream reported result for rank "
            (toString result.rank) (by simp) (by decide))
  | log stream line =>
    simp only [receive, onLog_eq] at hfailure
    split_ifs at hfailure with hmarker
    · rcases List.mem_append.mp hfailure with hold | hnew
      · exact .inl hold
      · rw [List.mem_singleton.mp hnew]
        exact .inr (not_sequenceFailure stream.val ": " line (by simp) (by decide))
    · exact .inl hfailure
  | streamEnded stream => exact .inl hfailure
  | exit stream code =>
    simp only [receive, onExit_eq] at hfailure
    split_ifs at hfailure with hcode
    · rcases List.mem_append.mp hfailure with hold | hnew
      · exact .inl hold
      · rw [List.mem_singleton.mp hnew]
        exact .inr (not_sequenceFailure stream.val " exited with code " (toString code) (by simp)
          (by decide))
    · exact .inl hfailure

/-- What one message preserves. -/
theorem accepts_receive {past : List (HostMessage n PipelineRankReport)}
    (h : Accepts .ofNat s.sequences s.events s.failures past) (horder : InOrder s.sequences message) :
    Accepts .ofNat (s.receive message).sequences (s.receive message).events
      (s.receive message).failures (past ++ [message]) where
  expected rank := by
    rw [receive_sequences_of_inOrder horder, h.expected rank, List.filterMap_append,
      List.length_append, UInt64.ofNat_add]
    cases hevent : message.event? rank with
    | none => simp [hevent]
    | some event => simp [hevent]
  events := by
    rw [receive_events, List.filterMap_append]
    cases hevent : message.published? with
    | none => simp [hevent, h.events]
    | some event =>
      rw [List.filterMap_cons_some hevent, List.filterMap_nil, enumerate_append, ← h.events,
        Option.map_some, Option.toList_some, h.events, length_enumerate]
  failures := by
    intro failure hfailure
    rcases receive_failures_of_inOrder horder failure hfailure with hold | hnew
    · exact h.failures failure hold
    · exact hnew

/-- What the loop preserves. -/
theorem after_accepts (interrupt : Option Nat) (taken : List (Poll n PipelineRankReport))
    (hnumbered : ∀ rank, Numbered .ofNat rank.val
      ((messages taken).filterMap (HostMessage.event? rank))) :
    Accepts .ofNat (after interrupt taken).sequences (after interrupt taken).events
      (after interrupt taken).failures (messages taken) := by
  induction taken using List.reverseRecOn with
  | nil => exact ⟨fun _ => rfl, rfl, by simp [after, start]⟩
  | append_singleton taken poll ih =>
    have hafter : after interrupt (taken ++ [poll]) =
        tick interrupt (after interrupt taken) (poll, taken.length) := by
      simp [after, List.zipIdx_append]
    have hmessages : messages (taken ++ [poll]) = messages taken ++ messages [poll] := by
      rw [messages, received_append, List.map_append]
      rfl
    rw [hafter, hmessages]
    rw [hmessages] at hnumbered
    have hbefore := ih fun rank => by
      have hrank := hnumbered rank
      rw [List.filterMap_append] at hrank
      exact hrank.left
    cases poll with
    | none =>
      have hnone : messages [(none : Poll n PipelineRankReport)] = [] := rfl
      rw [hnone, List.append_nil]
      simpa [tick, Collecting.poll] using hbefore
    | some sent =>
      have hsome : messages [some sent] = [sent.2] := rfl
      rw [hsome] at hnumbered ⊢
      have horder := hbefore.inOrder hnumbered
      have hlook : Accepts .ofNat
          ((after interrupt taken).look (isInterrupted interrupt taken.length)).sequences
          ((after interrupt taken).look (isInterrupted interrupt taken.length)).events
          ((after interrupt taken).look (isInterrupted interrupt taken.length)).failures
          (messages taken) := by simpa using hbefore
      exact accepts_receive hlook (by simpa using horder)

end Pipeline.Collecting

namespace Tensor.Collecting

variable {n : Nat} {s : Collecting n} {message : HostMessage n TensorParallelRankReport}

theorem receive_events : (s.receive message).events =
    s.events ++ (message.published?.map fun event => ⟨s.events.length, event⟩).toList := by
  cases message with
  | record stream line =>
    cases line with
    | event event => simp [receive, onEvent_eq, HostMessage.published?]
    | result result => simp [receive, HostMessage.published?]
  | log stream line => simp [receive, HostMessage.published?]
  | streamEnded stream => simp [receive, onEnded_eq, HostMessage.published?]
  | exit stream code => simp [receive, onExit_eq, HostMessage.published?]

/-- The other failures are no sequence failures. -/
theorem receive_failures_of_inOrder (h : InOrder s.expectedSequence message) :
    ∀ failure ∈ (s.receive message).failures, failure ∈ s.failures ∨ ¬ SequenceFailure failure := by
  intro failure hfailure
  cases message with
  | record stream line =>
    cases line with
    | event event =>
      simp only [receive, onEvent_eq, if_pos (h stream event rfl)] at hfailure
      exact .inl hfailure
    | result result => exact .inl hfailure
  | log stream line => exact .inl hfailure
  | streamEnded stream =>
    simp only [receive, onEnded_eq] at hfailure
    split_ifs at hfailure with hnone
    · rcases List.mem_append.mp hfailure with hold | hnew
      · exact .inl hold
      · have hother := not_sequenceFailure stream.val " stream ended without a result" "" (by simp)
          (by decide)
        rw [String.append_empty] at hother
        rw [List.mem_singleton.mp hnew]
        exact .inr hother
    · exact .inl hfailure
  | exit stream code =>
    simp only [receive, onExit_eq] at hfailure
    split_ifs at hfailure with hcode
    · rcases List.mem_append.mp hfailure with hold | hnew
      · exact .inl hold
      · rw [List.mem_singleton.mp hnew]
        exact .inr (not_sequenceFailure stream.val " exited with status " (toString code) (by simp)
          (by decide))
    · exact .inl hfailure

/-- What one message preserves. -/
theorem accepts_receive {past : List (HostMessage n TensorParallelRankReport)}
    (h : Accepts number s.expectedSequence s.events s.failures past)
    (horder : InOrder s.expectedSequence message) :
    Accepts number (s.receive message).expectedSequence (s.receive message).events
      (s.receive message).failures (past ++ [message]) where
  expected rank := by
    rw [receive_expectedSequence, List.filterMap_append, List.length_append]
    cases hevent : message.event? rank with
    | none => simpa [hevent] using h.expected rank
    | some event =>
      have hnumber := (horder rank event (HostMessage.event?_eq_some.mp hevent)).2
      rw [List.filterMap_cons_some hevent]
      show saturatingAdd event.event.sequence 1 = _
      rw [hnumber, h.expected rank, saturatingAdd_number]
      rfl
  events := by
    rw [receive_events, List.filterMap_append]
    cases hevent : message.published? with
    | none => simp [hevent, h.events]
    | some event =>
      rw [List.filterMap_cons_some hevent, List.filterMap_nil, enumerate_append, ← h.events,
        Option.map_some, Option.toList_some, h.events, length_enumerate]
  failures := by
    intro failure hfailure
    rcases receive_failures_of_inOrder horder failure hfailure with hold | hnew
    · exact h.failures failure hold
    · exact hnew

/-- What the loop preserves. -/
theorem after_accepts (taken : List (HostMessage n TensorParallelRankReport))
    (hnumbered : ∀ rank, Numbered number rank.val (taken.filterMap (HostMessage.event? rank))) :
    Accepts number (after taken).expectedSequence (after taken).events (after taken).failures
      taken := by
  induction taken using List.reverseRecOn with
  | nil => exact ⟨fun _ => rfl, rfl, by simp [after, start]⟩
  | append_singleton taken message ih =>
    have hafter : after (taken ++ [message]) = (after taken).receive message := by simp [after]
    rw [hafter]
    have hbefore := ih fun rank => by
      have hrank := hnumbered rank
      rw [List.filterMap_append] at hrank
      exact hrank.left
    exact accepts_receive hbefore (hbefore.inOrder hnumbered)

end Tensor.Collecting

/-- What `run_pipeline_rank_process` prints, and its final report. The run is what
`run_pipeline_rank` returned. -/
def runPipelineRankProcess (runId requestId : String) (recorder : EventRecorder)
    (report : PipelineRankReport) : List (StreamRecord PipelineRankReport) × PipelineRankReport :=
  let sample := finalMemorySample runId requestId report.rank report.timings.totalNs
    report.resources report.events
  let report := { report with events := report.events ++ [sample] }
  (recorder.published.map .event ++ [.event sample, .result report], report)

/-- What `run_tensor_rank_process` prints, and its final report. -/
def runTensorRankProcess (recorder : EventEmitter) (report : TensorParallelRankReport) :
    List (StreamRecord TensorParallelRankReport) × TensorParallelRankReport :=
  let sample := finalMemorySample report.runId report.requestId report.rank report.timings.totalNs
    report.resources report.events
  let report := { report with events := report.events ++ [sample] }
  (recorder.published.map .event ++ [.event sample, .result report], report)

section Genuine

variable {n : Nat} {Report : Type} {toStr : StreamRecord Report → String}
  {fromStr : String → Except String (StreamRecord Report)} {container : Container}
  {records : List (StreamRecord Report)} {events : List PipelineEvent} {report : Report}

/-- Lines that are read back as they were printed. -/
theorem records_of_stdout (hstdout : container.stdout = records.map toStr)
    (hround : ∀ record ∈ records, fromStr (toStr record) = .ok record) :
    container.records fromStr = records := by
  rw [Container.records, hstdout, List.filterMap_map]
  have hread : ∀ record ∈ records,
      ((fun line => (fromStr line).toOption) ∘ toStr) record = some record := by
    intro record hrecord
    simp [hround record hrecord, Except.toOption]
  rw [List.filterMap_congr hread, List.filterMap_some]

theorem events_of_records (hrecords : container.records fromStr =
    events.map .event ++ [.result report]) : container.events fromStr = events := by
  rw [Container.events, hrecords, List.filterMap_append, List.filterMap_map]
  simp [Function.comp_def, StreamRecord.event?]

theorem results_of_records (hrecords : container.records fromStr =
    events.map .event ++ [.result report]) : container.results fromStr = [report] := by
  rw [Container.results, hrecords, List.filterMap_append, List.filterMap_map]
  simp [Function.comp_def, StreamRecord.result?]

/-- The streams of all ranks got through: no sequence failure, the events numbered in the order of
their arrival, and those of each rank as the rank reports them. -/
structure AcceptedStreams (failures : List String) (received : List ReceivedPipelineEvent)
    (reported : Fin n → List PipelineEvent) : Prop where
  failures : ∀ failure ∈ failures, ¬ SequenceFailure failure
  numbered : ∀ (i : Nat) (event : ReceivedPipelineEvent), received[i]? = some event →
    event.receiveSequence = i
  streams : ∀ rank, (received.map (·.published)).filter
    (fun event => event.event.rank = rank.val) = reported rank

/-- From the invariant of the loop to the streams. -/
theorem Accepts.streams {number : Nat → UInt64} {expected : Fin n → UInt64}
    {received : List ReceivedPipelineEvent} {failures : List String}
    {past : List (HostMessage n Report)} {reported : Fin n → List PipelineEvent}
    (h : Accepts number expected received failures past)
    (hreported : ∀ rank, past.filterMap (HostMessage.event? rank) = reported rank)
    (hnumbered : ∀ rank, Numbered number rank.val (reported rank)) :
    AcceptedStreams failures received reported where
  failures := h.failures
  numbered i event hevent := by
    rw [h.events] at hevent
    exact receiveSequence_enumerate hevent
  streams rank := by
    rw [h.events, published_enumerate, filter_published past ?_ rank, hreported rank]
    intro stream event hmem
    have hevent : event ∈ reported stream := by
      rw [← hreported stream]
      exact List.mem_filterMap.mpr ⟨_, hmem, HostMessage.event?_eq_some.mpr rfl⟩
    obtain ⟨i, hi⟩ := List.mem_iff_getElem?.mp hevent
    exact (hnumbered stream i event hi).1

/-- Counting from zero is counting with saturation, up to the last number. -/
theorem numbered_of_counted {rank : Nat} (h : Counted rank events)
    (hlength : events.length ≤ 2 ^ 64) : Numbered Tensor.Collecting.number rank events := by
  intro i event hevent
  obtain ⟨hlt, -⟩ := List.getElem?_eq_some_iff.mp hevent
  obtain ⟨hrank, hsequence⟩ := h i event hevent
  have hsize : UInt64.size = 2 ^ 64 := rfl
  refine ⟨hrank, hsequence.trans ?_⟩
  rw [Tensor.Collecting.number, Nat.min_eq_left (by omega)]

/-- What a rank process prints is what its final report says, and the report. -/
theorem runPipelineRankProcess_eq {runId requestId : String} {recorder : EventRecorder}
    {report : PipelineRankReport} (h : recorder.Consistent) (hrank : report.rank = recorder.rank)
    (hevents : report.events = recorder.events) :
    (runPipelineRankProcess runId requestId recorder report).1 =
      (runPipelineRankProcess runId requestId recorder report).2.events.map .event ++
        [.result (runPipelineRankProcess runId requestId recorder report).2] ∧
    (runPipelineRankProcess runId requestId recorder report).2.rank = recorder.rank ∧
    Counted recorder.rank (runPipelineRankProcess runId requestId recorder report).2.events := by
  refine ⟨?_, hrank, ?_⟩
  · simp only [runPipelineRankProcess, List.map_append, h.published, hevents, List.map_cons,
      List.map_nil, List.append_assoc]
    rfl
  · have hcounted := h.counted
    rw [← hevents] at hcounted
    exact hcounted.append hrank rfl

theorem runTensorRankProcess_eq {recorder : EventRecorder} {report : TensorParallelRankReport}
    (h : recorder.Consistent) (hrank : report.rank = recorder.rank)
    (hevents : report.events = recorder.events) :
    (runTensorRankProcess recorder report).1 =
      (runTensorRankProcess recorder report).2.events.map .event ++
        [.result (runTensorRankProcess recorder report).2] ∧
    Counted recorder.rank (runTensorRankProcess recorder report).2.events ∧
    (runTensorRankProcess recorder report).2.events.length = recorder.events.length + 1 := by
  refine ⟨?_, ?_, ?_⟩
  · simp only [runTensorRankProcess, List.map_append, h.published, hevents, List.map_cons,
      List.map_nil, List.append_assoc]
    rfl
  · have hcounted := h.counted
    rw [← hevents] at hcounted
    exact hcounted.append hrank rfl
  · simp [runTensorRankProcess, hevents]

end Genuine

section Launchers

variable {n : Nat}

/-- The collector of the pipeline on streams whose lines are events and one report. -/
theorem Pipeline.accepted {fromStr : String → Except String (StreamRecord PipelineRankReport)}
    {containers : Fin n → Container} {reports : Fin n → PipelineRankReport}
    (hrecords : ∀ rank, (containers rank).records fromStr =
      (reports rank).events.map .event ++ [.result (reports rank)])
    (hrank : ∀ rank, (reports rank).rank = rank.val)
    (hcounted : ∀ rank, Counted rank.val (reports rank).events) (interrupt : Option Nat)
    {polls : List (Poll n PipelineRankReport)} (hpolls : Delivers fromStr containers polls) :
    AcceptedStreams (Pipeline.collectRankStreams interrupt polls).1.failures
        (Pipeline.collectRankStreams interrupt polls).1.events (fun rank => (reports rank).events) ∧
      ∀ rank, (Pipeline.collectRankStreams interrupt polls).1.ranks rank = some (reports rank) := by
  obtain ⟨taken, rest, hsplit, hloop, hdone, -⟩ :=
    Pipeline.Collecting.collectLoop_start hpolls.allDone
  rw [hsplit] at hpolls
  have hevents : ∀ rank, (messages taken).filterMap (HostMessage.event? rank) =
      (reports rank).events := by
    intro rank
    rw [hpolls.filterMap_event? (hdone rank).1, events_of_records (hrecords rank)]
  have hranks : ∀ rank, (Pipeline.Collecting.after interrupt taken).ranks rank =
      some (reports rank) := by
    intro rank
    rw [Pipeline.Collecting.after_ranks, hpolls.filterMap_result? (hdone rank).1,
      results_of_records (hrecords rank)]
    simp [hrank rank]
  have haccepts := Pipeline.Collecting.after_accepts interrupt taken fun rank => by
    rw [hevents rank]
    exact hcounted rank
  have hstreams := haccepts.streams hevents hcounted
  rw [Pipeline.collectRankStreams, hloop]
  refine ⟨⟨?_, hstreams.numbered, hstreams.streams⟩, hranks⟩
  intro failure hfailure
  rcases List.mem_append.mp hfailure with hloopFailure | hfinal
  · exact hstreams.failures failure hloopFailure
  · rcases List.mem_append.mp hfinal with hinterrupt | hmissing
    · split_ifs at hinterrupt
      · rw [List.mem_singleton.mp hinterrupt]
        rintro ⟨rank, text, heq⟩
        have hhead : "pipeline launch interrupted".toList.head? =
            ("rank " ++ toString rank ++ " event sequence " ++ text).toList.head? := by
          rw [heq]
          rfl
        simp at hhead
      · cases hinterrupt
    · obtain ⟨rank, hmem, -⟩ := List.mem_map.mp hmissing
      simp [hranks rank] at hmem

/-- The collector of tensor ranks on streams whose lines are events and one report. -/
theorem Tensor.accepted {fromStr : String → Except String (StreamRecord TensorParallelRankReport)}
    {containers : Fin n → Container} {reports : Fin n → TensorParallelRankReport}
    (hrecords : ∀ rank, (containers rank).records fromStr =
      (reports rank).events.map .event ++ [.result (reports rank)])
    (hnumbered : ∀ rank, Numbered Tensor.Collecting.number rank.val (reports rank).events)
    {polls : List (Poll n TensorParallelRankReport)} (hpolls : Delivers fromStr containers polls) :
    AcceptedStreams (Tensor.collectRankStreams polls).1.failures
        (Tensor.collectRankStreams polls).1.events (fun rank => (reports rank).events) ∧
      ∀ rank, (Tensor.collectRankStreams polls).1.ranks rank = some (reports rank) := by
  obtain ⟨taken, rest, hdelivers, hdone, hloop⟩ := Tensor.collectLoop_start hpolls
  have hevents : ∀ rank, (messages taken).filterMap (HostMessage.event? rank) =
      (reports rank).events := by
    intro rank
    rw [hdelivers.filterMap_event? (hdone rank).1, events_of_records (hrecords rank)]
  have haccepts := Tensor.Collecting.after_accepts (messages taken) fun rank => by
    rw [hevents rank]
    exact hnumbered rank
  have hstreams := haccepts.streams hevents hnumbered
  have hcollected : (Tensor.collectRankStreams polls).1 =
      (Tensor.Collecting.after (messages taken)).toCollected :=
    congrArg Tensor.Collecting.toCollected hloop
  rw [hcollected]
  refine ⟨hstreams, fun rank => ?_⟩
  rw [Tensor.Collecting.after_ranks, hdelivers.filterMap_result? (hdone rank).1,
    results_of_records (hrecords rank)]
  rfl

/-- Streams of ranks that emit through the recorder and append their final sample are accepted by
both launchers, however the streams interleave. -/
theorem genuine_streams_accepted (n : Nat) (runId requestId : String)
    (kinds : Fin n → List (Nat × RunEventKind)) (hkinds : ∀ rank, (kinds rank).length < 2 ^ 64)
    (containers : Fin n → Container) :
    (∀ (toStr : StreamRecord PipelineRankReport → String)
        (fromStr : String → Except String (StreamRecord PipelineRankReport))
        (reports : Fin n → PipelineRankReport) (interrupt : Option Nat)
        (polls : List (Poll n PipelineRankReport)),
      let recorder := fun rank : Fin n =>
        (EventRecorder.new rank.val runId requestId).emitAll (kinds rank)
      let process := fun rank => runPipelineRankProcess runId requestId (recorder rank) (reports rank)
      (∀ rank, (reports rank).rank = rank.val ∧ (reports rank).events = (recorder rank).events) →
      (∀ rank, ∀ record ∈ (process rank).1, fromStr (toStr record) = .ok record) →
      (∀ rank, (containers rank).stdout = (process rank).1.map toStr) →
      Delivers fromStr containers polls →
      AcceptedStreams (Pipeline.collectRankStreams interrupt polls).1.failures
          (Pipeline.collectRankStreams interrupt polls).1.events
          (fun rank => (process rank).2.events) ∧
        ∀ rank, (Pipeline.collectRankStreams interrupt polls).1.ranks rank = some (process rank).2) ∧
    (∀ (toStr : StreamRecord TensorParallelRankReport → String)
        (fromStr : String → Except String (StreamRecord TensorParallelRankReport))
        (reports : Fin n → TensorParallelRankReport) (polls : List (Poll n TensorParallelRankReport)),
      let recorder := fun rank : Fin n =>
        EventEmitter.emitAll (EventEmitter.new rank.val runId requestId) (kinds rank)
      let process := fun rank => runTensorRankProcess (recorder rank) (reports rank)
      (∀ rank, (reports rank).rank = rank.val ∧ (reports rank).events = (recorder rank).events) →
      (∀ rank, ∀ record ∈ (process rank).1, fromStr (toStr record) = .ok record) →
      (∀ rank, (containers rank).stdout = (process rank).1.map toStr) →
      Delivers fromStr containers polls →
      AcceptedStreams (Tensor.collectRankStreams polls).1.failures
          (Tensor.collectRankStreams polls).1.events (fun rank => (process rank).2.events) ∧
        ∀ rank, (Tensor.collectRankStreams polls).1.ranks rank = some (process rank).2) := by
  have hrecorder : ∀ rank : Fin n,
      ((EventRecorder.new rank.val runId requestId).emitAll (kinds rank)).Consistent ∧
      ((EventRecorder.new rank.val runId requestId).emitAll (kinds rank)).rank = rank.val ∧
      ((EventRecorder.new rank.val runId requestId).emitAll (kinds rank)).events.length < 2 ^ 64 := by
    intro rank
    obtain ⟨hconsistent, hrank, hlength⟩ :=
      (EventRecorder.consistent_new rank.val runId requestId).emitAll (kinds rank)
    refine ⟨hconsistent, hrank, ?_⟩
    rw [hlength]
    exact (Nat.zero_add _).trans_lt (hkinds rank)
  refine ⟨?_, ?_⟩
  · intro toStr fromStr reports interrupt polls recorder process hreports hround hstdout hpolls
    have hprocess : ∀ rank, (process rank).1 =
          (process rank).2.events.map .event ++ [.result (process rank).2] ∧
        (process rank).2.rank = (recorder rank).rank ∧
        Counted (recorder rank).rank (process rank).2.events := by
      intro rank
      obtain ⟨hconsistent, hrank, -⟩ := hrecorder rank
      exact runPipelineRankProcess_eq hconsistent ((hreports rank).1.trans hrank.symm)
        (hreports rank).2
    refine Pipeline.accepted ?_ ?_ ?_ interrupt hpolls
    · intro rank
      rw [records_of_stdout (hstdout rank) (hround rank), (hprocess rank).1]
    · intro rank
      exact (hprocess rank).2.1.trans (hrecorder rank).2.1
    · intro rank
      have hcounted := (hprocess rank).2.2
      rw [show (recorder rank).rank = rank.val from (hrecorder rank).2.1] at hcounted
      exact hcounted
  · intro toStr fromStr reports polls recorder process hreports hround hstdout hpolls
    have hprocess : ∀ rank, (process rank).1 =
          (process rank).2.events.map .event ++ [.result (process rank).2] ∧
        Counted (recorder rank).rank (process rank).2.events ∧
        (process rank).2.events.length = (recorder rank).events.length + 1 := by
      intro rank
      obtain ⟨hconsistent, hrank, -⟩ := hrecorder rank
      exact runTensorRankProcess_eq hconsistent ((hreports rank).1.trans hrank.symm)
        (hreports rank).2
    refine Tensor.accepted ?_ ?_ hpolls
    · intro rank
      rw [records_of_stdout (hstdout rank) (hround rank), (hprocess rank).1]
    · intro rank
      obtain ⟨-, hcounted, hlength⟩ := hprocess rank
      rw [show (recorder rank).rank = rank.val from (hrecorder rank).2.1] at hcounted
      exact numbered_of_counted hcounted (hlength.trans_le (hrecorder rank).2.2)

end Launchers

section Example

/-- What a rank has emitted just after it has started to load. -/
def briefKinds : List (Nat × RunEventKind) := [(7, .modelLoadStarted)]

/-- The text of the records of two ranks. -/
def briefToStr {Report : Type} [DecidableEq Report] (text : Nat → String) (report : Nat → Report)
    (record : StreamRecord Report) : String :=
  let records := Pipeline.briefRecords report 0 ++ Pipeline.briefRecords report 1
  ((records.zip (Pipeline.briefLines (text 0) 0 ++ Pipeline.briefLines (text 1) 1)).lookup
    record).getD ""

def briefTensorText (rank : Nat) : String :=
  "\x7b\"schema_version\":1,\"run_id\":\"r\",\"request_id\":\"q\",\"rank\":" ++ toString rank ++
    ",\"peers\":[],\"memory\":\x7b\"rank\":" ++ toString rank ++
    ",\"shard\":\x7b\"parallel\":\x7b\"tp_rank\":" ++ toString rank ++
    ",\"tp_size\":2,\"pp_rank\":0,\"pp_size\":1,\"ep_rank\":0,\"ep_size\":1\x7d," ++
    "\"vocabulary\":\x7b\"start\":0,\"end\":0\x7d,\"query_heads\":\x7b\"start\":0,\"end\":0\x7d," ++
    "\"kv_heads\":\x7b\"start\":0,\"end\":0\x7d,\"intermediate\":\x7b\"start\":0,\"end\":0\x7d," ++
    "\"architectural_parameters\":0,\"local_parameters\":0,\"replicated_parameters\":0," ++
    "\"aggregate_materialized_parameters\":0\x7d,\"dtype\":\"f32\",\"context_capacity\":0," ++
    "\"local_weight_bytes\":0,\"kv_cache_capacity_bytes\":0,\"persistent_bytes\":0," ++
    "\"budget_bytes\":null,\"placement\":\"not_evaluated\"\x7d,\"resources\":\x7b" ++
    "\"cpu_millis\":null,\"memory_current_bytes\":null,\"memory_limit_bytes\":2048," ++
    "\"cpuset_cpus\":null,\"cgroup_version\":null\x7d,\"final_kv_cache_bytes\":0," ++
    "\"collectives\":[],\"sent_bytes\":0,\"received_bytes\":0,\"generated_tokens\":[]," ++
    "\"completion\":\"\",\"stop_reason\":\"eos\",\"timings\":\x7b\"model_load_ns\":0," ++
    "\"prefill_ns\":0,\"decode_total_ns\":0,\"decode_forward_count\":0,\"total_ns\":9\x7d," ++
    "\"events\":[" ++ Pipeline.startedText rank ++ "," ++ Pipeline.sampledText rank ++
    "],\"barriers_passed\":true,\"success\":true\x7d"

def briefTensorReport (rank : Nat) : TensorParallelRankReport where
  schemaVersion := 1
  runId := "r"
  requestId := "q"
  rank := rank
  peers := []
  memory := {
    rank
    shard := ⟨⟨rank, 2, 0, 1, 0, 1⟩, ⟨0, 0⟩, ⟨0, 0⟩, ⟨0, 0⟩, ⟨0, 0⟩, 0, 0, 0, 0⟩
    dtype := .f32
    contextCapacity := 0
    localWeightBytes := 0
    kvCacheCapacityBytes := 0
    persistentBytes := 0
    budgetBytes := none
    placement := .notEvaluated }
  resources := ⟨none, none, some 2048, none, none⟩
  finalKvCacheBytes := 0
  collectives := []
  sentBytes := 0
  receivedBytes := 0
  generatedTokens := []
  completion := ""
  stopReason := .eos
  timings := ⟨0, 0, 0, 0, 9⟩
  events := [Pipeline.started rank, Pipeline.sampled rank]
  barriersPassed := true
  success := true

theorem genuine_streams_accepted_brief :
    AcceptedStreams
      (Pipeline.collectRankStreams none (Pipeline.briefPolls Pipeline.briefReport)).1.failures
      (Pipeline.collectRankStreams none (Pipeline.briefPolls Pipeline.briefReport)).1.events
      (fun rank : Fin 2 => [Pipeline.started rank.val, Pipeline.sampled rank.val]) ∧
    AcceptedStreams
      (Tensor.collectRankStreams (Pipeline.briefPolls briefTensorReport)).1.failures
      (Tensor.collectRankStreams (Pipeline.briefPolls briefTensorReport)).1.events
      (fun rank : Fin 2 => [Pipeline.started rank.val, Pipeline.sampled rank.val]) := by
  constructor
  · have haccepted := (genuine_streams_accepted 2 "r" "q" (fun _ => briefKinds) (fun _ => by decide)
      (fun rank => Pipeline.briefContainer Pipeline.briefText rank.val)).1
      (briefToStr Pipeline.briefText Pipeline.briefReport)
      (Pipeline.briefFromStr Pipeline.briefText Pipeline.briefReport)
      (fun rank => { Pipeline.briefReport rank.val with events := [Pipeline.started rank.val] }) none
      (Pipeline.briefPolls Pipeline.briefReport)
    refine (haccepted ?_ ?_ ?_ ?_).1
    · decide +kernel
    · decide +kernel
    · decide +kernel
    · unfold Delivers
      decide +kernel
  · have haccepted := (genuine_streams_accepted 2 "r" "q" (fun _ => briefKinds) (fun _ => by decide)
      (fun rank => Pipeline.briefContainer briefTensorText rank.val)).2
      (briefToStr briefTensorText briefTensorReport)
      (Pipeline.briefFromStr briefTensorText briefTensorReport)
      (fun rank => { briefTensorReport rank.val with events := [Pipeline.started rank.val] })
      (Pipeline.briefPolls briefTensorReport)
    refine (haccepted ?_ ?_ ?_ ?_).1
    · decide +kernel
    · decide +kernel
    · decide +kernel
    · unfold Delivers
      decide +kernel

end Example

end Dlir.Cli
