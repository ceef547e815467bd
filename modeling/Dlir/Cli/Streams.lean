import Dlir.Framework.Histories
import Dlir.Framework.Interleaving
import Dlir.Pipeline.Report
import Mathlib.Data.Fintype.Prod
import Mathlib.Data.List.FinRange
import Mathlib.Data.List.ReduceOption

namespace Dlir.Cli

open Dlir.Framework Dlir.Pipeline

/-- One line in a rank's stdout stream: a live event, or the final report of the rank. -/
inductive StreamRecord (Report : Type)
  | event (event : PipelineEvent)
  | result (result : Report)
  deriving DecidableEq, Repr

/-- What the threads that watch the containers tell the collector. -/
inductive HostMessage (n : Nat) (Report : Type)
  | record (rank : Fin n) (record : StreamRecord Report)
  | log (rank : Fin n) (line : String)
  | streamEnded (rank : Fin n)
  | exit (rank : Fin n) (code : Int)
  deriving DecidableEq, Repr

/-- The three threads of one rank that send messages. -/
inductive Source
  | stdout
  | stderr
  | wait
  deriving DecidableEq, Repr

instance : Fintype Source where
  elems := {.stdout, .stderr, .wait}
  complete := by
    intro source
    cases source <;> simp

/-- What the two pipes of `docker logs` yield, `none` where reading a line failed. -/
structure Pipes where
  stdout : List (Option String)
  stderr : List (Option String)
  deriving DecidableEq, Repr

/-- What the host sees of one container. Without `pipes`, `docker logs` could not be started;
without `code`, `docker wait` failed or did not print a number. -/
structure Container where
  name : String
  pipes : Option Pipes
  code : Option Int
  deriving DecidableEq, Repr

/-- `lines().map_while(Result::ok)`. -/
def readLines : List (Option String) → List String
  | some line :: lines => line :: readLines lines
  | _ => []

/-- `line.starts_with(marker)`. -/
def StartsWith (marker line : String) : Prop := marker.toList <+: line.toList

instance (marker line : String) : Decidable (StartsWith marker line) :=
  inferInstanceAs (Decidable (marker.toList <+: line.toList))

/-- How a log line begins that the collector of the pipeline takes for a failure. -/
def invalidMarker : String := "invalid rank JSON"

namespace Container

def stdout (self : Container) : List String :=
  self.pipes.elim [] fun pipes => readLines pipes.stdout

def stderr (self : Container) : List String :=
  self.pipes.elim [] fun pipes => readLines pipes.stderr

def exitCode (self : Container) : Int := self.code.getD (-1)

end Container

section

variable {n : Nat} {Report : Type} (fromStr : String → Except String (StreamRecord Report))

/-- The message for one line of a rank's stdout. `fromStr` is `serde_json::from_str`, with the text
of its error. -/
def readRecord (rank : Fin n) (line : String) : HostMessage n Report :=
  match fromStr line with
  | .ok record => .record rank record
  | .error error => .log rank s!"invalid rank JSON: {error}: {line}"

def followContainer (rank : Fin n) (container : Container) : List (HostMessage n Report) :=
  match container.pipes with
  | none => [.log rank s!"could not follow Docker logs for {container.name}", .streamEnded rank]
  | some pipes => (readLines pipes.stdout).map (readRecord fromStr rank) ++ [.streamEnded rank]

/-- The thread that `follow_container` starts for the second pipe. -/
def followStderr (rank : Fin n) (container : Container) : List (HostMessage n Report) :=
  container.stderr.map (.log rank)

def waitContainer (rank : Fin n) (container : Container) : List (HostMessage n Report) :=
  [.exit rank container.exitCode]

/-- What each thread sends, in its order. -/
def threadMessages (containers : Fin n → Container) :
    Fin n × Source → List (HostMessage n Report)
  | (rank, .stdout) => followContainer fromStr rank (containers rank)
  | (rank, .stderr) => followStderr rank (containers rank)
  | (rank, .wait) => waitContainer rank (containers rank)

end

/-- One reading of the channel: the next message with the thread that sent it, or a timeout. -/
abbrev Poll (n : Nat) (Report : Type) : Type := Option ((Fin n × Source) × HostMessage n Report)

/-- The messages among some readings of the channel. -/
def received {n : Nat} {Report : Type} (polls : List (Poll n Report)) :
    List ((Fin n × Source) × HostMessage n Report) :=
  polls.reduceOption

/-- Readings that get all messages of all threads, in some interleaving. -/
def Delivers {n : Nat} {Report : Type} (fromStr : String → Except String (StreamRecord Report))
    (containers : Fin n → Container) (polls : List (Poll n Report)) : Prop :=
  Interleaves (threadMessages fromStr containers) (received polls)

/-- Whether the `n`-th look at the interrupt flag sees it set. Nothing clears the flag during a
launch, so an interrupt history is the first look that sees a request. -/
def isInterrupted (interrupt : Option Nat) (look : Nat) : Bool := interrupt.any (· ≤ look)

namespace StreamRecord

variable {Report : Type}

def event? : StreamRecord Report → Option PipelineEvent
  | .event published => some published
  | .result _ => none

def result? : StreamRecord Report → Option Report
  | .event _ => none
  | .result report => some report

end StreamRecord

namespace HostMessage

variable {n : Nat} {Report : Type}

/-- The rank whose thread sent a message. -/
def rank : HostMessage n Report → Fin n
  | .record rank _ => rank
  | .log rank _ => rank
  | .streamEnded rank => rank
  | .exit rank _ => rank

/-- The record that a message brings on the stream of a rank. -/
def record? (rank : Fin n) : HostMessage n Report → Option (StreamRecord Report)
  | .record stream line => if stream = rank then some line else none
  | _ => none

def event? (rank : Fin n) (message : HostMessage n Report) : Option PipelineEvent :=
  (message.record? rank).bind StreamRecord.event?

def result? (rank : Fin n) (message : HostMessage n Report) : Option Report :=
  (message.record? rank).bind StreamRecord.result?

def code? (rank : Fin n) : HostMessage n Report → Option Int
  | .exit stream code => if stream = rank then some code else none
  | _ => none

/-- The rank whose stream a message ends. -/
def ended? : HostMessage n Report → Option (Fin n)
  | .streamEnded rank => some rank
  | _ => none

/-- The rank whose exit a message tells. -/
def exited? : HostMessage n Report → Option (Fin n)
  | .exit rank _ => some rank
  | _ => none

end HostMessage

section

variable {n : Nat} {Report : Type} {fromStr : String → Except String (StreamRecord Report)}

/-- The records on the stdout of a container. -/
def Container.records (fromStr : String → Except String (StreamRecord Report))
    (self : Container) : List (StreamRecord Report) :=
  self.stdout.filterMap fun line => (fromStr line).toOption

def Container.events (fromStr : String → Except String (StreamRecord Report))
    (self : Container) : List PipelineEvent :=
  (self.records fromStr).filterMap StreamRecord.event?

def Container.results (fromStr : String → Except String (StreamRecord Report))
    (self : Container) : List Report :=
  (self.records fromStr).filterMap StreamRecord.result?

/-- Events that carry a rank and, one after the other, the numbers that `number` counts. -/
def Numbered (number : Nat → UInt64) (rank : Nat) (events : List PipelineEvent) : Prop :=
  ∀ i event, events[i]? = some event → event.event.rank = rank ∧ event.event.sequence = number i

theorem startsWith_invalid (error line : String) :
    StartsWith invalidMarker s!"invalid rank JSON: {error}: {line}" := by
  show _ <+: (("invalid rank JSON: " ++ error) ++ ": " ++ line).toList
  simp only [String.toList_append, List.append_assoc]
  exact List.IsPrefix.trans (by decide) (List.prefix_append _ _)

theorem not_startsWith_could (name : String) :
    ¬ StartsWith invalidMarker s!"could not follow Docker logs for {name}" := by
  show ¬ _ <+: ("could not follow Docker logs for " ++ name).toList
  rw [String.toList_append]
  intro h
  simp [invalidMarker] at h

theorem readRecord_record? (rank : Fin n) (line : String) :
    (readRecord fromStr rank line).record? rank = (fromStr line).toOption := by
  unfold readRecord
  cases fromStr line with
  | ok record => simp [HostMessage.record?, Except.toOption]
  | error error => rfl

/-- The stdout thread of a rank ends with its one `streamEnded`. -/
theorem followContainer_eq (fromStr : String → Except String (StreamRecord Report)) (rank : Fin n)
    (container : Container) :
    ∃ body, followContainer fromStr rank container = body ++ [.streamEnded rank] ∧
      HostMessage.streamEnded rank ∉ body ∧
      body.filterMap (HostMessage.record? rank) = container.records fromStr := by
  cases hpipes : container.pipes with
  | none =>
    refine ⟨[_], by rw [followContainer, hpipes]; rfl, by simp, ?_⟩
    simp [Container.records, Container.stdout, hpipes, HostMessage.record?]
  | some pipes =>
    refine ⟨(readLines pipes.stdout).map (readRecord fromStr rank), by rw [followContainer, hpipes],
      ?_, ?_⟩
    · intro h
      obtain ⟨line, -, hline⟩ := List.mem_map.mp h
      unfold readRecord at hline
      cases hstr : fromStr line with
      | ok record => simp [hstr] at hline
      | error error => simp [hstr] at hline
    · simp only [List.filterMap_map, Function.comp_def, readRecord_record?, Container.records,
        Container.stdout, hpipes, Option.elim]

variable {containers : Fin n → Container} {rank : Fin n} {thread : Fin n × Source}
  {message : HostMessage n Report}

theorem mem_followContainer {container : Container}
    (hmem : message ∈ followContainer fromStr rank container) :
    (∃ line ∈ container.stdout, message = readRecord fromStr rank line) ∨
      message = .log rank s!"could not follow Docker logs for {container.name}" ∨
      message = .streamEnded rank := by
  cases hpipes : container.pipes with
  | none =>
    rw [followContainer, hpipes] at hmem
    simpa using Or.inr hmem
  | some pipes =>
    rw [followContainer, hpipes] at hmem
    rcases List.mem_append.mp hmem with hline | hend
    · obtain ⟨line, hline, hmessage⟩ := List.mem_map.mp hline
      exact .inl ⟨line, by rwa [Container.stdout, hpipes], hmessage.symm⟩
    · exact .inr (.inr (List.mem_singleton.mp hend))

theorem rank_readRecord (rank : Fin n) (line : String) :
    (readRecord fromStr rank line).rank = rank := by
  unfold readRecord
  cases fromStr line <;> rfl

theorem rank_of_mem (hmem : message ∈ threadMessages fromStr containers thread) :
    message.rank = thread.1 := by
  obtain ⟨stream, source⟩ := thread
  cases source with
  | stdout =>
    rcases mem_followContainer hmem with ⟨line, -, hline⟩ | hlog | hend
    · rw [hline, rank_readRecord]
    · rw [hlog]
      rfl
    · rw [hend]
      rfl
  | stderr =>
    obtain ⟨line, -, hline⟩ := List.mem_map.mp hmem
    rw [← hline]
    rfl
  | wait =>
    rw [List.mem_singleton.mp hmem]
    rfl

theorem HostMessage.record?_of_rank_ne (h : message.rank ≠ rank) : message.record? rank = none := by
  cases message with
  | record stream line => exact if_neg h
  | log stream line => rfl
  | streamEnded stream => rfl
  | exit stream code => rfl

theorem HostMessage.code?_of_rank_ne (h : message.rank ≠ rank) : message.code? rank = none := by
  cases message with
  | record stream line => rfl
  | log stream line => rfl
  | streamEnded stream => rfl
  | exit stream code => exact if_neg h

theorem HostMessage.event?_eq_some {event : PipelineEvent} :
    message.event? rank = some event ↔ message = .record rank (.event event) := by
  cases message with
  | record stream line =>
    cases line with
    | event published =>
      by_cases h : stream = rank
      · simp [HostMessage.event?, HostMessage.record?, StreamRecord.event?, h]
      · simp [HostMessage.event?, HostMessage.record?, h]
    | result report =>
      by_cases h : stream = rank
      · simp [HostMessage.event?, HostMessage.record?, StreamRecord.event?, h]
      · simp [HostMessage.event?, HostMessage.record?, h]
  | log stream line => simp [HostMessage.event?, HostMessage.record?]
  | streamEnded stream => simp [HostMessage.event?, HostMessage.record?]
  | exit stream code => simp [HostMessage.event?, HostMessage.record?]

theorem HostMessage.result?_eq_some {result : Report} :
    message.result? rank = some result ↔ message = .record rank (.result result) := by
  cases message with
  | record stream line =>
    cases line with
    | event published =>
      by_cases h : stream = rank
      · simp [HostMessage.result?, HostMessage.record?, StreamRecord.result?, h]
      · simp [HostMessage.result?, HostMessage.record?, h]
    | result report =>
      by_cases h : stream = rank
      · simp [HostMessage.result?, HostMessage.record?, StreamRecord.result?, h]
      · simp [HostMessage.result?, HostMessage.record?, h]
  | log stream line => simp [HostMessage.result?, HostMessage.record?]
  | streamEnded stream => simp [HostMessage.result?, HostMessage.record?]
  | exit stream code => simp [HostMessage.result?, HostMessage.record?]

theorem HostMessage.code?_eq_some {code : Int} :
    message.code? rank = some code ↔ message = .exit rank code := by
  cases message with
  | record stream line => simp [HostMessage.code?]
  | log stream line => simp [HostMessage.code?]
  | streamEnded stream => simp [HostMessage.code?]
  | exit stream code =>
    by_cases h : stream = rank
    · simp [HostMessage.code?, h]
    · simp [HostMessage.code?, h]

theorem HostMessage.ended?_eq_some : message.ended? = some rank ↔ message = .streamEnded rank := by
  cases message with
  | record stream line => simp [HostMessage.ended?]
  | log stream line => simp [HostMessage.ended?]
  | streamEnded stream => simp [HostMessage.ended?]
  | exit stream code => simp [HostMessage.ended?]

theorem HostMessage.exited?_eq_some :
    message.exited? = some rank ↔ ∃ code, message = .exit rank code := by
  cases message with
  | record stream line => simp [HostMessage.exited?]
  | log stream line => simp [HostMessage.exited?]
  | streamEnded stream => simp [HostMessage.exited?]
  | exit stream code => simp [HostMessage.exited?]

/-- Records come from the stdout thread of their rank only. -/
theorem record?_eq_none (hmem : message ∈ threadMessages fromStr containers thread)
    (h : thread ≠ (rank, .stdout)) : message.record? rank = none := by
  obtain ⟨stream, source⟩ := thread
  cases source with
  | stdout =>
    apply HostMessage.record?_of_rank_ne
    rw [rank_of_mem hmem]
    intro heq
    exact h (by rw [← heq])
  | stderr =>
    obtain ⟨line, -, hline⟩ := List.mem_map.mp hmem
    rw [← hline]
    rfl
  | wait =>
    rw [List.mem_singleton.mp hmem]
    rfl

theorem code?_readRecord (rank' : Fin n) (line : String) :
    (readRecord fromStr rank line).code? rank' = none := by
  unfold readRecord
  cases fromStr line <;> rfl

/-- Exit codes come from the waiting thread of their rank only. -/
theorem code?_eq_none (hmem : message ∈ threadMessages fromStr containers thread)
    (h : thread ≠ (rank, .wait)) : message.code? rank = none := by
  obtain ⟨stream, source⟩ := thread
  cases source with
  | stdout =>
    rcases mem_followContainer hmem with ⟨line, -, hline⟩ | hlog | hend
    · rw [hline, code?_readRecord]
    · rw [hlog]
      rfl
    · rw [hend]
      rfl
  | stderr =>
    obtain ⟨line, -, hline⟩ := List.mem_map.mp hmem
    rw [← hline]
    rfl
  | wait =>
    apply HostMessage.code?_of_rank_ne
    rw [rank_of_mem hmem]
    intro heq
    exact h (by rw [← heq])

/-- The end of a stream is told by the stdout thread of its rank only. -/
theorem thread_of_streamEnded
    (hmem : HostMessage.streamEnded rank ∈ threadMessages fromStr containers thread) :
    thread = (rank, .stdout) := by
  have hrank := rank_of_mem hmem
  obtain ⟨stream, source⟩ := thread
  cases source with
  | stdout => rw [show stream = rank from hrank.symm]
  | stderr =>
    obtain ⟨line, -, hline⟩ := List.mem_map.mp hmem
    cases hline
  | wait => cases List.mem_singleton.mp hmem

theorem thread_of_exit {code : Int}
    (hmem : HostMessage.exit rank code ∈ threadMessages fromStr containers thread) :
    thread = (rank, .wait) := by
  by_contra h
  simpa [HostMessage.code?] using code?_eq_none hmem h

/-- The messages of a sequence of readings, without their threads. -/
def messages (polls : List (Poll n Report)) : List (HostMessage n Report) :=
  (received polls).map Prod.snd

theorem received_append (polls polls' : List (Poll n Report)) :
    received (polls ++ polls') = received polls ++ received polls' :=
  List.reduceOption_append polls polls'

@[simp]
theorem received_map_some (sent : List ((Fin n × Source) × HostMessage n Report)) :
    received (sent.map some) = sent := by
  induction sent with
  | nil => rfl
  | cons entry sent ih => exact congrArg _ ih

/-- One successful report for each rank, as the launchers count them. -/
theorem all_reported_iff (ranks : Fin n → Option Report) (success : Report → Bool) :
    (((List.finRange n).filterMap ranks).length = n ∧
      ((List.finRange n).filterMap ranks).all success = true) ↔
    ∀ rank, ∃ result, ranks rank = some result ∧ success result = true := by
  have hlength : ((List.finRange n).filterMap ranks).length = n ↔ ∀ rank, (ranks rank).isSome := by
    have h := List.filterMap_length_eq_length (f := ranks) (l := List.finRange n)
    rw [List.length_finRange] at h
    simpa using h
  rw [hlength]
  simp only [List.all_eq_true, List.mem_filterMap, List.mem_finRange, true_and]
  constructor
  · intro h rank
    obtain ⟨result, hresult⟩ := Option.isSome_iff_exists.mp (h.1 rank)
    exact ⟨result, hresult, h.2 result ⟨rank, hresult⟩⟩
  · intro h
    refine ⟨fun rank => ?_, fun result hresult => ?_⟩
    · obtain ⟨result, hresult, -⟩ := h rank
      rw [hresult]
      rfl
    · obtain ⟨rank, hrank⟩ := hresult
      obtain ⟨result', hresult', hsuccess⟩ := h rank
      rw [hrank] at hresult'
      rwa [Option.some.inj hresult']

/-- A reading of the messages, on numbered polls. -/
def reads {β : Type} (f : HostMessage n Report → Option β) (entry : Poll n Report × Nat) :
    Option β :=
  entry.1.bind fun sent => f sent.2

theorem filterMap_reads {β : Type} (f : HostMessage n Report → Option β)
    (polls : List (Poll n Report)) (look : Nat) :
    (polls.zipIdx look).filterMap (reads f) = (messages polls).filterMap f := by
  induction polls generalizing look with
  | nil => rfl
  | cons poll polls ih =>
    rw [List.zipIdx_cons, List.filterMap_cons, ih]
    cases poll with
    | none => rfl
    | some sent =>
      show _ = (sent.2 :: messages polls).filterMap f
      rw [List.filterMap_cons]
      rfl

theorem mem_messages_iff {polls : List (Poll n Report)} {message : HostMessage n Report} :
    message ∈ messages polls ↔ ∃ entry ∈ polls.zipIdx, reads some entry = some message := by
  rw [← List.mem_filterMap, filterMap_reads, List.filterMap_some]

theorem reads_eq_bind {β : Type} (f : HostMessage n Report → Option β) :
    reads f = fun entry => (reads some entry).bind f := by
  funext entry
  obtain ⟨poll, look⟩ := entry
  cases poll with
  | none => rfl
  | some sent => rfl

/-- A condition on each event and on the number of events before it, over the events of a stream.
The messages are what `read` makes of the entries. -/
theorem forall_event_iff {μ : Type} (read : μ → Option (HostMessage n Report))
    (number : Nat → UInt64) (rank : Fin n) (entries : List μ) :
    (∀ past entry, past ++ [entry] <+: entries → ∀ message, read entry = some message →
      ∀ event, message = .record rank (.event event) → event.event.rank = rank.val ∧
        event.event.sequence =
          number (past.filterMap fun entry => (read entry).bind (HostMessage.event? rank)).length) ↔
    Numbered number rank.val
      (entries.filterMap fun entry => (read entry).bind (HostMessage.event? rank)) := by
  rw [Numbered, ← forall_readings_iff _ fun i (event : PipelineEvent) =>
      event.event.rank = rank.val ∧ event.event.sequence = number i]
  simp only [Option.bind_eq_some_iff, HostMessage.event?_eq_some]
  constructor
  · intro h past entry hpast event hevent
    obtain ⟨message, hmessage, heq⟩ := hevent
    exact h past entry hpast message hmessage event heq
  · intro h past entry hpast message hmessage event heq
    exact h past entry hpast event ⟨message, hmessage, heq⟩

theorem numbered_iff (number : Nat → UInt64) (rank : Fin n) (polls : List (Poll n Report)) :
    (∀ past entry, past ++ [entry] <+: polls.zipIdx → ∀ message, reads some entry = some message →
      ∀ event, message = .record rank (.event event) → event.event.rank = rank.val ∧
        event.event.sequence =
          number (past.filterMap (reads (HostMessage.event? rank))).length) ↔
    Numbered number rank.val ((messages polls).filterMap (HostMessage.event? rank)) := by
  rw [← filterMap_reads _ polls 0, reads_eq_bind (HostMessage.event? rank)]
  exact forall_event_iff (reads some) number rank polls.zipIdx

/-- A condition on all polls, over their messages. -/
theorem forall_message_iff (good : HostMessage n Report → Prop) (polls : List (Poll n Report)) :
    (∀ past entry, past ++ [entry] <+: polls.zipIdx → ∀ message, reads some entry = some message →
      good message) ↔ ∀ message ∈ messages polls, good message := by
  rw [forall_past_iff (fun entry => ∀ message, reads some entry = some message → good message)]
  simp only [mem_messages_iff]
  constructor
  · intro h message hmessage
    obtain ⟨entry, hentry, hread⟩ := hmessage
    exact h entry hentry message hread
  · intro h entry hentry message hread
    exact h message ⟨entry, hentry, hread⟩

/-- Readings after which every rank has ended and exited. -/
def AllDone (polls : List (Poll n Report)) : Prop :=
  ∀ rank, HostMessage.streamEnded rank ∈ messages polls ∧
    ∃ code, HostMessage.exit rank code ∈ messages polls

namespace Delivers

variable {taken rest : List (Poll n Report)}

theorem split (h : Delivers fromStr containers (taken ++ rest)) :
    Interleaves (threadMessages fromStr containers) (received taken ++ received rest) := by
  rw [Delivers, received_append] at h
  exact h

theorem mem_of_received (h : Delivers fromStr containers (taken ++ rest))
    (hmem : (thread, message) ∈ received taken) :
    message ∈ threadMessages fromStr containers thread :=
  h.split.mem.mp (List.mem_append_left _ hmem)

theorem streamEnded_mem (h : Delivers fromStr containers (taken ++ rest))
    (hmem : HostMessage.streamEnded rank ∈ messages taken) :
    ((rank, Source.stdout), HostMessage.streamEnded rank) ∈ received taken := by
  obtain ⟨⟨thread, message⟩, hentry, hmessage⟩ := List.mem_map.mp hmem
  obtain rfl : message = .streamEnded rank := hmessage
  rwa [← thread_of_streamEnded (h.mem_of_received hentry)]

theorem exit_mem {code : Int} (h : Delivers fromStr containers (taken ++ rest))
    (hmem : HostMessage.exit rank code ∈ messages taken) :
    ((rank, Source.wait), HostMessage.exit rank code) ∈ received taken := by
  obtain ⟨⟨thread, message⟩, hentry, hmessage⟩ := List.mem_map.mp hmem
  obtain rfl : message = .exit rank code := hmessage
  rwa [← thread_of_exit (h.mem_of_received hentry)]

/-- Messages that each rank sends once, and from one thread. -/
theorem nodup_told {tell : HostMessage n Report → Option (Fin n)}
    (h : Delivers fromStr containers (taken ++ rest)) (source : Source)
    (hthread : ∀ thread rank message, message ∈ threadMessages fromStr containers thread →
      tell message = some rank → thread = (rank, source))
    (honce : ∀ rank, (threadMessages fromStr containers (rank, source)).countP
      (fun message => tell message == some rank) ≤ 1) :
    ((messages taken).filterMap tell).Nodup := by
  rw [List.nodup_iff_count_le_one]
  intro rank
  rw [List.count_filterMap, messages, List.countP_map]
  have hother : ∀ entry ∈ received taken, entry.1 ≠ (rank, source) →
      (tell entry.2 == some rank) = false := by
    intro entry hentry hne
    rw [beq_eq_false_iff_ne]
    intro htell
    exact hne (hthread entry.1 rank entry.2 (h.mem_of_received hentry) htell)
  calc (received taken).countP ((fun message => tell message == some rank) ∘ Prod.snd)
      = (fromStream (rank, source) (received taken)).countP (fun message => tell message == some rank)
        := countP_eq_fromStream (p := fun message => tell message == some rank) hother
    _ ≤ (threadMessages fromStr containers (rank, source)).countP
          (fun message => tell message == some rank) := (h.split.front _).sublist.countP_le
    _ ≤ 1 := honce rank

theorem nodup_ended (h : Delivers fromStr containers (taken ++ rest)) :
    ((messages taken).filterMap HostMessage.ended?).Nodup := by
  refine h.nodup_told .stdout (fun thread rank message hmem htell => ?_) (fun rank => ?_)
  · rw [HostMessage.ended?_eq_some.mp htell] at hmem
    exact thread_of_streamEnded hmem
  · obtain ⟨body, hbody, hlast, -⟩ := followContainer_eq fromStr rank (containers rank)
    have hnone : body.countP (fun message => message.ended? == some rank) = 0 := by
      rw [List.countP_eq_zero]
      intro message hmem htell
      rw [beq_iff_eq, HostMessage.ended?_eq_some] at htell
      exact hlast (htell ▸ hmem)
    show (followContainer fromStr rank (containers rank)).countP _ ≤ 1
    rw [hbody, List.countP_append, hnone]
    simp [HostMessage.ended?]

theorem nodup_exited (h : Delivers fromStr containers (taken ++ rest)) :
    ((messages taken).filterMap HostMessage.exited?).Nodup := by
  refine h.nodup_told .wait (fun thread rank message hmem htell => ?_)
    (fun rank => List.countP_le_length)
  obtain ⟨code, hcode⟩ := HostMessage.exited?_eq_some.mp htell
  rw [hcode] at hmem
  exact thread_of_exit hmem

/-- The ranks that have ended, or exited, are all of them when they are as many. -/
theorem length_eq_iff {ranks : List (Fin n)} (h : ranks.Nodup) :
    ranks.length = n ↔ ∀ rank, rank ∈ ranks := by
  have hcard : ranks.length = ranks.toFinset.card := (List.toFinset_card_of_nodup h).symm
  have huniv := Finset.card_eq_iff_eq_univ ranks.toFinset
  rw [Fintype.card_fin] at huniv
  rw [hcard, huniv, Finset.eq_univ_iff_forall]
  simp only [List.mem_toFinset]

theorem allDone_iff (h : Delivers fromStr containers (taken ++ rest)) : AllDone taken ↔
    ((messages taken).filterMap HostMessage.ended?).length = n ∧
      ((messages taken).filterMap HostMessage.exited?).length = n := by
  rw [length_eq_iff h.nodup_ended, length_eq_iff h.nodup_exited, AllDone, forall_and]
  simp only [List.mem_filterMap, HostMessage.ended?_eq_some, HostMessage.exited?_eq_some]
  refine and_congr (forall_congr' fun rank => ?_) (forall_congr' fun rank => ?_)
  · simp
  · constructor
    · intro hexit
      obtain ⟨code, hcode⟩ := hexit
      exact ⟨_, hcode, code, rfl⟩
    · intro hexit
      obtain ⟨message, hmem, code, hcode⟩ := hexit
      exact ⟨code, hcode ▸ hmem⟩

/-- All messages together are the end of every rank. -/
theorem allDone {polls : List (Poll n Report)} (h : Delivers fromStr containers polls) :
    AllDone polls := by
  intro rank
  obtain ⟨body, hbody, -⟩ := followContainer_eq fromStr rank (containers rank)
  have hended : ((rank, Source.stdout), HostMessage.streamEnded rank) ∈ received polls := by
    rw [h.mem]
    show _ ∈ followContainer fromStr rank (containers rank)
    rw [hbody]
    exact List.mem_append_right _ (List.mem_singleton_self _)
  have hexit : ((rank, Source.wait), HostMessage.exit rank (containers rank).exitCode) ∈
      received polls := h.mem.mpr (List.mem_singleton_self _)
  exact ⟨List.mem_map_of_mem hended, _, List.mem_map_of_mem hexit⟩

/-- Readings that have reached the end of a stream have got all its records. -/
theorem filterMap_record? (h : Delivers fromStr containers (taken ++ rest))
    (hended : HostMessage.streamEnded rank ∈ messages taken) :
    (messages taken).filterMap (HostMessage.record? rank) = (containers rank).records fromStr := by
  obtain ⟨body, hbody, hlast, hrecords⟩ := followContainer_eq fromStr rank (containers rank)
  have hstream : threadMessages fromStr containers (rank, .stdout) = body ++ [.streamEnded rank] :=
    hbody
  have hcomplete := h.split.complete hstream hlast (h.streamEnded_mem hended)
  rw [messages, List.filterMap_map, Function.comp_def,
    filterMap_eq_fromStream (i := (rank, Source.stdout))
      fun entry hentry hne => record?_eq_none (h.mem_of_received hentry) hne,
    hcomplete, hstream, List.filterMap_append, hrecords]
  exact List.append_nil _

theorem filterMap_event? (h : Delivers fromStr containers (taken ++ rest))
    (hended : HostMessage.streamEnded rank ∈ messages taken) :
    (messages taken).filterMap (HostMessage.event? rank) = (containers rank).events fromStr := by
  rw [Container.events, ← h.filterMap_record? hended, List.filterMap_filterMap]
  rfl

theorem filterMap_result? (h : Delivers fromStr containers (taken ++ rest))
    (hended : HostMessage.streamEnded rank ∈ messages taken) :
    (messages taken).filterMap (HostMessage.result? rank) = (containers rank).results fromStr := by
  rw [Container.results, ← h.filterMap_record? hended, List.filterMap_filterMap]
  rfl

/-- All reports of a rank come before the end of its stream. -/
theorem filterMap_result?_past {past : List (HostMessage n Report)}
    (h : Delivers fromStr containers (taken ++ rest))
    (hpast : past ++ [.streamEnded rank] <+: messages taken) :
    past.filterMap (HostMessage.result? rank) = (containers rank).results fromStr := by
  obtain ⟨later, hlater⟩ := hpast
  obtain ⟨front, back, hsplit, hfront, -⟩ := List.map_eq_append_iff.mp hlater.symm
  have hdelivers : Delivers fromStr containers (front.map some ++ (back.map some ++ rest)) := by
    have hinter := h.split
    rw [hsplit] at hinter
    rw [Delivers, received_append, received_append, received_map_some, received_map_some,
      ← List.append_assoc]
    exact hinter
  have hmessages : messages (front.map some) = past ++ [.streamEnded rank] := by
    rw [messages, received_map_some, hfront]
  have hended : HostMessage.streamEnded rank ∈ messages (front.map some) := by simp [hmessages]
  have hresults := hdelivers.filterMap_result? hended
  rw [hmessages, List.filterMap_append] at hresults
  exact (List.append_nil _).symm.trans hresults

/-- A rank exits once, with the code of its container. -/
theorem filterMap_code? {code : Int} (h : Delivers fromStr containers (taken ++ rest))
    (hexited : HostMessage.exit rank code ∈ messages taken) :
    (messages taken).filterMap (HostMessage.code? rank) = [(containers rank).exitCode] := by
  have hstream : threadMessages fromStr containers (rank, .wait) =
      [] ++ [.exit rank (containers rank).exitCode] := rfl
  have hexit := h.exit_mem hexited
  rw [List.mem_singleton.mp (h.mem_of_received hexit)] at hexit
  have hcomplete := h.split.complete hstream List.not_mem_nil hexit
  rw [messages, List.filterMap_map, Function.comp_def,
    filterMap_eq_fromStream (i := (rank, Source.wait))
      fun entry hentry hne => code?_eq_none (h.mem_of_received hentry) hne,
    hcomplete, hstream]
  simp [HostMessage.code?]

theorem code_eq {code : Int} (h : Delivers fromStr containers (taken ++ rest))
    (hexited : HostMessage.exit rank code ∈ messages taken) :
    code = (containers rank).exitCode := by
  have hmem : code ∈ (messages taken).filterMap (HostMessage.code? rank) :=
    List.mem_filterMap.mpr ⟨_, hexited, HostMessage.code?_eq_some.mpr rfl⟩
  rw [h.filterMap_code? hexited] at hmem
  exact List.mem_singleton.mp hmem

theorem readRecord_mem_messages {line : String} (h : Delivers fromStr containers (taken ++ rest))
    (hended : HostMessage.streamEnded rank ∈ messages taken)
    (hline : line ∈ (containers rank).stdout) :
    readRecord fromStr rank line ∈ messages taken := by
  cases hpipes : (containers rank).pipes with
  | none => simp [Container.stdout, hpipes] at hline
  | some pipes =>
    rw [Container.stdout, hpipes] at hline
    obtain ⟨body, hbody, hlast, -⟩ := followContainer_eq fromStr rank (containers rank)
    have hcomplete := h.split.complete (i := (rank, Source.stdout)) hbody hlast
      (h.streamEnded_mem hended)
    have hmem : readRecord fromStr rank line ∈ fromStream (rank, Source.stdout) (received taken) := by
      rw [hcomplete]
      show _ ∈ followContainer fromStr rank (containers rank)
      rw [followContainer, hpipes]
      exact List.mem_append_left _ (List.mem_map_of_mem hline)
    exact List.mem_map_of_mem (mem_fromStream.mp hmem)

/-- Once every stream has ended, the log lines with the marker are the invalid stdout lines and
the stderr lines that begin with it. -/
theorem forall_log_iff (h : Delivers fromStr containers (taken ++ rest)) (hdone : AllDone taken) :
    (∀ rank line, HostMessage.log rank line ∈ messages taken → ¬ StartsWith invalidMarker line) ↔
    (∀ rank, ∀ line ∈ (containers rank).stdout, ∃ record, fromStr line = .ok record) ∧
    ∀ rank line, ((rank, Source.stderr), HostMessage.log rank line) ∈ received taken →
      ¬ StartsWith invalidMarker line := by
  constructor
  · intro hlogs
    refine ⟨fun rank line hline => ?_, fun rank line hline => hlogs rank line ?_⟩
    · cases hstr : fromStr line with
      | ok record => exact ⟨record, rfl⟩
      | error error =>
        have hmem := readRecord_mem_messages h (hdone rank).1 hline
        rw [readRecord, hstr] at hmem
        refine absurd ?_ (hlogs _ _ hmem)
        exact startsWith_invalid error line
    · exact List.mem_map_of_mem hline
  · intro hlogs rank line hmem
    obtain ⟨⟨⟨stream, source⟩, message⟩, hentry, hmessage⟩ := List.mem_map.mp hmem
    obtain rfl : message = .log rank line := hmessage
    have hthread := h.mem_of_received hentry
    obtain rfl : rank = stream := rank_of_mem hthread
    cases source with
    | stdout =>
      rcases mem_followContainer hthread with ⟨text, htext, hread⟩ | hlog | hend
      · obtain ⟨record, hrecord⟩ := hlogs.1 rank text htext
        rw [readRecord, hrecord] at hread
        cases hread
      · obtain ⟨-, rfl⟩ := HostMessage.log.inj hlog
        exact not_startsWith_could _
      · cases hend
    | stderr => exact hlogs.2 rank line hentry
    | wait => cases List.mem_singleton.mp hthread

end Delivers

end

end Dlir.Cli
