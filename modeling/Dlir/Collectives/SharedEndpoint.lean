import Dlir.Collectives.Endpoint

namespace Dlir.Collectives

open Dlir.Framework

/-! Several threads that receive on one endpoint. A receive searches the pending frames, then locks
the connection of its source and reads frames, of which it parks those that it does not want. Each
of these is one step, and the steps of the threads interleave. -/

/-- What a call of `recv` or `recv_control` waits for. -/
structure Request (world : Nat) where
  source : Rank world
  key : Key

/-- How far a thread is. -/
inductive Phase (world : Nat) (α : Type)
  | idle
  | entered (request : Request world)
  /-- The frame was not pending, and the connection is not locked. -/
  | waiting (request : Request world)
  | reading (request : Request world)
  /-- A frame for somebody else was read and is not parked yet. -/
  | holding (request : Request world) (frame : WireFrame α)

/-- What a thread waits for once it has searched the pending frames. -/
def Phase.asked {world : Nat} {α : Type} : Phase world α → Option (Request world)
  | idle => none
  | entered _ => none
  | waiting request => some request
  | reading request => some request
  | holding request _ => some request

/-- One endpoint and the threads that receive on it. -/
structure SharedEndpoint (ι : Type) (backend : Backend) (world : Nat) (α : Type) where
  channel : Rank world → List (WireFrame α)
  pending : (backend.mailbox world α).Store
  /-- Who has locked a connection. -/
  owner : Rank world → Option ι
  thread : ι → Phase world α

inductive Action (ι : Type) (world : Nat) (α : Type)
  | arrive (source : Rank world) (frame : WireFrame α)
  | recv (thread : ι) (source : Nat) (tag : MessageTag)
  | recvControl (thread : ι) (source : Nat) (tag : MessageTag)
  | lookup (thread : ι)
  | lock (thread : ι)
  | read (thread : ι)
  | park (thread : ι)
  /-- The deadline passes, the connection is closed, or frames that cannot be read are skipped. -/
  | fail (thread : ι) (lost : Nat)

namespace SharedEndpoint

variable {ι : Type} [DecidableEq ι] {backend : Backend} {world : Nat} {α : Type}

def start (ι : Type) (backend : Backend) (world : Nat) (α : Type) :
    SharedEndpoint ι backend world α :=
  ⟨fun _ => [], (backend.mailbox world α).empty, fun _ => none, fun _ => .idle⟩

/-- A call starts, or comes back at once with an invalid peer. -/
def enter (self : Rank world) (s : SharedEndpoint ι backend world α) (t : ι) (source : Nat)
    (key : Key) : Option (SharedEndpoint ι backend world α) :=
  match s.thread t with
  | .idle => match self.validatePeer source with
    | .error _ => some s
    | .ok source => some { s with thread := Function.update s.thread t (.entered ⟨source, key⟩) }
  | _ => none

/-- The thread returns and with it goes its lock. -/
def leave (s : SharedEndpoint ι backend world α) (t : ι) (request : Request world) :
    SharedEndpoint ι backend world α :=
  { s with
    owner := Function.update s.owner request.source none
    thread := Function.update s.thread t .idle }

/-- What a thread does with a frame that it has read. The in-memory backend keeps the connection
locked until the call returns; the TCP backend locks it for one frame, and checks its addresses. -/
def deliver (self : Rank world) (s : SharedEndpoint ι backend world α) (t : ι)
    (request : Request world) (frame : WireFrame α) : SharedEndpoint ι backend world α :=
  if backend = .tcp ∧ (frame.source ≠ request.source.val ∨ frame.destination ≠ self.val) then
    s.leave t request
  else if frame.key = request.key then s.leave t request
  else
    { s with
      owner := if backend = .tcp then Function.update s.owner request.source none else s.owner
      thread := Function.update s.thread t (.holding request frame) }

def step (self : Rank world) (s : SharedEndpoint ι backend world α) :
    Action ι world α → Option (SharedEndpoint ι backend world α)
  | .arrive source frame =>
    -- in memory the channel of a rank only holds what this rank sent
    if backend = .inMemory ∧ frame.source ≠ source.val then none
    else some { s with
      channel := Function.update s.channel source (s.channel source ++ [frame]) }
  | .recv t source tag => s.enter self t source (.tensor tag)
  | .recvControl t source tag => s.enter self t source (.control tag)
  | .lookup t => match s.thread t with
    | .entered request =>
      match (backend.mailbox world α).take s.pending request.source
          (fun frame => decide (frame.key = request.key)) with
      | some (_, pending) =>
        some { s with pending, thread := Function.update s.thread t .idle }
      | none => some { s with thread := Function.update s.thread t (.waiting request) }
    | _ => none
  | .lock t => match s.thread t with
    | .waiting request => match s.owner request.source with
      | none => some { s with
          owner := Function.update s.owner request.source (some t)
          thread := Function.update s.thread t (.reading request) }
      | some _ => none
    | _ => none
  | .read t => match s.thread t with
    | .reading request => match s.channel request.source with
      | [] => none
      | frame :: rest => some
          (deliver self { s with channel := Function.update s.channel request.source rest } t
            request frame)
    | _ => none
  | .park t => match s.thread t with
    | .holding request frame => some { s with
        pending := (backend.mailbox world α).park s.pending request.source frame
        thread := Function.update s.thread t
          (if backend = .tcp then .waiting request else .reading request) }
    | _ => none
  | .fail t lost => match s.thread t with
    | .reading request =>
      let rest := if backend = .tcp then (s.channel request.source).drop lost
        else s.channel request.source
      some (leave { s with channel := Function.update s.channel request.source rest } t request)
    | _ => none

/-- A receive waits for a frame on an empty connection, and the frame is pending. -/
def Stranded (s : SharedEndpoint ι backend world α) : Prop :=
  ∃ t request, s.thread t = .reading request ∧ s.channel request.source = [] ∧
    ∃ frame ∈ (backend.contents world α).of s.pending request.source, frame.key = request.key

/-- Nobody parks a frame that another receive is already waiting for. -/
def Uncontended (s : SharedEndpoint ι backend world α) (a : Action ι world α) : Prop :=
  ∀ t request frame, a = .park t → s.thread t = .holding request frame →
    ∀ t', t' ≠ t → ∀ request', (s.thread t').asked = some request' →
      request'.source = request.source → request'.key ≠ frame.key

/-- States reached by steps without such a conflict. -/
inductive Uncontested (self : Rank world) : SharedEndpoint ι backend world α → Prop
  | start : Uncontested self (start ι backend world α)
  | step {s s' : SharedEndpoint ι backend world α} {a : Action ι world α} :
      Uncontested self s → s.Uncontended a → s.step self a = some s' → Uncontested self s'

/-- The invariant: whoever has searched the pending frames has nothing to find there. -/
structure Guarded (s : SharedEndpoint ι backend world α) : Prop where
  past : ∀ t request, (s.thread t).asked = some request →
    ∀ frame ∈ (backend.contents world α).of s.pending request.source, frame.key ≠ request.key
  held : ∀ t request frame, s.thread t = .holding request frame →
    frame.source = request.source.val ∧ frame.key ≠ request.key
  addressed : backend = .inMemory → ∀ i, ∀ frame ∈ s.channel i, frame.source = i.val

omit [DecidableEq ι] in
theorem guarded_start : (start ι backend world α).Guarded where
  past _ _ h := by cases h
  held _ _ _ h := by cases h
  addressed _ _ _ h := by cases h

section Steps

variable {s s' : SharedEndpoint ι backend world α} {t : ι} {phase : Phase world α}

/-- A thread goes on without parking anything. -/
theorem Guarded.move (h : s.Guarded) (hthread : s'.thread = Function.update s.thread t phase)
    (hpending : ∀ i, ∀ frame ∈ (backend.contents world α).of s'.pending i,
      frame ∈ (backend.contents world α).of s.pending i)
    (haddressed : backend = .inMemory → ∀ i, ∀ frame ∈ s'.channel i, frame.source = i.val)
    (hasked : ∀ request, phase.asked = some request →
      ∀ frame ∈ (backend.contents world α).of s.pending request.source, frame.key ≠ request.key)
    (hheld : ∀ request frame, phase = .holding request frame →
      frame.source = request.source.val ∧ frame.key ≠ request.key) : s'.Guarded where
  past t' request ht' frame hframe := by
    rw [hthread] at ht'
    by_cases ht : t' = t
    · rw [ht, Function.update_self] at ht'
      exact hasked request ht' frame (hpending _ _ hframe)
    · rw [Function.update_of_ne ht] at ht'
      exact h.past t' request ht' frame (hpending _ _ hframe)
  held t' request frame ht' := by
    rw [hthread] at ht'
    by_cases ht : t' = t
    · rw [ht, Function.update_self] at ht'
      exact hheld request frame ht'
    · rw [Function.update_of_ne ht] at ht'
      exact h.held t' request frame ht'
  addressed := haddressed

/-- A thread that returns waits for nothing. -/
theorem Guarded.returned (h : s.Guarded) (hthread : s'.thread = Function.update s.thread t .idle)
    (hpending : ∀ i, ∀ frame ∈ (backend.contents world α).of s'.pending i,
      frame ∈ (backend.contents world α).of s.pending i)
    (haddressed : backend = .inMemory → ∀ i, ∀ frame ∈ s'.channel i, frame.source = i.val) :
    s'.Guarded := by
  apply h.move hthread hpending haddressed
  · intro request hasked
    cases hasked
  · intro request frame hphase
    cases hphase

omit [DecidableEq ι] in
/-- Frames that are taken out of a channel leave the others where they were. -/
theorem Guarded.addressed_update (h : s.Guarded) {source : Rank world} {rest : List (WireFrame α)}
    (hrest : ∀ frame ∈ rest, frame ∈ s.channel source) :
    backend = .inMemory → ∀ i, ∀ frame ∈ Function.update s.channel source rest i,
      frame.source = i.val := by
  intro hbackend i frame hframe
  by_cases hi : i = source
  · rw [hi, Function.update_self] at hframe
    rw [hi]
    exact h.addressed hbackend source frame (hrest frame hframe)
  · rw [Function.update_of_ne hi] at hframe
    exact h.addressed hbackend i frame hframe

theorem Guarded.enter {self : Rank world} {source : Nat} {key : Key} (h : s.Guarded)
    (henter : s.enter self t source key = some s') : s'.Guarded := by
  unfold SharedEndpoint.enter at henter
  split at henter
  · split at henter
    · obtain rfl := Option.some.inj henter
      exact h
    · obtain rfl := Option.some.inj henter
      refine h.move rfl (fun _ _ hframe => hframe) h.addressed ?_ ?_
      · intro request hasked
        cases hasked
      · intro request frame hphase
        cases hphase
  · cases henter

theorem Guarded.deliver {self : Rank world} {request : Request world} {frame : WireFrame α}
    {rest : List (WireFrame α)} (h : s.Guarded) (hreading : s.thread t = .reading request)
    (hchannel : s.channel request.source = frame :: rest) :
    (SharedEndpoint.deliver self
      { s with channel := Function.update s.channel request.source rest } t request frame).Guarded := by
  have hrest : ∀ f ∈ rest, f ∈ s.channel request.source := by
    intro f hf
    rw [hchannel]
    exact List.mem_cons_of_mem _ hf
  have haddressed := h.addressed_update hrest
  unfold SharedEndpoint.deliver
  by_cases hclaim : backend = .tcp ∧
      (frame.source ≠ request.source.val ∨ frame.destination ≠ self.val)
  · rw [if_pos hclaim]
    exact h.returned rfl (fun _ _ hframe => hframe) haddressed
  by_cases hkey : frame.key = request.key
  · rw [if_neg hclaim, if_pos hkey]
    exact h.returned rfl (fun _ _ hframe => hframe) haddressed
  · rw [if_neg hclaim, if_neg hkey]
    have hsource : frame.source = request.source.val := by
      cases backend with
      | inMemory => exact h.addressed rfl _ frame (by rw [hchannel]; exact List.mem_cons_self)
      | tcp =>
        by_contra hne
        exact hclaim ⟨rfl, .inl hne⟩
    refine h.move rfl (fun _ _ hframe => hframe) haddressed ?_ ?_
    · intro request' hasked
      obtain rfl := Option.some.inj hasked
      exact h.past t request (by rw [hreading]; rfl)
    · intro request' frame' hphase
      obtain ⟨rfl, rfl⟩ := Phase.holding.inj hphase
      exact ⟨hsource, hkey⟩

/-- Parking a frame that nobody else waits for. -/
theorem Guarded.park {request : Request world} {frame : WireFrame α} (h : s.Guarded)
    (hfree : s.Uncontended (.park t)) (hholding : s.thread t = .holding request frame)
    (hasked : phase.asked = some request) (hphase : ∀ r f, phase ≠ .holding r f)
    (hpending : s'.pending = (backend.mailbox world α).park s.pending request.source frame)
    (hthread : s'.thread = Function.update s.thread t phase) (hchannel : s'.channel = s.channel) :
    s'.Guarded where
  past t' request' ht' frame' hframe' := by
    obtain ⟨hsource, hkey⟩ := h.held t request frame hholding
    rw [hpending, (backend.contents world α).of_park _ _ _ hsource] at hframe'
    rw [hthread] at ht'
    have hwaits : (s.thread t').asked = some request' := by
      by_cases ht : t' = t
      · rw [ht, Function.update_self, hasked] at ht'
        rw [ht, hholding, ← ht']
        rfl
      · rw [Function.update_of_ne ht] at ht'
        exact ht'
    by_cases hsame : request'.source = request.source
    swap
    · rw [Function.update_of_ne hsame] at hframe'
      exact h.past t' request' hwaits frame' hframe'
    rw [hsame, Function.update_self] at hframe'
    rcases List.mem_append.mp hframe' with hold | hnew
    · rw [← hsame] at hold
      exact h.past t' request' hwaits frame' hold
    · rw [List.mem_singleton.mp hnew]
      by_cases ht : t' = t
      · rw [ht, hholding] at hwaits
        obtain rfl := Option.some.inj hwaits
        exact hkey
      · exact (hfree t request frame rfl hholding t' ht request' hwaits hsame).symm
  held t' request' frame' ht' := by
    rw [hthread] at ht'
    by_cases ht : t' = t
    · rw [ht, Function.update_self] at ht'
      exact absurd ht' (hphase request' frame')
    · rw [Function.update_of_ne ht] at ht'
      exact h.held t' request' frame' ht'
  addressed := by
    rw [hchannel]
    exact h.addressed

theorem Guarded.arrive {self source : Rank world} {frame : WireFrame α} (h : s.Guarded)
    (hstep : s.step self (.arrive source frame) = some s') : s'.Guarded := by
  simp only [step] at hstep
  split_ifs at hstep with hforeign
  obtain rfl := Option.some.inj hstep
  refine ⟨h.past, h.held, fun hbackend i f hf => ?_⟩
  have hsource : frame.source = source.val := by
    by_contra hne
    exact hforeign ⟨hbackend, hne⟩
  by_cases hi : i = source
  · subst hi
    simp only [Function.update_self] at hf
    rcases List.mem_append.mp hf with hf | hf
    · exact h.addressed hbackend i f hf
    · rw [List.mem_singleton.mp hf]
      exact hsource
  · simp only [Function.update_of_ne hi] at hf
    exact h.addressed hbackend i f hf

theorem Guarded.lookup {self : Rank world} (h : s.Guarded)
    (hstep : s.step self (.lookup t) = some s') : s'.Guarded := by
  simp only [step] at hstep
  split at hstep
  · rename_i request hthread
    split at hstep
    · rename_i frame pending htake
      obtain rfl := Option.some.inj hstep
      obtain ⟨-, front, back, hof, -, hof'⟩ := (backend.contents world α).take_some htake
      refine h.returned rfl ?_ h.addressed
      intro i f hf
      simp only [hof'] at hf
      by_cases hi : i = request.source
      · subst hi
        rw [Function.update_self] at hf
        rw [hof]
        rcases List.mem_append.mp hf with hf | hf
        · exact List.mem_append_left _ hf
        · exact List.mem_append_right _ (List.mem_cons_of_mem _ hf)
      · rw [Function.update_of_ne hi] at hf
        exact hf
    · rename_i htake
      obtain rfl := Option.some.inj hstep
      refine h.move rfl (fun _ _ hframe => hframe) h.addressed ?_ ?_
      · intro request' hasked frame hframe
        obtain rfl := Option.some.inj hasked
        have hnone := (backend.contents world α).take_none htake frame hframe
        simpa using hnone
      · intro request' frame hphase
        cases hphase
  · cases hstep

theorem Guarded.lock {self : Rank world} (h : s.Guarded)
    (hstep : s.step self (.lock t) = some s') : s'.Guarded := by
  simp only [step] at hstep
  split at hstep
  · rename_i request hthread
    split at hstep
    · obtain rfl := Option.some.inj hstep
      refine h.move rfl (fun _ _ hframe => hframe) h.addressed ?_ ?_
      · intro request' hasked
        obtain rfl := Option.some.inj hasked
        exact h.past t request (by rw [hthread]; rfl)
      · intro request' frame hphase
        cases hphase
    · cases hstep
  · cases hstep

/-- What one step preserves. -/
theorem Guarded.step {self : Rank world} {a : Action ι world α} (h : s.Guarded)
    (hfree : s.Uncontended a) (hstep : s.step self a = some s') : s'.Guarded := by
  cases a with
  | arrive source frame => exact h.arrive hstep
  | recv t source tag => exact h.enter hstep
  | recvControl t source tag => exact h.enter hstep
  | lookup t => exact h.lookup hstep
  | lock t => exact h.lock hstep
  | read t =>
    simp only [SharedEndpoint.step] at hstep
    split at hstep
    · rename_i request hthread
      split at hstep
      · cases hstep
      · rename_i frame rest hchannel
        obtain rfl := Option.some.inj hstep
        exact h.deliver hthread hchannel
    · cases hstep
  | park t =>
    simp only [SharedEndpoint.step] at hstep
    split at hstep
    · rename_i request frame hthread
      obtain rfl := Option.some.inj hstep
      refine h.park hfree hthread ?_ ?_ rfl rfl rfl
      · split_ifs <;> rfl
      · intro r f
        split_ifs <;> simp
    · cases hstep
  | fail t lost =>
    simp only [SharedEndpoint.step] at hstep
    split at hstep
    · rename_i request hthread
      obtain rfl := Option.some.inj hstep
      refine h.returned rfl (fun _ _ hframe => hframe) (h.addressed_update ?_)
      intro frame hframe
      split_ifs at hframe
      · exact List.mem_of_mem_drop hframe
      · exact hframe
    · cases hstep

end Steps

/-- What a run preserves. -/
theorem Uncontested.guarded {self : Rank world} {s : SharedEndpoint ι backend world α}
    (h : Uncontested self s) : s.Guarded := by
  induction h with
  | start => exact guarded_start
  | step _ hfree hstep ih => exact ih.step hfree hstep

/-- As long as no thread parks a frame that another receive is already past looking for, no
receive waits on an empty connection for a frame that is pending. -/
theorem not_stranded_of_uncontested (ι : Type) [DecidableEq ι] (backend : Backend) (world : Nat)
    (α : Type) (self : Rank world) (s : SharedEndpoint ι backend world α)
    (h : Uncontested self s) : ¬ s.Stranded := by
  rintro ⟨t, request, hthread, -, frame, hframe, hkey⟩
  exact h.guarded.past t request (by rw [hthread]; rfl) frame hframe hkey


/-- The state after some steps. -/
def run (self : Rank world) (s : SharedEndpoint ι backend world α) (actions : List (Action ι world α)) :
    Option (SharedEndpoint ι backend world α) :=
  actions.foldlM (fun s a => s.step self a) s

/-- Steps that park nothing have no conflicts. -/
theorem Uncontested.of_run {self : Rank world} {s s' : SharedEndpoint ι backend world α}
    {actions : List (Action ι world α)} (h : Uncontested self s)
    (hparks : ∀ a ∈ actions, ∀ t, a ≠ .park t) (hrun : run self s actions = some s') :
    Uncontested self s' := by
  induction actions generalizing s with
  | nil =>
    obtain rfl := Option.some.inj hrun
    exact h
  | cons a actions ih =>
    obtain ⟨next, hstep, hrest⟩ := Option.bind_eq_some_iff.mp hrun
    have hnext : Uncontested self next := by
      apply h.step _ hstep
      intro t request frame ha
      exact absurd ha (hparks a List.mem_cons_self t)
    exact ih hnext (fun b hb => hparks b (List.mem_cons_of_mem _ hb)) hrest

omit [DecidableEq ι] in
theorem uncontended_park {s : SharedEndpoint ι backend world α} {t : ι} {request : Request world}
    {frame : WireFrame α} (hholding : s.thread t = .holding request frame)
    (h : ∀ t', t' ≠ t → ∀ request', (s.thread t').asked = some request' →
      request'.source = request.source → request'.key ≠ frame.key) : s.Uncontended (.park t) := by
  intro t' request' frame' ha hholding'
  obtain rfl := Action.park.inj ha
  rw [hholding] at hholding'
  obtain ⟨rfl, rfl⟩ := Phase.holding.inj hholding'
  exact h

/-- A frame from rank 0 to rank 1. -/
def note (tag : UInt64) : WireFrame Nat := .control 0 1 ⟨tag⟩ ⟨[], by decide⟩

/-- Two threads wait for different tags of one source. One of them parks a frame for which nobody
waits, and the other one gets its own. -/
theorem not_stranded_of_uncontested_pair :
    ∃ s, run ⟨1, by decide⟩ (start Bool .tcp 2 Nat)
        [.recvControl false 0 ⟨7⟩, .lookup false, .recvControl true 0 ⟨8⟩, .lookup true, .lock true,
          .arrive ⟨0, by decide⟩ (note 9), .read true, .park true, .arrive ⟨0, by decide⟩ (note 7),
          .lock false, .read false, .lock true] = some s ∧
      (Backend.tcp.contents 2 Nat).of s.pending ⟨0, by decide⟩ = [note 9] ∧ ¬ s.Stranded := by
  have hbefore := @Uncontested.of_run Bool _ .tcp 2 Nat ⟨1, by decide⟩ _ _
    [.recvControl false 0 ⟨7⟩, .lookup false, .recvControl true 0 ⟨8⟩, .lookup true, .lock true,
      .arrive ⟨0, by decide⟩ (note 9), .read true] .start (by simp) rfl
  have hpark := hbefore.step (a := .park true) (uncontended_park rfl (by
    intro t' ht' request' hasked _
    cases t' with
    | true => exact absurd rfl ht'
    | false =>
      obtain rfl := Option.some.inj hasked
      decide)) rfl
  have hafter := @Uncontested.of_run Bool _ .tcp 2 Nat ⟨1, by decide⟩ _ _
    [.arrive ⟨0, by decide⟩ (note 7), .lock false, .read false, .lock true] hpark (by simp) rfl
  exact ⟨_, rfl, rfl, not_stranded_of_uncontested Bool .tcp 2 Nat _ _ hafter⟩

/-- Between the lookup and the lock of one thread another thread takes its frame off the connection
and parks it. -/
theorem receive_stranded :
    (∃ s, run ⟨1, by decide⟩ (start Bool .inMemory 2 Nat)
        [.recvControl false 0 ⟨7⟩, .lookup false, .recvControl true 0 ⟨8⟩, .lookup true, .lock true,
          .arrive ⟨0, by decide⟩ (note 7), .read true, .park true, .arrive ⟨0, by decide⟩ (note 8),
          .read true, .lock false] = some s ∧ s.Stranded) ∧
    ∃ s, run ⟨1, by decide⟩ (start Bool .tcp 2 Nat)
        [.recvControl false 0 ⟨7⟩, .lookup false, .recvControl true 0 ⟨8⟩, .lookup true, .lock true,
          .arrive ⟨0, by decide⟩ (note 7), .read true, .park true, .arrive ⟨0, by decide⟩ (note 8),
          .lock true, .read true, .lock false] = some s ∧ s.Stranded := by
  refine ⟨⟨_, rfl, false, ⟨⟨0, by decide⟩, .control ⟨7⟩⟩, rfl, rfl, note 7, ?_, rfl⟩,
    ⟨_, rfl, false, ⟨⟨0, by decide⟩, .control ⟨7⟩⟩, rfl, rfl, note 7, ?_, rfl⟩⟩
  · exact List.mem_singleton_self _
  · exact List.mem_singleton_self _

end SharedEndpoint

end Dlir.Collectives
