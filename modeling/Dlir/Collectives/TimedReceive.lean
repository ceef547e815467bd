import Dlir.Collectives.TaggedReceive

namespace Dlir.Collectives

open Dlir.Framework Dlir.Math Session

/-! Receives that give up after a while. The bytes of a frame that has arrived in part are gone
from a TCP stream when the read of it times out. -/

section Timed

variable {world : Nat} {β : Type} {backend : Backend} {maximum : UInt64}
  {special : Rank world → Nat → β → Comm world UInt32 Unit Nat}

/-- Operations besides messages write at most one frame. -/
def Writes (op : Operation UInt32 β) (p : Proc (Rank world) (WireFrame UInt32) Unit
    (Except CollectivesError (Answer UInt32 × Nat))) : Prop :=
  ∀ b, op = .other b → p.Sound (fun _ _ => True) fun _ _ => False

/-- Steps after which the reader of every connection stands at the beginning of a frame: only
frames that the other end can decode are written, and a wait that expires has taken no byte of the
next frame. -/
structure OnTime (w : Session (endpoint backend maximum special))
    (e : Event (Rank world) (endpoint backend maximum special).Op) : Prop where
  good : ∀ i op j m k c, e = .send i → w.call i = some (op, .send j m k) →
    (backend.link maximum).push (w.chan i j) m = .ok c → (backend.link maximum).Good m
  boundary : ∀ i lost, e = .expire i lost → lost = 0

/-- A receive fails on an invalid peer or because it waited for too long. -/
def Settled (i : Rank world) (entry : MessageCall UInt32 × Except CollectivesError (Answer UInt32)) :
    Prop :=
  ∀ key e, entry.1.wants = some key → entry.2 = .error e → i.validatePeer entry.1.peer = .error e ∨
    ∃ tag : MessageTag, e = .receiveTimeout i.val entry.1.peer tag.value ∧
      (key = .tensor tag ∨ key = .control tag)

/-- The invariant of runs in which receives may time out. -/
structure Timely (w : Session (endpoint backend maximum special)) : Prop where
  tracked : Tracked w
  writes : ∀ i op p, w.call i = some (op, p) → Writes op p
  settled : ∀ i, ∀ entry ∈ transcript (w.history i), Settled i entry

variable {w w' : Session (endpoint backend maximum special)}
  {e : Event (Rank world) (endpoint backend maximum special).Op}

theorem Timely.message (h : Timely w) {i j : Rank world} {op sel k}
    (hcall : w.call i = some (op, .recv j sel k)) : ∃ call, op = .message call := by
  cases op with
  | message call => exact ⟨call, rfl⟩
  | other b => exact (h.writes i _ _ hcall b rfl).1.elim

theorem Timely.orderly (h : Timely w) (he : OnTime w e) : w.Orderly e where
  sends := he.good
  selects := by
    intro i op j sel k m c _ hcall _ hpop hfresh
    obtain ⟨call, rfl⟩ := h.message hcall
    rw [← h.tracked.selects hcall (h.tracked.between_fresh hpop), hfresh]
  whole := he.boundary

theorem Settled.ok {i : Rank world} {call : MessageCall UInt32} {answer : Answer UInt32} :
    Settled i (call, .ok answer) := by
  intro key e _ herr
  cases herr

theorem Settled.send {i : Rank world} {call : MessageCall UInt32} (hsend : call.wants = none)
    (r : Except CollectivesError (Answer UInt32)) : Settled i (call, r) := by
  intro key e hkey
  rw [hsend] at hkey
  cases hkey

/-- A call that goes on adds its result to the history if it comes back. -/
theorem settled_resume {w1 : Session (endpoint backend maximum special)}
    (h : ∀ x, ∀ entry ∈ transcript (w1.history x), Settled x entry) {i : Rank world}
    {op : Operation UInt32 β} {p}
    (hp : ∀ call r, op = .message call → p = .ret r → Settled i (call, r.map Prod.fst)) :
    ∀ x, ∀ entry ∈ transcript ((w1.resume i op p).history x), Settled x entry := by
  intro x entry hentry
  by_cases hx : x = i
  · subst hx
    cases p with
    | ret r =>
      simp only [resume, close_history, Function.update_self, transcript_append] at hentry
      rcases List.mem_append.mp hentry with hentry | hentry
      · exact h x entry hentry
      · cases op with
        | message call =>
          rw [transcript_message] at hentry
          obtain rfl := List.mem_singleton.mp hentry
          exact hp call r rfl rfl
        | other b => cases hentry
    | send dst m k => exact h x entry hentry
    | recv src sel k => exact h x entry hentry
    | exchange dst m src sel k => exact h x entry hentry
    | emit o k => exact h x entry hentry
  · rw [resume_history_of_ne w1 i op p hx] at hentry
    exact h x entry hentry

theorem Timely.settled_take (h : Timely w) {w1 : Session (endpoint backend maximum special)}
    {i j : Rank world} {op sel k} (hcall : w.call i = some (op, .recv j sel k))
    {m : WireFrame UInt32} (hm : m.Between j i) (hwant : sel.stored m = true)
    (hhistory : w1.history = w.history) :
    ∀ x, ∀ entry ∈ transcript ((w1.resume i op (k m)).history x), Settled x entry := by
  apply settled_resume
  · rw [hhistory]
    exact h.settled
  · intro call r hop hret
    subst hop
    obtain ⟨⟨j', hpeer⟩, hcode⟩ := h.tracked.calls i _ _ hcall
    rcases call.frame_or_wants i.val with ⟨f, hf, -⟩ | ⟨key, hkey, -⟩
    · rw [code_send hpeer hf] at hcode
      cases hcode
    · obtain ⟨sel', k', hcode', hstored, -, -, hanswer⟩ := code_recv (g := w.locals i) hpeer hkey
      rw [hcode'] at hcode
      obtain ⟨rfl, rfl, rfl⟩ := Proc.recv.inj hcode
      rw [hstored, decide_eq_true_iff] at hwant
      rw [hanswer m hm hwant] at hret
      obtain rfl := Proc.ret.inj hret
      exact Settled.ok

/-- A message call that sends waits for nothing. -/
theorem Tracked.sends_only (h : Tracked w) {i j : Rank world} {call m k}
    (hcall : w.call i = some (.message call, .send j m k)) : call.wants = none := by
  obtain ⟨⟨j', hpeer⟩, hcode⟩ := h.calls i _ _ hcall
  rcases call.frame_or_wants i.val with ⟨f, -, hnone, -⟩ | ⟨key, hkey, -⟩
  · exact hnone
  · obtain ⟨sel, k', hcode', -⟩ := code_recv (g := w.locals i) hpeer hkey
    rw [hcode'] at hcode
    cases hcode

theorem Timely.settled_step (h : Timely w) (he : OnTime w e) (hfire : Fire e w w') :
    ∀ i, ∀ entry ∈ transcript (w'.history i), Settled i entry := by
  have hord := h.orderly he
  cases hfire with
  | @call _ i op hidle =>
    apply settled_resume h.settled
    intro call r hop hret
    subst hop
    cases hpeer : i.validatePeer call.peer with
    | error err =>
      rw [code_invalid hpeer] at hret
      obtain rfl := Proc.ret.inj hret
      intro key e' _ herr
      exact .inl (hpeer.trans (congrArg _ (Except.error.inj herr)))
    | ok j =>
      rcases call.frame_or_wants i.val with ⟨f, hf, -⟩ | ⟨key, hkey, -⟩
      · rw [code_send hpeer hf] at hret
        cases hret
      · obtain ⟨sel, k, hcode, -⟩ := code_recv (g := w.locals i) hpeer hkey
        rw [hcode] at hret
        cases hret
  | @send _ i j op m k c hcall hpush =>
    apply settled_resume
    · exact h.settled
    · intro call r hop _
      subst hop
      exact Settled.send (h.tracked.sends_only hcall) _
  | @refused _ i j op m k err hcall hpush =>
    apply settled_resume (p := .ret (.error err)) h.settled
    intro call r hop _
    subst hop
    exact Settled.send (h.tracked.sends_only hcall) _
  | @stored _ i j op sel k m q hcall htake =>
    have hwant := ((backend.contents world UInt32).take_some htake).1
    exact h.settled_take hcall (h.tracked.between_stored htake) hwant rfl
  | @fresh _ i j op sel k m c hcall htake hpop hfresh =>
    have hwant := hord.selects i op j sel k m c rfl hcall htake hpop hfresh
    exact h.settled_take hcall (h.tracked.between_fresh hpop) hwant rfl
  | @parked _ i j op sel k m c hcall htake hpop hfresh => exact h.settled
  | @garbled _ i j op sel k err c hcall htake hpop =>
    obtain ⟨read, unread, hbal⟩ := h.tracked.accounted.balanced j i
    obtain ⟨m, rest, -, hm, -⟩ := Link.carries_pop hbal.carries hbal.good_unread hpop
    cases hm
  | @expire _ i j op sel k lost err hcall htake hlate =>
    refine settled_resume (p := .ret (.error err)) ?_ ?_
    · exact h.settled
    · intro call r hop hret
      subst hop
      obtain rfl := Proc.ret.inj hret
      intro key e' hkey herr
      obtain rfl := Except.error.inj herr
      right
      cases call with
      | send destination tag packet => cases hkey
      | sendControl destination tag packet => cases hkey
      | recv source tag =>
        obtain rfl := Option.some.inj hkey
        exact ⟨tag, (Option.some.inj hlate).symm, .inl rfl⟩
      | recvControl source tag =>
        obtain rfl := Option.some.inj hkey
        exact ⟨tag, (Option.some.inj hlate).symm, .inr rfl⟩
  | @overdue _ i j op m k c err hcall hpush hlate =>
    apply settled_resume (p := .ret (.error err)) h.settled
    intro call r hop _
    subst hop
    exact Settled.send (h.tracked.sends_only hcall) _

theorem Timely.step (h : Timely w) (hquiet : Quiet backend maximum special)
    (hwrites : ∀ i g op, Writes op ((endpoint backend maximum special).code i g op))
    (he : OnTime w e) (hfire : Fire e w w') : Timely w' where
  tracked := h.tracked.step hquiet (h.orderly he) hfire
  writes := hfire.inherits hwrites (fun _ _ _ _ _ hp b hb => (hp b hb).2)
    (fun _ _ _ _ _ m hp b hb => (hp b hb).2 m) h.writes
  settled := h.settled_step he hfire

theorem Timely.reached (hquiet : Quiet backend maximum special)
    (hwrites : ∀ i g op, Writes op ((endpoint backend maximum special).code i g op))
    (h : Reaches OnTime (Session.initial (endpoint backend maximum special)) w) : Timely w := by
  induction h with
  | refl => exact ⟨.initial, by simp [Session.initial], by simp [Session.initial, transcript]⟩
  | tail _ hstep ih =>
    obtain ⟨e, he, hfire⟩ := hstep
    exact ih.step hquiet hwrites he hfire

end Timed

/-- A barrier frame that a peer may have written between its packets. -/
structure BarrierNote where
  destination : Nat
  release : Bool
  generation : UInt64

def BarrierNote.frame {α : Type} (rank : Nat) (b : BarrierNote) : WireFrame α :=
  if b.release then .barrierRelease rank b.destination b.generation
  else .barrierArrive rank b.destination b.generation

namespace TcpTransport

variable {world : Nat} {maximum : UInt64}

/-- Writes a barrier frame and does not wait. -/
def writeBarrier (rank : Rank world) (generation : Nat) (b : BarrierNote) :
    Comm world UInt32 Unit Nat := do
  sendFrame rank b.destination (b.frame rank.val)
  pure generation

/-- Endpoints that write frames of every kind and receive packets. -/
abbrev framed (world : Nat) (maximum : UInt64) :
    Service (Rank world) (WireFrame UInt32) CollectivesError :=
  endpoint .tcp maximum fun (rank : Rank world) => writeBarrier rank

theorem code_writeBarrier (i : Rank world) (g : Nat) (b : BarrierNote) :
    (∃ r, (framed world maximum).code i g (.other b) = .ret r) ∨
    ∃ j f r, (framed world maximum).code i g (.other b) = .send j f (.ret r) ∧ f.Between i j ∧
      f.key = .barrier := by
  cases hpeer : i.validatePeer b.destination with
  | error e =>
    left
    refine ⟨.error e, ?_⟩
    simp [writeBarrier, sendFrame, liftExcept, hpeer]
    rfl
  | ok j =>
    right
    have hj := Rank.validatePeer_val hpeer
    refine ⟨j, b.frame i.val, .ok (.done, g), ?_, ?_, ?_⟩
    · simp only [writeBarrier, sendFrame, liftExcept, hpeer]
      rfl
    · unfold BarrierNote.frame
      split_ifs
      · exact ⟨rfl, hj⟩
      · exact ⟨rfl, hj⟩
    · unfold BarrierNote.frame
      split_ifs
      · rfl
      · rfl

theorem quiet_framed : Quiet .tcp maximum fun (rank : Rank world) => writeBarrier rank := by
  intro i g b
  rcases @code_writeBarrier world maximum i g b with ⟨r, hcode⟩ | ⟨j, f, r, hcode, hbetween, hkey⟩
  · rw [hcode]
    trivial
  · rw [hcode]
    exact ⟨⟨hbetween, hkey⟩, trivial⟩

theorem writes_framed (i : Rank world) (g : Nat) (op : Operation UInt32 BarrierNote) :
    Writes op ((framed world maximum).code i g op) := by
  rintro b rfl
  rcases @code_writeBarrier world maximum i g b with ⟨r, hcode⟩ | ⟨j, f, r, hcode, -⟩
  · rw [hcode]
    trivial
  · rw [hcode]
    exact ⟨trivial, trivial⟩

/-- Every timeout strikes between two frames: nothing of the frame that comes next has been taken
off the stream. Tensors have at most 64 dimensions, unless the encoder refuses them anyway. -/
def AtBoundary (w : Session (framed world maximum)) :
    Event (Rank world) (framed world maximum).Op → Prop
  | .call _ _ => True
  | .send i => ∀ op j m k, w.call i = some (op, .send j m k) → m.dimensions ≤ 64 ∨ m.Refused maximum
  | .recv _ => True
  | .expire _ lost => lost = 0

/-- Timeouts at any moment. The bytes that a read has taken when it gives up do not make a whole
frame. -/
def Interrupted (w : Session (framed world maximum)) :
    Event (Rank world) (framed world maximum).Op → Prop
  | .expire i lost => ∀ op j sel k, w.call i = some (op, .recv j sel k) →
      popWire maximum (List.take lost (w.chan j i)) = none
  | e => AtBoundary w e

theorem AtBoundary.onTime {w : Session (framed world maximum)}
    {e : Event (Rank world) (framed world maximum).Op} (h : AtBoundary w e) : OnTime w e where
  good := by
    intro i op j m k c hsend hcall hpush
    subst hsend
    obtain ⟨bytes, hwrite⟩ := writeWire_of_push hpush
    obtain ⟨body, hbody, -⟩ := ok_of_bind hwrite
    exact readable_of_encodeWire hbody (h op j m k hcall)
  boundary := by
    rintro i lost rfl
    exact h

/-- A stream of whole frames begins with the length of the first of them. -/
theorem Carries.length_le {stream : List UInt8} {frame : WireFrame UInt32}
    {frames : List (WireFrame UInt32)} (h : Carries maximum stream (frame :: frames)) :
    leNat (stream.take 8) ≤ maximum.toNat := by
  obtain ⟨chunks, hall, rfl⟩ := h
  cases hall with
  | @cons _ bytes _ chunks hwrite hrest =>
    obtain ⟨body, hbody, hbytes⟩ := ok_of_bind hwrite
    obtain rfl := Except.ok.inj hbytes
    have hlen : (leBytes 8 body.length).length = 8 := length_leBytes 8 _
    have hmax := length_of_encodeWire hbody
    have hbound := maximum.toNat_lt
    have htake : (((leBytes 8 body.length ++ body) :: chunks).flatten).take 8 =
        leBytes 8 body.length := by
      rw [List.flatten_cons, List.append_assoc, List.take_append_of_le_length (by omega),
        List.take_of_length_le (by omega)]
    rw [htake, leNat_leBytes (by omega)]
    exact hmax

end TcpTransport

/-- In memory no step loses anything, whenever a wait expires. -/
theorem InMemoryTransport.onTime {world : Nat} {maximum : UInt64}
    {w w' : Session (endpoints world maximum)} {e : Event (Rank world) (endpoints world maximum).Op}
    (hfire : Fire e w w') : ∃ e', OnTime w e' ∧ Fire e' w w' := by
  have hgood : ∀ m, (Backend.link maximum .inMemory).Good m := fun _ => trivial
  cases e with
  | expire i lost =>
    refine ⟨.expire i 0, ⟨fun _ _ _ m _ _ _ _ _ => hgood m, ?_⟩, ?_⟩
    · rintro i' lost' h
      cases h
      rfl
    · cases hfire with
      | expire hcall htake hlate => exact .expire hcall htake hlate
      | overdue hcall hpush hlate => cases hlate
  | call i op => exact ⟨_, ⟨fun _ _ _ m _ _ _ _ _ => hgood m, fun _ _ h => by cases h⟩, hfire⟩
  | send i => exact ⟨_, ⟨fun _ _ _ m _ _ _ _ _ => hgood m, fun _ _ h => by cases h⟩, hfire⟩
  | recv i => exact ⟨_, ⟨fun _ _ _ m _ _ _ _ _ => hgood m, fun _ _ h => by cases h⟩, hfire⟩

theorem InMemoryTransport.writes {world : Nat} {maximum : UInt64} (i : Rank world) (g : Nat)
    (op : Operation UInt32 Empty) : Writes op ((endpoints world maximum).code i g op) := by
  intro b
  exact b.elim

/-- Timeouts between two frames lose no data, as no timeout does in memory: what is received is
what was sent, in order for every kind and tag, a receive whose packet has been sent comes back
with it, and a receive that failed waited for too long or named an invalid peer. -/
theorem receive_timeout {world : Nat} {maximum : UInt64}
    (w : Session (TcpTransport.framed world maximum))
    (w' : Session (InMemoryTransport.endpoints world maximum))
    (hw : Reaches TcpTransport.AtBoundary (Session.initial _) w)
    (hw' : Reaches (fun _ _ => True) (Session.initial _) w') :
    (Exact w ∧ ∀ i, ∀ entry ∈ transcript (w.history i), Settled i entry) ∧
    (Exact w' ∧ ∀ i, ∀ entry ∈ transcript (w'.history i), Settled i entry) := by
  have hrun : Reaches OnTime (Session.initial _) w := by
    refine Relation.ReflTransGen.mono ?_ _ _ hw
    rintro v v' ⟨e, he, hfire⟩
    exact ⟨e, he.onTime, hfire⟩
  have hrun' : Reaches OnTime (Session.initial _) w' := by
    refine Relation.ReflTransGen.mono ?_ _ _ hw'
    rintro v v' ⟨e, -, hfire⟩
    exact InMemoryTransport.onTime hfire
  have h := Timely.reached TcpTransport.quiet_framed TcpTransport.writes_framed hrun
  have h' := Timely.reached InMemoryTransport.quiet InMemoryTransport.writes hrun'
  exact ⟨⟨h.tracked.exact, h.settled⟩, h'.tracked.exact, h'.settled⟩

theorem noteCall_shallow {w : Session (TcpTransport.framed 2 64)}
    (h : w.call 0 = some (.message noteCall,
      (TcpTransport.framed 2 64).code 0 0 (.message noteCall))) :
    TcpTransport.AtBoundary w (.send 0) := by
  intro op j m k hcall
  obtain ⟨rfl, hsend⟩ := Prod.mk.inj (Option.some.inj (h.symm.trans hcall))
  obtain ⟨-, rfl, -⟩ := Proc.send.inj hsend
  exact .inl (by decide)

/-- Rank 1 gives up once before the packet is sent and asks again. -/
theorem receive_timeout_pair :
    ∃ w : Session (TcpTransport.framed 2 64),
      Reaches TcpTransport.AtBoundary (Session.initial _) w ∧
      w.history 1 = [(.message askCall, .error (.receiveTimeout 1 0 9))] ∧
      ∃ v, Reaches (fun _ e => e = .recv 1) w v ∧ v.history 1 =
        [(.message askCall, .error (.receiveTimeout 1 0 9)),
          (.message askCall, .ok (.control ⟨[0x7b, 0x7d], note_bounded⟩))] := by
  have h1 : Reaches TcpTransport.AtBoundary (Session.initial (TcpTransport.framed 2 64)) _ :=
    .single ⟨.call 1 (.message askCall), trivial, .call rfl⟩
  have h2 := h1.tail ⟨.expire 1 0, rfl, .expire rfl rfl rfl⟩
  have h3 := h2.tail ⟨.call 0 (.message noteCall), trivial, .call rfl⟩
  have h4 := h3.tail ⟨.send 0, noteCall_shallow rfl, .send rfl rfl⟩
  have h5 := h4.tail ⟨.call 1 (.message askCall), trivial, .call rfl⟩
  have hmain := (receive_timeout _ (Session.initial (InMemoryTransport.endpoints 2 64)) h5 .refl).1.1
  refine ⟨_, h5, rfl, ?_⟩
  obtain ⟨answer, v, hrun, -, hv, hanswer⟩ := hmain.returns 0 1 askCall _ (.control ⟨9⟩) rfl rfl rfl
    (by decide)
  obtain rfl := Option.some.inj hanswer
  exact ⟨v, hrun, hv⟩

/-- Three bytes of the packet have arrived when rank 1 gives up. Its next receive takes the rest of
the length and the first bytes of the body for a length: the packet is gone. -/
theorem receive_timeout_misreads :
    ∃ w : Session (TcpTransport.framed 2 64),
      Reaches TcpTransport.Interrupted (Session.initial _) w ∧
      sentBy (0 : Rank 2) 1 (.control ⟨9⟩) (transcript (w.history 0)) =
        [.control 0 1 ⟨9⟩ ⟨[0x7b, 0x7d], note_bounded⟩] ∧
      (∃ text, w.history 1 = [(.message askCall, .error (.receiveTimeout 1 0 9)),
        (.message askCall, .error (.protocol text))]) ∧ ¬ Exact w := by
  have h1 : Reaches TcpTransport.Interrupted (Session.initial (TcpTransport.framed 2 64)) _ :=
    .single ⟨.call 0 (.message noteCall), trivial, .call rfl⟩
  have h2 := h1.tail ⟨.send 0, noteCall_shallow rfl, .send rfl rfl⟩
  have h3 := h2.tail ⟨.call 1 (.message askCall), trivial, .call rfl⟩
  have h4 := h3.tail ⟨.expire 1 3, by
    intro op j sel k hcall
    obtain ⟨rfl, hrecv⟩ := Prod.mk.inj (Option.some.inj hcall)
    obtain ⟨rfl, -, -⟩ := Proc.recv.inj hrecv
    rfl, .expire rfl rfl rfl⟩
  have h5 := h4.tail ⟨.call 1 (.message askCall), trivial, .call rfl⟩
  have h6 := h5.tail ⟨.recv 1, trivial, .garbled rfl rfl rfl⟩
  refine ⟨_, h6, rfl, ⟨_, rfl⟩, ?_⟩
  intro hexact
  obtain ⟨unread, hcarry, hsent⟩ := hexact.present 0 1
  have hkey := hsent (.control ⟨9⟩) (by simp)
  cases unread with
  | nil => cases hkey
  | cons frame frames =>
    have hle := TcpTransport.Carries.length_le hcarry
    exact absurd hle (by decide)

end Dlir.Collectives
