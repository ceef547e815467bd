import Dlir.Collectives.BarrierRuns
import Dlir.Math.Lists

namespace Dlir.Collectives

open Dlir.Framework Dlir.Math Session

namespace TcpTransport

variable {world : Nat} {maximum : UInt64} {w w' : Session (endpoints world maximum)}
  {e : Event (Rank world) (endpoints world maximum).Op} {root : Rank world}

/-- A barrier call that has exchanged all its frames. -/
def barrierCompleted (entry : Operation UInt32 Unit × Except CollectivesError (Answer UInt32)) :
    Bool := barrierEntry completed entry

theorem round_board (r : Rank world) :
    (board w).round r = (w.history r).countP barrierCompleted := by
  rw [Board.round, Barriers.countP_results]
  rfl

/-- On a connection with the root the packets before a barrier frame are those of the calls
before that barrier. -/
def Aligned (root : Rank world) (w : Session (endpoints world maximum)) : Prop :=
  ∀ i j, i ≠ j → (i = root ∨ j = root) → ∀ n key, key ≠ .barrier →
    (upTo (·.key = .barrier) n (w.sent i j)).filter (·.key = key) =
      sentBy i j key (transcript (upTo barrierCompleted n (w.history i)))

section Aligned

variable {i j : Rank world} {key : Key}
  {history more : List (Operation UInt32 Unit × Except CollectivesError (Answer UInt32))}

theorem sentBy_nothing (hmore : ∀ entry ∈ more, sentBy i j key (transcript [entry]) = []) :
    sentBy i j key (transcript more) = [] := by
  induction more with
  | nil => rfl
  | cons entry more ih =>
    rw [← List.singleton_append, transcript_append, sentBy_append, hmore entry List.mem_cons_self,
      ih fun entry hentry => hmore entry (List.mem_cons_of_mem _ hentry)]
    rfl

/-- Calls that sent nothing to a rank change nothing in what was sent to it before a barrier. -/
theorem sentBy_upTo_append (hmore : ∀ entry ∈ more, sentBy i j key (transcript [entry]) = [])
    (n : Nat) : sentBy i j key (transcript (upTo barrierCompleted n (history ++ more))) =
      sentBy i j key (transcript (upTo barrierCompleted n history)) := by
  have hnone : ∀ m, sentBy i j key (transcript (upTo barrierCompleted m more)) = [] := by
    intro m
    apply sentBy_nothing
    intro entry hentry
    exact hmore entry ((upTo_initial _ m more).subset hentry)
  rw [upTo_append]
  split_ifs with hle
  · rw [transcript_append, sentBy_append, hnone, List.append_nil, upTo_of_le hle]
  · rfl

/-- A barrier frame is not among the packets before a barrier. -/
theorem filter_upTo_barrier {f : WireFrame UInt32} (hf : f.key = .barrier) (hkey : key ≠ .barrier)
    (n : Nat) (fs : List (WireFrame UInt32)) :
    (upTo (·.key = .barrier) n (fs ++ [f])).filter (·.key = key) =
      (upTo (·.key = .barrier) n fs).filter (·.key = key) := by
  have hne : ¬ f.key = key := fun h => hkey (h ▸ hf)
  have hnone : ∀ m, (upTo (·.key = .barrier) m [f]).filter (·.key = key) = [] := by
    intro m
    rw [List.filter_eq_nil_iff]
    intro x hx
    obtain rfl := List.mem_singleton.mp ((upTo_initial _ m [f]).subset hx)
    simpa using hne
  rw [upTo_append]
  split_ifs with hle
  · rw [List.filter_append, hnone, List.append_nil, upTo_of_le hle]
  · rfl

/-- While a rank is in no barrier, it has sent as many barrier frames on a connection with the
root as it has gone through barriers. -/
theorem Barriers.countP_sent (h : Barriers root w) (hidle : (board w).running i = none)
    (hij : i ≠ j) (hroot : i = root ∨ j = root) :
    (w.sent i j).countP (·.key = .barrier) = (w.history i).countP barrierCompleted := by
  obtain ⟨ph, hprotocol⟩ := h.protocol
  have hph := hprotocol.idle_of_running hidle
  have hlen : ((board w).sent i j).length = (board w).round i := by
    rcases hroot with rfl | rfl
    · have hreleased := (hprotocol.ties.released j (Ne.symm hij)).1
      rw [hph] at hreleased
      exact hreleased
    · have harrived := (hprotocol.ties.arrived i hij).1
      rw [hph] at harrived
      exact harrived
  rw [← round_board, ← hlen, List.countP_eq_length_filter]
  rfl

end Aligned

theorem Aligned.initial : Aligned root (Session.initial (endpoints world maximum)) := by
  intro i j _ _ n key _
  cases n <;> rfl

/-- A rank that sends a packet is in no barrier. -/
theorem idle_of_sent (h : Tracked w) (hfire : Fire e w w') {i j : Rank world} {f : WireFrame UInt32}
    (hsent : w'.sent i j = w.sent i j ++ [f]) (hf : f.key ≠ .barrier) :
    (board w).running i = none := by
  rcases hfire.sent_cases i j with hsame | ⟨op, m, k, c, -, hcall, -, hmore⟩
  · rw [hsame] at hsent
    simp at hsent
  · rw [hsent] at hmore
    obtain rfl : f = m := by simpa using hmore
    cases op with
    | message call => exact idle_of_message hcall
    | other b => exact absurd (h.calls i _ _ hcall).1.2 hf

/-- What a step adds to the calls of a rank says which packets it has sent. -/
theorem Aligned.step (h : Aligned root w) (hb : Barriers root w) (hord : w.Orderly e)
    (hfire : Fire e w w') : Aligned root w' := by
  intro x y hxy hroot n key hkey
  have hbefore := h x y hxy hroot n key hkey
  cases hb.tracked.effect hord hfire with
  | silent i ops hrecords hops hhistory =>
    have hsent : (upTo (·.key = .barrier) n (w'.sent x y)).filter (·.key = key) =
        (upTo (·.key = .barrier) n (w.sent x y)).filter (·.key = key) := by
      rcases hfire.sent_cases x y with hsame | ⟨op, m, k, c, -, -, -, hmore⟩
      · rw [hsame]
      · rw [hmore]
        apply filter_upTo_barrier _ hkey
        by_contra hm
        have hfilter := (hrecords x y m.key hm).1
        rw [hmore] at hfilter
        simp at hfilter
    rw [hsent, hbefore, hhistory]
    by_cases hx : x = i
    · subst hx
      rw [Function.update_self, sentBy_upTo_append]
      intro entry hentry
      apply sentBy_failed
      apply failed_of_transcript
      intro entry' hentry'
      obtain rfl := List.mem_singleton.mp hentry'
      exact hops entry' hentry
    · rw [Function.update_of_ne hx]
  | sends i j call f hpeer hf hsent htaken hhistory =>
    rw [hsent, hhistory, set₂_apply]
    by_cases hx : x = i
    · subst hx
      rw [Function.update_self]
      by_cases hy : y = j
      · subst hy
        have hne : f.key ≠ .barrier := by
          rcases call.frame_or_wants x.val with ⟨f', hf', -, -, -, hne⟩ | ⟨key', -, hnone, -⟩
          · rw [hf] at hf'
            exact Option.some.inj hf' ▸ hne
          · rw [hf] at hnone
            cases hnone
        have hmore : w'.sent x y = w.sent x y ++ [f] := by
          rw [hsent, set₂_apply, if_pos ⟨rfl, rfl⟩]
        have hcount := hb.countP_sent (idle_of_sent hb.tracked hfire hmore hne) hxy hroot
        rw [if_pos ⟨rfl, rfl⟩, upTo_append, upTo_append, hcount]
        split_ifs with hle
        · rw [upTo_of_le (hcount ▸ hle), upTo_of_le hle] at hbefore
          simp only [upTo, hne, barrierCompleted, barrierEntry, decide_false, Bool.false_eq_true,
            if_false]
          rw [List.filter_append, hbefore, transcript_append, sentBy_append, transcript_message,
            sentBy_message, hpeer, if_pos rfl, hf]
          by_cases hfk : f.key = key <;> simp [hfk, Option.filter]
        · exact hbefore
      · rw [if_neg fun hpair => hy hpair.2, hbefore, sentBy_upTo_append]
        intro entry hentry
        obtain rfl := List.mem_singleton.mp hentry
        have hne : ¬ j.val = y.val := fun heq => hy (Fin.ext heq.symm)
        rw [transcript_message, sentBy_message, hpeer, if_neg hne]
        rfl
    · rw [Function.update_of_ne hx, if_neg fun hpair => hx hpair.1, hbefore]
  | takes i j call f hpeer hf hsent htaken hhistory =>
    rw [hsent, hbefore, hhistory]
    by_cases hx : x = i
    · subst hx
      have hnone : call.frame x.val = none := by
        rcases call.frame_or_wants x.val with ⟨f', -, hnone, -⟩ | ⟨key', -, hnone, -⟩
        · rw [hf] at hnone
          cases hnone
        · exact hnone
      rw [Function.update_self, sentBy_upTo_append]
      intro entry hentry
      obtain rfl := List.mem_singleton.mp hentry
      rw [transcript_message, sentBy_message, hnone]
      simp
    · rw [Function.update_of_ne hx]

/-- While a rank is in a barrier it has received every control packet that was sent to it before
the sender went through the same barrier. -/
def Uncrossed (w : Session (endpoints world maximum)) : Prop :=
  ∀ i j p tag, w.call j = some (.other (), p) →
    (sentBy i j (.control tag) (transcript (upTo barrierCompleted
      ((w.history j).countP barrierCompleted) (w.history i)))).length ≤
    (returnedTo i (.control tag) (transcript (w.history j))).length

/-- A rank that waits in a barrier has taken one barrier frame from the other end for each
barrier it has gone through. -/
theorem Barriers.countP_taken (h : Barriers root w) (hzero : root.val = 0) {i j : Rank world}
    {sel k} (hcall : w.call i = some (.other (), .recv j sel k)) :
    j ≠ i ∧ (j = root ∨ i = root) ∧
      ((board w).taken j i).length = (w.history i).countP barrierCompleted := by
  obtain ⟨ph, hprotocol⟩ := h.protocol
  obtain ⟨ph', h', ⟨hi, rfl, hph, -⟩ | ⟨rfl, rest, hph, -⟩⟩ :=
    hprotocol.phase_of_recv hzero (running_board.mpr hcall)
  · have hfreed := h'.ties.freed i hi
    rw [hph] at hfreed
    exact ⟨Ne.symm hi, .inl rfl, by rw [← round_board]; exact hfreed⟩
  · have hof := h'.of i
    rw [hph] at hof
    have hj : j ≠ i := by
      rintro rfl
      exact mem_members.mp (hof.2.subset List.mem_cons_self) hzero
    have hcollected := h'.ties.collected j hj
    rw [hph] at hcollected
    simp only [Phase.collected, List.mem_cons_self, if_true, Nat.add_zero] at hcollected
    exact ⟨hj, .inr rfl, by rw [← round_board]; exact hcollected⟩

/-- A barrier does not meet a control frame unless a control packet crosses it. -/
theorem Uncrossed.control (hu : Uncrossed w) (hb : Barriers root w) (ha : Aligned root w)
    (hzero : root.val = 0) {i j : Rank world} {sel k} {m : WireFrame UInt32} {c} {tag : MessageTag}
    (hcall : w.call i = some (.other (), .recv j sel k))
    (htake : (endpoints world maximum).box.take (w.mail i) j sel.stored = none)
    (hpop : (endpoints world maximum).link.pop (w.chan j i) = some (.ok m, c)) :
    m.key ≠ .control tag := by
  intro hm
  obtain ⟨hji, hroot, hcount⟩ := hb.countP_taken hzero hcall
  have hcrossed := hu j i _ tag hcall
  obtain ⟨read, unread, hbal⟩ := hb.tracked.accounted.balanced j i
  obtain ⟨rest, rfl, -⟩ := hbal.pop hpop
  have hsent : w.sent j i = read ++ m :: rest := hbal.sent_eq
  -- no barrier frame is pending, so those that were read are those that were taken
  have hread : read.countP (·.key = .barrier) = (w.history i).countP barrierCompleted := by
    have hnone := (Backend.tcp.contents world UInt32).take_none htake
    have hkept : ((Backend.tcp.contents world UInt32).of (w.mail i) j).filter
        (·.key = .barrier) = [] := by
      rw [List.filter_eq_nil_iff]
      intro f hf
      have hstored := hnone f hf
      rw [hb.selector hzero hcall, stored_barrierSelector] at hstored
      simpa using hstored
    have horder := hbal.order Key.barrier
    rw [← hcount, List.countP_eq_length_filter, horder, List.length_append]
    show _ + (((Backend.tcp.contents world UInt32).of (w.mail i) j).filter _).length = _
    rw [hkept]
    rfl
  have haligned := ha j i hji hroot ((w.history i).countP barrierCompleted) (.control tag) nofun
  rw [← haligned, hsent, upTo_append, if_pos (le_of_eq hread)] at hcrossed
  have hkeep : (upTo (·.key = .barrier) ((w.history i).countP barrierCompleted -
      read.countP (·.key = .barrier)) (m :: rest)) =
      m :: upTo (·.key = .barrier) ((w.history i).countP barrierCompleted -
      read.countP (·.key = .barrier)) rest := by
    simp [upTo, hm]
  have htaken := congrArg List.length (hb.tracked.taken_eq j i (.control tag) nofun)
  have horder := congrArg List.length (hbal.order (.control tag))
  rw [hkeep] at hcrossed
  simp only [List.filter_append, List.filter_cons, hm, decide_true, if_true, List.length_append,
    List.length_cons, List.length_map] at hcrossed htaken horder
  simp only [flow] at horder
  omega

section Safety

variable {b : Board world} {ph : Rank world → Phase world}

/-- Whether a rank is in a barrier call. -/
def Board.busy (b : Board world) (r : Rank world) : Nat := if (b.running r).isSome then 1 else 0

theorem Protocol.busy_of (h : Protocol root b ph) {r : Rank world} (hph : ph r ≠ .idle) :
    b.busy r = 1 := by
  cases hrunning : b.running r with
  | none => exact absurd (h.idle_of_running hrunning) hph
  | some p => simp [Board.busy, hrunning]

theorem Protocol.arrived_le (h : Protocol root b ph) (r : Rank world) :
    (ph r).arrived ≤ b.busy r := by
  by_cases hph : ph r = .idle
  · rw [hph]
    exact Nat.zero_le _
  · rw [h.busy_of hph]
    cases ph r <;> simp [Phase.arrived]

theorem Protocol.released_le (h : Protocol root b ph) (r : Rank world) :
    (ph root).released r ≤ b.busy root := by
  by_cases hph : ph root = .idle
  · rw [hph]
    exact Nat.zero_le _
  · rw [h.busy_of hph]
    cases ph root with
    | releasing rest =>
      simp only [Phase.released]
      split_ifs <;> omega
    | _ => simp [Phase.released]

/-- The root releases ranks only after it has collected all. -/
theorem Phase.released_le_collected (p : Phase world) (r s : Rank world) :
    p.released r ≤ p.collected s := by
  cases p with
  | releasing rest =>
    simp only [Phase.released, Phase.collected]
    split_ifs <;> omega
  | _ => simp [Phase.released, Phase.collected]

/-- No rank is further than every other rank has come, counting barriers that are not over. -/
theorem Protocol.round_le (h : Protocol root b ph) (r s : Rank world) :
    b.round r ≤ b.round s + b.busy s := by
  have hreleased := h.released_le r
  have harrived := h.arrived_le s
  have hboth := (ph root).released_le_collected r s
  by_cases hs : s = root
  · subst hs
    by_cases hr : r = s
    · rw [hr]
      omega
    · have hmember := h.ties.round_member hr
      omega
  · have hroot := h.ties.round_root hs
    by_cases hr : r = root
    · rw [hr]
      omega
    · have hmember := h.ties.round_member hr
      omega

end Safety

/-- What barriers guarantee at every moment: nobody returns before all have entered, the
generations differ by at most one, a barrier fails only when its generation overflows or when
its rank has no place in the wire format, and packets are delivered exactly. -/
structure BarrierSafe (w : Session (endpoints world maximum)) : Prop where
  passed : ∀ r, w.locals r = barriersPassed (w.history r)
  entered : ∀ r s g, g < barriersPassed (w.history r) → g < barriersPassed (w.history s) ∨
    (barriersPassed (w.history s) = g ∧ ∃ p, w.call s = some (.other (), p))
  counters : ∀ r s, w.locals r ≤ w.locals s + 1
  results : ∀ (r : Rank world) x, (.other (), x) ∈ w.history r → x = .ok .done ∨
    x = .error overflow ∨ 2 ^ 32 ≤ r.val ∧ x = .error (.protocol "source rank does not fit u32")
  expected : ∀ (r : Rank world) (name : String) (g : Nat), (.other (), .error (.protocol
    s!"unexpected barrier frame {name}, expected generation {g}")) ∉ w.history r
  exact : Exact w

theorem unexpected_ne (name : String) (g : Nat) {message : String}
    (hhead : message.toList.head? ≠ some 'u') :
    CollectivesError.protocol s!"unexpected barrier frame {name}, expected generation {g}" ≠
      .protocol message := by
  intro heq
  rw [← CollectivesError.protocol.inj heq] at hhead
  simp [toString] at hhead

theorem Barriers.results (h : Barriers root w) (r : Rank world)
    (x : Except CollectivesError (Answer UInt32)) (hx : (.other (), x) ∈ w.history r) :
    x = .ok .done ∨ x = .error overflow ∨
      2 ^ 32 ≤ r.val ∧ x = .error (.protocol "source rank does not fit u32") := by
  obtain ⟨ph, hprotocol⟩ := h.protocol
  have houtcome := hprotocol.results r x (mem_results_board.mpr hx)
  cases houtcome with
  | done => exact .inl rfl
  | overflow => exact .inr (.inl rfl)
  | refused hbound => exact .inr (.inr ⟨hbound, rfl⟩)

theorem Barriers.generation_le (h : Barriers root w) (r s : Rank world) :
    (board w).generation r ≤ min ((board w).round s + (board w).busy s) lastGeneration ∧
      (board w).generation s = min ((board w).round s) lastGeneration := by
  obtain ⟨ph, hprotocol⟩ := h.protocol
  have hround := hprotocol.round_le r s
  have hr := hprotocol.generation r
  have hs := hprotocol.generation s
  exact ⟨by omega, hs⟩

theorem Board.busy_le (b : Board world) (s : Rank world) : b.busy s ≤ 1 := by
  unfold Board.busy
  split_ifs <;> omega

theorem Barriers.safe (h : Barriers root w) : BarrierSafe w where
  passed := h.passed
  entered := by
    intro r s g hg
    have hr : (board w).generation r = barriersPassed (w.history r) := h.passed r
    have hpassed : (board w).generation s = barriersPassed (w.history s) := h.passed s
    obtain ⟨hle, hs⟩ := h.generation_le r s
    cases hrunning : (board w).running s with
    | none =>
      have hbusy : (board w).busy s = 0 := by simp [Board.busy, hrunning]
      left
      omega
    | some p =>
      have hbusy := (board w).busy_le s
      by_cases hlt : g < barriersPassed (w.history s)
      · exact .inl hlt
      · exact .inr ⟨by omega, p, running_board.mp hrunning⟩
  counters := by
    intro r s
    have hbusy := (board w).busy_le s
    obtain ⟨hle, hs⟩ := h.generation_le r s
    show (board w).generation r ≤ (board w).generation s + 1
    omega
  results := h.results
  expected := by
    intro r name g hmem
    rcases h.results r _ hmem with heq | heq | ⟨-, heq⟩
    · cases heq
    · exact unexpected_ne name g (by decide) (Except.error.inj heq)
    · exact unexpected_ne name g (by decide) (Except.error.inj heq)
  exact := h.tracked.exact

/-- Steps of runs in which no control packet crosses a barrier and no wait expires. -/
structure Peaceful (w : Session (endpoints world maximum))
    (e : Event (Rank world) (endpoints world maximum).Op) : Prop where
  uncrossed : Uncrossed w
  punctual : ∀ i lost, e ≠ .expire i lost

theorem Barriers.step_peaceful (h : Barriers root w) (ha : Aligned root w)
    (hzero : root.val = 0) (hmax : 64 ≤ maximum.toNat) (he : Peaceful w e) (hshallow : Shallow w e)
    (hfire : Fire e w w') : Barriers root w' ∧ Aligned root w' := by
  have hundisturbed : Undisturbed w e := by
    constructor
    · exact hshallow
    · intro i j sel k m c tag _ hcall htake hpop
      exact he.uncrossed.control h ha hzero hcall htake hpop
    · intro i lost hexpire
      exact absurd hexpire (he.punctual i lost)
  exact ⟨h.step hzero hmax hundisturbed he.punctual hfire,
    ha.step h (h.orderly hzero hundisturbed) hfire⟩

/-- Barriers are safe for every number of ranks, every schedule and any number of generations,
with any tensor traffic around them. -/
theorem barrier_safety (hworld : 0 < world) (hmax : 64 ≤ maximum.toNat)
    (h : Reaches (fun w e => Peaceful w e ∧ Shallow w e)
      (Session.initial (endpoints world maximum)) w) : BarrierSafe w := by
  have hinvariant : Barriers ⟨0, hworld⟩ w ∧ Aligned ⟨0, hworld⟩ w := by
    induction h with
    | refl => exact ⟨.initial _, .initial⟩
    | tail _ hstep ih =>
      obtain ⟨e, ⟨he, hshallow⟩, hfire⟩ := hstep
      exact ih.1.step_peaceful ih.2 rfl hmax he hshallow hfire
  exact hinvariant.1.safe

/-- Without message calls nothing crosses a barrier. -/
theorem uncrossed_of_quiet (h : ∀ i, transcript (w.history i) = []) : Uncrossed w := by
  intro i j p tag _
  have hnone : ∀ n, transcript (upTo barrierCompleted n (w.history i)) = [] := by
    intro n
    obtain ⟨rest, hrest⟩ := upTo_initial barrierCompleted n (w.history i)
    have hall := h i
    rw [← hrest, transcript_append] at hall
    exact (List.append_eq_nil_iff.mp hall).1
  rw [hnone]
  exact Nat.zero_le _

theorem uncrossed_of_idle (h : ∀ j, (board w).running j = none) : Uncrossed w := by
  intro i j p tag hcall
  have hidle := h j
  rw [running_board.mpr hcall] at hidle
  cases hidle

/-- Rank 1 arrives, rank 0 collects the arrival and returns. -/
theorem barrier_safety_pair : ∃ w : Session (endpoints 2 64),
    barriersPassed (w.history 0) = 1 ∧ barriersPassed (w.history 1) = 0 ∧ BarrierSafe w := by
  have hstep : ∀ {w : Session (endpoints 2 64)} {e}, (∀ i, transcript (w.history i) = []) →
      (∀ i lost, e ≠ .expire i lost) → Shallow w e → Peaceful w e ∧ Shallow w e :=
    fun h hpunctual hshallow => ⟨⟨uncrossed_of_quiet h, hpunctual⟩, hshallow⟩
  have h1 : Reaches (fun w e => Peaceful w e ∧ Shallow w e) (Session.initial (endpoints 2 64)) _ :=
    .single ⟨.call 1 (.other ()), hstep (fun _ => rfl) nofun nofun,
      fire_barrier rfl (@code_member 2 64 1 0 (by decide) rfl 0)⟩
  have h2 := h1.tail ⟨.send 1, hstep (fun _ => rfl) nofun
    (undisturbed_send rfl (by decide)).shallow, .send rfl rfl⟩
  have h3 := h2.tail ⟨.call 0 (.other ()), hstep (fun _ => rfl) nofun nofun,
    fire_barrier rfl (@code_root 2 64 0 rfl 0)⟩
  have h4 := h3.tail ⟨.recv 0, hstep (fun _ => rfl) nofun nofun, .fresh rfl rfl rfl rfl⟩
  have h5 := h4.tail ⟨.send 0, hstep (fun _ => rfl) nofun
    (undisturbed_send rfl (by decide)).shallow, .send rfl rfl⟩
  have hsafe := barrier_safety (by decide) (by decide) h5
  change BarrierSafe (Session.close _ 0 (.other ()) (passed 0)) at hsafe
  rw [passed_zero] at hsafe
  exact ⟨_, rfl, rfl, hsafe⟩

theorem carries_nil {frames : List (WireFrame UInt32)} (h : Carries maximum [] frames) :
    frames = [] := by
  cases frames with
  | nil => rfl
  | cons f frames =>
    obtain ⟨r, c, hpop, -⟩ := (link maximum).pop_cons h
    cases hpop

theorem deepPacket_count : elementCount (List.replicate 65 1) = .ok ([0] : List UInt32).length := by
  decide +kernel

/-- A tensor of 65 dimensions of length one, which rank 1 sends to rank 0. -/
def deepPacket : TensorPacket UInt32 := ⟨List.replicate 65 1, [0], deepPacket_count⟩

theorem deepPacket_frame : WireFrame.tensor 1 0 ⟨7⟩ deepPacket = deepFrame := rfl

theorem link_pop (stream : List UInt8) : (link maximum).pop stream = popWire maximum stream := rfl

/-- A frame that is written and cannot be decoded is gone after it was read. -/
theorem pushed_undecodable {f : WireFrame UInt32} {body : List UInt8} {e : CollectivesError}
    (hencode : encodeWire f maximum = .ok body) (hdecode : decodeWire body = .error e) :
    ∃ bytes : List UInt8, (link maximum).push [] f = .ok bytes ∧
      (link maximum).pop bytes = some (.error e, []) := by
  refine ⟨leBytes 8 body.length ++ body, ?_, ?_⟩
  · show (writeWire maximum f).map _ = _
    rw [writeWire_ok hencode]
    rfl
  · have hpop := popWire_body (length_of_encodeWire hencode) []
    rw [hdecode, List.append_nil] at hpop
    rw [link_pop, hpop]

/-- The tensor is sent, the receive for it fails, and it is in no channel or queue any more. -/
theorem barrier_safety_deep : ∃ w : Session (endpoints 2 1024),
    Reaches Peaceful (Session.initial _) w ∧
    w.history 1 = [(.message (.send 0 ⟨7⟩ deepPacket), .ok .done)] ∧
    w.history 0 = [(.message (.recv 1 ⟨7⟩), .error (.protocol
      "tensor has 65 dimensions; maximum is 64"))] ∧ ¬ BarrierSafe w := by
  obtain ⟨bytes, hpush, hpop⟩ :=
    pushed_undecodable encodeWire_deepFrame decodeWire_deepFrame
  rw [← deepPacket_frame] at hpush
  have hidle : ∀ {w : Session (endpoints 2 1024)} {e}, (∀ j, (board w).running j = none) →
      (∀ i lost, e ≠ .expire i lost) → Peaceful w e :=
    fun h hpunctual => ⟨uncrossed_of_idle h, hpunctual⟩
  have h1 : Reaches Peaceful (Session.initial (endpoints 2 1024)) _ :=
    .single ⟨.call 1 (.message (.send 0 ⟨7⟩ deepPacket)), hidle (fun _ => rfl) nofun, .call rfl⟩
  have h2 := h1.tail ⟨.send 1, hidle (Fin.forall_fin_two.mpr ⟨rfl, rfl⟩) nofun, .send rfl hpush⟩
  have h3 := h2.tail ⟨.call 0 (.message (.recv 1 ⟨7⟩)),
    hidle (Fin.forall_fin_two.mpr ⟨rfl, rfl⟩) nofun, .call rfl⟩
  have h4 := h3.tail ⟨.recv 0, hidle (Fin.forall_fin_two.mpr ⟨rfl, rfl⟩) nofun,
    .garbled rfl rfl hpop⟩
  refine ⟨_, h4, rfl, rfl, ?_⟩
  intro hsafe
  obtain ⟨unread, hcarries, hpresent⟩ := hsafe.exact.present 1 0
  obtain rfl := carries_nil hcarries
  have hlen := congrArg List.length (hpresent (.tensor ⟨7⟩) nofun)
  change 1 = 0 at hlen
  cases hlen

end TcpTransport

end Dlir.Collectives
