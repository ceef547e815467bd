import Dlir.Collectives.TcpBarrier

namespace Dlir.Collectives

open Dlir.Framework Dlir.Math Session

namespace TcpTransport

variable {world : Nat} {maximum : UInt64}

/-- The part of a session that belongs to barriers: their generations, code and results, and the
barrier frames on every connection. -/
@[ext] structure Board (world : Nat) where
  generation : Rank world → Nat
  running : Rank world → Option (BarrierCode world)
  results : Rank world → List (Except CollectivesError (Answer UInt32))
  sent : Rank world → Rank world → List (WireFrame UInt32)
  taken : Rank world → Rank world → List (WireFrame UInt32)

namespace Board

/-- A barrier call goes on with this code. -/
def proceed (b : Board world) (i : Rank world) (p : BarrierCode world) : Board world :=
  { b with running := Function.update b.running i (some p) }

/-- A barrier call comes back. -/
def close (b : Board world) (i : Rank world) (r : Except CollectivesError (Answer UInt32 × Nat)) :
    Board world :=
  { b with
    generation := match r with
      | .ok (_, next) => Function.update b.generation i next
      | .error _ => b.generation
    running := Function.update b.running i none
    results := Function.update b.results i (b.results i ++ [r.map Prod.fst]) }

def resume (b : Board world) (i : Rank world) (p : BarrierCode world) : Board world :=
  match p with
  | .ret r => b.close i r
  | p => b.proceed i p

def addSent (b : Board world) (i j : Rank world) (f : WireFrame UInt32) : Board world :=
  { b with sent := set₂ b.sent i j (b.sent i j ++ [f]) }

def addTaken (b : Board world) (i j : Rank world) (f : WireFrame UInt32) : Board world :=
  { b with taken := set₂ b.taken i j (b.taken i j ++ [f]) }

@[simp] theorem proceed_running (b : Board world) (i p) :
    (b.proceed i p).running i = some p := by
  simp [proceed]

@[simp] theorem proceed_generation (b : Board world) (i p) :
    (b.proceed i p).generation = b.generation := rfl

theorem close_proceed (b : Board world) (i p r) : (b.proceed i p).close i r = b.close i r := by
  simp only [close, proceed, Function.update_idem]

@[simp] theorem resume_sent (b : Board world) (i p) : (b.resume i p).sent = b.sent := by
  cases p <;> rfl

@[simp] theorem resume_taken (b : Board world) (i p) : (b.resume i p).taken = b.taken := by
  cases p <;> rfl

/-- What a step of a barrier call does. A frame that is taken is the next one that was sent. -/
inductive Turn (maximum : UInt64) :
    Event (Rank world) (Operation UInt32 Unit) → Board world → Board world → Prop
  | start {b : Board world} {i : Rank world} : b.running i = none →
      Turn maximum (.call i (.other ())) b
        (b.resume i ((endpoints world maximum).code i (b.generation i) (.other ())))
  | send {b : Board world} {i j : Rank world} {m : WireFrame UInt32} {k} {bytes : List UInt8} :
      b.running i = some (.send j m k) → writeWire maximum m = .ok bytes →
      Turn maximum (.send i) b ((b.addSent i j m).resume i k)
  | refused {b : Board world} {i j : Rank world} {m : WireFrame UInt32} {k} {e : CollectivesError} :
      b.running i = some (.send j m k) → writeWire maximum m = .error e →
      Turn maximum (.send i) b (b.close i (.error e))
  | take {b : Board world} {i j : Rank world} {sel : Selector (WireFrame UInt32)} {k}
      {m : WireFrame UInt32} :
      b.running i = some (.recv j sel k) → m.Between j i → b.taken j i ++ [m] <+: b.sent j i →
      Turn maximum (.recv i) b ((b.addTaken j i m).resume i (k m))
  | expire {b : Board world} {i j : Rank world} {sel : Selector (WireFrame UInt32)} {k}
      {lost : Nat} : b.running i = some (.recv j sel k) →
      Turn maximum (.expire i lost) b (b.close i (.error (.barrierTimeout i.val (b.generation i))))
  | overdue {b : Board world} {i j : Rank world} {m : WireFrame UInt32} {k} :
      b.running i = some (.send j m k) →
      Turn maximum (.expire i 0) b (b.close i (.error (.protocol "TCP write deadline expired")))

end Board

/-- What a session looks like to barriers. -/
def board (w : Session (endpoints world maximum)) : Board world where
  generation := w.locals
  running i := match w.call i with
    | some (.other _, p) => some p
    | _ => none
  results i := (w.history i).filterMap fun entry =>
    match entry.1 with
    | .other _ => some entry.2
    | .message _ => none
  sent i j := (w.sent i j).filter (·.key = .barrier)
  taken i j := (w.taken i j).filter (·.key = .barrier)

variable {w w' : Session (endpoints world maximum)}
  {e : Event (Rank world) (endpoints world maximum).Op}

theorem running_board {i : Rank world} {p : BarrierCode world} :
    (board w).running i = some p ↔ w.call i = some (.other (), p) := by
  unfold board
  dsimp only
  constructor
  · intro h
    split at h
    · rename_i b p' hcall
      obtain rfl := Option.some.inj h
      exact hcall
    · cases h
  · intro h
    rw [h]

theorem mem_results_board {i : Rank world} {r : Except CollectivesError (Answer UInt32)} :
    r ∈ (board w).results i ↔ (.other (), r) ∈ w.history i := by
  unfold board
  rw [List.mem_filterMap]
  constructor
  · rintro ⟨⟨op, r'⟩, hmem, heq⟩
    cases op with
    | message call => cases heq
    | other b =>
      obtain rfl := Option.some.inj heq
      exact hmem
  · intro hmem
    exact ⟨_, hmem, rfl⟩

theorem board_close_other (i : Rank world) (r) :
    board (w.close i (.other ()) r) = (board w).close i r := by
  have hrunning : (board (w.close i (.other ()) r)).running =
      Function.update (board w).running i none := by
    funext x
    by_cases hx : x = i
    · subst hx
      simp [board]
    · simp [board, Function.update_of_ne hx]
  have hresults : (board (w.close i (.other ()) r)).results =
      Function.update (board w).results i ((board w).results i ++ [r.map Prod.fst]) := by
    funext x
    by_cases hx : x = i
    · subst hx
      simp [board]
    · simp [board, Function.update_of_ne hx]
  apply Board.ext
  · cases r <;> rfl
  · exact hrunning
  · exact hresults
  · rfl
  · rfl

theorem board_resume_other (i : Rank world) (p : BarrierCode world) :
    board (w.resume i (.other ()) p) = (board w).resume i p := by
  have hproceed : ∀ q, board { w with call := Function.update w.call i (some (.other (), q)) } =
      (board w).proceed i q := by
    intro q
    apply Board.ext
    · rfl
    · funext x
      by_cases hx : x = i
      · subst hx
        simp [board, Board.proceed]
      · simp [board, Board.proceed, Function.update_of_ne hx]
    · rfl
    · rfl
    · rfl
  cases p with
  | ret r => exact board_close_other i r
  | send dst m k => exact hproceed _
  | recv src sel k => exact hproceed _
  | exchange dst m src sel k => exact hproceed _
  | emit o k => exact hproceed _

/-- A message call that comes back is nothing to barriers. -/
theorem board_close_message {i : Rank world} (hidle : (board w).running i = none)
    (call : MessageCall UInt32) {r : Except CollectivesError (Answer UInt32 × Nat)}
    (hr : ∀ answer next, r = .ok (answer, next) → next = w.locals i) :
    board (w.close i (.message call) r) = board w := by
  apply Board.ext
  · cases r with
    | error err => rfl
    | ok result =>
      obtain ⟨answer, next⟩ := result
      obtain rfl := hr answer next rfl
      exact Function.update_eq_self i w.locals
  · funext x
    by_cases hx : x = i
    · subst hx
      rw [hidle]
      simp [board]
    · simp [board, Function.update_of_ne hx]
  · funext x
    by_cases hx : x = i
    · subst hx
      simp [board]
    · simp [board, Function.update_of_ne hx]
  · rfl
  · rfl

/-- A barrier frame that a step takes is the next one that was sent. -/
theorem taken_initial (h : Tracked w) (i j : Rank world) :
    (board w).taken i j <+: (board w).sent i j := by
  obtain ⟨read, unread, hbal⟩ := h.accounted.balanced i j
  have hsent : w.sent i j = read ++ unread := hbal.sent_eq
  have horder := hbal.order Key.barrier
  show (w.taken i j).filter (·.key = .barrier) <+: (w.sent i j).filter (·.key = .barrier)
  rw [hsent, List.filter_append, horder, List.append_assoc]
  exact List.prefix_append _ _

theorem filter_snoc_message {f : WireFrame UInt32} (hf : f.key ≠ .barrier)
    (fs : List (WireFrame UInt32)) :
    (fs ++ [f]).filter (·.key = .barrier) = fs.filter (·.key = .barrier) := by
  simp [hf]

theorem idle_of_message {i : Rank world} {call p} (h : w.call i = some (.message call, p)) :
    (board w).running i = none := by
  simp [board, h]

section Frames

variable {w1 : Session (endpoints world maximum)} {i j : Rank world} {m : WireFrame UInt32}

/-- A barrier frame is added to those that were sent. -/
theorem board_addSent (hm : m.key = .barrier) (hlocals : w1.locals = w.locals)
    (hcalls : w1.call = w.call) (hhistory : w1.history = w.history)
    (hsent : w1.sent = set₂ w.sent i j (w.sent i j ++ [m])) (htaken : w1.taken = w.taken) :
    board w1 = (board w).addSent i j m := by
  apply Board.ext
  · exact hlocals
  · simp only [board, hcalls, Board.addSent]
  · simp only [board, hhistory, Board.addSent]
  · funext x y
    simp only [board, hsent, Board.addSent, set₂_apply]
    split_ifs with hxy
    · obtain ⟨rfl, rfl⟩ := hxy
      simp [hm]
    · rfl
  · simp only [board, htaken, Board.addSent]

/-- A barrier frame is added to those that were taken. -/
theorem board_addTaken (hm : m.key = .barrier) (hlocals : w1.locals = w.locals)
    (hcalls : w1.call = w.call) (hhistory : w1.history = w.history) (hsent : w1.sent = w.sent)
    (htaken : w1.taken = set₂ w.taken j i (w.taken j i ++ [m])) :
    board w1 = (board w).addTaken j i m := by
  apply Board.ext
  · exact hlocals
  · simp only [board, hcalls, Board.addTaken]
  · simp only [board, hhistory, Board.addTaken]
  · simp only [board, hsent, Board.addTaken]
  · funext x y
    simp only [board, htaken, Board.addTaken, set₂_apply]
    split_ifs with hxy
    · obtain ⟨rfl, rfl⟩ := hxy
      simp [hm]
    · rfl

end Frames

/-- Taking a frame looks to barriers like a take of their own, or like nothing. -/
theorem turn_take (h : Tracked w) (h' : Tracked w') {w1 : Session (endpoints world maximum)}
    {i j : Rank world} {op sel k} (hcall : w.call i = some (op, .recv j sel k))
    {m : WireFrame UInt32} (hm : m.Between j i) (hwant : sel.stored m = true)
    (hw' : w' = w1.resume i op (k m)) (hlocals : w1.locals = w.locals)
    (hcalls : w1.call = w.call) (hhistory : w1.history = w.history) (hsent : w1.sent = w.sent)
    (htaken : w1.taken = set₂ w.taken j i (w.taken j i ++ [m])) :
    board w' = board w ∨ Board.Turn maximum (.recv i) (board w) (board w') := by
  have hok := h.calls i _ _ hcall
  cases op with
  | message call =>
    left
    obtain ⟨⟨j', hpeer⟩, hcode⟩ := hok
    rcases call.frame_or_wants i.val with ⟨f, hf, -⟩ | ⟨key, hkey, -, hne⟩
    · rw [code_send hpeer hf] at hcode
      cases hcode
    · obtain ⟨sel', k', hcode', hstored, -, -, hanswer⟩ := code_recv (g := w.locals i) hpeer hkey
      rw [hcode'] at hcode
      obtain ⟨rfl, rfl, rfl⟩ := Proc.recv.inj hcode
      rw [hstored, decide_eq_true_iff] at hwant
      rw [hanswer m hm hwant] at hw'
      have hboard : board w1 = board w := by
        apply Board.ext
        · exact hlocals
        · simp only [board, hcalls]
        · simp only [board, hhistory]
        · simp only [board, hsent]
        · funext x y
          simp only [board, htaken, set₂_apply]
          split_ifs with hxy
          · obtain ⟨rfl, rfl⟩ := hxy
            exact filter_snoc_message (hwant ▸ hne) _
          · rfl
      rw [hw', ← hboard]
      apply board_close_message
      · rw [hboard]
        exact idle_of_message hcall
      · intro answer next hr
        obtain ⟨-, rfl⟩ := Prod.mk.inj (Except.ok.inj hr)
        rw [hlocals]
  | other b =>
    right
    have hbarrier := hok.1 m
    rw [hwant, eq_comm, decide_eq_true_iff] at hbarrier
    have hboard := board_addTaken hbarrier hlocals hcalls hhistory hsent htaken
    have hprefix := taken_initial h' j i
    rw [hw', board_resume_other, hboard] at hprefix ⊢
    apply Board.Turn.take (running_board.mpr hcall) hm
    simpa [Board.addTaken, set₂_apply] using hprefix

theorem turn_send (h : Tracked w) {w1 : Session (endpoints world maximum)}
    {i j : Rank world} {op m k} (hcall : w.call i = some (op, .send j m k)) {c}
    (hpush : (endpoints world maximum).link.push (w.chan i j) m = .ok c)
    (hw' : w' = w1.resume i op k) (hlocals : w1.locals = w.locals)
    (hcalls : w1.call = w.call) (hhistory : w1.history = w.history)
    (hsent : w1.sent = set₂ w.sent i j (w.sent i j ++ [m])) (htaken : w1.taken = w.taken) :
    board w' = board w ∨ Board.Turn maximum (.send i) (board w) (board w') := by
  have hok := h.calls i _ _ hcall
  cases op with
  | message call =>
    left
    obtain ⟨⟨j', hpeer⟩, hcode⟩ := hok
    rcases call.frame_or_wants i.val with ⟨f, hf, -, -, -, hne⟩ | ⟨key, hkey, -⟩
    · rw [code_send hpeer hf] at hcode
      obtain ⟨rfl, rfl, rfl⟩ := Proc.send.inj hcode
      have hboard : board w1 = board w := by
        apply Board.ext
        · exact hlocals
        · simp only [board, hcalls]
        · simp only [board, hhistory]
        · funext x y
          simp only [board, hsent, set₂_apply]
          split_ifs with hxy
          · obtain ⟨rfl, rfl⟩ := hxy
            exact filter_snoc_message hne _
          · rfl
        · simp only [board, htaken]
      rw [hw', ← hboard]
      apply board_close_message
      · rw [hboard]
        exact idle_of_message hcall
      · intro answer next hr
        rw [hlocals]
        exact (Prod.mk.inj (Except.ok.inj hr)).2.symm
    · obtain ⟨sel, k', hcode', -⟩ := code_recv (g := w.locals i) hpeer hkey
      rw [hcode'] at hcode
      cases hcode
  | other b =>
    right
    have hboard := board_addSent hok.1.2 hlocals hcalls hhistory hsent htaken
    obtain ⟨bytes, hwrite⟩ := writeWire_of_push hpush
    rw [hw', board_resume_other, hboard]
    exact .send (running_board.mpr hcall) hwrite

/-- A step is a turn of a barrier call, or nothing to barriers. -/
theorem turn_of_fire (h : Tracked w) (hord : w.Orderly e) (hfire : Fire e w w') :
    board w' = board w ∨ Board.Turn maximum e (board w) (board w') := by
  have h' : Tracked w' := h.step quiet_barrier hord hfire
  cases hfire with
  | @call _ i op hidle =>
    have hrunning : (board w).running i = none := by simp [board, hidle]
    cases op with
    | message call =>
      left
      cases hpeer : i.validatePeer call.peer with
      | error err =>
        rw [code_invalid hpeer]
        exact board_close_message hrunning call (by simp)
      | ok j =>
        have hopen : ∀ q, board { w with
            call := Function.update w.call i (some (.message call, q)) } = board w := by
          intro q
          apply Board.ext
          · rfl
          · funext x
            by_cases hx : x = i
            · subst hx
              rw [hrunning]
              simp [board]
            · simp [board, Function.update_of_ne hx]
          · rfl
          · rfl
          · rfl
        rcases call.frame_or_wants i.val with ⟨f, hf, -⟩ | ⟨key, hkey, -⟩
        · rw [code_send hpeer hf]
          exact hopen _
        · obtain ⟨sel, k, hcode, -⟩ := code_recv hpeer hkey
          rw [hcode]
          exact hopen _
    | other b =>
      right
      rw [board_resume_other]
      exact .start hrunning
  | @send _ i j op m k c hcall hpush =>
    exact turn_send h hcall hpush rfl rfl rfl rfl rfl rfl
  | @refused _ i j op m k err hcall hpush =>
    cases op with
    | message call => exact .inl (board_close_message (idle_of_message hcall) call (by simp))
    | other b =>
      right
      rw [board_close_other]
      cases hwrite : writeWire maximum m with
      | error err' =>
        change (writeWire maximum m).map _ = _ at hpush
        rw [hwrite] at hpush
        obtain rfl := Except.error.inj hpush
        exact .refused (running_board.mpr hcall) hwrite
      | ok bytes =>
        change (writeWire maximum m).map _ = _ at hpush
        rw [hwrite] at hpush
        cases hpush
  | @stored _ i j op sel k m q hcall htake =>
    have hwant := ((Backend.tcp.contents world UInt32).take_some htake).1
    exact turn_take h h' hcall (h.between_stored htake) hwant rfl rfl rfl rfl rfl rfl
  | @fresh _ i j op sel k m c hcall htake hpop hfresh =>
    have hwant := hord.selects i op j sel k m c rfl hcall htake hpop hfresh
    exact turn_take h h' hcall (h.between_fresh hpop) hwant rfl rfl rfl rfl rfl rfl
  | @parked _ i j op sel k m c hcall htake hpop hfresh => exact .inl rfl
  | @garbled _ i j op sel k err c hcall htake hpop =>
    obtain ⟨read, unread, hbal⟩ := h.accounted.balanced j i
    obtain ⟨m, rest, -, hm, -⟩ := Link.carries_pop hbal.carries hbal.good_unread hpop
    cases hm
  | @expire _ i j op sel k lost err hcall htake he =>
    cases op with
    | message call =>
      left
      apply board_close_message
      · exact idle_of_message hcall
      · simp
    | other b =>
      right
      obtain rfl := Option.some.inj he
      rw [board_close_other]
      exact .expire (running_board.mpr hcall)
  | @overdue _ i j op m k c err hcall hpush he =>
    cases op with
    | message call => exact .inl (board_close_message (idle_of_message hcall) call (by simp))
    | other b =>
      right
      obtain rfl := Option.some.inj he
      rw [board_close_other]
      exact .overdue (running_board.mpr hcall)

end TcpTransport

end Dlir.Collectives
