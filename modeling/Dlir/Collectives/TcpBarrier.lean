import Dlir.Collectives.Delivery
import Dlir.Math.Checked
import Dlir.Math.RankFold

namespace Dlir.Collectives

open Dlir.Framework Dlir.Math

/-- The name with which the debug text of a frame starts. -/
def WireFrame.name {α : Type} : WireFrame α → String
  | .tensor _ _ _ _ => "Tensor"
  | .control _ _ _ _ => "Control"
  | .barrierArrive _ _ _ => "BarrierArrive"
  | .barrierRelease _ _ _ => "BarrierRelease"

def WireFrame.isAnyTensor {α : Type} : WireFrame α → Bool
  | .tensor _ _ _ _ => true
  | _ => false

namespace TcpTransport

section Code

variable {world : Nat} {α ω : Type}

def sendFrame (rank : Rank world) (destination : Nat) (frame : WireFrame α) :
    Comm world α ω Unit := do
  let peer ← liftExcept id (rank.validatePeer destination)
  ExceptT.mk (.send peer frame (.ret (.ok ())))

/-- A barrier takes barrier frames from pending. Of the frames it reads it puts aside tensors. -/
def barrierSelector (rank source : Rank world) : Selector (WireFrame α) where
  stored := WireFrame.isBarrier
  fresh f := Backend.tcp.misaddressed rank source f || !f.isAnyTensor

/-- What a barrier makes of the frame it has taken. -/
def barrierFrame (rank source : Rank world) (expectedArrive : Bool) (generation : Nat)
    (frame : WireFrame α) : Except CollectivesError Unit :=
  let unexpected : CollectivesError :=
    .protocol s!"unexpected barrier frame {frame.name}, expected generation {generation}"
  if Backend.tcp.misaddressed rank source frame then .error (misaddressedError rank source frame)
  else match frame with
    | .barrierArrive _ _ actual =>
      if expectedArrive && actual == UInt64.ofNat generation then .ok () else .error unexpected
    | .barrierRelease _ _ actual =>
      if !expectedArrive && actual == UInt64.ofNat generation then .ok () else .error unexpected
    | _ => .error unexpected

def recvBarrier (rank : Rank world) (source : Nat) (expectedArrive : Bool) (generation : Nat) :
    Comm world α ω Unit := do
  let peer ← liftExcept id (rank.validatePeer source)
  ExceptT.mk (.recv peer (barrierSelector rank peer)
    fun f => .ret (barrierFrame rank peer expectedArrive generation f))

/-- The barrier for one generation. It returns the next one. -/
def barrier (rank : Rank world) (generation : Nat) : Comm world α ω Nat := do
  if rank.val = 0 then
    (List.range' 1 (world - 1)).forM fun source => recvBarrier rank source true generation
    (List.range' 1 (world - 1)).forM fun destination =>
      sendFrame rank destination (.barrierRelease 0 destination (.ofNat generation))
  else
    sendFrame rank 0 (.barrierArrive rank.val 0 (.ofNat generation))
    recvBarrier rank 0 false generation
  match checkedAdd generation 1 with
  | some next => pure next
  | none => throw (.protocol "barrier generation overflow")

end Code

/-- Endpoints whose only operation besides messages is the barrier. -/
abbrev endpoints (world : Nat) (maximum : UInt64) :
    Service (Rank world) (WireFrame UInt32) CollectivesError :=
  endpoint .tcp maximum fun (rank : Rank world) generation (_ : Unit) => barrier rank generation

section Shape

variable {world : Nat} {maximum : UInt64}

/-- The code of a barrier call. -/
abbrev BarrierCode (world : Nat) : Type :=
  Proc (Rank world) (WireFrame UInt32) Unit (Except CollectivesError (Answer UInt32 × Nat))

/-- What a barrier call returns when all frames were exchanged. -/
def passed (generation : Nat) : Except CollectivesError (Answer UInt32 × Nat) :=
  match checkedAdd generation 1 with
  | some next => .ok (.done, next)
  | none => .error (.protocol "barrier generation overflow")

/-- All ranks but the root of the barrier. -/
def members (world : Nat) : List (Rank world) := (List.finRange world).filter (·.val ≠ 0)

/-- Rank 0 while it has to release these ranks. -/
def releasing (root : Rank world) (generation : Nat) : List (Rank world) → BarrierCode world
  | [] => .ret (passed generation)
  | d :: rest => .send d (.barrierRelease 0 d.val (.ofNat generation))
      (releasing root generation rest)

/-- Rank 0 while these ranks have not arrived. -/
def collecting (root : Rank world) (generation : Nat) : List (Rank world) → BarrierCode world
  | [] => releasing root generation (members world)
  | s :: rest => .recv s (barrierSelector root s) fun f =>
      match barrierFrame root s true generation f with
      | .ok () => collecting root generation rest
      | .error e => .ret (.error e)

/-- Another rank while it waits for the release by the root. -/
def awaiting (rank root : Rank world) (generation : Nat) : BarrierCode world :=
  .recv root (barrierSelector rank root) fun f =>
    match barrierFrame rank root false generation f with
    | .ok () => .ret (passed generation)
    | .error e => .ret (.error e)

theorem map_val_members : (members world).map Fin.val = List.range' 1 (world - 1) := by
  cases world with
  | zero => rfl
  | succ m =>
    rw [← map_val_others_zero, members, others]
    congr 2
    funext r
    exact decide_eq_decide.mpr (not_congr Fin.val_eq_zero_iff)

theorem mem_members {r : Rank world} : r ∈ members world ↔ r.val ≠ 0 := by
  simp [members]

theorem nodup_members : (members world).Nodup := (List.nodup_finRange world).filter _

/-- The end of a barrier call. -/
def finish (generation : Nat) : Comm world UInt32 Unit Nat :=
  match checkedAdd generation 1 with
  | some next => pure next
  | none => throw (.protocol "barrier generation overflow")

/-- The result of an operation as the endpoint passes it on. -/
def deliver (r : Except CollectivesError Nat) : BarrierCode world :=
  .ret (r.map fun next => (.done, next))

theorem finish_run (generation : Nat) :
    (finish generation : Comm world UInt32 Unit Nat).run.bind deliver = .ret (passed generation) := by
  unfold finish passed
  cases checkedAdd generation 1 <;> rfl

theorem releases_run (root : Rank world) (hroot : root.val = 0) (g : Nat) {rs : List (Rank world)}
    (hrs : ∀ r ∈ rs, r.val ≠ 0) :
    ((rs.map Fin.val).forM (fun destination =>
        sendFrame root destination (.barrierRelease 0 destination (.ofNat g))) >>=
      fun _ => finish g).run.bind deliver = releasing root g rs := by
  induction rs with
  | nil => exact finish_run g
  | cons d rest ih =>
    have hpeer := @Rank.validatePeer_ok world root d.val d.isLt
      (by rw [hroot]; exact hrs d (by simp))
    have hrest := ih fun r hr => hrs r (List.mem_cons_of_mem _ hr)
    rw [releasing, ← hrest, List.map_cons]
    simp only [List.forM, sendFrame, liftExcept, hpeer]
    rfl

theorem arrivals_run (root : Rank world) (hroot : root.val = 0) (g : Nat) {rs : List (Rank world)}
    (hrs : ∀ r ∈ rs, r.val ≠ 0) {rest : Comm world UInt32 Unit Nat}
    (hrest : rest.run.bind deliver = collecting root g []) :
    ((rs.map Fin.val).forM (fun source => recvBarrier root source true g) >>=
      fun _ => rest).run.bind deliver = collecting root g rs := by
  induction rs with
  | nil => exact hrest
  | cons s rs ih =>
    have hpeer := @Rank.validatePeer_ok world root s.val s.isLt
      (by rw [hroot]; exact hrs s (by simp))
    have htail := ih fun r hr => hrs r (List.mem_cons_of_mem _ hr)
    rw [collecting, ← htail, List.map_cons]
    simp only [List.forM, recvBarrier, liftExcept, hpeer]
    show Proc.recv _ _ _ = Proc.recv _ _ _
    congr
    funext f
    cases hf : barrierFrame root s true g f <;> simp [hf] <;> rfl

/-- The code of rank 0: it waits for all others and then releases them. -/
theorem code_root {root : Rank world} (hroot : root.val = 0) (g : Nat) :
    (endpoints world maximum).code root g (.other ()) = collecting root g (members world) := by
  have hmembers : ∀ r ∈ members world, r.val ≠ 0 := fun r hr => mem_members.mp hr
  rw [← arrivals_run root hroot g hmembers (releases_run root hroot g hmembers), map_val_members]
  simp only [barrier, hroot]
  rfl

/-- The code of another rank: it arrives and waits to be released. -/
theorem code_member {rank root : Rank world} (hrank : rank.val ≠ 0) (hroot : root.val = 0) (g : Nat) :
    (endpoints world maximum).code rank g (.other ()) =
      .send root (.barrierArrive rank.val 0 (.ofNat g)) (awaiting rank root g) := by
  have hpeer : rank.validatePeer 0 = .ok root := by
    have hpos : 0 < world := by omega
    rw [Rank.validatePeer_ok hpos (Ne.symm hrank)]
    exact congrArg _ (Fin.ext hroot.symm)
  simp only [barrier, if_neg hrank, sendFrame, recvBarrier, liftExcept, hpeer]
  show Proc.send _ _ _ = Proc.send _ _ _
  congr
  show Proc.recv _ _ _ = Proc.recv _ _ _
  congr
  funext f
  have hfinish := @finish_run world g
  cases hf : barrierFrame rank root false g f with
  | error e => simp [hf]; rfl
  | ok u => simp [hf]; exact hfinish

theorem stored_barrierSelector (rank source : Rank world) (f : WireFrame UInt32) :
    (barrierSelector rank source).stored f = decide (f.key = .barrier) := by
  cases f <;> simp [barrierSelector, WireFrame.isBarrier, WireFrame.key]

/-- The frames that barriers send and the frames that they look for. -/
abbrev BarrierSound (rank : Rank world) (p : BarrierCode world) : Prop :=
  p.Sound (fun j f => f.Between rank j ∧ f.key = .barrier)
    fun _ sel => ∀ f, sel.stored f = decide (f.key = .barrier)

theorem sound_releasing {root : Rank world} (hroot : root.val = 0) (g : Nat)
    (rs : List (Rank world)) : BarrierSound root (releasing root g rs) := by
  induction rs with
  | nil => trivial
  | cons d rest ih => exact ⟨⟨⟨hroot.symm, rfl⟩, rfl⟩, ih⟩

theorem sound_collecting {root : Rank world} (hroot : root.val = 0) (g : Nat)
    (rs : List (Rank world)) : BarrierSound root (collecting root g rs) := by
  induction rs with
  | nil => exact sound_releasing hroot g _
  | cons s rest ih =>
    refine ⟨stored_barrierSelector root s, ?_⟩
    intro f
    cases hf : barrierFrame root s true g f with
    | ok u =>
      simp only [hf]
      exact ih
    | error e =>
      simp only [hf]
      trivial

theorem sound_awaiting (rank root : Rank world) (g : Nat) :
    BarrierSound rank (awaiting rank root g) := by
  refine ⟨stored_barrierSelector rank root, ?_⟩
  intro f
  cases hf : barrierFrame rank root false g f with
  | ok u =>
    simp only [hf]
    trivial
  | error e =>
    simp only [hf]
    trivial

/-- Barriers send barrier frames only and look for nothing else. -/
theorem quiet_barrier : Quiet .tcp maximum
    fun (rank : Rank world) generation (_ : Unit) => barrier rank generation := by
  intro i g b
  by_cases hi : i.val = 0
  · rw [code_root hi]
    exact sound_collecting hi g _
  · have hpos : 0 < world := by omega
    rw [@code_member world maximum i ⟨0, hpos⟩ hi rfl g]
    exact ⟨⟨⟨rfl, rfl⟩, rfl⟩, sound_awaiting i _ g⟩

end Shape

end TcpTransport

end Dlir.Collectives
