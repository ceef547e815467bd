import Dlir.Collectives.Operations
import Dlir.Collectives.PointToPoint
import Dlir.Collectives.Tags
import Dlir.Framework.Stateful

namespace Dlir.Collectives

open Dlir.Framework Dlir.Math

variable {world : Nat} {α ω : Type}

-- The proofs are bracketed so that rewriting does not make the kernel unfold the tag arithmetic.
namespace Native

variable {β γ : Type} (s : NativeCollectives)

@[simp] theorem run_get (f : NativeCollectives → Native world α ω γ) :
    (get >>= f).run.run s = (f s).run.run s := (rfl)

@[simp] theorem run_modify (h : NativeCollectives → NativeCollectives)
    (f : PUnit → Native world α ω γ) : (modify h >>= f).run.run s = (f ⟨⟩).run.run (h s) := (rfl)

@[simp] theorem run_liftExcept_ok {ε : Type} (wrap : ε → CollectivesError) (b : β)
    (f : β → Native world α ω γ) :
    (liftExcept wrap (.ok b) >>= f).run.run s = (f b).run.run s := (rfl)

@[simp] theorem run_liftExcept_error {ε : Type} (wrap : ε → CollectivesError) (e : ε)
    (f : β → Native world α ω γ) :
    (liftExcept wrap (.error e) >>= f).run.run s = .ret (.error (wrap e), s) := (rfl)

@[simp] theorem run_observe (o : ω) (f : Unit → Native world α ω γ) :
    (observe o >>= f).run.run s = .emit o ((f ()).run.run s) := (rfl)

@[simp] theorem run_pure (b : β) :
    (pure b : Native world α ω β).run.run s = .ret (.ok b, s) := (rfl)

@[simp] theorem run_throw (e : CollectivesError) :
    (throw e : Native world α ω β).run.run s = .ret (.error e, s) := (rfl)

theorem run_liftComm (x : Comm world α ω β) :
    (liftComm x).run.run s = x.run.bind fun r => .ret (r, s) := (rfl)

end Native

/-- What identifies a call to `begin`. -/
structure Plan where
  kind : CollectiveKind
  algorithm : CollectiveAlgorithm
  root : Option Nat
  axis : Option Nat

namespace Plan

def checkRoot (world : Nat) : Option Nat → Except CollectivesError Unit
  | some root =>
    if root ≥ world then .error (.collective s!"root rank {root} is outside world size {world}")
    else .ok ()
  | none => .ok ()

def checkAxis (shape : List Nat) : Option Nat → Except CollectivesError Unit
  | some axis =>
    if axis ≥ shape.length then
      .error (.collective s!"axis {axis} is outside tensor rank {shape.length}")
    else .ok ()
  | none => .ok ()

def describe (plan : Plan) (world sequence : Nat) (shape : List Nat) :
    Except CollectivesError CollectiveDescriptor := do
  let _ ← collectiveTag sequence plan.kind 0 0
  checkRoot world plan.root
  checkAxis shape plan.axis
  .ok ⟨sequence, plan.kind, plan.algorithm, plan.root, plan.axis, shape, shape.prod * 4⟩

/-- The answer of `begin` to a tensor of this shape, with the sequence counter after it. Only
the shape matters, so ranks whose inputs agree in shape get the same answer. -/
def accept (plan : Plan) (world next : Nat) (shape : List Nat) :
    Except CollectivesError CollectiveDescriptor × Nat :=
  match elementCount shape with
  | .error e => (.error e, next)
  | .ok _ => match checkedAdd next 1 with
    | none => (.error (.collective "collective sequence overflow"), next)
    | some following => (plan.describe world next shape, following)

end Plan

namespace Plan

variable {plan : Plan} {next following : Nat} {shape : List Nat} {d : CollectiveDescriptor}

/-- What an accepted call satisfies. -/
theorem accept_ok (h : plan.accept world next shape = (.ok d, following)) :
    (elementCount shape).isOk = true ∧ next < 2 ^ 44 ∧ following = next + 1 ∧
      (∀ root, plan.root = some root → root < world) ∧
      (∀ axis, plan.axis = some axis → axis < shape.length) ∧
      d = ⟨next, plan.kind, plan.algorithm, plan.root, plan.axis, shape, shape.prod * 4⟩ := by
  unfold accept at h
  split at h
  · simp at h
  rename_i n hn
  split at h
  · simp at h
  rename_i m hm
  simp only [Prod.mk.injEq] at h
  obtain ⟨hd, rfl⟩ := h
  have hnext : m = next + 1 := by
    rw [checkedAdd] at hm
    split_ifs at hm
    exact (Option.some.inj hm).symm
  unfold describe at hd
  cases htag : collectiveTag next plan.kind 0 0 with
  | error e => rw [htag] at hd; cases hd
  | ok tag =>
    cases hroot : checkRoot world plan.root with
    | error e => rw [htag, hroot] at hd; cases hd
    | ok _ =>
      cases haxis : checkAxis shape plan.axis with
      | error e => rw [htag, hroot, haxis] at hd; cases hd
      | ok _ =>
        rw [htag, hroot, haxis] at hd
        refine ⟨by rw [hn]; rfl, sequence_lt_of_tag htag, hnext, ?_, ?_,
          (Except.ok.inj hd).symm⟩
        · intro root hr
          rw [hr, checkRoot] at hroot
          by_contra hge
          rw [if_pos (by omega)] at hroot
          cases hroot
        · intro axis ha
          rw [ha, checkAxis] at haxis
          by_contra hge
          rw [if_pos (by omega)] at haxis
          cases haxis

end Plan

theorem Tensor.sendable_iff (t : Tensor α) : t.Sendable ↔ (elementCount t.shape).isOk = true := by
  constructor
  · intro h
    rw [Tensor.Sendable] at h
    rw [h]
    rfl
  · intro h
    cases hc : elementCount t.shape with
    | error e => rw [hc] at h; cases h
    | ok n =>
      rw [Tensor.Sendable, elementCount_of_isSome (elementCount_isSome hc), t.size]

theorem ensureF32Cpu_eq (t : Tensor α) :
    ensureF32Cpu t = (elementCount t.shape).map fun _ => () := by
  cases hc : elementCount t.shape with
  | error e =>
    unfold ensureF32Cpu TensorPacket.fromTensor TensorPacket.new
    split
    · rename_i e' he
      obtain rfl := Except.error.inj (he.symm.trans hc)
      rfl
    · rename_i n hn
      cases hn.symm.trans hc
  | ok n =>
    have hs : t.Sendable := (Tensor.sendable_iff t).mpr (by rw [hc]; rfl)
    rw [ensureF32Cpu, TensorPacket.fromTensor_ok hs]
    rfl

theorem Tensor.bytes_eq (t : Tensor α) : t.bytes = t.shape.prod * 4 := by
  rw [Tensor.bytes, Tensor.elemCount, t.size]

namespace Endpoint

variable (self : Endpoint world ω) (tensor : Tensor α) (state : NativeCollectives)

theorem validateRoot_eq (rank : Rank world) (root : Nat) :
    validateRoot rank root = Plan.checkRoot world (some root) := rfl

theorem validateAxis_eq (tensor : Tensor α) (axis : Nat) :
    validateAxis tensor axis = Plan.checkAxis tensor.shape (some axis) := rfl

/-- `begin` answers as `accept` says and notifies the observer of accepted calls only. -/
theorem begin_run (plan : Plan) :
    (self.begin plan.kind plan.algorithm plan.root plan.axis tensor).run.run state =
      match plan.accept world state.nextSequence tensor.shape with
      | (.ok d, following) => .emit (self.observer (.started d))
          (.ret (.ok d, { state with nextSequence := following }))
      | (.error e, following) => .ret (.error e, { state with nextSequence := following }) := by
  obtain ⟨kind, algorithm, root, axis⟩ := plan
  simp only [Endpoint.begin, ensureF32Cpu_eq, tensorBytes_eq, Tensor.bytes_eq, Plan.accept]
  cases hcount : elementCount tensor.shape with
  | error e => rfl
  | ok n =>
    simp only [Except.map, Native.run_liftExcept_ok, Native.run_get]
    cases hnext : checkedAdd state.nextSequence 1 with
    | none => rfl
    | some following =>
      simp only [Native.run_modify, Plan.describe]
      cases htag : collectiveTag state.nextSequence kind 0 0 with
      | error e => rfl
      | ok tag =>
        rw [Native.run_liftExcept_ok]
        cases root with
        | none =>
          cases axis with
          | none => rfl
          | some a =>
            simp only [validateAxis_eq]
            cases Plan.checkAxis tensor.shape (some a) <;> rfl
        | some r =>
          simp only [validateRoot_eq, validateAxis_eq]
          cases Plan.checkRoot world (some r) with
          | error e => rfl
          | ok _ =>
            cases axis with
            | none => rfl
            | some a =>
              dsimp only
              cases Plan.checkAxis tensor.shape (some a) <;> rfl

theorem finish_run (descriptor : CollectiveDescriptor) (output : Option (Tensor α))
    (sentBytes receivedBytes : Nat) :
    (self.finish descriptor output sentBytes receivedBytes).run.run state =
      .emit (self.observer (.completed
        ⟨descriptor, output.map Tensor.shape, sentBytes, receivedBytes⟩))
        (.ret (.ok (), { state with traces := state.traces ++
          [⟨descriptor, output.map Tensor.shape, sentBytes, receivedBytes⟩] })) := rfl

end Endpoint

namespace Group

variable {g : Group world ω} {x : Rank world → Tensor α} {state : Rank world → NativeCollectives}
  {next : Nat} {shape : List Nat} {plan : Plan}

section Begin

variable (hx : ∀ r, (x r).shape = shape) (hstate : ∀ r, (state r).nextSequence = next)

include hx hstate

theorem begin_ok {d : CollectiveDescriptor} {following : Nat}
    (h : plan.accept world next shape = (.ok d, following)) :
    TogetherSt (fun r => (g.endpoint r).begin plan.kind plan.algorithm plan.root plan.axis (x r))
      state (fun r => [g.observer r (.started d)]) (fun _ => .ok d)
      fun r => { state r with nextSequence := following } := by
  unfold TogetherSt
  simp only [Endpoint.begin_run, hx, hstate, h]
  exact Together.solo fun r => .emit (.done _)

theorem begin_error {e : CollectivesError} {following : Nat}
    (h : plan.accept world next shape = (.error e, following)) :
    TogetherSt (fun r => (g.endpoint r).begin plan.kind plan.algorithm plan.root plan.axis (x r))
      state (fun _ => []) (fun _ => .error e)
      fun r => { state r with nextSequence := following } := by
  unfold TogetherSt
  simp only [Endpoint.begin_run, hx, hstate, h]
  exact Together.ret _

end Begin

/-- The trace a completed call leaves on a rank. -/
def trace (d : CollectiveDescriptor) (output : Rank world → Option (Tensor α))
    (sent received : Rank world → Nat) (r : Rank world) : CollectiveTrace :=
  ⟨d, (output r).map Tensor.shape, sent r, received r⟩

theorem finish_together (d : CollectiveDescriptor) (output : Rank world → Option (Tensor α))
    (sent received : Rank world → Nat) :
    TogetherSt (fun r => (g.endpoint r).finish d (output r) (sent r) (received r) )
      state (fun r => [g.observer r (.completed (trace d output sent received r))])
      (fun _ => .ok ())
      fun r => { state r with traces := (state r).traces ++ [trace d output sent received r] } := by
  unfold TogetherSt
  simp only [Endpoint.finish_run]
  exact Together.solo fun r => .emit (.done _)

/-- What follows the checks of a collective: communicate, then finish. -/
theorem complete_together {β : Type} (d : CollectiveDescriptor)
    {core : Rank world → Comm world α ω (β × Nat × Nat)} (output : β → Option (Tensor α))
    {result : Rank world → β} {sent received : Rank world → Nat}
    (hcore : TogetherOk core (fun _ => []) fun r => (result r, sent r, received r)) :
    TogetherSt (fun r => do
        let (value, sent, received) ← liftComm (core r)
        (g.endpoint r).finish d (output value) sent received
        pure value) state
      (fun r => [g.observer r
        (.completed (trace d (fun r => output (result r)) sent received r))])
      (fun r => .ok (result r))
      fun r => { state r with traces := (state r).traces ++
        [trace d (fun r => output (result r)) sent received r] } := by
  refine (TogetherSt.lift hcore _).andThen ?_
  refine (finish_together d (fun r => output (result r)) sent received).observed ?_
  exact TogetherSt.pure _ _

/-- All ranks carry out an accepted call, with these results, leaving one trace each. -/
def Completes {β : Type} (g : Group world ω) (call : Rank world → Native world α ω β)
    (state : Rank world → NativeCollectives) (d : CollectiveDescriptor)
    (output : β → Option (Tensor α)) (result : Rank world → β) : Prop :=
  ∃ sent received : Rank world → Nat, TogetherSt call state
    (fun r => [g.observer r (.started d),
      g.observer r (.completed (trace d (fun r => output (result r)) sent received r))])
    (fun r => .ok (result r))
    fun r => ⟨d.sequence + 1, (state r).traces ++
      [trace d (fun r => output (result r)) sent received r]⟩

/-- The common form of the collectives: begin, check the split, communicate, finish. -/
theorem completes_of_core {β : Type} (core : Rank world → Comm world α ω (β × Nat × Nat))
    (hx : ∀ r, (x r).shape = shape)
    (hstate : ∀ r, (state r).nextSequence = next) {d : CollectiveDescriptor} {following : Nat}
    (h : plan.accept world next shape = (.ok d, following))
    {rest : Rank world → CollectiveDescriptor → Native world α ω β}
    {output : β → Option (Tensor α)} {result : Rank world → β}
    (hrest : ∀ r s, (rest r d).run.run s = (do
        let (value, sent, received) ← liftComm (core r)
        (g.endpoint r).finish d (output value) sent received
        pure value : Native world α ω β).run.run s)
    (hcore : ∃ sent received : Rank world → Nat,
      TogetherOk core (fun _ => []) fun r => (result r, sent r, received r)) :
    g.Completes (fun r => do
        let descriptor ← (g.endpoint r).begin plan.kind plan.algorithm plan.root plan.axis (x r)
        rest r descriptor) state d output result := by
  obtain ⟨sent, received, hcomm⟩ := hcore
  obtain ⟨-, -, hfollowing, -, -, hd⟩ := Plan.accept_ok h
  have hseq : d.sequence + 1 = following := by rw [hd, hfollowing]
  refine ⟨sent, received, ?_⟩
  rw [hseq]
  refine (begin_ok hx hstate h).observed ?_
  unfold TogetherSt
  simp only [hrest]
  exact complete_together d output hcomm

end Group

end Dlir.Collectives
