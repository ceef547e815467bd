import Dlir.Collectives.Pairwise

namespace Dlir.Collectives

open Dlir.Framework Dlir.Math

variable {world : Nat} {α ω : Type}

namespace Call

def plan : Call → Plan
  | broadcast root => ⟨.broadcast, .direct, some root, none⟩
  | reduce root => ⟨.reduce, .centralized, some root, none⟩
  | allGather axis => ⟨.allGather, .centralized, some 0, some axis⟩
  | allReduce .centralized => ⟨.allReduce, .centralized, some 0, none⟩
  | allReduce .ring => ⟨.allReduce, .ring, none, none⟩
  | reduceScatter axis => ⟨.reduceScatter, .centralized, some 0, some axis⟩
  | allToAll axis => ⟨.allToAll, .pairwise, none, some axis⟩

/-- The rejection of a tensor that does not split evenly. -/
def checkSplit (world : Nat) (shape : List Nat) : Call → Except CollectivesError Unit
  | reduceScatter axis =>
    if shape.getD axis 0 % world ≠ 0 then
      .error (.collective
        s!"reduce-scatter axis {axis} length {shape.getD axis 0} is not divisible by {world}")
    else .ok ()
  | allToAll axis =>
    if shape.getD axis 0 % world ≠ 0 then
      .error (.collective
        s!"all-to-all axis {axis} length {shape.getD axis 0} is not divisible by {world}")
    else .ok ()
  | allReduce .ring =>
    if world ≠ 1 ∧ shape.prod % world ≠ 0 then
      .error (.collective
        s!"ring all-reduce requires {shape.prod} elements to divide evenly across {world} ranks")
    else .ok ()
  | _ => .ok ()

/-- Whether a call is accepted, and the sequence counter after it. Both are decided by the shape
of the input, so they are the same on every rank. -/
def validate (call : Call) (world next : Nat) (shape : List Nat) :
    Except CollectivesError CollectiveDescriptor × Nat :=
  let answer := call.plan.accept world next shape
  (do let d ← answer.1
      call.checkSplit world shape
      .ok d, answer.2)

theorem dvd_of_checkSplit {shape : List Nat}
    (h : (allReduce .ring).checkSplit world shape = .ok ()) : world ∣ shape.prod := by
  simp only [checkSplit] at h
  split_ifs at h with hbad
  by_cases h1 : world = 1
  · rw [h1]
    exact Nat.one_dvd _
  · exact Nat.dvd_of_mod_eq_zero (by_contra fun hm => hbad ⟨h1, hm⟩)

section

variable [NeZero world] [Add α]

/-- What an accepted call gives rank `r`. -/
def result (call : Call) (x : Rank world → Tensor α) (r : Rank world) : Option (Tensor α) :=
  match call with
  | broadcast root => some (x (Fin.ofNat world root))
  | reduce root =>
    if r = Fin.ofNat world root then some (rootFold Tensor.plus (Fin.ofNat world root) x) else none
  | allGather axis => (Tensor.cat ((List.finRange world).map x) axis).toOption
  | allReduce algorithm => some (Group.allReduced x algorithm)
  | reduceScatter axis => some (Group.shard (rootFold Tensor.plus 0 x) axis r)
  | allToAll axis => some (Group.transposed x axis r)

/-- The meaning of an accepted call for rank `r`, in terms of the sum in rank order. -/
def reference (call : Call) (x : Rank world → Tensor α) (r : Rank world) : Option (Tensor α) :=
  match call with
  | broadcast root => some (x (Fin.ofNat world root))
  | reduce root => if r = Fin.ofNat world root then some (rootFold Tensor.plus 0 x) else none
  | allGather axis => (Tensor.cat ((List.finRange world).map x) axis).toOption
  | allReduce _ => some (rootFold Tensor.plus 0 x)
  | reduceScatter axis => some (Group.shard (rootFold Tensor.plus 0 x) axis r)
  | allToAll axis => some (Group.transposed x axis r)

end

variable [NeZero world]

/-- The concatenation asked of a gather is a tensor that can be sent. -/
def Deliverable (call : Call) (x : Rank world → Tensor α) : Prop :=
  match call with
  | allGather axis => axis < (x 0).shape.length → (x 0).Sendable →
      ∃ gathered, Tensor.cat ((List.finRange world).map x) axis = .ok gathered ∧ gathered.Sendable
  | _ => True

/-- What a call leaves behind on rank `r`, when accepted calls return `value`. -/
def outcome (value : Call → (Rank world → Tensor α) → Rank world → Option (Tensor α)) (call : Call)
    (x : Rank world → Tensor α) (next : Nat) (r : Rank world) : Endpoint.Outcome α :=
  let answer := call.validate world next (x 0).shape
  ⟨answer.1.map fun _ => value call x r, answer.2⟩

end Call

/-- A program of all ranks: every call comes with the input of each rank. -/
abbrev Program (world : Nat) (α : Type) := List (Call × (Rank world → Tensor α))

namespace Program

/-- What the calls of rank `r` leave behind, each taken alone. -/
def outcomes [NeZero world]
    (value : Call → (Rank world → Tensor α) → Rank world → Option (Tensor α)) :
    Program world α → Nat → Rank world → List (Endpoint.Outcome α)
  | [], _, _ => []
  | (call, x) :: rest, next, r =>
    call.outcome value x next r :: outcomes value rest (call.validate world next (x 0).shape).2 r

/-- The program as one rank sees it. -/
def onRank (program : Program world α) (r : Rank world) : List (Call × Tensor α) :=
  program.map fun p => (p.1, p.2 r)

/-- In every call the inputs of all ranks have one shape. -/
def Aligned (program : Program world α) : Prop :=
  ∀ p ∈ program, ∀ r r', (p.2 r).shape = (p.2 r').shape

end Program

namespace Group

variable [Add α] {g : Group world ω} {x : Rank world → Tensor α}
  {state : Rank world → NativeCollectives} {next following : Nat} {shape : List Nat} {call : Call}
  (hx : ∀ r, (x r).shape = shape) (hstate : ∀ r, (state r).nextSequence = next)

include hx hstate

/-- A call refused by `begin` is refused on every rank, and nobody communicates. -/
theorem perform_refused {e : CollectivesError}
    (h : call.plan.accept world next shape = (.error e, following)) :
    TogetherSt (fun r => (g.endpoint r).perform (x r) call) state (fun _ => [])
      (fun _ => .error e) fun r => { state r with nextSequence := following } := by
  have hbegin := begin_error (g := g) hx hstate h
  cases call with
  | broadcast root => exact (TogetherSt.fail _ hbegin).map_error some
  | reduce root => exact TogetherSt.fail _ hbegin
  | allGather axis => exact (TogetherSt.fail _ hbegin).map_error some
  | allReduce algorithm =>
    cases algorithm with
    | centralized => exact (TogetherSt.fail _ hbegin).map_error some
    | ring => exact (TogetherSt.fail _ hbegin).map_error some
  | reduceScatter axis => exact (TogetherSt.fail _ hbegin).map_error some
  | allToAll axis => exact (TogetherSt.fail _ hbegin).map_error some

omit [Add α] hstate in
theorem dim_of_axis {axis : Nat} (ha : axis < shape.length) (r : Rank world) :
    (x r).dim axis = .ok (shape.getD axis 0) := by
  refine dim_ok ?_
  rw [hx r]
  simp [List.getD, ha]

/-- A tensor that does not split evenly is refused on every rank before any communication. -/
theorem perform_unsplit {d : CollectiveDescriptor} {e : CollectivesError}
    (h : call.plan.accept world next shape = (.ok d, following))
    (hsplit : call.checkSplit world shape = .error e) :
    TogetherSt (fun r => (g.endpoint r).perform (x r) call) state
      (fun r => [g.observer r (.started d)]) (fun _ => .error e)
      fun r => { state r with nextSequence := following } := by
  have hbegin := begin_ok (g := g) hx hstate h
  obtain ⟨-, -, -, -, haxis, -⟩ := Plan.accept_ok h
  cases call with
  | broadcast root => cases hsplit
  | reduce root => cases hsplit
  | allGather axis => cases hsplit
  | allReduce algorithm =>
    cases algorithm with
    | centralized => cases hsplit
    | ring =>
      simp only [Call.checkSplit] at hsplit
      split_ifs at hsplit with hbad
      obtain rfl := Except.error.inj hsplit
      refine TogetherSt.map_error some (hbegin.observed ?_)
      refine TogetherSt.fail _ (TogetherSt.lift ?_ _)
      have hcount : ∀ r, (x r).flattenAll.elemCount = shape.prod := fun r => by
        rw [Tensor.elemCount, Tensor.flattenAll, (x r).size, hx r]
      simp only [Endpoint.ringAllReduce, if_neg hbad.1, hcount, if_pos hbad.2]
      exact Together.ret _
  | reduceScatter axis =>
    simp only [Call.checkSplit] at hsplit
    split_ifs at hsplit with hbad
    obtain rfl := Except.error.inj hsplit
    refine TogetherSt.map_error some (hbegin.observed ?_)
    unfold TogetherSt
    simp only [dim_of_axis hx (haxis axis rfl), Native.run_liftExcept_ok, if_pos hbad]
    exact Together.ret _
  | allToAll axis =>
    simp only [Call.checkSplit] at hsplit
    split_ifs at hsplit with hbad
    obtain rfl := Except.error.inj hsplit
    refine TogetherSt.map_error some (hbegin.observed ?_)
    unfold TogetherSt
    simp only [dim_of_axis hx (haxis axis rfl), Native.run_liftExcept_ok, if_pos hbad]
    exact Together.ret _

omit [Add α] hx hstate in
theorem Completes.result {β : Type} {c : Rank world → Native world α ω β}
    {d : CollectiveDescriptor} {output : β → Option (Tensor α)} {value : Rank world → β}
    (h : g.Completes c state d output value) (hfollowing : d.sequence + 1 = following) :
    ∃ (os : Rank world → List ω) (traces : Rank world → List CollectiveTrace),
      TogetherSt c state os (fun r => .ok (value r)) fun r => ⟨following, traces r⟩ := by
  obtain ⟨sent, received, hrun⟩ := h
  subst hfollowing
  exact ⟨_, _, hrun⟩

omit [Add α] hx hstate in
theorem Completes.some_result {c : Rank world → Native world α ω (Tensor α)}
    {d : CollectiveDescriptor} {output : Tensor α → Option (Tensor α)}
    {value : Rank world → Tensor α} (h : g.Completes c state d output value)
    (hfollowing : d.sequence + 1 = following) :
    ∃ (os : Rank world → List ω) (traces : Rank world → List CollectiveTrace),
      TogetherSt (fun r => some <$> c r) state os (fun r => .ok (some (value r)))
        fun r => ⟨following, traces r⟩ := by
  obtain ⟨os, traces, hrun⟩ := h.result hfollowing
  exact ⟨os, traces, hrun.map_ok some⟩

omit [Add α] hx hstate in
theorem ofNat_of_lt [NeZero world] {root : Nat} (h : root < world) :
    Fin.ofNat world root = ⟨root, h⟩ := Fin.ext (Nat.mod_eq_of_lt h)

/-- An accepted call returns its result on every rank. -/
theorem perform_accepted [NeZero world] (hcap : world ≤ 257) {d : CollectiveDescriptor}
    (h : call.plan.accept world next shape = (.ok d, following))
    (hsplit : call.checkSplit world shape = .ok ()) (hdel : call.Deliverable x) :
    ∃ (os : Rank world → List ω) (traces : Rank world → List CollectiveTrace),
      TogetherSt (fun r => (g.endpoint r).perform (x r) call) state os
        (fun r => .ok (call.result x r)) fun r => ⟨following, traces r⟩ := by
  obtain ⟨hcount, -, hnext, hroot, haxis, hd⟩ := Plan.accept_ok h
  have hseq : d.sequence + 1 = following := by rw [hd, hnext]
  have hwidth : ∀ axis, call.plan.axis = some axis → shape[axis]? = some (shape.getD axis 0) := by
    intro axis ha
    simp [List.getD, haxis axis ha]
  cases call with
  | broadcast root =>
    have hlt := hroot root rfl
    have hdone := broadcast_completes (g := g) hx hstate ⟨root, hlt⟩ h
    simp only [Call.result, ofNat_of_lt hlt]
    exact hdone.some_result hseq
  | reduce root =>
    have hlt := hroot root rfl
    have hdone := reduce_completes (g := g) hx hstate ⟨root, hlt⟩ h
    simp only [Call.result, ofNat_of_lt hlt]
    exact hdone.result hseq
  | allGather axis =>
    have hsend : (x 0).Sendable := (Tensor.sendable_iff _).mpr (by rw [hx 0]; exact hcount)
    obtain ⟨gathered, hcat, hgs⟩ := hdel (by rw [hx 0]; exact haxis axis rfl) hsend
    have hdone := allGather_completes (g := g) hx hstate axis hcat hgs h
    simp only [Call.result, hcat]
    exact hdone.some_result hseq
  | allReduce algorithm =>
    cases algorithm with
    | centralized => exact (centralized_completes hx hstate h).some_result hseq
    | ring =>
      exact (ring_completes hx hstate hcap (Call.dvd_of_checkSplit hsplit) h).some_result hseq
  | reduceScatter axis =>
    have hdiv : shape.getD axis 0 % world = 0 := by
      simp only [Call.checkSplit] at hsplit
      split_ifs at hsplit with hbad
      exact not_not.mp hbad
    exact (reduceScatter_completes hx hstate (hwidth axis rfl) hdiv h).some_result hseq
  | allToAll axis =>
    have hdiv : shape.getD axis 0 % world = 0 := by
      simp only [Call.checkSplit] at hsplit
      split_ifs at hsplit with hbad
      exact not_not.mp hbad
    exact (allToAll_completes hx (hwidth axis rfl) hdiv hcap hstate h).some_result hseq

end Group

namespace Group

variable [NeZero world] [Add α] {g : Group world ω}

/-- Every rank gets the outcome of the call, whether it is accepted or refused. -/
theorem perform_together (hcap : world ≤ 257) {x : Rank world → Tensor α}
    {state : Rank world → NativeCollectives} {next : Nat} {call : Call}
    (hx : ∀ r, (x r).shape = (x 0).shape) (hstate : ∀ r, (state r).nextSequence = next)
    (hdel : call.Deliverable x) :
    ∃ (os : Rank world → List ω) (traces : Rank world → List CollectiveTrace),
      TogetherSt (fun r => (g.endpoint r).perform (x r) call) state os
        (fun r => (call.outcome Call.result x next r).result)
        fun r => ⟨(call.validate world next (x 0).shape).2, traces r⟩ := by
  simp only [Call.outcome, Call.validate]
  rcases hadmit : call.plan.accept world next (x 0).shape with ⟨answer, following⟩
  cases answer with
  | error e => exact ⟨_, _, perform_refused hx hstate hadmit⟩
  | ok d =>
    cases hsplit : call.checkSplit world (x 0).shape with
    | error e => exact ⟨_, _, perform_unsplit hx hstate hadmit hsplit⟩
    | ok _ => exact perform_accepted hx hstate hcap hadmit hsplit hdel

/-- Every rank gets the outcomes of all its calls. -/
theorem runProgram_together (hcap : world ≤ 257) (program : Program world α)
    (hshape : program.Aligned) (hdel : ∀ p ∈ program, p.1.Deliverable p.2)
    {state : Rank world → NativeCollectives} {next : Nat}
    (hstate : ∀ r, (state r).nextSequence = next) :
    ∃ (os : Rank world → List ω) (last : Rank world → NativeCollectives),
      Together (fun r => (g.endpoint r).runProgram (program.onRank r) (state r)) os
        fun r => (program.outcomes Call.result next r, last r) := by
  induction program generalizing state next with
  | nil => exact ⟨fun _ => [], state, Together.ret _⟩
  | cons p program ih =>
    obtain ⟨call, x⟩ := p
    obtain ⟨os, traces, hcall⟩ := perform_together (g := g) hcap
      (fun r => hshape (call, x) (by simp) r 0) hstate (hdel (call, x) (by simp))
    have hstate' : ∀ r : Rank world, (⟨(call.validate world next (x 0).shape).2, traces r⟩ :
        NativeCollectives).nextSequence = (call.validate world next (x 0).shape).2 := fun _ => rfl
    obtain ⟨os', last, hrest⟩ := ih (fun p hp => hshape p (List.mem_cons_of_mem _ hp))
      (fun p hp => hdel p (List.mem_cons_of_mem _ hp))
      hstate'
    refine ⟨_, last, Together.bind hcall (Together.bind hrest (Together.ret _))⟩

end Group

section Reference

variable [NeZero world]

/-- The sequence counters do not depend on the rank. -/
theorem Program.counters_eq (value : Call → (Rank world → Tensor α) → Rank world → Option (Tensor α))
    (program : Program world α) (next : Nat) (r r' : Rank world) :
    (program.outcomes value next r).map (·.nextSequence) =
      (program.outcomes value next r').map (·.nextSequence) := by
  induction program generalizing next with
  | nil => rfl
  | cons p program ih =>
    simp only [outcomes, List.map_cons, Call.outcome]
    rw [ih]

variable [AddCommSemigroup α]

omit [NeZero world] in
theorem rootFold_plus {x : Rank world → Tensor α} {shape : List Nat}
    (hx : ∀ r, (x r).shape = shape) (root root' : Rank world) :
    rootFold Tensor.plus root x = rootFold Tensor.plus root' x := by
  ext1
  · rw [Tensor.rootFold_shape hx, Tensor.rootFold_shape hx]
  · rw [Tensor.rootFold_data hx, Tensor.rootFold_data hx, rootFold_zipWith _ root root']

theorem allReduced_eq {x : Rank world → Tensor α} {shape : List Nat}
    (hx : ∀ r, (x r).shape = shape) (hdiv : world ∣ shape.prod) (algorithm : AllReduceAlgorithm) :
    Group.allReduced x algorithm = rootFold Tensor.plus 0 x := by
  cases algorithm with
  | centralized => rfl
  | ring =>
    refine Group.allReduced_ring hx (Tensor.rootFold_shape hx 0) ?_
    rw [Tensor.rootFold_data hx, Group.ringData_eq hx hdiv]

/-- With a commutative addition every accepted call means what its name says. -/
theorem Call.result_eq_reference {call : Call} {x : Rank world → Tensor α} {shape : List Nat}
    (hx : ∀ r, (x r).shape = shape) (hsplit : call.checkSplit world shape = .ok ())
    (r : Rank world) : call.result x r = call.reference x r := by
  cases call with
  | broadcast root => rfl
  | reduce root => simp only [result, reference, rootFold_plus hx (Fin.ofNat world root) 0]
  | allGather axis => rfl
  | allReduce algorithm =>
    cases algorithm with
    | centralized => rfl
    | ring =>
      have hdiv : world ∣ shape.prod := dvd_of_checkSplit hsplit
      simp only [result, reference, allReduced_eq hx hdiv]
  | reduceScatter axis => rfl
  | allToAll axis => rfl

theorem Call.outcome_result {call : Call} {x : Rank world → Tensor α}
    (hx : ∀ r, (x r).shape = (x 0).shape) (next : Nat) (r : Rank world) :
    call.outcome result x next r = call.outcome reference x next r := by
  simp only [outcome, validate]
  rcases call.plan.accept world next (x 0).shape with ⟨answer, following⟩
  cases answer with
  | error e => rfl
  | ok d =>
    cases hsplit : call.checkSplit world (x 0).shape with
    | error e => rfl
    | ok _ => rw [result_eq_reference hx hsplit r]

theorem Program.outcomes_result {program : Program world α} (hshape : program.Aligned)
    (next : Nat) (r : Rank world) :
    program.outcomes Call.result next r = program.outcomes Call.reference next r := by
  induction program generalizing next with
  | nil => rfl
  | cons p program ih =>
    have hp := fun r => hshape p (by simp) r 0
    simp only [outcomes, Call.outcome_result hp]
    rw [ih fun q hq => hshape q (List.mem_cons_of_mem _ hq)]

end Reference

end Dlir.Collectives
