import Dlir.Collectives.Rank
import Dlir.Framework.Machine

namespace Dlir.Collectives

open Dlir.Framework

/-- What `join` gives for the thread of a rank. -/
inductive Joined (β : Type)
  | returned (result : Except CollectivesError β)
  | panicked (message : String)

/-- The value of a thread that returned one. -/
def Joined.value {β : Type} : Joined β → Option β
  | .returned (.ok value) => some value
  | _ => none

/-- The errors of a world. Those of its threads name the rank. -/
inductive RunnerError
  | collectives (error : CollectivesError)
  | workerFailed (rank : Nat) (source : CollectivesError)
  | workerPanicked (rank : Nat) (message : String)
  deriving DecidableEq, Repr

/-- The variables of the loop over the threads. -/
structure JoinedWorld (β : Type) where
  results : List (Option β)
  firstError : Option RunnerError

namespace JoinedWorld

variable {β : Type}

/-- Books the thread of one rank. -/
def join (self : JoinedWorld β) (rank : Nat) : Joined β → Except Panic (JoinedWorld β)
  | .returned (.ok value) => do
    let results ← assign self.results rank (some value)
    pure { self with results }
  | .returned (.error source) =>
    pure { self with firstError := self.firstError.or (some (.workerFailed rank source)) }
  | .panicked message =>
    pure { self with firstError := self.firstError.or (some (.workerPanicked rank message)) }

/-- Books the threads of some ranks. -/
def joinAll (handles : List (Nat × Joined β)) (start : JoinedWorld β) :
    Except Panic (JoinedWorld β) :=
  handles.foldlM (fun (joined : JoinedWorld β) handle => joined.join handle.1 handle.2) start

/-- The results in the order of the ranks, unless a thread failed. -/
def finish (self : JoinedWorld β) : Panicking RunnerError (List β) :=
  match self.firstError with
  | some error => throw error
  | none => ExceptT.lift (self.results.mapM expect)

end JoinedWorld

/-- The ranks of the endpoints of a world. The table of its channels starts with a row of 24 bytes for
each rank, and no allocation has more than `isize::MAX` bytes. -/
def createInMemoryWorld (worldSize : Nat) : Panicking CollectivesError (List Nat) := do
  ExceptT.mk (.ok (refuse (worldSize = 0) .invalidWorldSize))
  ExceptT.lift (if worldSize * 24 < 2 ^ 63 then .ok () else .error .capacityOverflow)
  pure (List.range worldSize)

/-- Runs one worker thread per in-memory rank and returns successful results in rank order. A thread
that the system does not start has no `Joined`. -/
def runInMemory {β : Type} (worldSize : Nat) (threads : Nat → Option (Joined β)) :
    Panicking RunnerError (List β) := do
  let endpoints ← (createInMemoryWorld worldSize).adapt .collectives
  let handles ← ExceptT.lift <| endpoints.mapM fun rank => do
    let handle ← expect (threads rank)
    pure (rank, handle)
  let joined ← ExceptT.lift <| JoinedWorld.joinAll handles ⟨List.replicate worldSize none, none⟩
  joined.finish

/-- There is room for the world, and all of its threads are started. -/
structure Spawned {β : Type} (worldSize : Nat) (threads : Nat → Option (Joined β)) : Prop where
  room : worldSize * 24 < 2 ^ 63
  started : ∀ rank < worldSize, threads rank ≠ none

/-- The values of all threads, if every one returned one. -/
def returnedValues {β : Type} (worldSize : Nat) (threads : Nat → Option (Joined β)) :
    Option (List β) :=
  (List.range worldSize).mapM fun rank => (threads rank).bind (·.value)

section Runner

variable {β : Type} {started : Nat → Joined β}

theorem Joined.value_eq_some {joined : Joined β} {value : β} :
    joined.value = some value ↔ joined = .returned (.ok value) := by
  rcases joined with (source | v) | message <;> simp [Joined.value]

/-- Booking a thread of the world does not panic, and keeps the first error. -/
theorem JoinedWorld.join_ok (self : JoinedWorld β) {rank : Nat} (h : rank < self.results.length)
    (joined : Joined β) : ∃ next, self.join rank joined = .ok next ∧
      next.results.length = self.results.length ∧
      (∀ e, self.firstError = some e → next.firstError = some e) ∧
      (joined.value = none → next.firstError ≠ none) := by
  rcases joined with (source | value) | message
  · refine ⟨_, rfl, rfl, fun e he => ?_, fun _ hnone => ?_⟩
    · simp [he]
    · simp at hnone
  · refine ⟨⟨self.results.set rank (some value), self.firstError⟩, ?_, List.length_set, fun e he => he,
      fun hnone => by cases hnone⟩
    rw [join, assign_of_lt h]
    rfl
  · refine ⟨_, rfl, rfl, fun e he => ?_, fun _ hnone => ?_⟩
    · simp [he]
    · simp at hnone

/-- Booking threads of the world does not panic. A thread without a value leaves an error. -/
theorem join_all {ranks : List Nat} {start : JoinedWorld β}
    (h : ∀ rank ∈ ranks, rank < start.results.length) :
    ∃ last, JoinedWorld.joinAll (ranks.map fun rank => (rank, started rank)) start = .ok last ∧
      (∀ e, start.firstError = some e → last.firstError = some e) ∧
      ((∃ rank ∈ ranks, (started rank).value = none) → last.firstError ≠ none) := by
  induction ranks generalizing start with
  | nil => exact ⟨start, rfl, fun e he => he, fun hnone => by simp at hnone⟩
  | cons rank ranks ih =>
    obtain ⟨hrank, hranks⟩ := List.forall_mem_cons.mp h
    obtain ⟨next, hnext, hlen, hkept, hfailed⟩ := start.join_ok hrank (started rank)
    rw [← hlen] at hranks
    obtain ⟨last, hlast, hkept', hfailed'⟩ := ih hranks
    refine ⟨last, ?_, fun e he => hkept' e (hkept e he), fun hnone => ?_⟩
    · rw [List.map_cons, JoinedWorld.joinAll, List.foldlM_cons, hnext]
      exact hlast
    · obtain ⟨r, hr, hvalue⟩ := hnone
      rcases List.mem_cons.mp hr with rfl | hr
      · obtain ⟨e, he⟩ := Option.ne_none_iff_exists'.mp (hfailed hvalue)
        rw [hkept' e he]
        exact Option.some_ne_none e
      · exact hfailed' ⟨r, hr, hvalue⟩

/-- The values are put in the places of their ranks. -/
theorem join_values {count : Nat} {done values : List β}
    (h : (List.range' done.length count).mapM (fun rank => (started rank).value) = some values) :
    JoinedWorld.joinAll ((List.range' done.length count).map fun rank => (rank, started rank))
      ⟨done.map some ++ List.replicate count none, none⟩ =
      .ok ⟨(done ++ values).map some, none⟩ := by
  induction count generalizing done values with
  | zero =>
    obtain rfl : [] = values := Option.some.inj h
    rw [List.append_nil, List.replicate_zero, List.append_nil]
    rfl
  | succ count ih =>
    rw [List.range'_succ, List.mapM_cons] at h
    obtain ⟨value, hvalue, h⟩ := Option.bind_eq_some_iff.mp h
    obtain ⟨rest, hrest, h⟩ := Option.bind_eq_some_iff.mp h
    obtain rfl := Option.some.inj h
    have hthread : started done.length = .returned (.ok value) := Joined.value_eq_some.mp hvalue
    have hset : (done.map some ++ List.replicate (count + 1) none).set done.length (some value) =
        (done ++ [value]).map some ++ List.replicate count none := by
      simp [List.replicate_succ]
    have hstep : JoinedWorld.join ⟨done.map some ++ List.replicate (count + 1) none, none⟩
        done.length (started done.length) =
        .ok ⟨(done ++ [value]).map some ++ List.replicate count none, none⟩ := by
      rw [hthread, JoinedWorld.join, assign_of_lt (by simp), hset]
      rfl
    rw [List.range'_succ, List.map_cons, JoinedWorld.joinAll, List.foldlM_cons, hstep]
    have hlen : done.length + 1 = (done ++ [value]).length := by simp
    rw [hlen] at hrest ⊢
    have hlast := ih hrest
    rw [List.append_assoc, List.singleton_append] at hlast
    exact hlast

theorem mapM_expect (values : List β) : (values.map some).mapM expect = .ok values := by
  induction values with
  | nil => rfl
  | cons value values ih =>
    rw [List.map_cons, List.mapM_cons, ih]
    rfl

theorem exists_of_mapM_eq_some {α : Type} {f : α → Option β} {xs : List α} {ys : List β}
    (h : xs.mapM f = some ys) {y : β} (hy : y ∈ ys) : ∃ x ∈ xs, f x = some y := by
  induction xs generalizing ys with
  | nil =>
    obtain rfl : [] = ys := Option.some.inj h
    cases hy
  | cons x xs ih =>
    rw [List.mapM_cons] at h
    obtain ⟨z, hz, h⟩ := Option.bind_eq_some_iff.mp h
    obtain ⟨zs, hzs, h⟩ := Option.bind_eq_some_iff.mp h
    obtain rfl := Option.some.inj h
    rcases List.mem_cons.mp hy with rfl | hy
    · exact ⟨x, List.mem_cons_self, hz⟩
    · obtain ⟨x', hx', hfx⟩ := ih hzs hy
      exact ⟨x', List.mem_cons_of_mem _ hx', hfx⟩

theorem mapM_congr {α : Type} {f g : α → Option β} {xs : List α} (h : ∀ x ∈ xs, f x = g x) :
    xs.mapM f = xs.mapM g := by
  induction xs with
  | nil => rfl
  | cons x xs ih =>
    obtain ⟨hx, hxs⟩ := List.forall_mem_cons.mp h
    rw [List.mapM_cons, List.mapM_cons, hx, ih hxs]

theorem exists_of_mapM_eq_none {α : Type} {f : α → Option β} {xs : List α}
    (h : xs.mapM f = none) : ∃ x ∈ xs, f x = none := by
  induction xs with
  | nil => cases h
  | cons x xs ih =>
    cases hx : f x with
    | none => exact ⟨x, List.mem_cons_self, hx⟩
    | some b =>
      rw [List.mapM_cons, hx] at h
      cases hrest : xs.mapM f with
      | none =>
        obtain ⟨y, hy, hnone⟩ := ih hrest
        exact ⟨y, List.mem_cons_of_mem _ hy, hnone⟩
      | some bs =>
        rw [hrest] at h
        cases h

variable {worldSize : Nat} {threads : Nat → Option (Joined β)}

/-- Each value is the one of a rank. -/
theorem exists_rank_of_returnedValues {values : List β}
    (h : returnedValues worldSize threads = some values) {value : β} (hv : value ∈ values) :
    ∃ rank, rank < worldSize ∧ threads rank = some (.returned (.ok value)) := by
  obtain ⟨rank, hrank, hvalue⟩ := exists_of_mapM_eq_some h hv
  obtain ⟨joined, hjoined, hvalue⟩ := Option.bind_eq_some_iff.mp hvalue
  obtain rfl := Joined.value_eq_some.mp hvalue
  exact ⟨rank, List.mem_range.mp hrank, hjoined⟩

/-- The handles of a world that is spawned. -/
theorem Spawned.handles (h : Spawned worldSize threads) : ∃ started : Nat → Joined β,
    (∀ rank < worldSize, threads rank = some (started rank)) ∧
    ((List.range worldSize).mapM fun rank => do
      let handle ← expect (threads rank)
      pure (rank, handle)) = .ok ((List.range worldSize).map fun rank => (rank, started rank)) := by
  have hstarted : ∀ rank < worldSize,
      threads rank = some ((threads rank).getD (.panicked "")) := by
    intro rank hrank
    obtain ⟨joined, hjoined⟩ := Option.ne_none_iff_exists'.mp (h.started rank hrank)
    rw [hjoined, Option.getD_some]
  refine ⟨fun rank => (threads rank).getD (.panicked ""), hstarted, mapM_eq_map fun rank hrank => ?_⟩
  rw [hstarted rank (List.mem_range.mp hrank)]
  rfl

theorem createInMemoryWorld_run (hworld : worldSize ≠ 0) (hroom : worldSize * 24 < 2 ^ 63) :
    ((createInMemoryWorld worldSize).adapt RunnerError.collectives).run =
      .ok (.ok (List.range worldSize)) := by
  rw [ExceptT.run_adapt, createInMemoryWorld, refuse, if_neg hworld, if_pos hroom]
  rfl

/-- A world of some ranks that is spawned joins its threads. -/
theorem Spawned.run_runInMemory (h : Spawned worldSize threads) (hworld : worldSize ≠ 0) :
    ∃ started : Nat → Joined β, (∀ rank < worldSize, threads rank = some (started rank)) ∧
      (runInMemory worldSize threads).run =
        (JoinedWorld.joinAll ((List.range worldSize).map fun rank => (rank, started rank))
          ⟨List.replicate worldSize none, none⟩ >>= fun joined => joined.finish.run) := by
  obtain ⟨started, hstarted, hhandles⟩ := h.handles
  refine ⟨started, hstarted, ?_⟩
  unfold runInMemory
  rw [run_bind_of_ok (createInMemoryWorld_run hworld h.room), run_lift_bind, hhandles]
  exact run_lift_bind _ _

theorem returnedValues_of_started (hstarted : ∀ rank < worldSize, threads rank = some (started rank)) :
    returnedValues worldSize threads =
      (List.range worldSize).mapM fun rank => (started rank).value := by
  refine mapM_congr fun rank hrank => ?_
  rw [hstarted rank (List.mem_range.mp hrank), Option.bind_some]

/-- A world whose threads all return a value returns these values. -/
theorem run_runInMemory_of_values (hworld : worldSize ≠ 0) (hspawned : Spawned worldSize threads)
    {values : List β} (h : returnedValues worldSize threads = some values) :
    (runInMemory worldSize threads).run = .ok (.ok values) := by
  obtain ⟨started, hstarted, hrun⟩ := hspawned.run_runInMemory hworld
  rw [returnedValues_of_started hstarted, List.range_eq_range'] at h
  have hjoin : JoinedWorld.joinAll ((List.range' 0 worldSize).map fun rank => (rank, started rank))
      ⟨[] ++ List.replicate worldSize none, none⟩ = .ok ⟨([] ++ values).map some, none⟩ :=
    @join_values β started worldSize [] values h
  rw [← List.range_eq_range', List.nil_append, List.nil_append] at hjoin
  rw [hrun, hjoin]
  show (ExceptT.lift ((values.map some).mapM expect)).run = _
  rw [mapM_expect]
  rfl

/-- A world with a thread that does not return a value ends with an error. -/
theorem run_runInMemory_of_none (hworld : worldSize ≠ 0) (hspawned : Spawned worldSize threads)
    (h : returnedValues worldSize threads = none) :
    ∃ e, (runInMemory worldSize threads).run = .ok (.error e) := by
  obtain ⟨started, hstarted, hrun⟩ := hspawned.run_runInMemory hworld
  rw [returnedValues_of_started hstarted] at h
  obtain ⟨rank, hrank, hvalue⟩ := exists_of_mapM_eq_none h
  have hslots : ∀ rank ∈ List.range worldSize,
      rank < (⟨List.replicate worldSize none, none⟩ : JoinedWorld β).results.length := by
    intro rank hrank
    rw [List.length_replicate]
    exact List.mem_range.mp hrank
  obtain ⟨last, hlast, -, hfailed⟩ := @join_all β started _ _ hslots
  obtain ⟨e, he⟩ := Option.ne_none_iff_exists'.mp (hfailed ⟨rank, hrank, hvalue⟩)
  refine ⟨e, ?_⟩
  rw [hrun, hlast]
  show last.finish.run = _
  rw [JoinedWorld.finish, he]
  rfl

/-- When a world comes to an end. -/
theorem returns_runInMemory :
    Returns (runInMemory worldSize threads) ↔ worldSize = 0 ∨ Spawned worldSize threads := by
  by_cases hworld : worldSize = 0
  · subst hworld
    exact ⟨fun _ => .inl rfl, fun _ => ⟨_, rfl⟩⟩
  constructor
  · intro h
    right
    unfold runInMemory at h
    have hroom : worldSize * 24 < 2 ^ 63 := by
      by_contra hlarge
      obtain ⟨r, hr⟩ := (returns_bind.mp h).1
      rw [ExceptT.run_adapt, createInMemoryWorld, refuse, if_neg hworld, if_neg hlarge] at hr
      cases hr
    refine ⟨hroom, fun rank hrank hnone => ?_⟩
    obtain ⟨handles, hhandles, -⟩ := returns_lift_bind.mp
      ((returns_bind.mp h).2 _ (createInMemoryWorld_run hworld hroom))
    obtain ⟨handle, -, hhandle⟩ :=
      exists_of_forall₂_left (forall₂_of_mapM hhandles) (List.mem_range.mpr hrank)
    rw [hnone] at hhandle
    cases hhandle
  · intro h
    have hspawned := h.resolve_left hworld
    cases hvalues : returnedValues worldSize threads with
    | none =>
      obtain ⟨e, he⟩ := run_runInMemory_of_none hworld hspawned hvalues
      exact ⟨_, he⟩
    | some values => exact ⟨_, run_runInMemory_of_values hworld hspawned hvalues⟩

end Runner

end Dlir.Collectives
