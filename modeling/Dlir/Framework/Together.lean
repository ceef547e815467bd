import Dlir.Framework.Choreography

namespace Dlir.Framework

open Relation

variable {ι μ ω α β δ : Type} [DecidableEq ι]

/-- A round in which every endpoint sends to `next` and receives from `prev`, after the
messages of the senders in `sent` have been passed on. -/
def midRound (next prev : ι → ι) (m : ι → μ) (sel : ι → Selector μ)
    (k : ι → μ → Proc ι μ ω α) (sent : List ι) (i : ι) : Proc ι μ ω α :=
  if i ∈ sent then
    if prev i ∈ sent then k i (m (prev i)) else .recv (prev i) (sel i) (k i)
  else
    if prev i ∈ sent then .send (next i) (m i) (k i (m (prev i)))
    else .exchange (next i) (m i) (prev i) (sel i) (k i)

section Exchange

variable {next prev : ι → ι} {m : ι → μ} {sel : ι → Selector μ} {k : ι → μ → Proc ι μ ω α}
  (hnp : ∀ i, prev (next i) = i) (hpn : ∀ i, next (prev i) = i) (hne : ∀ i, next i ≠ i)
  (hf : ∀ i, (sel (next i)).fresh (m i) = true)

include hnp hpn hne hf in
theorem meet_midRound {sent : List ι} {i : ι} (hi : i ∉ sent) (log : ι → List ω) :
    Meet ⟨midRound next prev m sel k sent, log⟩
      ⟨midRound next prev m sel k (i :: sent), log⟩ := by
  have hout : (midRound next prev m sel k sent i).outgoing =
      some (next i, m i, midRound next prev m sel k (i :: sent) i) := by
    have hp : prev i ≠ i := fun h => hne i (by rw [← h, hpn, h])
    by_cases hprev : prev i ∈ sent <;> simp [midRound, hi, hprev, hp, Proc.outgoing]
  obtain ⟨g, hin, hg⟩ : ∃ g, (midRound next prev m sel k sent (next i)).incoming =
      some (i, sel (next i), g) ∧ g (m i) = midRound next prev m sel k (i :: sent) (next i) := by
    by_cases hn : next i ∈ sent <;>
      simp [midRound, hnp, hi, hn, hne i, Proc.incoming]
  have hmeet : Meet ⟨midRound next prev m sel k sent, log⟩ _ :=
    .comm (hne i).symm hout hin (hf i)
  rw [hg] at hmeet
  convert hmeet using 2
  funext j
  by_cases hj : j = next i
  · subst hj
    simp
  · by_cases hji : j = i
    · subst hji
      simp [hj]
    · have hprev : prev j ≠ i := fun h => hj (by rw [← h, hpn])
      simp [midRound, hj, hji, hprev]

include hnp hpn hne hf in
theorem meets_exchange [Fintype ι] {s : Snapshot ι μ ω α}
    (hs : ∀ i, s.proc i = .exchange (next i) (m i) (prev i) (sel i) (k i)) :
    Meets s ⟨fun i => k i (m (prev i)), s.log⟩ := by
  have hrun : ∀ sent : List ι, sent.Nodup → Meets ⟨midRound next prev m sel k [], s.log⟩
      ⟨midRound next prev m sel k sent, s.log⟩ := by
    intro sent hnd
    induction sent with
    | nil => exact .refl
    | cons i sent ih =>
      obtain ⟨hi, hnd'⟩ := List.nodup_cons.mp hnd
      exact (ih hnd').tail (meet_midRound hnp hpn hne hf hi s.log)
  have hstart : s = ⟨midRound next prev m sel k [], s.log⟩ := by
    obtain ⟨proc, log⟩ := s
    simp only [Snapshot.mk.injEq, and_true]
    funext i
    simpa [midRound] using hs i
  have hend : midRound next prev m sel k (Finset.univ : Finset ι).toList =
      fun i => k i (m (prev i)) := by
    funext i
    simp [midRound]
  rw [hstart, ← hend]
  exact hrun _ (Finset.nodup_toList _)

end Exchange

/-- The endpoints can run their programs together to the results `v`, observing `os`, and
then go on with whatever follows. -/
def Together (c : ι → Proc ι μ ω δ) (os : ι → List ω) (v : ι → δ) : Prop :=
  ∀ (α : Type) (k : ι → δ → Proc ι μ ω α) (log : ι → List ω),
    Meets ⟨fun i => (c i).bind (k i), log⟩ ⟨fun i => k i (v i), fun i => log i ++ os i⟩

namespace Together

theorem ret (v : ι → δ) : Together (fun i => (.ret (v i) : Proc ι μ ω δ)) (fun _ => []) v := by
  intro α k log
  simpa using ReflTransGen.refl

theorem bind {c : ι → Proc ι μ ω δ} {os os' : ι → List ω} {v : ι → δ}
    {f : ι → δ → Proc ι μ ω β} {v' : ι → β} (h : Together c os v)
    (h' : Together (fun i => f i (v i)) os' v') :
    Together (fun i => (c i).bind (f i)) (fun i => os i ++ os' i) v' := by
  intro α k log
  have h1 := h α (fun i d => (f i d).bind (k i)) log
  have h2 := h' α k fun i => log i ++ os i
  simp only [List.append_assoc] at h2
  simpa using h1.trans h2

theorem of_choreography [Fintype ι] {c : ι → Proc ι μ ω δ} {os : ι → List ω} {v : ι → δ}
    (trace : List (ι × ι × μ)) (hne : ∀ x ∈ trace, x.1 ≠ x.2.1)
    (h : ∀ i, Plays (project i trace) (c i) (os i) (.ret (v i))) : Together c os v := by
  intro α k log
  exact meets_choreography trace _ os hne fun i => (h i).bind (k i)

/-- Programs that only make observations. -/
theorem solo [Fintype ι] {c : ι → Proc ι μ ω δ} {os : ι → List ω} {v : ι → δ}
    (h : ∀ i, Plays [] (c i) (os i) (.ret (v i))) : Together c os v :=
  of_choreography [] (by simp) h

/-- Every endpoint sends to `next` and receives from `prev` at the same time. -/
theorem exchange [Fintype ι] {next prev : ι → ι} {m : ι → μ} {sel : ι → Selector μ}
    {k : ι → μ → Proc ι μ ω δ} {v : ι → δ}
    (hnp : ∀ i, prev (next i) = i) (hpn : ∀ i, next (prev i) = i) (hne : ∀ i, next i ≠ i)
    (hf : ∀ i, (sel (next i)).fresh (m i) = true) (hk : ∀ i, k i (m (prev i)) = .ret (v i)) :
    Together (fun i => .exchange (next i) (m i) (prev i) (sel i) (k i)) (fun _ => []) v := by
  intro α g log
  have hmeets := meets_exchange (k := fun i x => (k i x).bind (g i)) hnp hpn hne hf
    (s := ⟨fun i => Proc.exchange (next i) (m i) (prev i) (sel i) fun x => (k i x).bind (g i), log⟩)
    (fun i => rfl)
  simpa [hk] using hmeets

section Star

variable [Fintype ι] {c : ι → Proc ι μ ω δ} {os : ι → List ω} {v : ι → δ} {root : ι}
  {peers : List ι} (hnd : peers.Nodup) (hmem : ∀ i, i ∈ peers ↔ i ≠ root) (up down : ι → μ)

include hnd hmem

/-- Every peer sends one message to the root, which takes them in the order of `peers`. -/
theorem gather
    (hroot : Plays (peers.map fun i => .get i (up i)) (c root) (os root) (.ret (v root)))
    (hpeer : ∀ i, i ≠ root → Plays [.put root (up i)] (c i) (os i) (.ret (v i))) :
    Together c os v := by
  refine of_choreography (gatherTrace root peers up) ?_ fun i => ?_
  · intro x hx
    obtain ⟨i, hi, rfl⟩ := List.mem_map.mp hx
    exact (hmem i).mp hi
  · by_cases hi : i = root
    · subst hi
      rw [project_gather_root up fun h => (hmem i).mp h rfl]
      exact hroot
    · rw [project_gather_peer up hnd ((hmem i).mpr hi) hi]
      exact hpeer i hi

/-- The root sends one message to every peer in the order of `peers`. -/
theorem scatter
    (hroot : Plays (peers.map fun i => .put i (down i)) (c root) (os root) (.ret (v root)))
    (hpeer : ∀ i, i ≠ root → Plays [.get root (down i)] (c i) (os i) (.ret (v i))) :
    Together c os v := by
  refine of_choreography (scatterTrace root peers down) ?_ fun i => ?_
  · intro x hx
    obtain ⟨i, hi, rfl⟩ := List.mem_map.mp hx
    exact ((hmem i).mp hi).symm
  · by_cases hi : i = root
    · subst hi
      rw [project_scatter_root down]
      exact hroot
    · rw [project_scatter_peer down hnd ((hmem i).mpr hi) hi]
      exact hpeer i hi

/-- A gather followed by a scatter. -/
theorem star
    (hroot : Plays ((peers.map fun i => .get i (up i)) ++ peers.map fun i => .put i (down i))
      (c root) (os root) (.ret (v root)))
    (hpeer : ∀ i, i ≠ root →
      Plays [.put root (up i), .get root (down i)] (c i) (os i) (.ret (v i))) :
    Together c os v := by
  refine of_choreography (gatherTrace root peers up ++ scatterTrace root peers down) ?_ fun i => ?_
  · intro x hx
    rcases List.mem_append.mp hx with hx | hx
    · obtain ⟨i, hi, rfl⟩ := List.mem_map.mp hx
      exact (hmem i).mp hi
    · obtain ⟨i, hi, rfl⟩ := List.mem_map.mp hx
      exact ((hmem i).mp hi).symm
  · rw [project_append]
    by_cases hi : i = root
    · subst hi
      rw [project_gather_root up fun h => (hmem i).mp h rfl, project_scatter_root down]
      exact hroot
    · rw [project_gather_peer up hnd ((hmem i).mpr hi) hi,
        project_scatter_peer down hnd ((hmem i).mpr hi) hi]
      exact hpeer i hi

end Star

/-- What the programs return, and observe on the way, does not depend on the schedule. -/
theorem settles {c : ι → Proc ι μ ω δ} {os : ι → List ω} {v : ι → δ} (h : Together c os v)
    (box : Mailbox ι μ) (cap : ℕ∞) :
    Settles (Step cap) ((⟨c, fun _ => []⟩ : Snapshot ι μ ω δ).world box)
      ((⟨fun i => .ret (v i), os⟩ : Snapshot ι μ ω δ).world box) := by
  have hmeets := h δ (fun _ => .ret) (fun _ => [])
  simp only [Proc.bind_ret, List.nil_append] at hmeets
  exact hmeets.settles (fun i => ⟨v i, rfl⟩) box cap

/-- In every state that is reached, an endpoint has observed a first part of what it observes in the
end, and all of it where it has returned. -/
theorem observed {c : ι → Proc ι μ ω δ} {os : ι → List ω} {v : ι → δ} (h : Together c os v)
    {box : Mailbox ι μ} {cap : ℕ∞} {w : World box ω δ}
    (hrun : ReflTransGen (Step cap) ((⟨c, fun _ => []⟩ : Snapshot ι μ ω δ).world box) w) (i : ι) :
    w.log i <+: os i ∧ ∀ a, w.proc i = .ret a → a = v i ∧ w.log i = os i := by
  have hrest := (h.settles box cap).completes w hrun
  have hlog := log_prefix hrest i
  refine ⟨hlog, fun a ha => ?_⟩
  have hfinal : Proc.ret (v i) = .ret a := ret_stays hrest ha
  exact ⟨(Proc.ret.inj hfinal).symm, (log_stays hrest ha).symm⟩

end Together

end Dlir.Framework
