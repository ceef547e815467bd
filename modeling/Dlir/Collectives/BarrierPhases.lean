import Dlir.Collectives.BarrierBoard

namespace Dlir.Collectives

open Dlir.Framework Dlir.Math Session

namespace TcpTransport

variable {world : Nat} {maximum : UInt64}

/-- A barrier at this generation stays there and reports the overflow. -/
def lastGeneration : Nat := 2 ^ 64 - 1

def overflow : CollectivesError := .protocol "barrier generation overflow"

/-- The results of barrier calls that have exchanged all their frames. -/
def completed : Except CollectivesError (Answer UInt32) → Bool
  | .ok _ => true
  | .error (.protocol message) => message == "barrier generation overflow"
  | .error _ => false

/-- How many barriers a rank has gone through. -/
def Board.round (b : Board world) (r : Rank world) : Nat := (b.results r).countP completed

/-- The frames of the barrier that a rank goes through after `n` others. -/
def arriveFrame (r : Rank world) (n : Nat) : WireFrame UInt32 :=
  .barrierArrive r.val 0 (.ofNat (min n lastGeneration))

def releaseFrame (r : Rank world) (n : Nat) : WireFrame UInt32 :=
  .barrierRelease 0 r.val (.ofNat (min n lastGeneration))

theorem passed_cases (n : Nat) :
    passed (min n lastGeneration) = .ok (.done, min (n + 1) lastGeneration) ∧
      min (n + 1) lastGeneration = min n lastGeneration + 1 ∨
    passed (min n lastGeneration) = .error overflow ∧
      min (n + 1) lastGeneration = min n lastGeneration := by
  unfold passed
  by_cases hn : n < lastGeneration
  · have hsum : min n lastGeneration + 1 < 2 ^ 64 := by
      unfold lastGeneration at hn ⊢
      omega
    rw [checkedAdd_some hsum]
    left
    have hnext : min (n + 1) lastGeneration = min n lastGeneration + 1 := by omega
    rw [hnext]
    exact ⟨rfl, rfl⟩
  · have hsum : ¬ min n lastGeneration + 1 < 2 ^ 64 := by
      unfold lastGeneration at hn ⊢
      omega
    rw [checkedAdd_none hsum]
    right
    exact ⟨rfl, by omega⟩

/-- Where a rank is in its barrier call. `finishing` is the moment before it returns. -/
inductive Phase (world : Nat)
  | idle
  | arriving
  | awaiting
  | collecting (rest : List (Rank world))
  | releasing (rest : List (Rank world))
  | finishing

namespace Phase

/-- What is left to do in a phase. -/
def code (root r : Rank world) (g : Nat) : Phase world → Option (BarrierCode world)
  | idle => none
  | arriving => some (.send root (.barrierArrive r.val 0 (.ofNat g)) (TcpTransport.awaiting r root g))
  | awaiting => some (TcpTransport.awaiting r root g)
  | collecting rest => some (TcpTransport.collecting root g rest)
  | releasing rest => some (TcpTransport.releasing root g rest)
  | finishing => some (.ret (passed g))

/-- The phases of the root and those of the others. -/
def Of (root r : Rank world) : Phase world → Prop
  | idle => True
  | arriving => r ≠ root
  | awaiting => r ≠ root
  | collecting rest => r = root ∧ rest <:+ members world
  | releasing rest => r = root ∧ rest <:+ members world
  | finishing => True

/-- The frames of the current barrier that a rank has sent to the root. -/
def arrived : Phase world → Nat
  | awaiting => 1
  | finishing => 1
  | _ => 0

/-- The frames of the current barrier that a rank has taken from the root. -/
def freed : Phase world → Nat
  | finishing => 1
  | _ => 0

/-- The frames of the current barrier that the root has taken from a rank. -/
def collected (r : Rank world) : Phase world → Nat
  | collecting rest => if r ∈ rest then 0 else 1
  | releasing _ => 1
  | finishing => 1
  | _ => 0

/-- The frames of the current barrier that the root has sent to a rank. -/
def released (r : Rank world) : Phase world → Nat
  | releasing rest => if r ∈ rest then 0 else 1
  | finishing => 1
  | _ => 0

end Phase

/-- The entries of a list are the values of a function. -/
def Numbered {β : Type} (f : Nat → β) (l : List β) : Prop := l = (List.range l.length).map f

theorem Numbered.snoc {β : Type} {f : Nat → β} {l : List β} (h : Numbered f l) :
    Numbered f (l ++ [f l.length]) := by
  unfold Numbered at h ⊢
  rw [List.length_append, List.length_singleton, List.range_succ, List.map_append, ← h]
  rfl

/-- The next entry of an initial part is the value of the function at its length. -/
theorem Numbered.next {β : Type} {f : Nat → β} {l p : List β} {x : β} (h : Numbered f l)
    (hp : p ++ [x] <+: l) : x = f p.length ∧ p.length < l.length := by
  have hlen := hp.length_le
  rw [List.length_append, List.length_singleton] at hlen
  have hget := List.prefix_iff_getElem?.mp hp p.length (by simp)
  rw [h] at hget
  rw [List.getElem?_map, List.getElem?_range (by omega)] at hget
  simp only [Option.map_some, List.getElem_concat_length, Option.some.injEq] at hget
  exact ⟨hget.symm, by omega⟩

/-- How many frames are on each connection with the root follows from how many barriers its two
ends have gone through and from where they are in the current one. -/
structure Ties (root : Rank world) (n : Rank world → Nat) (ph : Rank world → Phase world)
    (sent taken : Rank world → Rank world → List (WireFrame UInt32)) : Prop where
  order : ∀ i j, taken i j <+: sent i j
  released : ∀ r, r ≠ root → (sent root r).length = n root + (ph root).released r ∧
    Numbered (releaseFrame r) (sent root r)
  freed : ∀ r, r ≠ root → (taken root r).length = n r + (ph r).freed
  arrived : ∀ r, r ≠ root → (sent r root).length = n r + (ph r).arrived ∧
    Numbered (arriveFrame r) (sent r root)
  collected : ∀ r, r ≠ root → (taken r root).length = n root + (ph root).collected r
  written : ∀ r, r ≠ root → sent r root ≠ [] → r.val < 2 ^ 32

namespace Ties

variable {root i : Rank world} {n : Rank world → Nat} {ph : Rank world → Phase world}
  {sent taken : Rank world → Rank world → List (WireFrame UInt32)} {p : Phase world}

/-- The root is in another phase in which it has exchanged the same frames. -/
theorem same_root (h : Ties root n ph sent taken)
    (hcollected : ∀ r, r ≠ root → p.collected r = (ph root).collected r)
    (hreleased : ∀ r, r ≠ root → p.released r = (ph root).released r) :
    Ties root n (Function.update ph root p) sent taken where
  order := h.order
  released := by
    intro r hr
    rw [Function.update_self, hreleased r hr]
    exact h.released r hr
  freed := by
    intro r hr
    rw [Function.update_of_ne hr]
    exact h.freed r hr
  arrived := by
    intro r hr
    rw [Function.update_of_ne hr]
    exact h.arrived r hr
  collected := by
    intro r hr
    rw [Function.update_self, hcollected r hr]
    exact h.collected r hr
  written := h.written

/-- Another rank is in another phase in which it has exchanged the same frames. -/
theorem same_member (h : Ties root n ph sent taken) (hi : i ≠ root)
    (hfreed : p.freed = (ph i).freed) (harrived : p.arrived = (ph i).arrived) :
    Ties root n (Function.update ph i p) sent taken where
  order := h.order
  released := by
    intro r hr
    rw [Function.update_of_ne (Ne.symm hi)]
    exact h.released r hr
  freed := by
    intro r hr
    rw [h.freed r hr]
    by_cases hri : r = i
    · subst hri
      rw [Function.update_self, hfreed]
    · rw [Function.update_of_ne hri]
  arrived := by
    intro r hr
    obtain ⟨hlen, hnumbered⟩ := h.arrived r hr
    refine ⟨?_, hnumbered⟩
    by_cases hri : r = i
    · subst hri
      rw [Function.update_self, hlen, harrived]
    · rw [Function.update_of_ne hri, hlen]
  collected := by
    intro r hr
    rw [Function.update_of_ne (Ne.symm hi)]
    exact h.collected r hr
  written := h.written

/-- Another rank tells the root that it is there. -/
theorem arrive (h : Ties root n ph sent taken) (hi : i ≠ root) (hph : ph i = .arriving)
    (hbound : i.val < 2 ^ 32) : Ties root n (Function.update ph i .awaiting)
      (set₂ sent i root (sent i root ++ [arriveFrame i (n i)])) taken where
  order := by
    intro x y
    rw [set₂_apply]
    split_ifs with hxy
    · obtain ⟨rfl, rfl⟩ := hxy
      exact (h.order _ _).trans (List.prefix_append _ _)
    · exact h.order x y
  released := by
    intro r hr
    rw [set₂_apply, if_neg (fun hxy => hi hxy.1.symm), Function.update_of_ne (Ne.symm hi)]
    exact h.released r hr
  freed := by
    intro r hr
    rw [h.freed r hr]
    by_cases hri : r = i
    · subst hri
      rw [Function.update_self, hph]
      rfl
    · rw [Function.update_of_ne hri]
  arrived := by
    intro r hr
    rw [set₂_apply]
    by_cases hri : r = i
    · subst hri
      obtain ⟨hlen, hnumbered⟩ := h.arrived r hr
      rw [hph] at hlen
      change _ = n r at hlen
      rw [if_pos ⟨rfl, rfl⟩, Function.update_self]
      refine ⟨by rw [List.length_append, hlen]; rfl, ?_⟩
      rw [← hlen]
      exact hnumbered.snoc
    · rw [if_neg fun hxy => hri hxy.1, Function.update_of_ne hri]
      exact h.arrived r hr
  collected := by
    intro r hr
    rw [Function.update_of_ne (Ne.symm hi)]
    exact h.collected r hr
  written := by
    intro r hr hne
    rw [set₂_apply] at hne
    by_cases hri : r = i
    · exact hri ▸ hbound
    · rw [if_neg fun hxy => hri hxy.1] at hne
      exact h.written r hr hne

/-- Another rank gets its release. -/
theorem free (h : Ties root n ph sent taken) (hi : i ≠ root) (hph : ph i = .awaiting)
    {m : WireFrame UInt32} (hm : taken root i ++ [m] <+: sent root i) :
    Ties root n (Function.update ph i .finishing) sent
      (set₂ taken root i (taken root i ++ [m])) where
  order := by
    intro x y
    rw [set₂_apply]
    split_ifs with hxy
    · obtain ⟨rfl, rfl⟩ := hxy
      exact hm
    · exact h.order x y
  released := by
    intro r hr
    rw [Function.update_of_ne (Ne.symm hi)]
    exact h.released r hr
  freed := by
    intro r hr
    have hfreed := h.freed r hr
    rw [set₂_apply]
    by_cases hri : r = i
    · subst hri
      rw [hph] at hfreed
      rw [if_pos ⟨rfl, rfl⟩, Function.update_self, List.length_append, hfreed]
      rfl
    · rw [if_neg fun hxy => hri hxy.2, Function.update_of_ne hri, hfreed]
  arrived := by
    intro r hr
    obtain ⟨hlen, hnumbered⟩ := h.arrived r hr
    refine ⟨?_, hnumbered⟩
    by_cases hri : r = i
    · subst hri
      rw [Function.update_self, hlen, hph]
      rfl
    · rw [Function.update_of_ne hri, hlen]
  collected := by
    intro r hr
    rw [set₂_apply, if_neg fun hxy => hr hxy.1, Function.update_of_ne (Ne.symm hi)]
    exact h.collected r hr
  written := h.written

/-- The root gets the next arrival. -/
theorem collect (h : Ties root n ph sent taken) {s : Rank world} {rest : List (Rank world)}
    (hs : s ≠ root) (hrest : s ∉ rest) (hph : ph root = .collecting (s :: rest))
    {m : WireFrame UInt32} (hm : taken s root ++ [m] <+: sent s root) :
    Ties root n (Function.update ph root (.collecting rest)) sent
      (set₂ taken s root (taken s root ++ [m])) where
  order := by
    intro x y
    rw [set₂_apply]
    split_ifs with hxy
    · obtain ⟨rfl, rfl⟩ := hxy
      exact hm
    · exact h.order x y
  released := by
    intro r hr
    have hreleased := h.released r hr
    rw [hph] at hreleased
    rw [Function.update_self]
    exact hreleased
  freed := by
    intro r hr
    rw [set₂_apply, if_neg fun hxy => hr hxy.2, Function.update_of_ne hr]
    exact h.freed r hr
  arrived := by
    intro r hr
    rw [Function.update_of_ne hr]
    exact h.arrived r hr
  collected := by
    intro r hr
    have hcollected := h.collected r hr
    rw [hph] at hcollected
    simp only [Phase.collected] at hcollected ⊢
    rw [set₂_apply, Function.update_self]
    by_cases hrs : r = s
    · subst hrs
      rw [if_pos List.mem_cons_self] at hcollected
      rw [if_pos ⟨rfl, rfl⟩, List.length_append, hcollected]
      simp [hrest]
    · rw [if_neg fun hxy => hrs hxy.1, hcollected]
      simp [hrs]
  written := h.written

/-- The root releases the next rank. -/
theorem release (h : Ties root n ph sent taken) {d : Rank world} {rest : List (Rank world)}
    (hd : d ≠ root) (hrest : d ∉ rest) (hph : ph root = .releasing (d :: rest)) :
    Ties root n (Function.update ph root (.releasing rest))
      (set₂ sent root d (sent root d ++ [releaseFrame d (n root)])) taken where
  order := by
    intro x y
    rw [set₂_apply]
    split_ifs with hxy
    · obtain ⟨rfl, rfl⟩ := hxy
      exact (h.order _ _).trans (List.prefix_append _ _)
    · exact h.order x y
  released := by
    intro r hr
    obtain ⟨hlen, hnumbered⟩ := h.released r hr
    rw [hph] at hlen
    simp only [Phase.released] at hlen
    rw [set₂_apply, Function.update_self]
    by_cases hrd : r = d
    · subst hrd
      rw [if_pos List.mem_cons_self] at hlen
      rw [if_pos ⟨rfl, rfl⟩]
      refine ⟨by simp [Phase.released, hlen, hrest], ?_⟩
      have hsnoc := hnumbered.snoc
      rw [hlen] at hsnoc
      exact hsnoc
    · rw [if_neg fun hxy => hrd hxy.2]
      refine ⟨?_, hnumbered⟩
      rw [hlen]
      simp [Phase.released, hrd]
  freed := by
    intro r hr
    rw [Function.update_of_ne hr]
    exact h.freed r hr
  arrived := by
    intro r hr
    rw [set₂_apply, if_neg fun hxy => hr hxy.1, Function.update_of_ne hr]
    exact h.arrived r hr
  collected := by
    intro r hr
    have hcollected := h.collected r hr
    rw [hph] at hcollected
    rw [Function.update_self]
    exact hcollected
  written := by
    intro r hr hne
    rw [set₂_apply, if_neg fun hxy => hr hxy.1] at hne
    exact h.written r hr hne

/-- A rank has gone through its barrier. -/
theorem finish (h : Ties root n ph sent taken) (hph : ph i = .finishing) :
    Ties root (Function.update n i (n i + 1)) (Function.update ph i .idle) sent taken where
  order := h.order
  released := by
    intro r hr
    have hreleased := h.released r hr
    by_cases hi : root = i
    · subst hi
      rw [hph] at hreleased
      simp only [Function.update_self]
      exact hreleased
    · simp only [Function.update_of_ne hi]
      exact hreleased
  freed := by
    intro r hr
    have hfreed := h.freed r hr
    by_cases hi : r = i
    · subst hi
      rw [hph] at hfreed
      simp only [Function.update_self]
      exact hfreed
    · simp only [Function.update_of_ne hi]
      exact hfreed
  arrived := by
    intro r hr
    have harrived := h.arrived r hr
    by_cases hi : r = i
    · subst hi
      rw [hph] at harrived
      simp only [Function.update_self]
      exact harrived
    · simp only [Function.update_of_ne hi]
      exact harrived
  collected := by
    intro r hr
    have hcollected := h.collected r hr
    by_cases hi : root = i
    · subst hi
      rw [hph] at hcollected
      simp only [Function.update_self]
      exact hcollected
    · simp only [Function.update_of_ne hi]
      exact hcollected
  written := h.written

end Ties

end TcpTransport

end Dlir.Collectives
