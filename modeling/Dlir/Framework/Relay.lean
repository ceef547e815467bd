import Dlir.Framework.Choreography

namespace Dlir.Framework

variable {ι μ : Type}

/-- Messages along a chain, from each endpoint to the next. -/
def relayTrace (m : ι → ι → μ) : List ι → List (ι × ι × μ)
  | i :: j :: rest => (i, j, m i j) :: relayTrace m (j :: rest)
  | _ => []

theorem mem_relayTrace {m : ι → ι → μ} {chain : List ι} {x : ι × ι × μ} (h : x ∈ relayTrace m chain) :
    x.1 ∈ chain ∧ x.2.1 ∈ chain.tail := by
  induction chain with
  | nil => simp [relayTrace] at h
  | cons i chain ih =>
    cases chain with
    | nil => simp [relayTrace] at h
    | cons j rest =>
      rcases List.mem_cons.mp h with heq | hrest
      · rw [heq]
        exact ⟨List.mem_cons_self, List.mem_cons_self⟩
      · obtain ⟨hsource, hdest⟩ := ih hrest
        exact ⟨List.mem_cons_of_mem _ hsource, List.mem_cons_of_mem _ hdest⟩

/-- Nobody in a chain without repetitions sends to itself. -/
theorem relayTrace_ne {m : ι → ι → μ} {chain : List ι} (hnd : chain.Nodup) :
    ∀ x ∈ relayTrace m chain, x.1 ≠ x.2.1 := by
  induction chain with
  | nil => simp [relayTrace]
  | cons i chain ih =>
    obtain ⟨hi, hnd'⟩ := List.nodup_cons.mp hnd
    cases chain with
    | nil => simp [relayTrace]
    | cons j rest =>
      intro x hx
      rcases List.mem_cons.mp hx with heq | hrest
      · rw [heq]
        intro hij
        have hsame : i = j := hij
        exact hi (hsame ▸ List.mem_cons_self)
      · exact ih hnd' x hrest

variable [DecidableEq ι]

/-- An endpoint takes the message of the one before it and sends its own to the one after it. -/
theorem project_relay {m : ι → ι → μ} {front rest : List ι} {i : ι} (hnd : (front ++ i :: rest).Nodup) :
    project i (relayTrace m (front ++ i :: rest)) =
      (front.getLast?.toList.map fun j => .get j (m j i)) ++
        (rest.head?.toList.map fun j => .put j (m i j)) := by
  have hout : ∀ chain : List ι, i ∉ chain → project i (relayTrace m chain) = [] := by
    intro chain hi
    refine project_eq_nil fun x hx => ?_
    obtain ⟨hsource, hdest⟩ := mem_relayTrace hx
    constructor
    · rintro rfl
      exact hi hsource
    · rintro rfl
      exact hi (List.mem_of_mem_tail hdest)
  induction front with
  | nil =>
    cases rest with
    | nil => rfl
    | cons j rest =>
      have hrest := hout (j :: rest) (List.nodup_cons.mp hnd).1
      show project i ((i, j, m i j) :: relayTrace m (j :: rest)) = [.put j (m i j)]
      rw [project, if_pos rfl, hrest]
  | cons a front ih =>
    obtain ⟨ha, hnd'⟩ := List.nodup_cons.mp hnd
    have hia : i ≠ a := by
      rintro rfl
      exact ha (List.mem_append_right _ List.mem_cons_self)
    have hrest := ih hnd'
    cases front with
    | nil =>
      show project i ((a, i, m a i) :: relayTrace m (i :: rest)) = _
      rw [project, if_neg hia, if_pos rfl]
      exact congrArg (Move.get a (m a i) :: ·) hrest
    | cons b front =>
      have hib : i ≠ b := by
        rintro rfl
        exact (List.nodup_cons.mp hnd').1 (List.mem_append_right _ List.mem_cons_self)
      show project i ((a, b, m a b) :: relayTrace m (b :: (front ++ i :: rest))) = _
      rw [project, if_neg hia, if_neg hib]
      exact hrest

end Dlir.Framework
