import Dlir.Framework.World

namespace Dlir.Framework

open Relation

variable {ι μ ω α : Type} [DecidableEq ι] {box : Mailbox ι μ} {cap : ℕ∞}
  {w a b : World box ω α}

theorem setChan_self (ch : ι → ι → List μ) (i j : ι) (ms : List μ) :
    setChan ch i j ms i j = ms := by simp [setChan_apply]

theorem setChan_ne (ch : ι → ι → List μ) {i j x y : ι} (ms : List μ) (h : ¬ (x = i ∧ y = j)) :
    setChan ch i j ms x y = ch x y := by simp [setChan_apply, h]

theorem setChan_comm (ch : ι → ι → List μ) {i j x y : ι} (ms ns : List μ)
    (h : ¬ (x = i ∧ y = j)) :
    setChan (setChan ch i j ms) x y ns = setChan (setChan ch x y ns) i j ms := by
  funext s t
  simp only [setChan_apply]
  by_cases h1 : s = x ∧ t = y
  · obtain ⟨rfl, rfl⟩ := h1
    simp [h]
  · simp [h1]

theorem setChan_setChan (ch : ι → ι → List μ) (i j : ι) (ms ns : List μ) :
    setChan (setChan ch i j ms) i j ns = setChan ch i j ns := by
  funext s t
  simp only [setChan_apply]
  split <;> rfl

theorem Fire.det {l : Label ι} (ha : Fire cap l w a) (hb : Fire cap l w b) : a = b := by
  cases ha with
  | send ho hc => cases hb with | send ho' hc' => simp_all
  | recv hr =>
    cases hb with
    | recv hr' =>
      obtain ⟨sel, k, hi⟩ := hr.source
      obtain ⟨sel', k', hi'⟩ := hr'.source
      obtain rfl := congrArg Prod.fst (Option.some.inj (hi.symm.trans hi'))
      obtain ⟨rfl, rfl, rfl⟩ := hr.det hr'
      rfl
  | hand hz hn he ho hr =>
    cases hb with
    | hand hz' hn' he' ho' hr' =>
      rw [ho] at ho'
      simp only [Option.some.injEq, Prod.mk.injEq] at ho'
      obtain ⟨rfl, rfl, rfl⟩ := ho'
      obtain ⟨rfl, rfl, _⟩ := hr.det hr'
      rfl
  | emit he => cases hb with | emit he' => simp_all

/-- Firing both labels in either order leads to the same world. -/
def Joins (cap : ℕ∞) (l l' : Label ι) (a b : World box ω α) : Prop :=
  ∃ d, Fire cap l' a d ∧ Fire cap l b d

theorem Joins.symm {l l' : Label ι} (h : Joins cap l l' a b) : Joins cap l' l b a := by
  obtain ⟨d, h1, h2⟩ := h
  exact ⟨d, h2, h1⟩

theorem Joins.of_eq {l l' : Label ι} {d d' : World box ω α} (h : Fire cap l' a d)
    (h' : Fire cap l b d') (he : d = d') : Joins cap l l' a b := ⟨d, h, he ▸ h'⟩

theorem joins_send_send {i i' : ι} (hne : i ≠ i') (ha : Fire cap (.send i) w a)
    (hb : Fire cap (.send i') w b) : Joins cap (.send i) (.send i') a b := by
  cases ha with
  | @send _ _ j m p ho hc =>
    cases hb with
    | @send _ _ j' m' p' ho' hc' =>
      have hch : ¬ (i' = i ∧ j' = j) := fun h => hne h.1.symm
      have hch' : ¬ (i = i' ∧ j = j') := fun h => hne h.1
      refine .of_eq (.send (p := p') (m := m') (j := j') ?_ ?_)
        (.send (p := p) (m := m) (j := j) ?_ ?_) ?_
      · simpa [Function.update_of_ne hne.symm] using ho'
      · simpa [setChan_ne _ _ hch] using hc'
      · simpa [Function.update_of_ne hne] using ho
      · simpa [setChan_ne _ _ hch'] using hc
      · simp only [setChan_ne _ _ hch, setChan_ne _ _ hch', setChan_comm _ _ _ hch,
          Function.update_comm hne.symm]

/-- Appending to a channel does not disturb a receive, also when it reads that channel. -/
theorem Receives.after_push {p p' : Proc ι μ ω α} {q q' : box.Store} {ch : ι → ι → List μ}
    {s t : ι} {ms : List μ} (h : Receives box s p q (ch s t) p' q' ms) (i j : ι) (m : μ) :
    ∃ ms', Receives box s p q (setChan ch i j (ch i j ++ [m]) s t) p' q' ms' ∧
      setChan (setChan ch i j (ch i j ++ [m])) s t ms' =
        setChan (setChan ch s t ms) i j (setChan ch s t ms i j ++ [m]) := by
  by_cases hsame : s = i ∧ t = j
  · obtain ⟨rfl, rfl⟩ := hsame
    refine ⟨ms ++ [m], ?_, ?_⟩
    · rw [setChan_self]
      exact h.extend m
    · simp only [setChan_setChan, setChan_self]
  · have hsame' : ¬ (i = s ∧ j = t) := fun he => hsame ⟨he.1.symm, he.2.symm⟩
    refine ⟨ms, ?_, ?_⟩
    · rwa [setChan_ne _ _ hsame]
    · rw [setChan_ne _ _ hsame', setChan_comm _ _ _ hsame]

theorem Receives.room {p p' : Proc ι μ ω α} {q q' : box.Store} {ch : ι → ι → List μ}
    {s t : ι} {ms : List μ} (h : Receives box s p q (ch s t) p' q' ms) {i j : ι}
    (hc : ((ch i j).length : ℕ∞) < cap) : ((setChan ch s t ms i j).length : ℕ∞) < cap := by
  refine lt_of_le_of_lt (Nat.cast_le.mpr ?_) hc
  rw [setChan_apply]
  split_ifs with he
  · obtain ⟨rfl, rfl⟩ := he
    exact h.length_le
  · exact le_rfl

theorem joins_send_recv {i i' : ι} (ha : Fire cap (.send i) w a)
    (hb : Fire cap (.recv i') w b) : Joins cap (.send i) (.recv i') a b := by
  cases ha with
  | @send _ _ j m p ho hc =>
    cases hb with
    | @recv _ _ s p' q ms hr =>
      have hroom := hr.room hc
      by_cases hi : i' = i
      · subst hi
        obtain ⟨p2, ho2, hr2⟩ := hr.beside_send ho
        obtain ⟨ms', hr3, hch⟩ := hr2.after_push i' j m
        have hso : (Function.update w.proc i' p' i').outgoing = some (j, m, p2) := by simpa using ho2
        rw [← Function.update_self i' p w.proc] at hr3
        refine .of_eq (.recv hr3) (.send hso hroom) ?_
        simp only [Function.update_idem, hch]
      · obtain ⟨ms', hr3, hch⟩ := hr.after_push i j m
        have hso : (Function.update w.proc i' p' i).outgoing = some (j, m, p) := by
          rwa [Function.update_of_ne (Ne.symm hi)]
        rw [← Function.update_of_ne hi p w.proc] at hr3
        refine .of_eq (.recv hr3) (.send hso hroom) ?_
        simp only [hch, Function.update_comm hi]

theorem joins_send_emit {i i' : ι} (ha : Fire cap (.send i) w a)
    (hb : Fire cap (.emit i') w b) : Joins cap (.send i) (.emit i') a b := by
  cases ha with
  | @send _ _ j m p ho hc =>
    cases hb with
    | @emit _ _ o p' he =>
      have hi : i' ≠ i := by
        rintro rfl
        simp [he, Proc.outgoing] at ho
      refine .of_eq (.emit (o := o) (p := p') ?_) (.send (j := j) (m := m) (p := p) ?_ hc) ?_
      · simpa [Function.update_of_ne hi] using he
      · simpa [Function.update_of_ne hi.symm] using ho
      · simp only [Function.update_comm hi]

theorem joins_recv_recv {i i' : ι} (hne : i ≠ i') (ha : Fire cap (.recv i) w a)
    (hb : Fire cap (.recv i') w b) : Joins cap (.recv i) (.recv i') a b := by
  cases ha with
  | @recv _ _ s p q ms hr =>
    cases hb with
    | @recv _ _ s' p' q' ms' hr' =>
      have hch : ¬ (s' = s ∧ i' = i) := fun h => hne h.2.symm
      have hch' : ¬ (s = s' ∧ i = i') := fun h => hne h.2
      have hr2 : Receives box s' (Function.update w.proc i p i') (Function.update w.mail i q i')
          (setChan w.chan s i ms s' i') p' q' ms' := by
        simpa [Function.update_of_ne hne.symm, setChan_ne _ _ hch] using hr'
      have hr3 : Receives box s (Function.update w.proc i' p' i) (Function.update w.mail i' q' i)
          (setChan w.chan s' i' ms' s i) p q ms := by
        simpa [Function.update_of_ne hne, setChan_ne _ _ hch'] using hr
      refine .of_eq (.recv hr2) (.recv hr3) ?_
      simp only [setChan_comm _ _ _ hch, Function.update_comm hne.symm]

theorem joins_recv_emit {i i' : ι} (ha : Fire cap (.recv i) w a)
    (hb : Fire cap (.emit i') w b) : Joins cap (.recv i) (.emit i') a b := by
  cases ha with
  | @recv _ _ s p q ms hr =>
    cases hb with
    | @emit _ _ o p' he =>
      have hi : i' ≠ i := by
        rintro rfl
        obtain ⟨sel, k, hin⟩ := hr.source
        simp [he, Proc.incoming] at hin
      rw [← Function.update_of_ne hi.symm p' w.proc] at hr
      refine .of_eq (.emit (o := o) (p := p') ?_) (.recv hr) ?_
      · simpa [Function.update_of_ne hi] using he
      · simp only [Function.update_comm hi]

theorem joins_recv_hand {i i' : ι} (ha : Fire cap (.recv i) w a)
    (hb : Fire cap (.hand i') w b) : Joins cap (.recv i) (.hand i') a b := by
  cases ha with
  | @recv _ _ s p q ms hr =>
    cases hb with
    | @hand _ _ j m p1 p2 q' hz hn he ho hh =>
      -- the receiver of the hand-over has nothing stored to receive instead
      have hij : i ≠ j := by
        rintro rfl
        obtain rfl := hh.source_unique hr
        rw [he] at hr
        exact hh.not_stored hr
      have hch : ¬ (i' = s ∧ j = i) := fun h => hij h.2.symm
      have he' : setChan w.chan s i ms i' j = [] := by rwa [setChan_ne _ _ hch]
      have hh' : Receives box i' (Function.update w.proc i p j) (Function.update w.mail i q j)
          [m] p2 q' [] := by
        simpa [Function.update_of_ne hij.symm] using hh
      by_cases hi : i = i'
      · subst hi
        obtain ⟨p3, ho3, hr3⟩ := hr.beside_send ho
        have ho' : (Function.update w.proc i p i).outgoing = some (j, m, p3) := by simpa using ho3
        have hr4 : Receives box s (Function.update (Function.update w.proc i p1) j p2 i)
            (Function.update w.mail j q' i) (w.chan s i) p3 q ms := by
          simpa [Function.update_of_ne hij] using hr3
        refine .of_eq (.hand hz hn he' ho' hh') (.recv hr4) ?_
        simp only [Function.update_comm hij, Function.update_idem]
      · have ho' : (Function.update w.proc i p i').outgoing = some (j, m, p1) := by
          rwa [Function.update_of_ne (Ne.symm hi)]
        have hr4 : Receives box s (Function.update (Function.update w.proc i' p1) j p2 i)
            (Function.update w.mail j q' i) (w.chan s i) p q ms := by
          simpa [Function.update_of_ne hij, Function.update_of_ne hi] using hr
        refine .of_eq (.hand hz hn he' ho' hh') (.recv hr4) ?_
        simp only [Function.update_comm hij, Function.update_comm hi]

theorem joins_hand_emit {i i' : ι} (ha : Fire cap (.hand i) w a)
    (hb : Fire cap (.emit i') w b) : Joins cap (.hand i) (.emit i') a b := by
  cases ha with
  | @hand _ _ j m p1 p2 q hz hn he ho hh =>
    cases hb with
    | @emit _ _ o p' hem =>
      have hi : i' ≠ i := by
        rintro rfl
        simp [hem, Proc.outgoing] at ho
      have hj : i' ≠ j := by
        rintro rfl
        obtain ⟨sel, k, hin⟩ := hh.source
        simp [hem, Proc.incoming] at hin
      have ho' : (Function.update w.proc i' p' i).outgoing = some (j, m, p1) := by
        rwa [Function.update_of_ne hi.symm]
      have hh' : Receives box i (Function.update w.proc i' p' j) (w.mail j) [m] p2 q [] := by
        rwa [Function.update_of_ne hj.symm]
      refine .of_eq (.emit (o := o) (p := p') ?_) (.hand hz hn he ho' hh') ?_
      · simpa [Function.update_of_ne hi, Function.update_of_ne hj] using hem
      · simp only [Function.update_comm hj, Function.update_comm hi]

theorem joins_emit_emit {i i' : ι} (hne : i ≠ i') (ha : Fire cap (.emit i) w a)
    (hb : Fire cap (.emit i') w b) : Joins cap (.emit i) (.emit i') a b := by
  cases ha with
  | @emit _ _ o p he =>
    cases hb with
    | @emit _ _ o' p' he' =>
      refine .of_eq (.emit (o := o') (p := p') ?_) (.emit (o := o) (p := p) ?_) ?_
      · simpa [Function.update_of_ne hne.symm] using he'
      · simpa [Function.update_of_ne hne] using he
      · simp only [Function.update_of_ne hne, Function.update_of_ne hne.symm,
          Function.update_comm hne.symm]

/-- Two hand-overs can share an endpoint only as the sender of one and the receiver of the
other, that is in the two halves of an exchange. -/
theorem joins_hand_hand {i i' : ι} (hne : i ≠ i') (ha : Fire cap (.hand i) w a)
    (hb : Fire cap (.hand i') w b) : Joins cap (.hand i) (.hand i') a b := by
  cases ha with
  | @hand _ _ j m p1 p2 q hz hn he ho hh =>
    cases hb with
    | @hand _ _ j' m' p1' p2' q' hz' hn' he' ho' hh' =>
      have hj : j ≠ j' := by
        rintro rfl
        exact hne (hh.source_unique hh')
      -- `x` is left of the second sender, `y` of the second receiver
      obtain ⟨x, hx, hxr, hxe⟩ : ∃ x, (Function.update (Function.update w.proc i p1) j p2 i').outgoing =
          some (j', m', x) ∧ Receives box i (Function.update (Function.update w.proc i' p1') j' p2' j)
            (Function.update w.mail j' q' j) [m] (if i' = j then x else p2) q [] ∧
            (i' ≠ j → x = p1') := by
        by_cases hij : i' = j
        · subst hij
          obtain ⟨x, hx, hxr⟩ := hh.beside_send ho'
          exact ⟨x, by simpa using hx, by simpa [Function.update_of_ne hj] using hxr, fun h => absurd rfl h⟩
        · refine ⟨p1', ?_, ?_, fun _ => rfl⟩
          · rwa [Function.update_of_ne hij, Function.update_of_ne hne.symm]
          · simpa [Function.update_of_ne hj, Function.update_of_ne (Ne.symm hij), hij] using hh
      obtain ⟨y, hy, hyr, hye⟩ : ∃ y, (Function.update (Function.update w.proc i' p1') j' p2' i).outgoing =
          some (j, m, y) ∧ Receives box i' (Function.update (Function.update w.proc i p1) j p2 j')
            (Function.update w.mail j q j') [m'] (if i = j' then y else p2') q' [] ∧
            (i ≠ j' → y = p1) := by
        by_cases hij : i = j'
        · subst hij
          obtain ⟨y, hy, hyr⟩ := hh'.beside_send ho
          exact ⟨y, by simpa using hy, by simpa [Function.update_of_ne hj.symm] using hyr,
            fun h => absurd rfl h⟩
        · refine ⟨p1, ?_, ?_, fun _ => rfl⟩
          · rwa [Function.update_of_ne hij, Function.update_of_ne hne]
          · simpa [Function.update_of_ne hj.symm, Function.update_of_ne (Ne.symm hij), hij] using hh'
      refine .of_eq (.hand hz hn' he' hx hyr) (.hand hz hn he hy hxr) ?_
      have hproc : Function.update (Function.update (Function.update (Function.update w.proc i p1) j p2) i' x) j'
          (if i = j' then y else p2') =
          Function.update (Function.update (Function.update (Function.update w.proc i' p1') j' p2') i y) j
          (if i' = j then x else p2) := by
        funext k
        simp only [Function.update_apply]
        split_ifs <;> simp_all
      simp only [hproc, Function.update_comm hj]

theorem Fire.joins {l l' : Label ι} (hne : l ≠ l') (ha : Fire cap l w a)
    (hb : Fire cap l' w b) : Joins cap l l' a b := by
  have hzero : ∀ {i i' : ι} {a b : World box ω α}, Fire cap (.send i) w a →
      ¬ Fire cap (.hand i') w b := by
    intro i i' a b hs hh
    cases hs with
    | send _ hc => cases hh with | hand hz => simp [hz] at hc
  cases l with
  | send i =>
    cases l' with
    | send i' => exact joins_send_send (fun h => hne (h ▸ rfl)) ha hb
    | recv i' => exact joins_send_recv ha hb
    | hand i' => exact absurd hb (hzero ha)
    | emit i' => exact joins_send_emit ha hb
  | recv i =>
    cases l' with
    | send i' => exact (joins_send_recv hb ha).symm
    | recv i' => exact joins_recv_recv (fun h => hne (h ▸ rfl)) ha hb
    | hand i' => exact joins_recv_hand ha hb
    | emit i' => exact joins_recv_emit ha hb
  | hand i =>
    cases l' with
    | send i' => exact absurd ha (hzero hb)
    | recv i' => exact (joins_recv_hand hb ha).symm
    | hand i' => exact joins_hand_hand (fun h => hne (h ▸ rfl)) ha hb
    | emit i' => exact joins_hand_emit ha hb
  | emit i =>
    cases l' with
    | send i' => exact (joins_send_emit hb ha).symm
    | recv i' => exact (joins_recv_emit hb ha).symm
    | hand i' => exact (joins_hand_emit hb ha).symm
    | emit i' => exact joins_emit_emit (fun h => hne (h ▸ rfl)) ha hb

/-- Steps of different endpoints commute: the schedule does not matter. -/
theorem step_diamond : Diamond (@Step ι μ ω α _ box cap) := by
  rintro w a b ⟨l, ha⟩ ⟨l', hb⟩
  by_cases hl : l = l'
  · subst hl
    exact .inl (ha.det hb)
  · obtain ⟨d, hd, hd'⟩ := ha.joins hl hb
    exact .inr ⟨d, ⟨l', hd⟩, ⟨l, hd'⟩⟩

end Dlir.Framework
