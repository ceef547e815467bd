import Dlir.Framework.Link
import Mathlib.Logic.Relation

namespace Dlir.Framework

open Relation

variable {ι μ ω α β σ κ : Type}

namespace Proc

/-- Code all of whose sends, receives and results, whatever it gets, are of the given kinds. -/
def Obeys (sends : ι → μ → Prop) (receives : ι → Selector μ → Prop) (ends : α → Prop) :
    Proc ι μ ω α → Prop
  | ret a => ends a
  | send dst m k => sends dst m ∧ k.Obeys sends receives ends
  | recv src sel k => receives src sel ∧ ∀ m, (k m).Obeys sends receives ends
  | exchange dst m src sel k =>
    sends dst m ∧ receives src sel ∧ ∀ m, (k m).Obeys sends receives ends
  | emit _ k => k.Obeys sends receives ends

namespace Obeys

variable {sends : ι → μ → Prop} {receives : ι → Selector μ → Prop} {ends : α → Prop}
  {ends' : β → Prop} {p p' : Proc ι μ ω α}

theorem bind {f : α → Proc ι μ ω β} (hp : p.Obeys sends receives ends)
    (hf : ∀ a, ends a → (f a).Obeys sends receives ends') :
    (p.bind f).Obeys sends receives ends' := by
  induction p with
  | ret a => exact hf a hp
  | send dst m k ih => exact ⟨hp.1, ih hp.2⟩
  | recv src sel k ih => exact ⟨hp.1, fun m => ih m (hp.2 m)⟩
  | exchange dst m src sel k ih => exact ⟨hp.1, hp.2.1, fun m => ih m (hp.2.2 m)⟩
  | emit o k ih => exact ih hp

theorem mono {sends' : ι → μ → Prop} {receives' : ι → Selector μ → Prop}
    (hs : ∀ i m, sends i m → sends' i m) (hr : ∀ i sel, receives i sel → receives' i sel)
    (hp : p.Obeys sends receives ends) : p.Obeys sends' receives' ends := by
  induction p with
  | ret a => exact hp
  | send dst m k ih => exact ⟨hs _ _ hp.1, ih hp.2⟩
  | recv src sel k ih => exact ⟨hr _ _ hp.1, fun m => ih m (hp.2 m)⟩
  | exchange dst m src sel k ih =>
    exact ⟨hs _ _ hp.1, hr _ _ hp.2.1, fun m => ih m (hp.2.2 m)⟩
  | emit o k ih => exact ih hp

theorem outgoing {j : ι} {m : μ} (hp : p.Obeys sends receives ends)
    (h : p.outgoing = some (j, m, p')) : sends j m ∧ p'.Obeys sends receives ends := by
  cases p with
  | send dst m' k =>
    obtain ⟨rfl, rfl, rfl⟩ := by simpa [Proc.outgoing] using h
    exact hp
  | exchange dst m' src sel k =>
    obtain ⟨rfl, rfl, rfl⟩ := by simpa [Proc.outgoing] using h
    exact ⟨hp.1, hp.2⟩
  | ret a => cases h
  | recv src sel k => cases h
  | emit o k => cases h

theorem incoming {j : ι} {sel : Selector μ} {k : μ → Proc ι μ ω α}
    (hp : p.Obeys sends receives ends) (h : p.incoming = some (j, sel, k)) :
    receives j sel ∧ ∀ m, (k m).Obeys sends receives ends := by
  cases p with
  | recv src sel' k' =>
    obtain ⟨rfl, rfl, rfl⟩ := by simpa [Proc.incoming] using h
    exact hp
  | exchange dst m' src sel' k' =>
    obtain ⟨rfl, rfl, rfl⟩ := by simpa [Proc.incoming] using h
    exact ⟨hp.2.1, fun m => ⟨hp.1, hp.2.2 m⟩⟩
  | ret a => cases h
  | send dst m k => cases h
  | emit o k => cases h

end Obeys

end Proc

/-- A message that an endpoint sent to, or got from, another one in one of its rounds. -/
structure Entry (ι μ : Type) where
  owner : ι
  round : Nat
  peer : ι
  message : μ

/-- Endpoints that run one piece of code after the other. `rounds` tells what is known of each
round entered so far; the code in progress belongs to the last one. Code may be given up, which
leaves behind what it has sent and not received. -/
structure Rounds (box : Mailbox ι μ) (ω α σ κ : Type) where
  code : ι → Option (Proc ι μ ω α)
  state : ι → σ
  rounds : ι → List κ
  mail : ι → box.Store
  chan : ι → ι → List μ
  sent : List (Entry ι μ)
  got : List (Entry ι μ)

namespace Rounds

variable [DecidableEq ι] {box : Mailbox ι μ}

def initial (box : Mailbox ι μ) (state : ι → σ) : Rounds box ω α σ κ where
  code _ := none
  state := state
  rounds _ := []
  mail _ := box.empty
  chan _ _ := []
  sent := []
  got := []

/-- The code in progress goes on. -/
def goOn (w : Rounds box ω α σ κ) (i : ι) (p : Proc ι μ ω α) : Rounds box ω α σ κ :=
  { w with code := Function.update w.code i (some p) }

/-- A message of the round in progress. -/
def entry (w : Rounds box ω α σ κ) (i j : ι) (m : μ) : Entry ι μ :=
  ⟨i, (w.rounds i).length - 1, j, m⟩

/-- The code in progress gets a message. -/
def deliver (w : Rounds box ω α σ κ) (i j : ι) (m : μ) (p : Proc ι μ ω α) :
    Rounds box ω α σ κ :=
  { w.goOn i p with got := w.got ++ [w.entry i j m] }

/-- One step of one endpoint. `enters` says which code a round can have, `leave` and `giveUp` what
the state is when a round is over. -/
inductive Step (enters : ι → σ → κ → Proc ι μ ω α → Prop) (leave : α → σ) (giveUp : κ → σ → σ) :
    Rounds box ω α σ κ → Rounds box ω α σ κ → Prop
  | enter {w : Rounds box ω α σ κ} {i : ι} {k : κ} {p : Proc ι μ ω α} : w.code i = none →
      enters i (w.state i) k p →
      Step enters leave giveUp w
        { w.goOn i p with rounds := Function.update w.rounds i (w.rounds i ++ [k]) }
  | leave {w : Rounds box ω α σ κ} {i : ι} {a : α} : w.code i = some (.ret a) →
      Step enters leave giveUp w
        { w with code := Function.update w.code i none,
                 state := Function.update w.state i (leave a) }
  | giveUp {w : Rounds box ω α σ κ} {i : ι} {k : κ} {p : Proc ι μ ω α} : w.code i = some p →
      (w.rounds i).getLast? = some k →
      Step enters leave giveUp w
        { w with code := Function.update w.code i none,
                 state := Function.update w.state i (giveUp k (w.state i)) }
  | emit {w : Rounds box ω α σ κ} {i : ι} {o : ω} {p : Proc ι μ ω α} :
      w.code i = some (.emit o p) → Step enters leave giveUp w (w.goOn i p)
  | send {w : Rounds box ω α σ κ} {i j : ι} {m : μ} {p p' : Proc ι μ ω α} : w.code i = some p →
      p.outgoing = some (j, m, p') →
      Step enters leave giveUp w
        { w.goOn i p' with chan := setChan w.chan i j (w.chan i j ++ [m]),
                           sent := w.sent ++ [w.entry i j m] }
  | stored {w : Rounds box ω α σ κ} {i j : ι} {m : μ} {p : Proc ι μ ω α} {sel : Selector μ}
      {k : μ → Proc ι μ ω α} {q : box.Store} : w.code i = some p →
      p.incoming = some (j, sel, k) → box.take (w.mail i) j sel.stored = some (m, q) →
      Step enters leave giveUp w
        { w.deliver i j m (k m) with mail := Function.update w.mail i q }
  | fresh {w : Rounds box ω α σ κ} {i j : ι} {m : μ} {ms : List μ} {p : Proc ι μ ω α}
      {sel : Selector μ} {k : μ → Proc ι μ ω α} : w.code i = some p →
      p.incoming = some (j, sel, k) → box.take (w.mail i) j sel.stored = none →
      w.chan j i = m :: ms → sel.fresh m = true →
      Step enters leave giveUp w
        { w.deliver i j m (k m) with chan := setChan w.chan j i ms }
  | parked {w : Rounds box ω α σ κ} {i j : ι} {m : μ} {ms : List μ} {p : Proc ι μ ω α}
      {sel : Selector μ} {k : μ → Proc ι μ ω α} : w.code i = some p →
      p.incoming = some (j, sel, k) → box.take (w.mail i) j sel.stored = none →
      w.chan j i = m :: ms → sel.fresh m = false →
      Step enters leave giveUp w
        { w with mail := Function.update w.mail i (box.park (w.mail i) j m),
                 chan := setChan w.chan j i ms }

section Traced

variable {Origin : ι → μ → Prop} (contents : box.Contents Origin)
  (sends : κ → ι → ι → μ → Prop) (receives : κ → ι → ι → Selector μ → Prop) (ends : κ → α → Prop)

/-- What is known of all messages: those sent, and those got, are of the kind of their round, and
nothing is under way or got that was not sent. -/
structure Traced (w : Rounds box ω α σ κ) : Prop where
  code : ∀ i p, w.code i = some p → ∃ k, (w.rounds i).getLast? = some k ∧
    p.Obeys (sends k i) (receives k i) (ends k)
  sent : ∀ e ∈ w.sent, ∃ k, (w.rounds e.owner)[e.round]? = some k ∧
    sends k e.owner e.peer e.message
  got : ∀ e ∈ w.got, (∃ k sel, (w.rounds e.owner)[e.round]? = some k ∧
    receives k e.owner e.peer sel ∧ (sel.stored e.message = true ∨ sel.fresh e.message = true)) ∧
    ∃ n, ⟨e.peer, n, e.owner, e.message⟩ ∈ w.sent
  chan : ∀ i j, ∀ m ∈ w.chan i j, ∃ n, ⟨i, n, j, m⟩ ∈ w.sent
  mail : ∀ i j, ∀ m ∈ contents.of (w.mail j) i, ∃ n, ⟨i, n, j, m⟩ ∈ w.sent

variable {contents sends receives ends} {w w' : Rounds box ω α σ κ}
  {enters : ι → σ → κ → Proc ι μ ω α → Prop} {leave : α → σ} {giveUp : κ → σ → σ}

theorem Traced.initial (state : ι → σ) :
    Traced contents sends receives ends (initial box state : Rounds box ω α σ κ) where
  code := by simp [Rounds.initial]
  sent := by simp [Rounds.initial]
  got := by simp [Rounds.initial]
  chan := by simp [Rounds.initial]
  mail := by simp [Rounds.initial, contents.of_empty]

/-- The last of the rounds of an endpoint is the one its entries are made for. -/
theorem getElem?_round {ks : List κ} {k : κ} (h : ks.getLast? = some k) :
    ks[ks.length - 1]? = some k := by
  rw [← List.getLast?_eq_getElem?]
  exact h

/-- More rounds do not change what is known of the earlier ones. -/
theorem getElem?_snoc {ks : List κ} {k k' : κ} {n : Nat} (h : ks[n]? = some k) :
    (ks ++ [k'])[n]? = some k := by
  obtain ⟨hn, -⟩ := List.getElem?_eq_some_iff.mp h
  rw [List.getElem?_append_left hn]
  exact h

theorem Traced.code_goOn (h : Traced contents sends receives ends w) {i : ι} {k : κ}
    {p : Proc ι μ ω α} (hk : (w.rounds i).getLast? = some k)
    (hp : p.Obeys (sends k i) (receives k i) (ends k)) :
    ∀ x p', (w.goOn i p).code x = some p' → ∃ k, (w.rounds x).getLast? = some k ∧
      p'.Obeys (sends k x) (receives k x) (ends k) := by
  intro x p' hcode
  by_cases hx : x = i
  · subst hx
    obtain rfl : p = p' := by simpa [goOn] using hcode
    exact ⟨k, hk, hp⟩
  · exact h.code x p' (by simpa [goOn, Function.update_of_ne hx] using hcode)

theorem Traced.code_stop (h : Traced contents sends receives ends w) (i : ι) :
    ∀ x p, Function.update w.code i none x = some p → ∃ k, (w.rounds x).getLast? = some k ∧
      p.Obeys (sends k x) (receives k x) (ends k) := by
  intro x p hcode
  by_cases hx : x = i
  · subst hx
    simp at hcode
  · exact h.code x p (by simpa [Function.update_of_ne hx] using hcode)

/-- What a receive hands to its code is of the kind of the round, and it was sent. -/
theorem Traced.got_deliver (h : Traced contents sends receives ends w) {i j : ι} {m : μ} {k : κ}
    {sel : Selector μ} (hk : (w.rounds i).getLast? = some k) (hrecv : receives k i j sel)
    (hsel : sel.stored m = true ∨ sel.fresh m = true) (hsent : ∃ n, ⟨j, n, i, m⟩ ∈ w.sent) :
    ∀ e ∈ w.got ++ [w.entry i j m], (∃ k sel, (w.rounds e.owner)[e.round]? = some k ∧
      receives k e.owner e.peer sel ∧ (sel.stored e.message = true ∨ sel.fresh e.message = true)) ∧
      ∃ n, ⟨e.peer, n, e.owner, e.message⟩ ∈ w.sent := by
  intro e he
  rcases List.mem_append.mp he with he | he
  · exact h.got e he
  · obtain rfl := List.mem_singleton.mp he
    exact ⟨⟨k, sel, getElem?_round hk, hrecv, hsel⟩, hsent⟩

theorem Traced.chan_pop (h : Traced contents sends receives ends w) {i j : ι} {m : μ} {ms : List μ}
    (hchan : w.chan j i = m :: ms) : (∃ n, ⟨j, n, i, m⟩ ∈ w.sent) ∧
    ∀ x y, ∀ m' ∈ setChan w.chan j i ms x y, ∃ n, ⟨x, n, y, m'⟩ ∈ w.sent := by
  refine ⟨h.chan j i m (by simp [hchan]), ?_⟩
  intro x y m' hm'
  rw [setChan_apply] at hm'
  split_ifs at hm' with hxy
  · obtain ⟨rfl, rfl⟩ := hxy
    exact h.chan x y m' (by simp [hchan, hm'])
  · exact h.chan x y m' hm'

theorem Traced.step (h : Traced contents sends receives ends w)
    (hcode : ∀ i s k p, enters i s k p → p.Obeys (sends k i) (receives k i) (ends k))
    (horigin : ∀ k i j m, sends k i j m → Origin i m)
    (hstep : Step enters leave giveUp w w') : Traced contents sends receives ends w' := by
  cases hstep with
  | @enter i k p hidle henter =>
    have hsame : ∀ {x : ι} {n : Nat} {k' : κ}, (w.rounds x)[n]? = some k' →
        (Function.update w.rounds i (w.rounds i ++ [k]) x)[n]? = some k' := by
      intro x n k' hn
      by_cases hx : x = i
      · subst hx
        rw [Function.update_self]
        exact getElem?_snoc hn
      · rwa [Function.update_of_ne hx]
    refine ⟨?_, ?_, ?_, h.chan, h.mail⟩
    · intro x p' hp'
      by_cases hx : x = i
      · subst hx
        obtain rfl : p = p' := by simpa [goOn] using hp'
        exact ⟨k, by simp, hcode x _ k p henter⟩
      · have hbefore : w.code x = some p' := by simpa [goOn, Function.update_of_ne hx] using hp'
        obtain ⟨k', hk', hobeys⟩ := h.code x p' hbefore
        exact ⟨k', by simpa [Function.update_of_ne hx] using hk', hobeys⟩
    · intro e he
      obtain ⟨k', hk', hsends⟩ := h.sent e he
      exact ⟨k', hsame hk', hsends⟩
    · intro e he
      obtain ⟨⟨k', sel, hk', hrest⟩, hsent⟩ := h.got e he
      exact ⟨⟨k', sel, hsame hk', hrest⟩, hsent⟩
  | leave hret => exact ⟨h.code_stop _, h.sent, h.got, h.chan, h.mail⟩
  | giveUp hp hk => exact ⟨h.code_stop _, h.sent, h.got, h.chan, h.mail⟩
  | @emit i o p hp =>
    obtain ⟨k, hk, hobeys⟩ := h.code i _ hp
    exact ⟨h.code_goOn hk hobeys, h.sent, h.got, h.chan, h.mail⟩
  | @send i j m p p' hp hout =>
    obtain ⟨k, hk, hobeys⟩ := h.code i _ hp
    obtain ⟨hm, hrest⟩ := hobeys.outgoing hout
    have hgrow : ∀ {x y : ι} {m' : μ}, (∃ n, ⟨x, n, y, m'⟩ ∈ w.sent) →
        ∃ n, ⟨x, n, y, m'⟩ ∈ w.sent ++ [w.entry i j m] := by
      rintro x y m' ⟨n, hn⟩
      exact ⟨n, List.mem_append_left _ hn⟩
    refine ⟨h.code_goOn hk hrest, ?_, ?_, ?_, fun x y m' hm' => hgrow (h.mail x y m' hm')⟩
    · intro e he
      rcases List.mem_append.mp he with he | he
      · exact h.sent e he
      · obtain rfl := List.mem_singleton.mp he
        exact ⟨k, getElem?_round hk, hm⟩
    · intro e he
      obtain ⟨hsel, hsent⟩ := h.got e he
      exact ⟨hsel, hgrow hsent⟩
    · intro x y m' hm'
      simp only [setChan_apply] at hm'
      split_ifs at hm' with hxy
      · obtain ⟨rfl, rfl⟩ := hxy
        rcases List.mem_append.mp hm' with hm' | hm'
        · exact hgrow (h.chan x y m' hm')
        · obtain rfl := List.mem_singleton.mp hm'
          exact ⟨_, List.mem_append_right _ (List.mem_singleton.mpr rfl)⟩
      · exact hgrow (h.chan x y m' hm')
  | @stored i j m p sel k' q hp hin htake =>
    obtain ⟨k, hk, hobeys⟩ := h.code i _ hp
    obtain ⟨hrecv, hrest⟩ := hobeys.incoming hin
    obtain ⟨hwant, front, back, hof, -, hof'⟩ := contents.take_some htake
    have hsent := h.mail j i m (by simp [hof])
    refine ⟨h.code_goOn hk (hrest m), h.sent, h.got_deliver hk hrecv (.inl hwant) hsent, h.chan, ?_⟩
    intro x y m' hm'
    by_cases hy : y = i
    · subst hy
      simp only [Function.update_self, hof'] at hm'
      by_cases hx : x = j
      · subst hx
        rw [Function.update_self] at hm'
        refine h.mail x y m' ?_
        rw [hof]
        rcases List.mem_append.mp hm' with hm' | hm'
        · exact List.mem_append_left _ hm'
        · exact List.mem_append_right _ (List.mem_cons_of_mem _ hm')
      · rw [Function.update_of_ne hx] at hm'
        exact h.mail x y m' hm'
    · simp only [Function.update_of_ne hy] at hm'
      exact h.mail x y m' hm'
  | @fresh i j m ms p sel k' hp hin htake hchan hfresh =>
    obtain ⟨k, hk, hobeys⟩ := h.code i _ hp
    obtain ⟨hrecv, hrest⟩ := hobeys.incoming hin
    obtain ⟨hsent, hleft⟩ := h.chan_pop hchan
    exact ⟨h.code_goOn hk (hrest m), h.sent, h.got_deliver hk hrecv (.inr hfresh) hsent, hleft,
      h.mail⟩
  | @parked i j m ms p sel k' hp hin htake hchan hfresh =>
    obtain ⟨⟨n, hsent⟩, hleft⟩ := h.chan_pop hchan
    obtain ⟨k, -, hsends⟩ := h.sent _ hsent
    have hof := contents.of_park (w.mail i) j m (horigin k j i m hsends)
    refine ⟨h.code, h.sent, h.got, hleft, ?_⟩
    intro x y m' hm'
    by_cases hy : y = i
    · subst hy
      simp only [Function.update_self, hof] at hm'
      by_cases hx : x = j
      · subst hx
        rw [Function.update_self] at hm'
        rcases List.mem_append.mp hm' with hm' | hm'
        · exact h.mail x y m' hm'
        · obtain rfl := List.mem_singleton.mp hm'
          exact ⟨n, hsent⟩
      · rw [Function.update_of_ne hx] at hm'
        exact h.mail x y m' hm'
    · simp only [Function.update_of_ne hy] at hm'
      exact h.mail x y m' hm'

end Traced

end Rounds

end Dlir.Framework
