import Dlir.Framework.Session
import Mathlib.Data.List.Perm.Basic

namespace Dlir.Framework

variable {ι μ ε κ ω α β : Type}

/-- Code all of whose sends and receives, whatever it gets, are of the given kinds. -/
def Proc.Sound (sends : ι → μ → Prop) (receives : ι → Selector μ → Prop) : Proc ι μ ω α → Prop
  | .ret _ => True
  | .send dst m k => sends dst m ∧ k.Sound sends receives
  | .recv src sel k => receives src sel ∧ ∀ m, (k m).Sound sends receives
  | .exchange dst m src sel k => sends dst m ∧ receives src sel ∧ ∀ m, (k m).Sound sends receives
  | .emit _ k => k.Sound sends receives

theorem Proc.Sound.mono {sends sends' : ι → μ → Prop} {receives receives' : ι → Selector μ → Prop}
    (hs : ∀ i m, sends i m → sends' i m) (hr : ∀ i sel, receives i sel → receives' i sel)
    {p : Proc ι μ ω α} (hp : p.Sound sends receives) : p.Sound sends' receives' := by
  induction p with
  | ret a => trivial
  | send dst m k ih => exact ⟨hs _ _ hp.1, ih hp.2⟩
  | recv src sel k ih => exact ⟨hr _ _ hp.1, fun m => ih m (hp.2 m)⟩
  | exchange dst m src sel k ih =>
    exact ⟨hs _ _ hp.1, hr _ _ hp.2.1, fun m => ih m (hp.2.2 m)⟩
  | emit o k ih => exact ih hp

/-- The connection from one rank to another with the two ends of it. -/
structure Flow (link : Link μ ε) where
  chan : link.Chan
  sent : List μ
  kept : List μ
  taken : List μ

namespace Flow

variable {link : Link μ ε}

/-- What a step can do to a connection: nothing, put a message in, hand out the first stored
message that is wanted, hand out a fresh one when no stored one of its kind is there, or store
it. -/
inductive Move (key : μ → κ) : Flow link → Flow link → Prop
  | same (f : Flow link) : Move key f f
  | push {f : Flow link} {m : μ} {c : link.Chan} : link.push f.chan m = .ok c →
      Move key f { f with chan := c, sent := f.sent ++ [m] }
  | stored {f : Flow link} {m : μ} {front back : List μ} : f.kept = front ++ m :: back →
      (∀ x ∈ front, key x ≠ key m) →
      Move key f { f with kept := front ++ back, taken := f.taken ++ [m] }
  | fresh {f : Flow link} {m : μ} {c : link.Chan} : link.pop f.chan = some (.ok m, c) →
      (∀ x ∈ f.kept, key x ≠ key m) →
      Move key f { f with chan := c, taken := f.taken ++ [m] }
  | park {f : Flow link} {m : μ} {c : link.Chan} : link.pop f.chan = some (.ok m, c) →
      Move key f { f with chan := c, kept := f.kept ++ [m] }

theorem Move.of_eq {key : μ → κ} {f f' : Flow link} (h : f' = f) : Move key f f' := by
  rw [h]
  exact .same f

variable [DecidableEq κ]

/-- Nothing that was sent is lost, doubled or overtaken by a message of its kind. `read` is what
has left the channel. -/
structure Balanced (key : μ → κ) (f : Flow link) (read unread : List μ) : Prop where
  good : ∀ m ∈ f.sent, link.Good m
  sent_eq : f.sent = read ++ unread
  carries : link.Carries f.chan unread
  perm : read.Perm (f.taken ++ f.kept)
  order : ∀ k, read.filter (key · = k) = f.taken.filter (key · = k) ++ f.kept.filter (key · = k)

namespace Balanced

variable {key : μ → κ} {f f' : Flow link} {read unread : List μ}

theorem initial (key : μ → κ) :
    Balanced key (⟨link.empty, [], [], []⟩ : Flow link) [] [] :=
  ⟨by simp, rfl, link.carries_empty, by simp, by simp⟩

theorem good_unread (h : Balanced key f read unread) : ∀ m ∈ unread, link.Good m := by
  intro m hm
  apply h.good
  rw [h.sent_eq]
  exact List.mem_append_right _ hm

theorem push (h : Balanced key f read unread) {m : μ} {c : link.Chan} (hm : link.Good m)
    (hpush : link.push f.chan m = .ok c) :
    Balanced key { f with chan := c, sent := f.sent ++ [m] } read (unread ++ [m]) where
  good := by
    intro x hx
    rcases List.mem_append.mp hx with hx | hx
    · exact h.good x hx
    · exact List.mem_singleton.mp hx ▸ hm
  sent_eq := by rw [h.sent_eq, List.append_assoc]
  carries := link.carries_push h.carries hpush
  perm := h.perm
  order := h.order

theorem stored (h : Balanced key f read unread) {m : μ} {front back : List μ}
    (hkept : f.kept = front ++ m :: back) (hfront : ∀ x ∈ front, key x ≠ key m) :
    Balanced key { f with kept := front ++ back, taken := f.taken ++ [m] } read unread where
  good := h.good
  sent_eq := h.sent_eq
  carries := h.carries
  perm := by
    have hperm := h.perm
    rw [hkept] at hperm
    apply hperm.trans
    rw [List.append_assoc]
    exact List.perm_middle.append_left _
  order := by
    intro k
    rw [h.order k, hkept]
    by_cases hk : key m = k
    · have hnone : front.filter (key · = k) = [] := by
        rw [List.filter_eq_nil_iff]
        intro x hx
        simpa [← hk] using hfront x hx
      simp [hk, hnone]
    · simp [hk]

theorem pop (h : Balanced key f read unread) {m : μ} {c : link.Chan}
    (hpop : link.pop f.chan = some (.ok m, c)) :
    ∃ rest, unread = m :: rest ∧ link.Carries c rest := by
  obtain ⟨m', rest, hunread, hm, hcarry⟩ := Link.carries_pop h.carries h.good_unread hpop
  obtain rfl := Except.ok.inj hm
  exact ⟨rest, hunread, hcarry⟩

theorem fresh (h : Balanced key f read unread) {m : μ} {rest : List μ} {c : link.Chan}
    (hunread : unread = m :: rest) (hcarry : link.Carries c rest)
    (hkept : ∀ x ∈ f.kept, key x ≠ key m) :
    Balanced key { f with chan := c, taken := f.taken ++ [m] } (read ++ [m]) rest where
  good := h.good
  sent_eq := by rw [h.sent_eq, hunread, List.append_assoc]; rfl
  carries := hcarry
  perm := by
    apply (h.perm.append_right [m]).trans
    rw [List.append_assoc, List.append_assoc]
    exact List.perm_append_comm.append_left _
  order := by
    intro k
    rw [List.filter_append, h.order k]
    by_cases hk : key m = k
    · have hnone : f.kept.filter (key · = k) = [] := by
        rw [List.filter_eq_nil_iff]
        intro x hx
        simpa [← hk] using hkept x hx
      simp [hk, hnone]
    · simp [hk]

theorem park (h : Balanced key f read unread) {m : μ} {rest : List μ} {c : link.Chan}
    (hunread : unread = m :: rest) (hcarry : link.Carries c rest) :
    Balanced key { f with chan := c, kept := f.kept ++ [m] } (read ++ [m]) rest where
  good := h.good
  sent_eq := by rw [h.sent_eq, hunread, List.append_assoc]; rfl
  carries := hcarry
  perm := by
    rw [← List.append_assoc]
    exact h.perm.append_right [m]
  order := by
    intro k
    rw [List.filter_append, List.filter_append, h.order k, List.append_assoc]

/-- Every move keeps the balance. What is under way was so before or has just been sent. -/
theorem move (h : Balanced key f read unread) (hmove : Move key f f')
    (hgood : ∀ m, f'.sent = f.sent ++ [m] → link.Good m) :
    ∃ read' unread', Balanced key f' read' unread' ∧
      ∀ m ∈ unread', m ∈ unread ∨ f'.sent = f.sent ++ [m] := by
  cases hmove with
  | same => exact ⟨read, unread, h, fun _ hm => .inl hm⟩
  | @push m c hpush =>
    refine ⟨read, unread ++ [m], h.push (hgood m rfl) hpush, ?_⟩
    intro x hx
    rcases List.mem_append.mp hx with hx | hx
    · exact .inl hx
    · exact .inr (by rw [List.mem_singleton.mp hx])
  | stored hkept hfront => exact ⟨read, unread, h.stored hkept hfront, fun _ hm => .inl hm⟩
  | fresh hpop hkept =>
    obtain ⟨rest, rfl, hcarry⟩ := h.pop hpop
    exact ⟨_, rest, h.fresh rfl hcarry hkept, fun _ hm => .inl (List.mem_cons_of_mem _ hm)⟩
  | park hpop =>
    obtain ⟨rest, rfl, hcarry⟩ := h.pop hpop
    exact ⟨_, rest, h.park rfl hcarry, fun _ hm => .inl (List.mem_cons_of_mem _ hm)⟩

end Balanced

end Flow

/-- The search of stored messages does not tell messages of one kind apart. -/
def Selector.Respects (key : μ → κ) (sel : Selector μ) : Prop :=
  ∀ m m', key m = key m' → sel.stored m = sel.stored m'

namespace Session

variable [DecidableEq ι] [DecidableEq κ] {S : Service ι μ ε} {Origin : ι → μ → Prop}
  (contents : S.box.Contents Origin) (key : μ → κ) (From : ι → ι → μ → Prop)

def flow (w : Session S) (i j : ι) : Flow S.link :=
  ⟨w.chan i j, w.sent i j, contents.of (w.mail j) i, w.taken i j⟩

/-- The bookkeeping of a run: all code in progress is sound and every connection is balanced. -/
structure Accounted (w : Session S) : Prop where
  sound : ∀ i op p, w.call i = some (op, p) →
    p.Sound (From i) fun _ sel => sel.Respects key
  addressed : ∀ i j, ∀ m ∈ w.sent i j, From i j m
  balanced : ∀ i j, ∃ read unread, (w.flow contents i j).Balanced key read unread

/-- Steps after which the books still balance: what is sent can be read, a receive only takes
from the channel what it would also take from its store, and nobody gives up in the middle of a
message. -/
structure Orderly (w : Session S) (e : Event ι S.Op) : Prop where
  sends : ∀ i op j m k c, e = .send i → w.call i = some (op, .send j m k) →
    S.link.push (w.chan i j) m = .ok c → S.link.Good m
  selects : ∀ i op j sel k m c, e = .recv i → w.call i = some (op, .recv j sel k) →
    S.box.take (w.mail i) j sel.stored = none → S.link.pop (w.chan j i) = some (.ok m, c) →
    sel.fresh m = true → sel.stored m = true
  whole : ∀ i lost, e = .expire i lost → lost = 0

variable {contents key From} {w w' : Session S} {e : Event ι S.Op}

@[simp] theorem flow_close (i : ι) (op : S.Op) (r) :
    (w.close i op r).flow contents = w.flow contents := rfl

@[simp] theorem flow_resume (i : ι) (op : S.Op) (p) :
    (w.resume i op p).flow contents = w.flow contents := by
  cases p <;> rfl

/-- What a receive finds stored under its source, and that nothing of the kind it takes is among
the messages it passes over. -/
theorem Accounted.unlike (hacc : w.Accounted contents key From) {i j : ι} {op : S.Op}
    {sel : Selector μ} {k} (hcall : w.call i = some (op, .recv j sel k)) {m : μ}
    (hm : sel.stored m = true) {xs : List μ} (hxs : ∀ x ∈ xs, sel.stored x = false) :
    ∀ x ∈ xs, key x ≠ key m := by
  intro x hx heq
  have hrespects := (hacc.sound i _ _ hcall).1
  have hsame := hrespects x m heq
  rw [hm, hxs x hx] at hsame
  cases hsame

theorem Fire.move (hfire : Fire e w w') (hacc : w.Accounted contents key From)
    (horigin : ∀ i j m, From i j m → Origin i m) (hord : w.Orderly e) (x y : ι) :
    Flow.Move key (w.flow contents x y) (w'.flow contents x y) := by
  cases hfire with
  | call hidle =>
    rw [flow_resume]
    exact .same _
  | @send _ i j op m k c hcall hpush =>
    rw [flow_resume]
    by_cases h : x = i ∧ y = j
    · obtain ⟨rfl, rfl⟩ := h
      have hmove : Flow.Move key (w.flow contents x y) _ := .push hpush
      simpa [flow, set₂_apply] using hmove
    · apply Flow.Move.of_eq
      simp [flow, set₂_apply, h]
  | refused hcall hpush => exact .same _
  | @stored _ i j op sel k m q hcall htake =>
    rw [flow_resume]
    obtain ⟨hwant, front, back, hkept, hfront, hof⟩ := contents.take_some htake
    have hunlike := hacc.unlike hcall hwant hfront
    by_cases hy : y = i
    · subst hy
      by_cases hx : x = j
      · subst hx
        have hmove : Flow.Move key (w.flow contents x y) _ := .stored hkept hunlike
        simpa [flow, set₂_apply, hof] using hmove
      · apply Flow.Move.of_eq
        simp [flow, set₂_apply, hof, hx]
    · apply Flow.Move.of_eq
      simp [flow, set₂_apply, hy]
  | @fresh _ i j op sel k m c hcall htake hpop hfresh =>
    rw [flow_resume]
    have hwant := hord.selects i op j sel k m c rfl hcall htake hpop hfresh
    have hunlike := hacc.unlike hcall hwant (contents.take_none htake)
    by_cases h : x = j ∧ y = i
    · obtain ⟨rfl, rfl⟩ := h
      have hmove : Flow.Move key (w.flow contents x y) _ := .fresh hpop hunlike
      simpa [flow, set₂_apply] using hmove
    · apply Flow.Move.of_eq
      simp [flow, set₂_apply, h]
  | @parked _ i j op sel k m c hcall htake hpop hfresh =>
    obtain ⟨read, unread, hbal⟩ := hacc.balanced j i
    obtain ⟨rest, hunread, -⟩ := hbal.pop hpop
    have hmem : m ∈ w.sent j i := by
      rw [show w.sent j i = read ++ unread from hbal.sent_eq, hunread]
      simp
    have hof := contents.of_park (w.mail i) j m (horigin j i m (hacc.addressed j i m hmem))
    by_cases hy : y = i
    · subst hy
      by_cases hx : x = j
      · subst hx
        have hmove : Flow.Move key (w.flow contents x y) _ := .park hpop
        simpa [flow, putAside, set₂_apply, hof] using hmove
      · apply Flow.Move.of_eq
        simp [flow, putAside, set₂_apply, hof, hx]
    · apply Flow.Move.of_eq
      simp [flow, putAside, set₂_apply, hy]
  | @garbled _ i j op sel k err c hcall htake hpop =>
    obtain ⟨read, unread, hbal⟩ := hacc.balanced j i
    obtain ⟨m, rest, -, hm, -⟩ := Link.carries_pop hbal.carries hbal.good_unread hpop
    cases hm
  | @expire _ i j op sel k lost err hcall htake he =>
    obtain rfl := hord.whole i lost rfl
    rw [flow_close]
    apply Flow.Move.of_eq
    simp only [flow, set₂_apply, S.link.cut_zero]
    split_ifs with h
    · obtain ⟨rfl, rfl⟩ := h
      rfl
    · rfl
  | overdue hcall hpush he => exact .same _

/-- A step adds to at most one record of sent messages, and then the call in progress sends. -/
theorem Fire.sent_cases (hfire : Fire e w w') (x y : ι) : w'.sent x y = w.sent x y ∨
    ∃ op m k c, e = .send x ∧ w.call x = some (op, .send y m k) ∧
      S.link.push (w.chan x y) m = .ok c ∧ w'.sent x y = w.sent x y ++ [m] := by
  cases hfire with
  | call hidle => simp
  | @send _ i j op m k c hcall hpush =>
    by_cases h : x = i ∧ y = j
    · obtain ⟨rfl, rfl⟩ := h
      exact .inr ⟨op, m, k, c, rfl, hcall, hpush, by simp [set₂_apply]⟩
    · simp [set₂_apply, h]
  | refused hcall hpush => simp
  | stored hcall htake => simp
  | fresh hcall htake hpop hfresh => simp
  | parked hcall htake hpop hfresh => exact .inl rfl
  | garbled hcall htake hpop => simp
  | expire hcall htake he => simp
  | overdue hcall hpush he => simp

namespace Accounted

theorem sound_step (hacc : w.Accounted contents key From)
    (hcode : ∀ i l op, (S.code i l op).Sound (From i) fun _ sel => sel.Respects key)
    (hfire : Fire e w w') : ∀ i op p, w'.call i = some (op, p) →
      p.Sound (From i) fun _ sel => sel.Respects key :=
  hfire.inherits hcode (fun _ _ _ _ _ hp => hp.2) (fun _ _ _ _ _ m hp => hp.2 m) hacc.sound

theorem balanced_step (hacc : w.Accounted contents key From)
    (horigin : ∀ i j m, From i j m → Origin i m) (hord : w.Orderly e) (hfire : Fire e w w')
    {x y : ι} {read unread : List μ} (hbal : (w.flow contents x y).Balanced key read unread) :
    ∃ read' unread', (w'.flow contents x y).Balanced key read' unread' ∧
      ∀ m ∈ unread', m ∈ unread ∨ w'.sent x y = w.sent x y ++ [m] := by
  apply hbal.move (hfire.move hacc horigin hord x y)
  intro m hm
  rcases hfire.sent_cases x y with hsent | ⟨op, m', k, c, he, hcall, hpush, hsent⟩
  · have hlen := congrArg List.length (hsent.symm.trans hm)
    simp [flow] at hlen
  · have heq := hsent.symm.trans hm
    simp only [flow, List.append_cancel_left_eq, List.cons.injEq, and_true] at heq
    exact heq ▸ hord.sends x op y m' k c he hcall hpush

/-- The books balance after every orderly step of sound code. -/
theorem step (hacc : w.Accounted contents key From)
    (hcode : ∀ i l op, (S.code i l op).Sound (From i) fun _ sel => sel.Respects key)
    (horigin : ∀ i j m, From i j m → Origin i m) (hord : w.Orderly e) (hfire : Fire e w w') :
    w'.Accounted contents key From where
  sound := hacc.sound_step hcode hfire
  addressed := by
    intro x y m hm
    rcases hfire.sent_cases x y with hsent | ⟨op, m', k, -, -, hcall, -, hsent⟩
    · exact hacc.addressed x y m (hsent ▸ hm)
    · rw [hsent] at hm
      rcases List.mem_append.mp hm with hm | hm
      · exact hacc.addressed x y m hm
      · obtain rfl := List.mem_singleton.mp hm
        exact (hacc.sound x _ _ hcall).1
  balanced := by
    intro x y
    obtain ⟨read, unread, hbal⟩ := hacc.balanced x y
    obtain ⟨read', unread', hbal', -⟩ := hacc.balanced_step horigin hord hfire hbal
    exact ⟨read', unread', hbal'⟩

theorem initial : (initial S).Accounted contents key From where
  sound := by simp [Session.initial]
  addressed := by simp [Session.initial]
  balanced := by
    intro x y
    refine ⟨[], [], ?_⟩
    have hflow : (Session.initial S).flow contents x y = ⟨S.link.empty, [], [], []⟩ := by
      simp [flow, Session.initial, contents.of_empty]
    rw [hflow]
    exact Flow.Balanced.initial key

end Accounted

/-- A receive whose message is stored or under way gets the first one that it wants, by steps of
its own. The steps meet any condition that holds as long as it reads what is under way. -/
theorem receive_completes (ok : Session S → Event ι S.Op → Prop) {i j : ι} {op : S.Op}
    {sel : Selector μ} {k} {read unread : List μ}
    (hcall : w.call i = some (op, .recv j sel k))
    (hbal : (w.flow contents j i).Balanced key read unread)
    (horigin : ∀ m ∈ unread, Origin j m) (hfresh : ∀ m ∈ unread, sel.fresh m = sel.stored m)
    (hok : ∀ (w1 : Session S) read1 unread1, w1.call = w.call → unread1 <:+ unread →
      (w1.flow contents j i).Balanced key read1 unread1 → ok w1 (.recv i))
    (hthere : ∃ m ∈ contents.of (w.mail i) j ++ unread, sel.stored m = true) :
    ∃ front m back w1, contents.of (w.mail i) j ++ unread = front ++ m :: back ∧
      (∀ x ∈ front, sel.stored x = false) ∧ sel.stored m = true ∧
      Session.call w1 = w.call ∧ w1.locals = w.locals ∧ w1.history = w.history ∧
      w1.sent = w.sent ∧ w1.taken = set₂ w.taken j i (w.taken j i ++ [m]) ∧
      Reaches ok w (w1.resume i op (k m)) := by
  induction unread generalizing w read with
  | nil =>
    cases htake : S.box.take (w.mail i) j sel.stored with
    | none =>
      obtain ⟨m, hm, hwant⟩ := hthere
      rw [List.append_nil] at hm
      rw [contents.take_none htake m hm] at hwant
      cases hwant
    | some taken =>
      obtain ⟨hwant, front, back, hkept, hfront, -⟩ := contents.take_some htake
      refine ⟨front, taken.1, back, _, by simp [hkept], hfront, hwant, ?_, ?_, ?_, ?_, ?_,
        .single ⟨_, hok w read [] rfl (List.suffix_refl _) hbal, .stored hcall htake⟩⟩
      all_goals rfl
  | cons x rest ih =>
    cases htake : S.box.take (w.mail i) j sel.stored with
    | some taken =>
      obtain ⟨hwant, front, back, hkept, hfront, -⟩ := contents.take_some htake
      refine ⟨front, taken.1, back ++ x :: rest, _, by simp [hkept], hfront, hwant, ?_, ?_, ?_, ?_,
        ?_, .single ⟨_, hok w read _ rfl (List.suffix_refl _) hbal, .stored hcall htake⟩⟩
      all_goals rfl
    | none =>
      obtain ⟨r, c, hpop, hcarry, hgood⟩ := S.link.pop_cons hbal.carries
      obtain rfl := hgood (hbal.good_unread x List.mem_cons_self)
      have hstep := hok w read _ rfl (List.suffix_refl _) hbal
      cases hx : sel.fresh x with
      | true =>
        have hwant : sel.stored x = true := by rw [← hfresh x List.mem_cons_self, hx]
        refine ⟨_, x, rest, _, rfl, contents.take_none htake, hwant, ?_, ?_, ?_, ?_, ?_,
          .single ⟨_, hstep, .fresh hcall htake hpop hx⟩⟩
        all_goals rfl
      | false =>
        have hof := contents.of_park (w.mail i) j x (horigin x List.mem_cons_self)
        have hflow : (w.putAside i j x c).flow contents j i =
            { w.flow contents j i with chan := c, kept := (w.flow contents j i).kept ++ [x] } := by
          simp [flow, putAside, set₂_apply, hof]
        have hparked := hbal.park rfl hcarry
        rw [← hflow] at hparked
        have hmail : contents.of ((w.putAside i j x c).mail i) j ++ rest =
            contents.of (w.mail i) j ++ x :: rest := by
          simp [putAside, hof]
        obtain ⟨front, m, back, w1, hsplit, hfront, hm, h1, h2, h3, h4, h5, hrun⟩ :=
          ih (w := w.putAside i j x c) hcall hparked
            (fun m hm => horigin m (List.mem_cons_of_mem _ hm))
            (fun m hm => hfresh m (List.mem_cons_of_mem _ hm))
            (fun w1 r1 u1 hc hs hb => hok w1 r1 u1 hc (hs.trans (List.suffix_cons x rest)) hb)
            (by rw [hmail]; exact hthere)
        exact ⟨front, m, back, w1, hmail.symm.trans hsplit, hfront, hm, h1, h2, h3, h4, h5,
          .head ⟨_, hstep, .parked hcall htake hpop hx⟩ hrun⟩

end Session

end Dlir.Framework
