import Dlir.Collectives.TcpBarrier

namespace Dlir.Collectives

open Dlir.Framework Dlir.Math Session

/-- Endpoints that exchange packets in memory. -/
abbrev InMemoryTransport.endpoints (world : Nat) (maximum : UInt64) :
    Service (Rank world) (WireFrame UInt32) CollectivesError :=
  endpoint .inMemory maximum fun (_ : Rank world) _ (b : Empty) => b.elim

theorem InMemoryTransport.quiet {world : Nat} {maximum : UInt64} : Quiet .inMemory maximum
    fun (_ : Rank world) _ (b : Empty) => b.elim := by
  intro i g b
  exact b.elim

section Messages

variable {world : Nat} {β : Type} {backend : Backend} {maximum : UInt64}
  {special : Rank world → Nat → β → Comm world UInt32 Unit Nat}

/-- What the call sends, if it sends, is a frame that the encoder accepts and the decoder reads. -/
def MessageCall.Fits (maximum : UInt64) (i : Rank world) (call : MessageCall UInt32) : Prop :=
  ∀ j f, i.validatePeer call.peer = .ok j → call.frame i.val = some f →
    f.dimensions ≤ 64 ∧ ∃ body, encodeWire f maximum = .ok body

/-- Steps of programs that only exchange packets, without timeouts. -/
def Messaging (_w : Session (endpoint backend maximum special)) :
    Event (Rank world) (endpoint backend maximum special).Op → Prop
  | .call i op => ∃ call, op = .message call ∧ call.Fits maximum i
  | .send _ => True
  | .recv _ => True
  | .expire _ _ => False

/-- A call fails only on an invalid peer. -/
structure MessageCall.Result (i : Rank world) (call : MessageCall UInt32)
    (r : Except CollectivesError (Answer UInt32)) : Prop where
  invalid : ∀ e, i.validatePeer call.peer = .error e → r = .error e
  valid : ∀ j, i.validatePeer call.peer = .ok j → ∃ answer, r = .ok answer
  send : ∀ j, i.validatePeer call.peer = .ok j → call.wants = none → r = .ok .done

/-- The invariant of runs of messages. -/
structure Messages (w : Session (endpoint backend maximum special)) : Prop where
  tracked : Tracked w
  fits : ∀ i op p, w.call i = some (op, p) → ∃ call, op = .message call ∧ call.Fits maximum i
  results : ∀ i, ∀ entry ∈ w.history i, ∃ call, entry.1 = .message call ∧ call.Result i entry.2

variable {w w' : Session (endpoint backend maximum special)}
  {e : Event (Rank world) (endpoint backend maximum special).Op}

theorem Backend.good_link {f : WireFrame UInt32} (hf : f.dimensions ≤ 64) :
    (backend.link maximum).Good f := by
  cases backend with
  | inMemory => trivial
  | tcp => exact (WireFrame.readable_iff f).mpr hf

theorem Backend.push_link {f : WireFrame UInt32} {body : List UInt8}
    (hf : encodeWire f maximum = .ok body) (c : (backend.link maximum).Chan) :
    ∃ c', (backend.link maximum).push c f = .ok c' := by
  cases backend with
  | inMemory => exact ⟨_, rfl⟩
  | tcp =>
    refine ⟨(show List UInt8 from c) ++ (leBytes 8 body.length ++ body), ?_⟩
    show (writeWire maximum f).map _ = _
    rw [writeWire_ok hf]
    rfl

theorem Messages.sends (h : Messages w) {i j : Rank world} {op m k}
    (hcall : w.call i = some (op, .send j m k)) :
    m.dimensions ≤ 64 ∧ ∃ body, encodeWire m maximum = .ok body := by
  obtain ⟨call, rfl, hfits⟩ := h.fits i _ _ hcall
  obtain ⟨⟨j', hpeer⟩, hcode⟩ := h.tracked.calls i _ _ hcall
  rcases call.frame_or_wants i.val with ⟨f, hf, -⟩ | ⟨key, hkey, -⟩
  · rw [code_send hpeer hf] at hcode
    obtain ⟨rfl, rfl, rfl⟩ := Proc.send.inj hcode
    exact hfits j m hpeer hf
  · obtain ⟨sel', k', hcode', -⟩ := code_recv (g := w.locals i) hpeer hkey
    rw [hcode'] at hcode
    cases hcode

theorem Messages.orderly (h : Messages w) (he : Messaging w e) : w.Orderly e where
  sends := by
    intro i op j m k c _ hcall _
    exact Backend.good_link (h.sends hcall).1
  selects := by
    intro i op j sel k m c _ hcall _ hpop hfresh
    obtain ⟨call, rfl, -⟩ := h.fits i _ _ hcall
    rw [← h.tracked.selects hcall (h.tracked.between_fresh hpop), hfresh]
  whole := by
    rintro i lost rfl
    exact he.elim

/-- A result is added to the history of a rank. -/
theorem results_snoc {history : Rank world →
      List (Operation UInt32 β × Except CollectivesError (Answer UInt32))}
    (h : ∀ i, ∀ entry ∈ history i, ∃ call, entry.1 = .message call ∧ call.Result i entry.2)
    {i : Rank world} {call : MessageCall UInt32} {r : Except CollectivesError (Answer UInt32)}
    (hr : call.Result i r) : ∀ x, ∀ entry ∈ Function.update history i
      (history i ++ [(.message call, r)]) x,
      ∃ call, entry.1 = .message call ∧ call.Result x entry.2 := by
  intro x entry hentry
  by_cases hx : x = i
  · subst hx
    rw [Function.update_self] at hentry
    rcases List.mem_append.mp hentry with hentry | hentry
    · exact h x entry hentry
    · obtain rfl := List.mem_singleton.mp hentry
      exact ⟨call, rfl, hr⟩
  · rw [Function.update_of_ne hx] at hentry
    exact h x entry hentry

theorem MessageCall.Result.ok {i j : Rank world} {call : MessageCall UInt32}
    (hpeer : i.validatePeer call.peer = .ok j) {answer : Answer UInt32}
    (hsend : call.wants = none → answer = .done) : call.Result i (.ok answer) where
  invalid := by
    intro e he
    rw [hpeer] at he
    cases he
  valid := fun _ _ => ⟨answer, rfl⟩
  send := by
    intro _ _ hnone
    rw [hsend hnone]

theorem Messages.results_take (h : Messages w) {w1 : Session (endpoint backend maximum special)}
    {i j : Rank world} {op sel k} (hcall : w.call i = some (op, .recv j sel k))
    {m : WireFrame UInt32} (hm : m.Between j i) (hwant : sel.stored m = true)
    (hhistory : w1.history = w.history) : ∀ x, ∀ entry ∈ (w1.resume i op (k m)).history x,
      ∃ call, entry.1 = .message call ∧ call.Result x entry.2 := by
  obtain ⟨call, rfl, -⟩ := h.fits i _ _ hcall
  obtain ⟨⟨j', hpeer⟩, hcode⟩ := h.tracked.calls i _ _ hcall
  rcases call.frame_or_wants i.val with ⟨f, hf, -⟩ | ⟨key, hkey, -⟩
  · rw [code_send hpeer hf] at hcode
    cases hcode
  · obtain ⟨sel', k', hcode', hstored, -, -, hanswer⟩ := code_recv (g := w.locals i) hpeer hkey
    rw [hcode'] at hcode
    obtain ⟨rfl, rfl, rfl⟩ := Proc.recv.inj hcode
    rw [hstored, decide_eq_true_iff] at hwant
    rw [hanswer m hm hwant]
    have hresult : call.Result i (.ok m.answer) := by
      apply MessageCall.Result.ok hpeer
      intro hnone
      rw [hkey] at hnone
      cases hnone
    have hmore := results_snoc h.results hresult
    rw [← hhistory] at hmore
    exact hmore

theorem Messages.results_step (h : Messages w) (he : Messaging w e) (hfire : Fire e w w') :
    ∀ i, ∀ entry ∈ w'.history i, ∃ call, entry.1 = .message call ∧ call.Result i entry.2 := by
  have hord := h.orderly he
  cases hfire with
  | @call _ i op hidle =>
    obtain ⟨call, rfl, -⟩ := he
    cases hpeer : i.validatePeer call.peer with
    | error err =>
      rw [code_invalid hpeer]
      apply results_snoc h.results
      refine ⟨?_, ?_, ?_⟩
      · intro e' he'
        rw [hpeer] at he'
        obtain rfl := Except.error.inj he'
        rfl
      · intro j hj
        rw [hpeer] at hj
        cases hj
      · intro j hj
        rw [hpeer] at hj
        cases hj
    | ok j =>
      rcases call.frame_or_wants i.val with ⟨f, hf, -⟩ | ⟨key, hkey, -⟩
      · rw [code_send hpeer hf]
        exact h.results
      · obtain ⟨sel, k, hcode, -⟩ := code_recv hpeer hkey
        rw [hcode]
        exact h.results
  | @send _ i j op m k c hcall hpush =>
    obtain ⟨call, rfl, -⟩ := h.fits i _ _ hcall
    obtain ⟨⟨j', hpeer⟩, hcode⟩ := h.tracked.calls i _ _ hcall
    rcases call.frame_or_wants i.val with ⟨f, hf, -⟩ | ⟨key, hkey, -⟩
    · rw [code_send hpeer hf] at hcode
      obtain ⟨rfl, rfl, rfl⟩ := Proc.send.inj hcode
      exact results_snoc h.results (.ok hpeer fun _ => rfl)
    · obtain ⟨sel, k, hcode', -⟩ := code_recv (g := w.locals i) hpeer hkey
      rw [hcode'] at hcode
      cases hcode
  | @refused _ i j op m k err hcall hpush =>
    obtain ⟨-, body, hbody⟩ := h.sends hcall
    obtain ⟨c, hc⟩ := @Backend.push_link backend maximum m body hbody (w.chan i j)
    cases hc.symm.trans hpush
  | @stored _ i j op sel k m q hcall htake =>
    have hwant := ((backend.contents world UInt32).take_some htake).1
    exact h.results_take hcall (h.tracked.between_stored htake) hwant rfl
  | @fresh _ i j op sel k m c hcall htake hpop hfresh =>
    have hwant := hord.selects i op j sel k m c rfl hcall htake hpop hfresh
    exact h.results_take hcall (h.tracked.between_fresh hpop) hwant rfl
  | @parked _ i j op sel k m c hcall htake hpop hfresh => exact h.results
  | @garbled _ i j op sel k err c hcall htake hpop =>
    obtain ⟨read, unread, hbal⟩ := h.tracked.accounted.balanced j i
    obtain ⟨m, rest, -, hm, -⟩ := Link.carries_pop hbal.carries hbal.good_unread hpop
    cases hm
  | expire hcall htake herr => exact he.elim
  | overdue hcall hpush herr => exact he.elim

theorem Messages.step (h : Messages w) (hquiet : Quiet backend maximum special)
    (he : Messaging w e) (hfire : Fire e w w') : Messages w' where
  tracked := h.tracked.step hquiet (h.orderly he) hfire
  fits := by
    intro i op p hcall
    rcases hfire.call_cases hcall with ⟨p', hbefore⟩ | rfl
    · exact h.fits i op p' hbefore
    · exact he
  results := h.results_step he hfire

theorem Messages.reached (hquiet : Quiet backend maximum special)
    (h : Reaches Messaging (Session.initial (endpoint backend maximum special)) w) :
    Messages w := by
  induction h with
  | refl => exact ⟨.initial, by simp [Session.initial], by simp [Session.initial]⟩
  | tail _ hstep ih =>
    obtain ⟨e, he, hfire⟩ := hstep
    exact ih.step hquiet he hfire

/-- For every key: what was sent is, in order, what was returned, what is pending and what is
still in the channel. -/
theorem Tracked.delivered (h : Tracked w) {i j : Rank world} {read unread}
    (hbal : (w.flow (backend.contents world UInt32) i j).Balanced WireFrame.key read unread)
    {key : Key} (hkey : key ≠ .barrier) :
    (sentBy i j key (transcript (w.history i))).map WireFrame.answer =
      returnedTo i key (transcript (w.history j)) ++
      (((backend.contents world UInt32).of (w.mail j) i).filter (·.key = key)).map WireFrame.answer ++
      (unread.filter (·.key = key)).map WireFrame.answer := by
  have horder := hbal.order key
  have hsent : w.sent i j = read ++ unread := hbal.sent_eq
  rw [← h.sent_eq i j key hkey, ← h.taken_eq i j key hkey, hsent, List.filter_append, horder,
    List.map_append, List.map_append]
  rfl

theorem Tracked.in_order (h : Tracked w) (i j : Rank world) {key : Key} (hkey : key ≠ .barrier) :
    returnedTo i key (transcript (w.history j)) <+:
      (sentBy i j key (transcript (w.history i))).map WireFrame.answer := by
  obtain ⟨read, unread, hbal⟩ := h.accounted.balanced i j
  rw [h.delivered hbal hkey, List.append_assoc]
  exact List.prefix_append _ _

/-- A receive for which more was sent than it has returned comes back with the next packet. -/
theorem Tracked.returns (h : Tracked w) {i j : Rank world} {call : MessageCall UInt32} {p}
    (hcall : w.call j = some (.message call, p)) (hpeer : call.peer = i.val) {key : Key}
    (hwants : call.wants = some key)
    (hmore : (returnedTo i key (transcript (w.history j))).length <
      (sentBy i j key (transcript (w.history i))).length) :
    ∃ answer w', Reaches (fun _ e => e = .recv j) w w' ∧ w'.call j = none ∧
      w'.history j = w.history j ++ [(.message call, .ok answer)] ∧
      ((sentBy i j key (transcript (w.history i))).map WireFrame.answer)[
        (returnedTo i key (transcript (w.history j))).length]? = some answer := by
  obtain ⟨⟨i', hvalid⟩, hcode⟩ := h.calls j _ _ hcall
  obtain rfl : i = i' := Fin.ext (hpeer.symm.trans (Rank.validatePeer_val hvalid))
  have hkey : key ≠ .barrier := by
    rcases call.frame_or_wants j.val with ⟨f, -, hnone, -⟩ | ⟨key', hkey', -, hne⟩
    · rw [hwants] at hnone
      cases hnone
    · rw [hwants] at hkey'
      exact Option.some.inj hkey' ▸ hne
  obtain ⟨sel, k, hcode', hstored, hfresh, -, hanswer⟩ := code_recv (g := w.locals j) hvalid hwants
  rw [hcode'] at hcode
  subst hcode
  obtain ⟨read, unread, hbal⟩ := h.accounted.balanced i j
  have hbetween := h.between hbal
  have hdelivered := h.delivered hbal hkey
  rw [List.append_assoc, ← List.map_append, ← List.filter_append] at hdelivered
  have hthere : ∃ f ∈ (backend.contents world UInt32).of (w.mail j) i ++ unread,
      sel.stored f = true := by
    by_contra hnone
    push Not at hnone
    have hempty : ((backend.contents world UInt32).of (w.mail j) i ++ unread).filter
        (·.key = key) = [] := by
      rw [List.filter_eq_nil_iff]
      intro f hf
      rw [← hstored]
      exact hnone f hf
    have hlen := congrArg List.length hdelivered
    rw [hempty] at hlen
    simp at hlen
    omega
  obtain ⟨front, m, back, w1, hsplit, hfront, hwant, -, -, hhistory, -, -, hrun⟩ :=
    receive_completes (fun _ e => e = .recv j) hcall hbal
      (fun f hf => (hbetween f (List.mem_append_right _ hf)).1)
      (fun f hf => hfresh f (hbetween f (List.mem_append_right _ hf)))
      (fun _ _ _ _ _ _ => rfl) hthere
  rw [hstored, decide_eq_true_iff] at hwant
  rw [hanswer m (hbetween m (by rw [hsplit]; simp)) hwant] at hrun
  refine ⟨m.answer, _, hrun, by simp [resume], ?_, ?_⟩
  · rw [← hhistory]
    simp [resume]
    rfl
  · have hnone : front.filter (·.key = key) = [] := by
      rw [List.filter_eq_nil_iff]
      intro f hf
      rw [← hstored, hfront f hf]
      simp
    rw [hdelivered, hsplit, List.filter_append, hnone]
    simp [hwant]

end Messages

section SameResults

variable {world : Nat}

/-- What the calls of all ranks that came back say about each other. -/
structure Explained
    (T : Rank world → List (MessageCall UInt32 × Except CollectivesError (Answer UInt32))) :
    Prop where
  results : ∀ i, ∀ entry ∈ T i, entry.1.Result i entry.2
  in_order : ∀ i j key, key ≠ .barrier →
    returnedTo i key (T j) <+: (sentBy i j key (T i)).map WireFrame.answer

variable {T T' : Rank world → List (MessageCall UInt32 × Except CollectivesError (Answer UInt32))}
  {calls : List (MessageCall UInt32 × Except CollectivesError (Answer UInt32))} {i j : Rank world}

/-- Which frames were sent can be read off the calls. -/
theorem sentBy_eq (h : ∀ entry ∈ calls, entry.1.Result i entry.2) (hij : i ≠ j) (key : Key) :
    sentBy i j key calls = (calls.map Prod.fst).filterMap fun call =>
      if call.peer = j.val then (call.frame i.val).filter (·.key = key) else none := by
  rw [sentBy, List.filterMap_map]
  apply List.filterMap_congr
  intro entry hentry
  obtain ⟨call, r⟩ := entry
  by_cases hpeer : call.peer = j.val
  · have hvalid : i.validatePeer call.peer = .ok j := by
      rw [hpeer]
      exact Rank.validatePeer_ok j.isLt fun heq => hij (Fin.ext heq.symm)
    obtain ⟨answer, rfl⟩ := (h _ hentry).valid j hvalid
    simp [hpeer]
  · cases r <;> simp [hpeer]

/-- How many receives for a key and source came back can be read off the calls. -/
theorem length_returnedTo (h : ∀ entry ∈ calls, entry.1.Result i entry.2) (hij : i ≠ j) (key : Key) :
    (returnedTo j key calls).length =
      (calls.map Prod.fst).countP fun call => call.peer = j.val ∧ call.wants = some key := by
  induction calls with
  | nil => rfl
  | cons entry calls ih =>
    obtain ⟨call, r⟩ := entry
    have hrest := ih fun entry hentry => h entry (List.mem_cons_of_mem _ hentry)
    have hhead := h _ List.mem_cons_self
    rw [← List.singleton_append, returnedTo_append, List.length_append, hrest, List.map_append,
      List.countP_append]
    congr 1
    by_cases hpeer : call.peer = j.val
    · have hvalid : i.validatePeer call.peer = .ok j := by
        rw [hpeer]
        exact Rank.validatePeer_ok j.isLt fun heq => hij (Fin.ext heq.symm)
      obtain ⟨answer, rfl⟩ := hhead.valid j hvalid
      rw [returnedTo_message]
      by_cases hwants : call.wants = some key <;> simp [hpeer, hwants]
    · cases r <;> simp [returnedTo, hpeer]

/-- The answer of a receive is fixed by what its source sent and by how many receives for the
same key came before it. -/
theorem Explained.answer (h : Explained T) {n : Nat} (hn : n < (T i).length) {key : Key}
    (hvalid : i.validatePeer (T i)[n].1.peer = .ok j) (hwants : (T i)[n].1.wants = some key) :
    ∃ answer, (T i)[n].2 = .ok answer ∧
      ((sentBy j i key (T j)).map WireFrame.answer)[(((T i).map Prod.fst).take n).countP
        fun call => call.peer = j.val ∧ call.wants = some key]? = some answer := by
  obtain ⟨answer, hanswer⟩ := (h.results i _ (List.getElem_mem hn)).valid j hvalid
  refine ⟨answer, hanswer, ?_⟩
  have hpeer := Rank.validatePeer_val hvalid
  have hne : i ≠ j := by
    rintro rfl
    exact (Rank.of_validatePeer hvalid).2 hpeer
  have hkey : key ≠ .barrier := by
    rcases (T i)[n].1.frame_or_wants i.val with ⟨f, -, hnone, -⟩ | ⟨key', hkey', -, hne'⟩
    · rw [hwants] at hnone
      cases hnone
    · rw [hwants] at hkey'
      exact Option.some.inj hkey' ▸ hne'
  have hsplit : T i = (T i).take n ++ [((T i)[n].1, .ok answer)] ++ (T i).drop (n + 1) := by
    rw [← hanswer, List.append_assoc, List.singleton_append, Prod.mk.eta,
      ← List.drop_eq_getElem_cons hn, List.take_append_drop]
  have hreturned : returnedTo j key (T i) = returnedTo j key ((T i).take n) ++ [answer] ++
      returnedTo j key ((T i).drop (n + 1)) := by
    have hall := congrArg (returnedTo j key) hsplit
    rw [returnedTo_append, returnedTo_append, returnedTo_message, if_pos ⟨hpeer, hwants⟩] at hall
    exact hall
  have hcount := @length_returnedTo world ((T i).take n) i j
    (fun entry hentry => h.results i entry (List.mem_of_mem_take hentry)) hne key
  obtain ⟨rest, hrest⟩ := h.in_order j i key hkey
  rw [← hrest, hreturned, ← List.map_take, ← hcount]
  simp

/-- Two runs in which every rank made the same calls, as far as they came back, returned the
same results. -/
theorem Explained.same (h : Explained T) (h' : Explained T')
    (hcalls : ∀ i, (T i).map Prod.fst <+: (T' i).map Prod.fst ∨
      (T' i).map Prod.fst <+: (T i).map Prod.fst)
    (hi : (T i).map Prod.fst <+: (T' i).map Prod.fst) : T i <+: T' i := by
  rw [List.prefix_iff_getElem?]
  intro n hn
  have hlen := hi.length_le
  rw [List.length_map, List.length_map] at hlen
  have hn' : n < (T' i).length := by omega
  have hcall : (T i)[n].1 = (T' i)[n].1 := by
    have hget := List.prefix_iff_getElem?.mp hi n (by simpa using hn)
    simpa [hn'] using hget.symm
  have htake : ((T i).map Prod.fst).take n = ((T' i).map Prod.fst).take n := by
    obtain ⟨rest, hrest⟩ := hi
    rw [← hrest, List.take_append_of_le_length (by simp; omega)]
  have hresult := h.results i _ (List.getElem_mem hn)
  have hresult' := h'.results i _ (List.getElem_mem hn')
  rw [List.getElem?_eq_getElem hn', Option.some_inj]
  apply Prod.ext hcall.symm
  cases hvalid : i.validatePeer (T i)[n].1.peer with
  | error e =>
    rw [hresult.invalid e hvalid, hresult'.invalid e (hcall ▸ hvalid)]
  | ok j =>
    have hvalid' : i.validatePeer (T' i)[n].1.peer = .ok j := hcall ▸ hvalid
    cases hwants : (T i)[n].1.wants with
    | none => rw [hresult.send j hvalid hwants, hresult'.send j hvalid' (hcall ▸ hwants)]
    | some key =>
      obtain ⟨answer, hanswer, hget⟩ := h.answer hn hvalid hwants
      obtain ⟨answer', hanswer', hget'⟩ := h'.answer hn' hvalid' (hcall ▸ hwants)
      rw [htake] at hget
      have hne : j ≠ i := by
        rintro rfl
        exact (Rank.of_validatePeer hvalid).2 (Rank.validatePeer_val hvalid)
      have hsent : ∀ {xs ys : List (Answer UInt32)}, xs <+: ys → ∀ {m : Nat} {a b : Answer UInt32},
          xs[m]? = some a → ys[m]? = some b → a = b := by
        intro xs ys hxy m a b ha hb
        obtain ⟨hm, rfl⟩ := List.getElem?_eq_some_iff.mp ha
        rw [List.prefix_iff_getElem?.mp hxy m hm] at hb
        exact Option.some.inj hb
      rw [sentBy_eq (h.results j) hne] at hget
      rw [sentBy_eq (h'.results j) hne] at hget'
      rw [hanswer, hanswer']
      rcases hcalls j with hj | hj
      · rw [hsent ((hj.filterMap _).map _) hget hget']
      · rw [hsent ((hj.filterMap _).map _) hget' hget]

end SameResults

section TaggedReceive

variable {world : Nat} {β : Type} {backend : Backend} {maximum : UInt64}
  {special : Rank world → Nat → β → Comm world UInt32 Unit Nat}
  {w : Session (endpoint backend maximum special)}

theorem Messages.explained (h : Messages w) : Explained fun i => transcript (w.history i) where
  results := by
    intro i entry hentry
    obtain ⟨⟨op, r⟩, hmem, heq⟩ := List.mem_filterMap.mp hentry
    obtain ⟨call, hop, hresult⟩ := h.results i _ hmem
    dsimp only at hop
    subst hop
    obtain rfl := Option.some.inj heq
    exact hresult
  in_order := fun i j key hkey => h.tracked.in_order i j hkey

/-- Receives by tag lose, double and reorder nothing: what one rank got from another for a key is
the beginning of what was sent, the rest is pending or in the channel, and a receive whose packet
has been sent comes back with it by steps of its own. -/
structure Exact (w : Session (endpoint backend maximum special)) : Prop where
  in_order : ∀ i j key, key ≠ .barrier →
    returnedTo i key (transcript (w.history j)) <+:
      (sentBy i j key (transcript (w.history i))).map WireFrame.answer
  present : ∀ i j, ∃ unread, (backend.link maximum).Carries (w.chan i j) unread ∧
    ∀ key, key ≠ .barrier →
      (sentBy i j key (transcript (w.history i))).map WireFrame.answer =
        returnedTo i key (transcript (w.history j)) ++
        (((backend.contents world UInt32).of (w.mail j) i).filter (·.key = key)).map
          WireFrame.answer ++
        (unread.filter (·.key = key)).map WireFrame.answer
  returns : ∀ (i j : Rank world) call p key, w.call j = some (.message call, p) →
    call.peer = i.val → call.wants = some key →
    (returnedTo i key (transcript (w.history j))).length <
      (sentBy i j key (transcript (w.history i))).length →
    ∃ answer w', Reaches (fun _ e => e = .recv j) w w' ∧ w'.call j = none ∧
      w'.history j = w.history j ++ [(.message call, .ok answer)] ∧
      ((sentBy i j key (transcript (w.history i))).map WireFrame.answer)[
        (returnedTo i key (transcript (w.history j))).length]? = some answer

theorem Tracked.exact (h : Tracked w) : Exact w where
  in_order := fun i j key hkey => h.in_order i j hkey
  present := by
    intro i j
    obtain ⟨read, unread, hbal⟩ := h.accounted.balanced i j
    exact ⟨unread, hbal.carries, fun key hkey => h.delivered hbal hkey⟩
  returns := fun i j call p key hcall hpeer hwants hmore => h.returns hcall hpeer hwants hmore

end TaggedReceive

/-- Both backends deliver packets exactly, and programs that make the same calls on them get the
same results. -/
theorem tagged_receive {world : Nat} {maximum : UInt64}
    (w : Session (InMemoryTransport.endpoints world maximum))
    (w' : Session (TcpTransport.endpoints world maximum))
    (hw : Reaches Messaging (Session.initial _) w) (hw' : Reaches Messaging (Session.initial _) w') :
    Exact w ∧ Exact w' ∧
    ((∀ i, (transcript (w.history i)).map Prod.fst <+: (transcript (w'.history i)).map Prod.fst ∨
        (transcript (w'.history i)).map Prod.fst <+: (transcript (w.history i)).map Prod.fst) →
      ∀ i, transcript (w.history i) <+: transcript (w'.history i) ∨
        transcript (w'.history i) <+: transcript (w.history i)) := by
  have h := Messages.reached InMemoryTransport.quiet hw
  have h' := Messages.reached TcpTransport.quiet_barrier hw'
  refine ⟨h.tracked.exact, h'.tracked.exact, ?_⟩
  intro hcalls i
  rcases hcalls i with hi | hi
  · exact .inl (h.explained.same h'.explained hcalls hi)
  · exact .inr (h'.explained.same h.explained (fun i => (hcalls i).symm) hi)

theorem note_bounded : ([0x7b, 0x7d] : List UInt8).length ≤ maxControlBytes := by decide

/-- Rank 0 sends a control packet and rank 1 asks for it. -/
def noteCall : MessageCall UInt32 := .sendControl 1 ⟨9⟩ ⟨[0x7b, 0x7d], note_bounded⟩

def askCall : MessageCall UInt32 := .recvControl 0 ⟨9⟩

theorem noteCall_fits : noteCall.Fits 64 (0 : Rank 2) := by
  intro j f _ hf
  obtain rfl := Option.some.inj hf
  exact ⟨by decide, _, rfl⟩

theorem askCall_fits : askCall.Fits 64 (1 : Rank 2) := by
  intro j f _ hf
  cases hf

/-- A control packet that rank 0 sends under another tag. -/
def pingCall : MessageCall UInt32 := .sendControl 1 ⟨8⟩ ⟨[0x30], by decide⟩

def pingAskCall : MessageCall UInt32 := .recvControl 0 ⟨8⟩

theorem pingCall_fits : pingCall.Fits 64 (0 : Rank 2) := by
  intro j f _ hf
  obtain rfl := Option.some.inj hf
  exact ⟨by decide, _, rfl⟩

theorem pingAskCall_fits : pingAskCall.Fits 64 (1 : Rank 2) := by
  intro j f _ hf
  cases hf

/-- Rank 1 asks for the second packet first. The first one is put aside, and then returned. -/
theorem tagged_receive_pair :
    ∃ (w : Session (InMemoryTransport.endpoints 2 64)) (w' : Session (TcpTransport.endpoints 2 64)),
      Reaches Messaging (Session.initial _) w ∧ Reaches Messaging (Session.initial _) w' ∧
      (∃ v, Reaches (fun _ e => e = .recv 1) w v ∧ v.history 1 =
        [(.message askCall, .ok (.control ⟨[0x7b, 0x7d], note_bounded⟩)),
          (.message pingAskCall, .ok (.control ⟨[0x30], by decide⟩))]) ∧
      ∃ v, Reaches (fun _ e => e = .recv 1) w' v ∧ v.history 1 =
        [(.message askCall, .ok (.control ⟨[0x7b, 0x7d], note_bounded⟩)),
          (.message pingAskCall, .ok (.control ⟨[0x30], by decide⟩))] := by
  have h1 : Reaches Messaging (Session.initial (InMemoryTransport.endpoints 2 64)) _ :=
    .single ⟨.call 0 (.message pingCall), ⟨pingCall, rfl, pingCall_fits⟩, .call rfl⟩
  have h2 := h1.tail ⟨.send 0, trivial, .send rfl rfl⟩
  have h3 := h2.tail ⟨.call 0 (.message noteCall), ⟨noteCall, rfl, noteCall_fits⟩, .call rfl⟩
  have h4 := h3.tail ⟨.send 0, trivial, .send rfl rfl⟩
  have h5 := h4.tail ⟨.call 1 (.message askCall), ⟨askCall, rfl, askCall_fits⟩, .call rfl⟩
  have h6 := h5.tail ⟨.recv 1, trivial, .parked rfl rfl rfl rfl⟩
  have h7 := h6.tail ⟨.recv 1, trivial, .fresh rfl rfl rfl rfl⟩
  have h8 := h7.tail ⟨.call 1 (.message pingAskCall), ⟨pingAskCall, rfl, pingAskCall_fits⟩, .call rfl⟩
  have h1' : Reaches Messaging (Session.initial (TcpTransport.endpoints 2 64)) _ :=
    .single ⟨.call 0 (.message pingCall), ⟨pingCall, rfl, pingCall_fits⟩, .call rfl⟩
  have h2' := h1'.tail ⟨.send 0, trivial, .send rfl rfl⟩
  have h3' := h2'.tail ⟨.call 0 (.message noteCall), ⟨noteCall, rfl, noteCall_fits⟩, .call rfl⟩
  have h4' := h3'.tail ⟨.send 0, trivial, .send rfl rfl⟩
  have h5' := h4'.tail ⟨.call 1 (.message askCall), ⟨askCall, rfl, askCall_fits⟩, .call rfl⟩
  have h6' := h5'.tail ⟨.recv 1, trivial,
    .parked (m := .control 0 1 ⟨8⟩ ⟨[0x30], by decide⟩) rfl rfl rfl rfl⟩
  have h7' := h6'.tail ⟨.recv 1, trivial,
    .fresh (m := .control 0 1 ⟨9⟩ ⟨[0x7b, 0x7d], note_bounded⟩) rfl rfl rfl rfl⟩
  have h8' := h7'.tail
    ⟨.call 1 (.message pingAskCall), ⟨pingAskCall, rfl, pingAskCall_fits⟩, .call rfl⟩
  have hmain := tagged_receive _ _ h8 h8'
  refine ⟨_, _, h8, h8', ?_, ?_⟩
  · obtain ⟨answer, v, hrun, -, hv, hanswer⟩ := hmain.1.returns 0 1 pingAskCall _ (.control ⟨8⟩) rfl
      rfl rfl (by decide)
    obtain rfl := Option.some.inj hanswer
    exact ⟨v, hrun, hv⟩
  · obtain ⟨answer, v, hrun, -, hv, hanswer⟩ := hmain.2.1.returns 0 1 pingAskCall _ (.control ⟨8⟩)
      rfl rfl rfl (by decide)
    obtain rfl := Option.some.inj hanswer
    exact ⟨v, hrun, hv⟩

end Dlir.Collectives
