import Dlir.Collectives.Endpoint

namespace Dlir.Collectives

open Dlir.Framework Session

section Delivery

variable {world : Nat} {β : Type} {backend : Backend} {maximum : UInt64}
  {special : Rank world → Nat → β → Comm world UInt32 Unit Nat}

/-- Calls use keys that their search of pending respects, and frames name their two ends. -/
theorem code_sound (hquiet : Quiet backend maximum special) (i : Rank world) (g : Nat) (op : Operation UInt32 β) :
    ((endpoint backend maximum special).code i g op).Sound (fun j f => f.Between i j)
      fun _ sel => sel.Respects WireFrame.key := by
  have hrespects : ∀ (sel : Selector (WireFrame UInt32)) key,
      (∀ f, sel.stored f = decide (f.key = key)) → sel.Respects WireFrame.key := by
    intro sel key hsel f f' heq
    rw [hsel, hsel, heq]
  cases op with
  | message call =>
    cases hpeer : i.validatePeer call.peer with
    | error e =>
      rw [code_invalid hpeer]
      trivial
    | ok j =>
      have hj := Rank.validatePeer_val hpeer
      rcases call.frame_or_wants i.val with ⟨f, hf, -, hsource, hdest, -⟩ | ⟨key, hkey, -, -⟩
      · rw [code_send hpeer hf]
        exact ⟨⟨hsource, by rw [hdest, hj]⟩, trivial⟩
      · obtain ⟨sel, k, hcode, hstored, -, hret, -⟩ := code_recv hpeer hkey
        rw [hcode]
        refine ⟨hrespects sel key hstored, ?_⟩
        intro f
        obtain ⟨r, hr⟩ := hret f
        rw [hr]
        trivial
  | other b =>
    apply (hquiet i g b).mono
    · exact fun j f h => h.1
    · exact fun j sel h => hrespects sel .barrier h

/-- The message calls that came back, with their results. -/
def transcript (history : List (Operation UInt32 β × Except CollectivesError (Answer UInt32))) :
    List (MessageCall UInt32 × Except CollectivesError (Answer UInt32)) :=
  history.filterMap fun entry =>
    match entry.1 with
    | .message call => some (call, entry.2)
    | .other _ => none

/-- The frames that these calls have put on the way to a rank. -/
def sentBy (i j : Rank world) (key : Key)
    (calls : List (MessageCall UInt32 × Except CollectivesError (Answer UInt32))) :
    List (WireFrame UInt32) :=
  calls.filterMap fun entry =>
    match entry.2 with
    | .ok _ => if entry.1.peer = j.val then (entry.1.frame i.val).filter (·.key = key) else none
    | .error _ => none

/-- What the receives for one key and source have returned. -/
def returnedTo (i : Rank world) (key : Key)
    (calls : List (MessageCall UInt32 × Except CollectivesError (Answer UInt32))) :
    List (Answer UInt32) :=
  calls.filterMap fun entry =>
    match entry.2 with
    | .ok answer => if entry.1.peer = i.val ∧ entry.1.wants = some key then some answer else none
    | .error _ => none

/-- What a call in progress can be: a message call that has done nothing yet, or barrier code. -/
def CallOk (backend : Backend) (maximum : UInt64)
    (special : Rank world → Nat → β → Comm world UInt32 Unit Nat) (i : Rank world) (g : Nat)
    (op : Operation UInt32 β) (p : Proc (Rank world) (WireFrame UInt32) Unit
      (Except CollectivesError (Answer UInt32 × Nat))) : Prop :=
  match op with
  | .message call => (∃ j, i.validatePeer call.peer = .ok j) ∧
      p = (endpoint backend maximum special).code i g (.message call)
  | .other _ => p.Sound (fun j f => f.Between i j ∧ f.key = .barrier)
      fun _ sel => ∀ f, sel.stored f = decide (f.key = .barrier)

/-- The records of a run agree with what the calls have returned. -/
structure Tracked (w : Session (endpoint backend maximum special)) : Prop where
  accounted : w.Accounted (backend.contents world UInt32) WireFrame.key
    fun i j f => f.Between i j
  calls : ∀ i op p, w.call i = some (op, p) →
    CallOk backend maximum special i (w.locals i) op p
  sent_eq : ∀ i j key, key ≠ .barrier →
    (w.sent i j).filter (·.key = key) = sentBy i j key (transcript (w.history i))
  taken_eq : ∀ i j key, key ≠ .barrier →
    ((w.taken i j).filter (·.key = key)).map WireFrame.answer =
      returnedTo i key (transcript (w.history j))

variable {w w' : Session (endpoint backend maximum special)}
  {e : Event (Rank world) (endpoint backend maximum special).Op}

/-- What is pending or in the channel names the two ends of the connection. -/
theorem Tracked.between (h : Tracked w) {i j : Rank world} {read unread}
    (hbal : (w.flow (backend.contents world UInt32) j i).Balanced WireFrame.key read unread) :
    ∀ f ∈ (backend.contents world UInt32).of (w.mail i) j ++ unread, f.Between j i := by
  intro f hf
  apply h.accounted.addressed j i
  rw [show w.sent j i = read ++ unread from hbal.sent_eq, List.mem_append, hbal.perm.mem_iff,
    List.mem_append]
  rcases List.mem_append.mp hf with hf | hf
  · exact .inl (.inr hf)
  · exact .inr hf

theorem Tracked.between_stored (h : Tracked w) {i j : Rank world} {want} {f : WireFrame UInt32} {q}
    (htake : (endpoint backend maximum special).box.take (w.mail i) j want = some (f, q)) :
    f.Between j i := by
  obtain ⟨-, front, back, hkept, -, -⟩ := (backend.contents world UInt32).take_some htake
  obtain ⟨read, unread, hbal⟩ := h.accounted.balanced j i
  apply h.between hbal
  rw [hkept]
  simp

theorem Tracked.between_fresh (h : Tracked w) {i j : Rank world} {f : WireFrame UInt32} {c}
    (hpop : (endpoint backend maximum special).link.pop (w.chan j i) = some (.ok f, c)) :
    f.Between j i := by
  obtain ⟨read, unread, hbal⟩ := h.accounted.balanced j i
  obtain ⟨rest, hunread, -⟩ := hbal.pop hpop
  apply h.between hbal
  rw [hunread]
  simp

/-- A receive takes the same frames from the channel as from pending. -/
theorem Tracked.selects (h : Tracked w) {i j : Rank world} {call sel k}
    (hcall : w.call i = some (.message call, .recv j sel k)) {f : WireFrame UInt32}
    (hf : f.Between j i) : sel.fresh f = sel.stored f := by
  obtain ⟨⟨j', hpeer⟩, hcode⟩ := h.calls i _ _ hcall
  rcases call.frame_or_wants i.val with ⟨f', hf', -⟩ | ⟨key, hkey, -⟩
  · rw [code_send hpeer hf'] at hcode
    cases hcode
  · obtain ⟨sel', k', hcode', -, hfresh, -⟩ := code_recv (g := w.locals i) hpeer hkey
    rw [hcode'] at hcode
    obtain ⟨rfl, rfl, rfl⟩ := Proc.recv.inj hcode
    exact hfresh f hf

/-- What a step does to the records. -/
inductive Effect (w w' : Session (endpoint backend maximum special)) : Prop
  | silent (i : Rank world) (ops : List (Operation UInt32 β × Except CollectivesError (Answer UInt32))) :
      (∀ x y key, key ≠ .barrier →
        (w'.sent x y).filter (·.key = key) = (w.sent x y).filter (·.key = key) ∧
        (w'.taken x y).filter (·.key = key) = (w.taken x y).filter (·.key = key)) →
      (∀ entry ∈ ops, (∃ b, entry.1 = .other b) ∨ ∃ e, entry.2 = .error e) →
      w'.history = Function.update w.history i (w.history i ++ ops) → Effect w w'
  | sends (i j : Rank world) (call : MessageCall UInt32) (f : WireFrame UInt32) :
      call.peer = j.val → call.frame i.val = some f →
      w'.sent = set₂ w.sent i j (w.sent i j ++ [f]) → w'.taken = w.taken →
      w'.history = Function.update w.history i (w.history i ++ [(.message call, .ok .done)]) →
      Effect w w'
  | takes (i j : Rank world) (call : MessageCall UInt32) (f : WireFrame UInt32) :
      call.peer = j.val → call.wants = some f.key →
      w'.sent = w.sent → w'.taken = set₂ w.taken j i (w.taken j i ++ [f]) →
      w'.history = Function.update w.history i (w.history i ++ [(.message call, .ok f.answer)]) →
      Effect w w'

theorem Effect.idle (i : Rank world) (hsent : w'.sent = w.sent) (htaken : w'.taken = w.taken)
    (hhistory : w'.history = w.history) : Effect w w' := by
  apply Effect.silent i []
  · intro x y key _
    rw [hsent, htaken]
    exact ⟨rfl, rfl⟩
  · simp
  · simp [hhistory]

theorem Effect.failed (i : Rank world) (op : Operation UInt32 β) (err : CollectivesError)
    (hsent : w'.sent = w.sent) (htaken : w'.taken = w.taken)
    (hhistory : w'.history = Function.update w.history i (w.history i ++ [(op, .error err)])) :
    Effect w w' := by
  apply Effect.silent i [(op, .error err)]
  · intro x y key _
    rw [hsent, htaken]
    exact ⟨rfl, rfl⟩
  · intro entry hentry
    obtain rfl := List.mem_singleton.mp hentry
    exact .inr ⟨err, rfl⟩
  · exact hhistory

/-- Barrier frames are not among the packets. -/
theorem filter_snoc_barrier {f : WireFrame UInt32} (hf : f.key = .barrier) {key : Key}
    (hkey : key ≠ .barrier) (fs : List (WireFrame UInt32)) :
    (fs ++ [f]).filter (·.key = key) = fs.filter (·.key = key) := by
  have hne : ¬ f.key = key := fun h => hkey (h ▸ hf)
  simp [hne]

/-- A step of an operation other than a message. -/
theorem Effect.of_other {w1 : Session (endpoint backend maximum special)} {i : Rank world} {b : β}
    {p} (hw' : w' = w1.resume i (.other b) p)
    (hrecords : ∀ x y key, key ≠ .barrier →
        (w1.sent x y).filter (·.key = key) = (w.sent x y).filter (·.key = key) ∧
        (w1.taken x y).filter (·.key = key) = (w.taken x y).filter (·.key = key))
    (hhistory : w1.history = w.history) : Effect w w' := by
  subst hw'
  rcases resume_history_cases w1 i (.other b) p with hsame | ⟨r, hmore⟩
  · apply Effect.silent i []
    · simpa using hrecords
    · simp
    · simp [hsame, hhistory]
  · apply Effect.silent i [(.other b, r)]
    · simpa using hrecords
    · intro entry hentry
      obtain rfl := List.mem_singleton.mp hentry
      exact .inl ⟨b, rfl⟩
    · rw [hmore, hhistory]

/-- A receive that gets a frame it would also take from pending. -/
theorem Tracked.effect_take (h : Tracked w) {w1 : Session (endpoint backend maximum special)}
    {i j : Rank world} {op : Operation UInt32 β} {sel : Selector (WireFrame UInt32)} {k}
    (hcall : w.call i = some (op, .recv j sel k)) {m : WireFrame UInt32} (hm : m.Between j i)
    (hwant : sel.stored m = true) (hsent : w1.sent = w.sent)
    (htaken : w1.taken = set₂ w.taken j i (w.taken j i ++ [m]))
    (hhistory : w1.history = w.history) : Effect w (w1.resume i op (k m)) := by
  cases op with
  | message call =>
    obtain ⟨⟨j', hpeer⟩, hcode⟩ := h.calls i _ _ hcall
    rcases call.frame_or_wants i.val with ⟨f, hf, -⟩ | ⟨key, hkey, -⟩
    · rw [code_send hpeer hf] at hcode
      cases hcode
    · obtain ⟨sel', k', hcode', hstored, -, -, hanswer⟩ := code_recv (g := w.locals i) hpeer hkey
      rw [hcode'] at hcode
      obtain ⟨rfl, rfl, rfl⟩ := Proc.recv.inj hcode
      rw [hstored, decide_eq_true_iff] at hwant
      rw [hanswer m hm hwant]
      refine Effect.takes i j call m (Rank.validatePeer_val hpeer) (by rw [hkey, hwant]) hsent
        htaken ?_
      rw [← hhistory]
      rfl
  | other b =>
    have hbarrier := (h.calls i _ _ hcall).1 m
    rw [hwant, eq_comm, decide_eq_true_iff] at hbarrier
    refine Effect.of_other (w := w) rfl ?_ hhistory
    intro x y key hkey
    rw [hsent, htaken]
    refine ⟨rfl, ?_⟩
    simp only [set₂_apply]
    split_ifs with hxy
    · obtain ⟨rfl, rfl⟩ := hxy
      exact filter_snoc_barrier hbarrier hkey _
    · rfl

theorem Tracked.effect (h : Tracked w) (hord : w.Orderly e) (hfire : Fire e w w') :
    Effect w w' := by
  cases hfire with
  | @call _ i op hidle =>
    cases op with
    | message call =>
      cases hpeer : i.validatePeer call.peer with
      | error err =>
        rw [code_invalid hpeer]
        exact Effect.failed i _ err rfl rfl rfl
      | ok j =>
        have hopen : ∃ p, (w.resume i (.message call)
            ((endpoint backend maximum special).code i (w.locals i) (.message call))) =
            { w with call := Function.update w.call i (some (.message call, p)) } := by
          rcases call.frame_or_wants i.val with ⟨f, hf, -⟩ | ⟨key, hkey, -⟩
          · rw [code_send hpeer hf]
            exact ⟨_, rfl⟩
          · obtain ⟨sel, k, hcode, -⟩ := code_recv hpeer hkey
            rw [hcode]
            exact ⟨_, rfl⟩
        obtain ⟨p, hp⟩ := hopen
        rw [hp]
        exact Effect.idle i rfl rfl rfl
    | other b => exact Effect.of_other rfl (fun _ _ _ _ => ⟨rfl, rfl⟩) rfl
  | @send _ i j op m k c hcall hpush =>
    cases op with
    | message call =>
      obtain ⟨⟨j', hpeer⟩, hcode⟩ := h.calls i _ _ hcall
      rcases call.frame_or_wants i.val with ⟨f, hf, -⟩ | ⟨key, hkey, -⟩
      · rw [code_send hpeer hf] at hcode
        obtain ⟨rfl, rfl, rfl⟩ := Proc.send.inj hcode
        exact Effect.sends i j call m (Rank.validatePeer_val hpeer) hf rfl rfl rfl
      · obtain ⟨sel, k, hcode', -⟩ := code_recv (g := w.locals i) hpeer hkey
        rw [hcode'] at hcode
        cases hcode
    | other b =>
      have hm := (h.calls i _ _ hcall).1.2
      refine Effect.of_other (w := w) rfl ?_ ?_
      · intro x y key hkey
        refine ⟨?_, rfl⟩
        simp only [set₂_apply]
        split_ifs with hxy
        · obtain ⟨rfl, rfl⟩ := hxy
          exact filter_snoc_barrier hm hkey _
        · rfl
      · rfl
  | @refused _ i j op m k err hcall hpush => exact Effect.failed i op err rfl rfl rfl
  | @stored _ i j op sel k m q hcall htake =>
    have hbetween := h.between_stored htake
    have hwant := ((backend.contents world UInt32).take_some htake).1
    exact h.effect_take hcall hbetween hwant rfl rfl rfl
  | @fresh _ i j op sel k m c hcall htake hpop hfresh =>
    have hbetween := h.between_fresh hpop
    have hwant := hord.selects i op j sel k m c rfl hcall htake hpop hfresh
    exact h.effect_take hcall hbetween hwant rfl rfl rfl
  | @parked _ i j op sel k m c hcall htake hpop hfresh => exact Effect.idle i rfl rfl rfl
  | @garbled _ i j op sel k err c hcall htake hpop => exact Effect.failed i op err rfl rfl rfl
  | @expire _ i j op sel k lost err hcall htake he => exact Effect.failed i op err rfl rfl rfl
  | @overdue _ i j op m k c err hcall hpush he => exact Effect.failed i op err rfl rfl rfl

theorem calls_resume {w1 : Session (endpoint backend maximum special)}
    (h : ∀ x op p, w1.call x = some (op, p) → CallOk backend maximum special x (w1.locals x) op p)
    {i : Rank world} {op : Operation UInt32 β} {p}
    (hp : (∃ r, p = .ret r) ∨ CallOk backend maximum special i (w1.locals i) op p) :
    ∀ x op' p', (w1.resume i op p).call x = some (op', p') →
      CallOk backend maximum special x ((w1.resume i op p).locals x) op' p' := by
  intro x op' p' hcall
  by_cases hx : x = i
  · subst hx
    rw [resume_locals w1 x op hcall]
    rcases hp with ⟨r, rfl⟩ | hp
    · simp [resume] at hcall
    · obtain ⟨rfl, rfl⟩ := resume_call w1 x op hcall
      exact hp
  · rw [resume_call_of_ne w1 i op p hx] at hcall
    rw [resume_locals_of_ne w1 i op p hx]
    exact h x op' p' hcall

theorem calls_close {w1 : Session (endpoint backend maximum special)}
    (h : ∀ x op p, w1.call x = some (op, p) → CallOk backend maximum special x (w1.locals x) op p)
    {i : Rank world} {op : Operation UInt32 β} {r} :
    ∀ x op' p', (w1.close i op r).call x = some (op', p') →
      CallOk backend maximum special x ((w1.close i op r).locals x) op' p' :=
  calls_resume (p := .ret r) h (.inl ⟨r, rfl⟩)

/-- After a send or a receive a message call comes back; barrier code may go on. -/
theorem Tracked.callOk_send (h : Tracked w) {i j : Rank world} {op m k}
    (hcall : w.call i = some (op, .send j m k)) :
    (∃ r, k = .ret r) ∨ CallOk backend maximum special i (w.locals i) op k := by
  have hok := h.calls i _ _ hcall
  cases op with
  | message call =>
    left
    obtain ⟨⟨j', hpeer⟩, hcode⟩ := hok
    rcases call.frame_or_wants i.val with ⟨f, hf, -⟩ | ⟨key, hkey, -⟩
    · rw [code_send hpeer hf] at hcode
      exact ⟨_, (Proc.send.inj hcode).2.2⟩
    · obtain ⟨sel, k', hcode', -⟩ := code_recv (g := w.locals i) hpeer hkey
      rw [hcode'] at hcode
      cases hcode
  | other b => exact .inr hok.2

theorem Tracked.callOk_recv (h : Tracked w) {i j : Rank world} {op sel k}
    (hcall : w.call i = some (op, .recv j sel k)) (m : WireFrame UInt32) :
    (∃ r, k m = .ret r) ∨ CallOk backend maximum special i (w.locals i) op (k m) := by
  have hok := h.calls i _ _ hcall
  cases op with
  | message call =>
    left
    obtain ⟨⟨j', hpeer⟩, hcode⟩ := hok
    rcases call.frame_or_wants i.val with ⟨f, hf, -⟩ | ⟨key, hkey, -⟩
    · rw [code_send hpeer hf] at hcode
      cases hcode
    · obtain ⟨sel', k', hcode', -, -, hret, -⟩ := code_recv (g := w.locals i) hpeer hkey
      rw [hcode'] at hcode
      obtain ⟨rfl, rfl, rfl⟩ := Proc.recv.inj hcode
      exact hret m
  | other b => exact .inr (hok.2 m)

/-- The calls in progress are what their operations are at the start, or barrier code. -/
theorem Tracked.calls_step (h : Tracked w) (hquiet : Quiet backend maximum special) (hfire : Fire e w w') :
    ∀ i op p, w'.call i = some (op, p) → CallOk backend maximum special i (w'.locals i) op p := by
  cases hfire with
  | @call _ i op hidle =>
    apply calls_resume h.calls
    cases op with
    | message call =>
      cases hpeer : i.validatePeer call.peer with
      | error err => exact .inl ⟨_, code_invalid hpeer⟩
      | ok j => exact .inr ⟨⟨j, hpeer⟩, rfl⟩
    | other b =>
      right
      exact hquiet i (w.locals i) b
  | send hcall hpush =>
    apply calls_resume
    · exact h.calls
    · exact h.callOk_send hcall
  | refused hcall hpush => exact calls_close h.calls
  | stored hcall htake =>
    apply calls_resume
    · exact h.calls
    · exact h.callOk_recv hcall _
  | fresh hcall htake hpop hfresh =>
    apply calls_resume
    · exact h.calls
    · exact h.callOk_recv hcall _
  | parked hcall htake hpop hfresh => exact h.calls
  | garbled hcall htake hpop =>
    apply calls_close
    exact h.calls
  | expire hcall htake he =>
    apply calls_close
    exact h.calls
  | overdue hcall hpush he => exact calls_close h.calls

theorem transcript_append
    (history more : List (Operation UInt32 β × Except CollectivesError (Answer UInt32))) :
    transcript (history ++ more) = transcript history ++ transcript more :=
  List.filterMap_append

section Calls

variable (i j : Rank world) (key : Key)
  (calls more : List (MessageCall UInt32 × Except CollectivesError (Answer UInt32)))
  (call : MessageCall UInt32) (answer : Answer UInt32)

theorem sentBy_append : sentBy i j key (calls ++ more) = sentBy i j key calls ++ sentBy i j key more :=
  List.filterMap_append

theorem returnedTo_append :
    returnedTo i key (calls ++ more) = returnedTo i key calls ++ returnedTo i key more :=
  List.filterMap_append

theorem sentBy_message : sentBy i j key [(call, .ok answer)] =
    (if call.peer = j.val then (call.frame i.val).filter (·.key = key) else none).toList := by
  rw [sentBy, List.filterMap_cons]
  dsimp only
  cases (if call.peer = j.val then (call.frame i.val).filter (·.key = key) else none) <;> rfl

theorem returnedTo_message : returnedTo i key [(call, .ok answer)] =
    if call.peer = i.val ∧ call.wants = some key then [answer] else [] := by
  rw [returnedTo, List.filterMap_cons]
  dsimp only
  split_ifs <;> rfl

end Calls

/-- Calls that failed and operations other than messages leave no trace in the packets. -/
theorem failed_of_transcript
    {ops : List (Operation UInt32 β × Except CollectivesError (Answer UInt32))}
    (hops : ∀ entry ∈ ops, (∃ b, entry.1 = .other b) ∨ ∃ e, entry.2 = .error e) :
    ∀ entry ∈ transcript ops, ∃ e, entry.2 = .error e := by
  intro entry hentry
  obtain ⟨⟨op, r⟩, hmem, heq⟩ := List.mem_filterMap.mp hentry
  rcases hops _ hmem with ⟨b, rfl⟩ | ⟨err, rfl⟩
  · cases heq
  · cases op with
    | message call =>
      obtain rfl := Option.some.inj heq
      exact ⟨err, rfl⟩
    | other b => cases heq

theorem sentBy_failed {calls : List (MessageCall UInt32 × Except CollectivesError (Answer UInt32))}
    (h : ∀ entry ∈ calls, ∃ e, entry.2 = .error e) (i j : Rank world) (key : Key) :
    sentBy i j key calls = [] := by
  rw [sentBy, List.filterMap_eq_nil_iff]
  intro entry hentry
  obtain ⟨e, he⟩ := h entry hentry
  rw [he]

theorem returnedTo_failed
    {calls : List (MessageCall UInt32 × Except CollectivesError (Answer UInt32))}
    (h : ∀ entry ∈ calls, ∃ e, entry.2 = .error e) (i : Rank world) (key : Key) :
    returnedTo i key calls = [] := by
  rw [returnedTo, List.filterMap_eq_nil_iff]
  intro entry hentry
  obtain ⟨e, he⟩ := h entry hentry
  rw [he]

theorem transcript_message (call : MessageCall UInt32)
    (r : Except CollectivesError (Answer UInt32)) :
    transcript [((.message call, r) :
      Operation UInt32 β × Except CollectivesError (Answer UInt32))] = [(call, r)] := rfl

theorem Tracked.sent_step (h : Tracked w) (heffect : Effect w w') (x y : Rank world) {key : Key}
    (hkey : key ≠ .barrier) :
    (w'.sent x y).filter (·.key = key) = sentBy x y key (transcript (w'.history x)) := by
  have hbefore := h.sent_eq x y key hkey
  cases heffect with
  | silent i ops hrecords hops hhistory =>
    rw [(hrecords x y key hkey).1, hbefore, hhistory]
    by_cases hx : x = i
    · subst hx
      rw [Function.update_self, transcript_append, sentBy_append,
        sentBy_failed (failed_of_transcript hops), List.append_nil]
    · rw [Function.update_of_ne hx]
  | sends i j call f hpeer hf hsent htaken hhistory =>
    rw [hsent, hhistory, set₂_apply]
    by_cases hx : x = i
    · subst hx
      rw [Function.update_self, transcript_append, transcript_message, sentBy_append, ← hbefore]
      by_cases hy : y = j
      · subst hy
        by_cases hfk : f.key = key <;> simp [sentBy_message, hpeer, hf, hfk, Option.filter]
      · have hne : ¬ j.val = y.val := fun heq => hy (Fin.ext heq.symm)
        simp [sentBy_message, hpeer, hy, hne]
    · rw [Function.update_of_ne hx, if_neg fun h => hx h.1, hbefore]
  | takes i j call f hpeer hf hsent htaken hhistory =>
    rw [hsent, hhistory, hbefore]
    by_cases hx : x = i
    · subst hx
      have hnone : call.frame x.val = none := by
        rcases call.frame_or_wants x.val with ⟨f', -, hnone, -⟩ | ⟨key', -, hnone, -⟩
        · rw [hf] at hnone
          cases hnone
        · exact hnone
      rw [Function.update_self, transcript_append, transcript_message, sentBy_append]
      simp [sentBy_message, hnone]
    · rw [Function.update_of_ne hx]

theorem Tracked.taken_step (h : Tracked w) (heffect : Effect w w') (x y : Rank world) {key : Key}
    (hkey : key ≠ .barrier) :
    ((w'.taken x y).filter (·.key = key)).map WireFrame.answer =
      returnedTo x key (transcript (w'.history y)) := by
  have hbefore := h.taken_eq x y key hkey
  cases heffect with
  | silent i ops hrecords hops hhistory =>
    rw [(hrecords x y key hkey).2, hbefore, hhistory]
    by_cases hy : y = i
    · subst hy
      rw [Function.update_self, transcript_append, returnedTo_append,
        returnedTo_failed (failed_of_transcript hops), List.append_nil]
    · rw [Function.update_of_ne hy]
  | sends i j call f hpeer hf hsent htaken hhistory =>
    rw [htaken, hhistory, hbefore]
    by_cases hy : y = i
    · subst hy
      have hnone : call.wants = none := by
        rcases call.frame_or_wants y.val with ⟨f', -, hnone, -⟩ | ⟨key', -, hnone, -⟩
        · exact hnone
        · rw [hf] at hnone
          cases hnone
      rw [Function.update_self, transcript_append, transcript_message, returnedTo_append]
      simp [returnedTo_message, hnone]
    · rw [Function.update_of_ne hy]
  | takes i j call f hpeer hf hsent htaken hhistory =>
    rw [htaken, hhistory, set₂_apply]
    by_cases hy : y = i
    · subst hy
      rw [Function.update_self, transcript_append, transcript_message, returnedTo_append, ← hbefore]
      by_cases hx : x = j
      · subst hx
        by_cases hfk : f.key = key <;> simp [returnedTo_message, hpeer, hf, hfk]
      · have hne : ¬ j.val = x.val := fun heq => hx (Fin.ext heq.symm)
        simp [returnedTo_message, hpeer, hx, hne]
    · rw [Function.update_of_ne hy, if_neg fun h => hy h.2, hbefore]

theorem Tracked.step (h : Tracked w) (hquiet : Quiet backend maximum special) (hord : w.Orderly e)
    (hfire : Fire e w w') : Tracked w' where
  accounted := h.accounted.step (code_sound hquiet) (fun _ _ _ hf => hf.1) hord hfire
  calls := h.calls_step hquiet hfire
  sent_eq := by
    intro x y key hkey
    exact h.sent_step (h.effect hord hfire) x y hkey
  taken_eq := by
    intro x y key hkey
    exact h.taken_step (h.effect hord hfire) x y hkey

theorem Tracked.initial : Tracked (Session.initial (endpoint backend maximum special)) where
  accounted := .initial
  calls := by simp [Session.initial]
  sent_eq := by simp [Session.initial, transcript, sentBy]
  taken_eq := by simp [Session.initial, transcript, returnedTo]

end Delivery

end Dlir.Collectives
