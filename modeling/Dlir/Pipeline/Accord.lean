import Dlir.Pipeline.Traffic
import Dlir.Pipeline.Views

namespace Dlir.Pipeline

open Dlir.Collectives Dlir.Framework Dlir.Math Dlir.Runtime Dlir.Runtime.Model PipelineRank Relation

section Frames

variable {n : Nat} {α : Type}

theorem stepTag_injective {base step step' : Nat} (hbase : base + 2 ^ 60 ≤ 2 ^ 64) (hstep : step < 2 ^ 60)
    (hstep' : step' < 2 ^ 60)
    (h : (⟨.ofNat (base + step)⟩ : MessageTag) = ⟨.ofNat (base + step')⟩) : step = step' := by
  have hvalue := congrArg (fun tag : MessageTag => tag.value.toNat) h
  simp only [UInt64.toNat_ofNat'] at hvalue
  rw [Nat.mod_eq_of_lt (by omega), Nat.mod_eq_of_lt (by omega)] at hvalue
  omega

/-- Frames that carry the same carry the same tensor. -/
theorem tensorFrame_inj {source destination destination' : Rank n} {tag tag' : MessageTag}
    {t t' : Tensor α} (ht : t.Sendable) (ht' : t'.Sendable)
    (h : tensorFrame source destination tag t = tensorFrame source destination' tag' t') :
    tag = tag' ∧ t = t' := by
  rw [tensorFrame_eq ht, tensorFrame_eq ht'] at h
  injection h with _ _ htag hpacket
  refine ⟨htag, ?_⟩
  have hread := TensorPacket.toTensor_ofTensor ht
  rw [hpacket, TensorPacket.toTensor_ofTensor ht'] at hread
  exact (Except.ok.inj hread).symm

theorem tensorFrame_ne_controlFrame {source destination source' destination' : Rank n}
    {tag tag' : MessageTag} {t : Tensor α} {packet : ControlPacket} (ht : t.Sendable) :
    tensorFrame source destination tag t ≠ controlFrame tag' packet source' destination' := by
  rw [tensorFrame_eq ht]
  intro h
  cases h

variable {self : PipelineWorld (n + 1) α} {rank : Rank (n + 1)} {tokenizer : Tokenizer}

theorem mem_sent_viewsDealings {x : Rank (n + 1) × WireFrame α} {step : Nat} {generated : List Nat}
    {views : List (StepView α)}
    (h : x ∈ (viewsDealings self rank tokenizer step generated views).sent) :
    ∃ (i : Nat) (view : StepView α) (generated : List Nat), views[i]? = some view ∧
      x ∈ (view.dealings self rank (step + i) tokenizer generated).sent := by
  induction views generalizing step generated with
  | nil => cases h
  | cons view views ih =>
    rcases List.mem_append.mp h with hfirst | hrest
    · exact ⟨0, view, generated, rfl, hfirst⟩
    · obtain ⟨i, v, generated', hv, hx⟩ := ih hrest
      rw [Nat.add_assoc, Nat.add_comm 1] at hx
      exact ⟨i + 1, v, generated', hv, hx⟩

variable (self rank tokenizer) in
theorem taken_viewsDealings (step : Nat) (generated : List Nat) {views : List (StepView α)} {i : Nat}
    {view : StepView α} (h : views[i]? = some view) : ∃ generated',
      ∀ x ∈ (view.dealings self rank (step + i) tokenizer generated').taken,
        x ∈ (viewsDealings self rank tokenizer step generated views).taken := by
  induction views generalizing step generated i with
  | nil => cases h
  | cons v views ih =>
    cases i with
    | zero =>
      obtain rfl := Option.some.inj h
      exact ⟨generated, fun x hx => List.mem_append_left _ hx⟩
    | succ i =>
      obtain ⟨generated', hx⟩ := ih (step + 1) (generatedWith self.config generated v.token) h
      rw [Nat.add_assoc, Nat.add_comm 1] at hx
      exact ⟨generated', fun x hmem => List.mem_append_right _ (hx x hmem)⟩

theorem sent_entering (step : Nat) (hidden : Tensor α) : (entering rank step hidden).sent = [] := by
  unfold entering
  split_ifs
  · rfl
  · rfl

theorem taken_leaving (step : Nat) (hidden : Tensor α) (feedback : ControlPacket) :
    (leaving rank step hidden feedback).taken = [] := by
  unfold leaving
  split_ifs
  · rfl
  · rfl

/-- What a rank sends in a step: its output, and what rank 0 has decided. -/
theorem sent_dealings {view : StepView α} {step : Nat} {generated : List Nat}
    {x : Rank (n + 1) × WireFrame α}
    (h : x ∈ (view.dealings self rank step tokenizer generated).sent) :
    (∃ hmore : rank.val < n, x = (rankAfter rank hmore,
        tensorFrame rank (rankAfter rank hmore) (activationTagAt step) view.output)) ∨
      (¬ rank.val < n ∧ x = (rankZero, controlFrame (tokenTagAt step) view.feedback rank rankZero)) ∨
      (rank.val = 0 ∧ ∃ d, x = (d, controlFrame (decisionTagAt step) view.notice rankZero d)) := by
  unfold StepView.dealings at h
  simp only [Dealings.sent_append, sent_entering, List.nil_append, List.append_nil,
    List.mem_append] at h
  rcases h with h | h
  · unfold leaving at h
    split_ifs at h with hmore
    · exact .inl ⟨hmore, List.mem_singleton.mp h⟩
    · exact .inr (.inl ⟨hmore, List.mem_singleton.mp h⟩)
  · unfold deciding at h
    split_ifs at h with hfirst
    · obtain ⟨d, -, rfl⟩ := List.mem_map.mp h
      exact .inr (.inr ⟨hfirst, d, rfl⟩)
    · cases h

variable (self rank) in
/-- What a rank takes in a step: its input, and what it is told. -/
theorem taken_dealings (view : StepView α) (step : Nat) (generated : List Nat) :
    (rank.val = 0 → (Fin.last n, controlFrame (tokenTagAt step) view.feedback (Fin.last n) rankZero) ∈
      (view.dealings self rank step tokenizer generated).taken) ∧
    (rank.val ≠ 0 → (rankBefore rank,
        tensorFrame (rankBefore rank) rank (activationTagAt step) view.input) ∈
      (view.dealings self rank step tokenizer generated).taken ∧
      (rankZero, controlFrame (decisionTagAt step) view.notice rankZero rank) ∈
        (view.dealings self rank step tokenizer generated).taken) := by
  unfold StepView.dealings
  simp only [Dealings.taken_append, taken_leaving, List.nil_append, List.append_nil]
  unfold entering deciding
  refine ⟨fun hfirst => ?_, fun hother => ?_⟩
  · rw [if_pos hfirst, if_pos hfirst]
    exact List.mem_singleton.mpr rfl
  · rw [if_neg hother, if_neg hother]
    exact ⟨List.mem_cons_self, List.mem_cons_of_mem _ (List.mem_singleton.mpr rfl)⟩

end Frames

section Shown

variable {n : Nat} {α : Type} {self : PipelineWorld (n + 1) α} {rank : Rank (n + 1)} {step token : Nat}

theorem length_shape {t : Tensor α} {rows width : Nat} (h : t.shape = [1, rows, width]) :
    t.data.length = rows * width := by
  rw [t.size, h]
  simp

theorem controlLength_eq {control : PipelineControl} {packet : ControlPacket}
    (h : self.codec.toVec control = .ok packet.bytes) :
    packet.bytes.length = controlLength self control := by
  rw [controlLength, encoded, h]
  rfl

variable (self) in
theorem seen_entering {input : Tensor α}
    (h : rank.val ≠ 0 → input.shape = [1, rowsOf self step, self.config.hiddenSize]) :
    (entering rank step input).seen = inputEvents self rank.val step := by
  unfold entering inputEvents
  by_cases hfirst : rank.val = 0
  · rw [if_pos hfirst, if_pos hfirst]
    rfl
  · rw [if_neg hfirst, if_neg hfirst, length_shape (h hfirst), h hfirst]

theorem seen_leaving {output : Tensor α} {feedback : ControlPacket}
    (houtput : output.shape = [1, rowsOf self step, self.config.hiddenSize])
    (hfeedback : ¬ rank.val < n → self.codec.toVec (.token step token) = .ok feedback.bytes) :
    (leaving rank step output feedback).seen = outputEvents self rank.val step token := by
  unfold leaving outputEvents
  by_cases hmore : rank.val < n
  · rw [dif_pos hmore, if_pos hmore, length_shape houtput, houtput]
  · rw [dif_neg hmore, if_neg hmore, controlLength_eq (hfeedback hmore)]

/-- Only rank 0 shows the token itself. -/
theorem seen_deciding {tokenizer tokenizer' : Tokenizer} {generated generated' : List Nat} {token' : Nat}
    {feedback notice : ControlPacket} (hsame : rank.val = 0 →
      tokenizer = tokenizer' ∧ generated = generated' ∧ token' = token ∧
        self.codec.toVec (.token step token) = .ok feedback.bytes)
    (hnotice : self.codec.toVec (.decision step (decisionOf self step token)) = .ok notice.bytes) :
    (deciding (α := α) self rank step tokenizer generated token' feedback notice).seen =
      decisionEvents self rank.val step token tokenizer' generated' := by
  unfold deciding decisionEvents
  rw [← controlLength_eq hnotice]
  by_cases hfirst : rank.val = 0
  · obtain ⟨rfl, rfl, rfl, hfeedback⟩ := hsame hfirst
    rw [if_pos hfirst, if_pos hfirst, controlLength_eq hfeedback]
  · rw [if_neg hfirst, if_neg hfirst]

/-- A view of a step as the others see it: the step has this token, which rank 0 shows. -/
structure StepView.Shows (run : PipelineWorld (n + 1) α) (rank : Rank (n + 1))
    (tokenizer tokenizer' : Tokenizer) (step token : Nat) (view : StepView α) : Prop where
  same : rank.val = 0 → view.token = token
  events : ∀ {generated generated' : List Nat}, (rank.val = 0 → generated = generated') →
    (view.dealings run rank step tokenizer generated).seen =
      stepEvents run tokenizer' rank step generated' token

/-- Where the tokens of all steps are known, so is what is published of them. -/
theorem seen_viewsDealings {tokenizer tokenizer' : Tokenizer} (step : Nat)
    (generated generated' : List Nat) {views : List (StepView α)} {tokens : List Nat}
    (hlength : views.length = tokens.length)
    (hshows : ∀ (i : Nat) (view : StepView α) (token : Nat), views[i]? = some view →
      tokens[i]? = some token → view.Shows self rank tokenizer tokenizer' (step + i) token)
    (hgenerated : rank.val = 0 → generated = generated') :
    (viewsDealings self rank tokenizer step generated views).seen =
      runEvents self tokenizer' rank step generated' tokens := by
  induction views generalizing step generated generated' tokens with
  | nil =>
    obtain rfl := List.length_eq_zero_iff.mp hlength.symm
    rfl
  | cons view views ih =>
    cases tokens with
    | nil => cases hlength
    | cons token tokens =>
      have hfirst := hshows 0 view token rfl rfl
      have hrest := ih (step + 1) (generatedWith self.config generated view.token)
        (generatedWith self.config generated' token) (Nat.succ.inj hlength)
        (fun i v t hv ht => ?_) fun hrank => by rw [hgenerated hrank, hfirst.same hrank]
      · rw [viewsDealings, runEvents, Dealings.seen_append, hrest]
        exact congrArg (· ++ _) (hfirst.events hgenerated)
      · rw [Nat.add_assoc, Nat.add_comm 1]
        exact hshows (i + 1) v t hv ht

end Shown

section Accord

variable {n : Nat} {α : Type} {self : PipelineWorld (n + 1) α} {I : Rank (n + 1) → Nat → Model.KvCache α → Prop}
  {tokenizer : Rank (n + 1) → Tokenizer} {views : Rank (n + 1) → List (StepView α)}
  {d : Rank (n + 1) → Dealings (Rank (n + 1)) (WireFrame α) RunEventKind}
  {outcome : Rank (n + 1) → PipelineRankOutcome}
  (hviewed : ∀ rank, Viewed self rank (I rank) (tokenizer rank) (views rank) (d rank) (outcome rank))
  (hmatch : ∀ i j f, (i, f) ∈ (d j).taken → (j, f) ∈ (d i).sent)

include hviewed hmatch

/-- What a rank takes in one of its steps was sent in a step. -/
theorem crossed {i j : Rank (n + 1)} {f : WireFrame α} {k : Nat} {view : StepView α}
    (hview : (views j)[k]? = some view)
    (htaken : ∀ generated, (i, f) ∈ (view.dealings self j k (tokenizer j) generated).taken)
    (hkind : f.isBarrier = false) : ∃ (k' : Nat) (view' : StepView α) (generated : List Nat),
      (views i)[k']? = some view' ∧ view'.Seen self i k' ∧
      (j, f) ∈ (view'.dealings self i k' (tokenizer i) generated).sent := by
  obtain ⟨generated, hall⟩ := taken_viewsDealings self j (tokenizer j) 0 [] hview
  rw [Nat.zero_add] at hall
  rcases (hviewed i).sent _ (hmatch i j f ((hviewed j).taken _ (hall _ (htaken generated)))) with
    hbarrier | hsent
  · rw [hkind] at hbarrier
    cases hbarrier
  · obtain ⟨k', view', generated', hview', hsent⟩ := mem_sent_viewsDealings hsent
    have hseen := (hviewed i).steps.seen k' view' hview'
    rw [Nat.zero_add] at hsent hseen
    exact ⟨k', view', generated', hview', hseen, hsent⟩

/-- Every rank is told what rank 0 has decided. -/
theorem decision_accords (hcodec : self.codec.Documented) {rank : Rank (n + 1)} (hrank : rank.val ≠ 0)
    {k : Nat} {view : StepView α} (hview : (views rank)[k]? = some view) :
    ∃ first, (views rankZero)[k]? = some first ∧ first.notice = view.notice ∧
      first.decision = view.decision := by
  have hn : (0 : Nat) < n := by
    have hlt := rank.isLt
    omega
  have hseen := (hviewed rank).steps.seen k view hview
  rw [Nat.zero_add] at hseen
  obtain ⟨k', first, generated, hfirst, hseen', hsent⟩ := crossed hviewed hmatch hview
    (fun generated => ((taken_dealings self rank view k generated).2 hrank).2) rfl
  rcases sent_dealings hsent with ⟨hmore, heq⟩ | ⟨hlast, -⟩ | ⟨-, destination, heq⟩
  · exact absurd (Prod.mk.inj heq).2.symm (tensorFrame_ne_controlFrame (hseen'.sendable hmore))
  · exact absurd hn hlast
  · obtain ⟨-, -, htag, hnotice⟩ := WireFrame.control.inj (Prod.mk.inj heq).2
    obtain rfl := stepTag_injective (by decide) hseen.small hseen'.small htag
    have hwritten := hcodec.round_trip (hseen'.spread rfl)
    rw [← hnotice, hseen.followed hrank] at hwritten
    exact ⟨first, hfirst, hnotice.symm, (PipelineControl.decision.inj (Except.ok.inj hwritten)).2.symm⟩

/-- Rank 0 takes the tokens that the last rank chooses. -/
theorem token_accords (hcodec : self.codec.Documented) (hn : 0 < n) {k : Nat} {view : StepView α}
    (hview : (views rankZero)[k]? = some view) :
    ∃ last, (views (Fin.last n))[k]? = some last ∧ last.feedback = view.feedback ∧
      last.token = view.token := by
  have hseen := (hviewed rankZero).steps.seen k view hview
  rw [Nat.zero_add] at hseen
  obtain ⟨k', last, generated, hlast, hseen', hsent⟩ := crossed hviewed hmatch hview
    (fun generated => (taken_dealings self rankZero view k generated).1 rfl) rfl
  rcases sent_dealings hsent with ⟨hmore, -⟩ | ⟨-, heq⟩ | ⟨hfirst, -⟩
  · exact absurd hmore (lt_irrefl n)
  · obtain ⟨-, -, htag, hfeedback⟩ := WireFrame.control.inj (Prod.mk.inj heq).2
    obtain rfl := stepTag_injective (by decide) hseen.small hseen'.small htag
    have hwritten := hcodec.round_trip (hseen'.chosen (lt_irrefl n))
    rw [← hfeedback, hseen.told rfl] at hwritten
    exact ⟨last, hlast, hfeedback.symm, (PipelineControl.token.inj (Except.ok.inj hwritten)).2.symm⟩
  · exact absurd hfirst hn.ne'

/-- The input of a rank is the output of the rank before. -/
theorem activation_accords {rank : Rank (n + 1)} (hrank : rank.val ≠ 0) {k : Nat} {view : StepView α}
    (hview : (views rank)[k]? = some view) :
    ∃ before, (views (rankBefore rank))[k]? = some before ∧ before.output = view.input := by
  have hseen := (hviewed rank).steps.seen k view hview
  rw [Nat.zero_add] at hseen
  obtain ⟨-, hsendable⟩ := hseen.input hrank
  obtain ⟨k', before, generated, hbefore, hseen', hsent⟩ := crossed hviewed hmatch hview
    (fun generated => ((taken_dealings self rank view k generated).2 hrank).1)
    (by rw [tensorFrame_eq hsendable]; rfl)
  rcases sent_dealings hsent with ⟨hmore, heq⟩ | ⟨-, heq⟩ | ⟨-, destination, heq⟩
  · obtain ⟨htag, hinput⟩ := tensorFrame_inj hsendable (hseen'.sendable hmore) (Prod.mk.inj heq).2
    obtain rfl := stepTag_injective (by decide) hseen.small hseen'.small htag
    exact ⟨before, hbefore, hinput.symm⟩
  · exact absurd (Prod.mk.inj heq).2 (tensorFrame_ne_controlFrame hsendable)
  · exact absurd (Prod.mk.inj heq).2 (tensorFrame_ne_controlFrame hsendable)

/-- All ranks take the same steps and stop for the same reason. -/
theorem lengths_accord (hcodec : self.codec.Documented) (rank : Rank (n + 1)) :
    (views rank).length = (views rankZero).length ∧
      (outcome rank).stopReason = (outcome rankZero).stopReason := by
  by_cases hrank : rank.val = 0
  · obtain rfl : rank = rankZero := Fin.ext hrank
    exact ⟨rfl, rfl⟩
  · have hpos := List.length_pos_iff.mpr (hviewed rank).steps.nonempty
    have hlast : (views rank)[(views rank).length - 1]? = some (views rank)[(views rank).length - 1] :=
      List.getElem?_eq_getElem (by omega)
    obtain ⟨first, hfirst, -, hdecision⟩ := decision_accords hviewed hmatch hcodec hrank hlast
    rw [(hviewed rank).steps.goes _ _ hlast, if_pos (by omega),
      (hviewed rankZero).steps.goes _ _ hfirst] at hdecision
    split_ifs at hdecision with hend
    exact ⟨by omega, (PipelineDecision.stop.inj hdecision).symm⟩

omit hmatch in
/-- There are no more steps than tokens wanted. -/
theorem length_limited (hwanted : 0 < self.manifest.effectiveMaxNewTokens) :
    (views rankZero).length ≤ self.manifest.effectiveMaxNewTokens := by
  by_contra hmore
  -- The last step but one was to be the last.
  have hget : (views rankZero)[(views rankZero).length - 2]? =
      some (views rankZero)[(views rankZero).length - 2] := List.getElem?_eq_getElem (by omega)
  have hdecided := ((hviewed rankZero).steps.seen _ _ hget).decided rfl
  rw [(hviewed rankZero).steps.goes _ _ hget, if_neg (by omega), Nat.zero_add, decisionOf] at hdecided
  split_ifs at hdecided
  rw [PipelineWorld.limit, if_pos (by omega)] at hdecided
  cases hdecided

/-- The activations of a step have a row for each position that it adds. -/
theorem rows_accord (rank : Rank (n + 1)) {k : Nat} {view : StepView α}
    (hview : (views rank)[k]? = some view) :
    view.rows = rowsOf self k ∧ view.output.shape = [1, rowsOf self k, self.config.hiddenSize] := by
  have hseen := (hviewed rank).steps.seen k view hview
  rw [Nat.zero_add] at hseen
  have hrows : view.rows = rowsOf self k := by
    induction hr : rank.val generalizing rank view with
    | zero => exact hseen.first hr
    | succ r ih =>
      have hrank : rank.val ≠ 0 := by omega
      obtain ⟨before, hbefore, hinput⟩ := activation_accords hviewed hmatch hrank hview
      have hseen' := (hviewed (rankBefore rank)).steps.seen k before hbefore
      rw [Nat.zero_add] at hseen'
      have hsame := ih (rankBefore rank) hbefore hseen' (show rank.val - 1 = r by omega)
      have hshape := hseen'.output
      rw [hinput, (hseen.input hrank).1, hseen.output, hsame] at hshape
      simpa using hshape
  exact ⟨hrows, hrows ▸ hseen.output⟩

/-- The token of a step and the decision after it are written for the messages that carry them. -/
theorem written_accord (hcodec : self.codec.Documented) (hn : 0 < n) {k : Nat} {first : StepView α}
    (hfirst : (views rankZero)[k]? = some first) :
    self.codec.toVec (.token k first.token) = .ok first.feedback.bytes ∧
      self.codec.toVec (.decision k (decisionOf self k first.token)) = .ok first.notice.bytes := by
  obtain ⟨last, hlast, hfeedback, htoken⟩ := token_accords hviewed hmatch hcodec hn hfirst
  have hseen := (hviewed rankZero).steps.seen k first hfirst
  have hlastseen := (hviewed (Fin.last n)).steps.seen k last hlast
  rw [Nat.zero_add] at hseen hlastseen
  constructor
  · rw [← htoken, ← hfeedback]
    exact hlastseen.chosen (lt_irrefl n)
  · rw [← hseen.decided rfl]
    exact hseen.spread rfl

/-- What a rank publishes of a step is what the token of rank 0 makes of it. -/
theorem view_shows (hcodec : self.codec.Documented) (hn : 0 < n) (rank : Rank (n + 1)) {k : Nat}
    {view first : StepView α} (hview : (views rank)[k]? = some view)
    (hfirst : (views rankZero)[k]? = some first) :
    view.Shows self rank (tokenizer rank) (tokenizer rankZero) k first.token := by
  obtain ⟨-, houtput⟩ := rows_accord hviewed hmatch rank hview
  have hseen := (hviewed rank).steps.seen k view hview
  rw [Nat.zero_add] at hseen
  obtain ⟨last, hlast, hfeedback, -⟩ := token_accords hviewed hmatch hcodec hn hfirst
  obtain ⟨hchosen, hspread⟩ := written_accord hviewed hmatch hcodec hn hfirst
  have hzero : rank.val = 0 → rank = rankZero ∧ view = first := by
    intro hrank
    obtain rfl : rank = rankZero := Fin.ext hrank
    exact ⟨rfl, Option.some.inj (hview.symm.trans hfirst)⟩
  have hnotice : view.notice = first.notice := by
    by_cases hrank : rank.val = 0
    · rw [(hzero hrank).2]
    · obtain ⟨first', hfirst', hnotice, -⟩ := decision_accords hviewed hmatch hcodec hrank hview
      obtain rfl := Option.some.inj (hfirst.symm.trans hfirst')
      exact hnotice.symm
  rw [← hnotice] at hspread
  refine ⟨fun hrank => by rw [(hzero hrank).2], fun {generated generated'} hgenerated => ?_⟩
  have hleaving : (leaving rank k view.output view.feedback).seen =
      outputEvents self rank.val k first.token := by
    refine seen_leaving houtput fun hend => ?_
    obtain rfl : rank = Fin.last n := Fin.ext (by have hlt := rank.isLt; rw [Fin.val_last]; omega)
    obtain rfl := Option.some.inj (hview.symm.trans hlast)
    rw [hfeedback]
    exact hchosen
  have hdeciding : (deciding (α := α) self rank k (tokenizer rank) generated view.token view.feedback
      view.notice).seen = decisionEvents self rank.val k first.token (tokenizer rankZero) generated' := by
    refine seen_deciding (fun hrank => ?_) hspread
    obtain ⟨rfl, rfl⟩ := hzero hrank
    exact ⟨rfl, hgenerated hrank, rfl, hchosen⟩
  unfold StepView.dealings stepEvents
  simp only [Dealings.seen_append]
  rw [seen_entering self (fun hrank => (hseen.input hrank).1.trans houtput), hleaving, hdeciding]
  simp only [List.append_assoc]
  rfl

/-- The positions of a rank are those of the prompt and one for each step after the first. -/
theorem sum_rows (rank : Rank (n + 1)) : ((views rank).map (·.rows)).sum =
    self.manifest.promptTokenIds.length + ((views rank).length - 1) := by
  have hpos := List.length_pos_iff.mpr (hviewed rank).steps.nonempty
  have hrows : (views rank).map (·.rows) = (List.range (views rank).length).map (rowsOf self) := by
    refine List.ext_getElem (by simp) fun k hk _ => ?_
    rw [List.length_map] at hk
    rw [List.getElem_map, List.getElem_map, List.getElem_range]
    exact (rows_accord hviewed hmatch rank (List.getElem?_eq_getElem hk)).1
  rw [hrows, ← sum_rowsOf, Nat.sub_add_cancel hpos]
  rfl

end Accord

section Run

variable {n : Nat} {α : Type}

/-- What the ranks of a run have in common that ends well: the tokens of its steps. Every rank shows
its part of what they make and reports as many decodes. `I` holds of its cache at the end. -/
structure Accord (run : PipelineWorld (n + 1) α) (I : Rank (n + 1) → Nat → Model.KvCache α → Prop)
    (log : Rank (n + 1) → List RunEventKind) (outcome : Rank (n + 1) → PipelineRankOutcome)
    (tokenizer : Tokenizer) (tokens : List Nat) (reason : StopReason) : Prop where
  opened : run.tokenizer = .ok tokenizer
  written : ∀ k token : Nat, tokens[k]? = some token →
    run.codec.toVec (.token k token) = .ok (encoded run.codec (.token k token)) ∧
    run.codec.toVec (.decision k (decisionOf run k token)) =
      .ok (encoded run.codec (.decision k (decisionOf run k token)))
  events : ∀ rank, log rank = rankEvents run tokenizer rank tokens reason
  stops : ∀ rank, (outcome rank).stopReason = reason
  decodes : ∀ rank, (outcome rank).decodeForwardCount + 1 = tokens.length
  limited : 0 < run.manifest.effectiveMaxNewTokens → tokens.length ≤ run.manifest.effectiveMaxNewTokens
  cached : ∀ rank, ∃ kv, I rank (run.manifest.promptTokenIds.length + (outcome rank).decodeForwardCount) kv ∧
    kv.usedBytes run.config run.manifest.dtype.bytes = .ok (outcome rank).finalKvCacheBytes

variable [Zero α] {self : PipelineWorld (n + 1) α}

/-- All ranks of a run that ends well have the same steps. `I` is what the calls of a rank keep of its
cache. -/
theorem ranks_accord (hlib : self.lib.Documented) (hcodec : self.codec.Documented)
    (hpartition : PipelinePartition.balanced self.manifest.spec (n + 1) = .ok self.manifest.partition)
    {I : Rank (n + 1) → Nat → Model.KvCache α → Prop}
    (hcache : ∀ {rank stage kv}, self.load (assignmentOf self rank) = .ok (stage, kv) → I rank 0 kv ∧
      ∀ {m rows kv y kv'}, I rank m kv → Calls self stage rows kv y kv' → I rank (m + rows) kv')
    {cap : ℕ∞} {w : World (Backend.tcp.mailbox (n + 1) α) RunEventKind
      (Except PipelineError PipelineRankOutcome × CommunicationReport)}
    (hrun : ReflTransGen (Step cap) self.start w) {outcome : Rank (n + 1) → PipelineRankOutcome}
    {counts : Rank (n + 1) → CommunicationReport}
    (hend : ∀ rank, w.proc rank = .ret (.ok (outcome rank), counts rank)) :
    ∃ tokenizer tokens reason, Accord self I w.log outcome tokenizer tokens reason := by
  have hn : 0 < n := by
    obtain ⟨⟨hworld, -⟩, -⟩ := balanced_eq_ok.mp hpartition
    omega
  have hdeals : ∀ rank, ((self.runPipelineRank rank).run.run {}).Deals fun d r => ∀ outcome,
      r.1 = .ok outcome → ∃ tokenizer views,
        Viewed self rank (I rank) tokenizer views d outcome :=
    fun rank => run_transacts hlib hn hpartition hcache
  obtain ⟨d, hranks, hsubperm⟩ := traded_of_run (TcpTransport.streams (n + 1) α)
    (s := ⟨fun rank => (self.runPipelineRank rank).run.run {}, fun _ => []⟩) (fun _ => rfl) hdeals
    (fun rank => Proc.sound_of_forall (fun _ _ => trivial) (fun _ _ => trivial) _) hrun hend
  have hviews : ∀ rank, ∃ tokenizer views,
      Viewed self rank (I rank) tokenizer views (d rank) (outcome rank) :=
    fun rank => (hranks rank).2 _ rfl
  choose tokenizer views hviewed using hviews
  have hmatch : ∀ i j f, (i, f) ∈ (d j).taken → (j, f) ∈ (d i).sent := by
    intro i j f hf
    exact mem_fromStream.mp ((hsubperm i j).subset (mem_fromStream.mpr hf))
  have htokens : ∀ {k token : Nat}, ((views rankZero).map (·.token))[k]? = some token →
      ∃ first, (views rankZero)[k]? = some first ∧ first.token = token := by
    intro k token htoken
    rw [List.getElem?_map] at htoken
    exact Option.map_eq_some_iff.mp htoken
  refine ⟨tokenizer rankZero, (views rankZero).map (·.token), (outcome rankZero).stopReason,
    (hviewed rankZero).opened rfl, fun k token htoken => ?_, fun rank => ?_, fun rank => ?_, fun rank => ?_,
    fun hwanted => ?_, fun rank => ?_⟩
  · obtain ⟨first, hfirst, rfl⟩ := htokens htoken
    obtain ⟨hchosen, hspread⟩ := written_accord hviewed hmatch hcodec hn hfirst
    rw [encoded, encoded, hchosen, hspread]
    exact ⟨rfl, rfl⟩
  · obtain ⟨hlength, hreason⟩ := lengths_accord hviewed hmatch hcodec rank
    have hevents : (viewsDealings self rank (tokenizer rank) 0 [] (views rank)).seen =
        runEvents self (tokenizer rankZero) rank 0 [] ((views rankZero).map (·.token)) := by
      refine seen_viewsDealings 0 [] [] (by rw [List.length_map, hlength]) (fun k view token hview htoken => ?_)
        fun _ => rfl
      obtain ⟨first, hfirst, rfl⟩ := htokens htoken
      rw [Nat.zero_add]
      exact view_shows hviewed hmatch hcodec hn rank hview hfirst
    rw [← (hranks rank).1, (hviewed rank).shown, hevents, hreason]
    rfl
  · exact (lengths_accord hviewed hmatch hcodec rank).2
  · rw [List.length_map, ← (lengths_accord hviewed hmatch hcodec rank).1, (hviewed rank).decodes]
  · rw [List.length_map]
    exact length_limited hviewed hwanted
  · obtain ⟨kv, hkept, hbytes⟩ := (hviewed rank).cached
    rw [sum_rows hviewed hmatch rank, ← (hviewed rank).decodes, Nat.add_sub_cancel] at hkept
    exact ⟨kv, hkept, hbytes⟩

end Run

end Dlir.Pipeline
