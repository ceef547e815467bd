import Dlir.Framework.Cascade
import Dlir.Runtime.Model.Failures

namespace Dlir.Runtime.Model

open Dlir.Collectives Dlir.Framework Forward

variable {m m' : Type → Type} [Monad m] [LawfulMonad m] [Monad m'] [LawfulMonad m'] {α β γ : Type}

/-- The cache with another layer in one place. -/
def KvCache.setLayer (self : KvCache α) (i : Nat) (layer : LayerKvCache α) : KvCache α :=
  { self with layers := self.layers.set i layer }

theorem KvCache.setLayer_self {self : KvCache α} {i : Nat} {layer : LayerKvCache α}
    (h : self.layers[i]? = some layer) : self.setLayer i layer = self := by
  obtain ⟨hlt, rfl⟩ := List.getElem?_eq_some_iff.mp h
  rw [setLayer, List.set_getElem_self hlt]

theorem KvCache.setLayer_setLayer (self : KvCache α) (i : Nat) (layer layer' : LayerKvCache α) :
    (self.setLayer i layer).setLayer i layer' = self.setLayer i layer' := by
  simp [setLayer]

theorem KvCache.getElem?_setLayer {self : KvCache α} {i : Nat} {layer : LayerKvCache α}
    (h : self.layers[i]? = some layer) (layer' : LayerKvCache α) :
    (self.setLayer i layer').layers[i]? = some layer' := by
  obtain ⟨hlt, -⟩ := List.getElem?_eq_some_iff.mp h
  simp [setLayer, hlt]

/-- Two passes over one layer do the same, wherever the layer is kept. -/
def Alike (i j : Nat) (c : Forward m α β) (c' : Forward m' α β) : Prop :=
  ∀ (kv kv' : KvCache α) (layer : LayerKvCache α), kv.layers[i]? = some layer →
    kv'.layers[j]? = some layer → ∃ r layer', c.run.run kv = pure (r, kv.setLayer i layer') ∧
      c'.run.run kv' = pure (r, kv'.setLayer j layer')

namespace Alike

variable {i j : Nat}

omit [LawfulMonad m] [LawfulMonad m'] in
theorem ofResult (x : Except DlirError β) :
    Alike i j (Forward.ofResult x : Forward m α β) (Forward.ofResult x : Forward m' α β) := by
  intro kv kv' layer hi hj
  refine ⟨x, layer, ?_, ?_⟩
  · rw [KvCache.setLayer_self hi]
    rfl
  · rw [KvCache.setLayer_self hj]
    rfl

omit [LawfulMonad m] [LawfulMonad m'] in
theorem append (lib : Library α) (keys values : Tensor α) :
    Alike i j (Forward.append lib i keys values : Forward m α _)
      (Forward.append lib j keys values : Forward m' α _) := by
  intro kv kv' layer hi hj
  refine ⟨(layer.append lib.toCandle keys values).1, (layer.append lib.toCandle keys values).2, ?_, ?_⟩
  · show pure (kv.append lib.toCandle i keys values) = _
    rw [KvCache.append, hi]
    rfl
  · show pure (kv'.append lib.toCandle j keys values) = _
    rw [KvCache.append, hj]
    rfl

theorem bind {c : Forward m α β} {c' : Forward m' α β} {f : β → Forward m α γ}
    {f' : β → Forward m' α γ} (hc : Alike i j c c') (hf : ∀ b, Alike i j (f b) (f' b)) :
    Alike i j (c >>= f) (c' >>= f') := by
  intro kv kv' layer hi hj
  obtain ⟨r, layer', hrun, hrun'⟩ := hc kv kv' layer hi hj
  rw [ExceptT.run_bind, ExceptT.run_bind, StateT.run_bind, StateT.run_bind, hrun, hrun', pure_bind,
    pure_bind]
  cases r with
  | error e => exact ⟨.error e, layer', rfl, rfl⟩
  | ok b =>
    obtain ⟨r', layer'', hlast, hlast'⟩ := hf b (kv.setLayer i layer') (kv'.setLayer j layer') layer'
      (KvCache.getElem?_setLayer hi layer') (KvCache.getElem?_setLayer hj layer')
    rw [KvCache.setLayer_setLayer] at hlast hlast'
    exact ⟨r', layer'', hlast, hlast'⟩

end Alike

section Block

variable (lib : Library α) (block : Block (Tensor α)) (x : Tensor α) (position : Nat)
  (rope : RotaryEmbedding α)

/-- A block only touches its own layer. -/
theorem block_alike (i j : Nat) :
    Alike i j (Block.forward lib block x position i rope : Forward m α _)
      (Block.forward lib block x position j rope : Forward m' α _) := by
  unfold Block.forward
  refine (Alike.ofResult _).bind fun normed => ?_
  refine Alike.bind ?_ fun attention => ?_
  · unfold CausalSelfAttention.forward Projections.cached
    refine (Alike.ofResult _).bind fun dims => ?_
    refine Alike.bind ?_ fun views => ?_
    · refine (Alike.ofResult _).bind fun projected => ?_
      obtain ⟨q, k, v⟩ := projected
      refine (Alike.append lib _ _).bind fun views => ?_
      obtain ⟨k, v⟩ := views
      exact Alike.ofResult (.ok (q, k, v))
    · exact (Alike.ofResult _).bind fun output => Alike.ofResult _
  · refine (Alike.ofResult _).bind fun hidden => ?_
    refine (Alike.ofResult _).bind fun normed => ?_
    exact (Alike.ofResult _).bind fun mlp => Alike.ofResult _

/-- What a block makes of its input and of its own layer. -/
def Block.onLayer (layer : LayerKvCache α) : Except DlirError (Tensor α) × LayerKvCache α :=
  let (r, kv) := Id.run ((Block.forward lib block x position 0 rope : Forward Id α _).run.run
    ⟨[layer], 0⟩)
  (r, kv.layers.headD layer)

theorem block_run {kv : KvCache α} {i : Nat} {layer : LayerKvCache α}
    (h : kv.layers[i]? = some layer) :
    (Block.forward lib block x position i rope : Forward m α _).run.run kv =
      pure ((Block.onLayer lib block x position rope layer).1,
        kv.setLayer i (Block.onLayer lib block x position rope layer).2) := by
  have halike : Alike i 0 (Block.forward lib block x position i rope : Forward m α _)
      (Block.forward lib block x position 0 rope : Forward Id α _) :=
    block_alike lib block x position rope i 0
  obtain ⟨r, layer', hrun, hown⟩ := halike kv ⟨[layer], 0⟩ layer h rfl
  have hlayer : Block.onLayer lib block x position rope layer = (r, layer') := by
    unfold Block.onLayer
    rw [hown]
    rfl
  rw [hrun, hlayer]

variable {lib block x position rope}

/-- The result of a block has the shape of its input. -/
theorem onLayer_shape (hlib : lib.Documented) {layer layer' : LayerKvCache α} {y : Tensor α}
    (h : Block.onLayer lib block x position rope layer = (.ok y, layer')) : y.shape = x.shape := by
  have hensures : Ensures (Block.forward lib block x position 0 rope : Forward Id α _) ⟨[layer], 0⟩
      fun r _ => ∀ y, r = .ok y → y.shape = x.shape := by
    unfold Block.forward
    refine ensures_ofResult (fun e _ y hy => by cases hy) fun normed _ => ?_
    refine Ensures.bind (Q := fun _ _ => True) (Always.trivial _) ?_ fun e kv _ y hy => by cases hy
    intro attention kv _
    refine ensures_ofResult (fun e _ y hy => by cases hy) fun hidden hhidden => ?_
    refine ensures_ofResult (fun e _ y hy => by cases hy) fun normed _ => ?_
    refine ensures_ofResult (fun e _ y hy => by cases hy) fun mlp _ => ?_
    refine Ensures.settled fun y hy => ?_
    have hfirst := hlib.shape_of_ok rfl hhidden
    have hlast := hlib.shape_of_ok rfl hy
    simp only [Op.shape, List.map_cons, List.map_nil] at hfirst hlast
    split_ifs at hfirst with heq
    split_ifs at hlast with heq'
    rw [← Option.some.inj hlast, ← Option.some.inj hfirst]
  obtain ⟨r, hr⟩ := hensures
  refine r.2 y ?_
  show (Subtype.val <$> r : Id _).1 = .ok y
  rw [hr]
  exact congrArg Prod.fst h

end Block

section Runs

variable {c : Forward m α β} {f : β → Forward m α γ} {kv kv' : KvCache α}

/-- The pass notifies its observer and comes to this result and this cache. -/
def Ends (c : Forward m α β) (kv : KvCache α) (notes : m Unit)
    (result : Except DlirError β × KvCache α) : Prop :=
  c.run.run kv = notes >>= fun _ => pure result

theorem ends_ofResult (x : Except DlirError β) : Ends (ofResult x : Forward m α β) kv (pure ()) (x, kv) := by
  unfold Ends
  rw [pure_bind]
  rfl

theorem run_ofResult_bind {x : Except DlirError β} {b : β} (h : x = .ok b) :
    (ofResult x >>= f).run.run kv = (f b).run.run kv := by
  rw [h, ExceptT.run_bind, StateT.run_bind]
  exact pure_bind _ _

theorem ends_ofResult_error {x : Except DlirError β} {e : DlirError} (h : x = .error e) :
    Ends (ofResult x >>= f) kv (pure ()) (.error e, kv) := by
  unfold Ends
  rw [h, ExceptT.run_bind, StateT.run_bind, pure_bind]
  exact pure_bind _ _

theorem run_refuse {p : Prop} [Decidable p] {e : DlirError} {f : Unit → Forward m α γ} (h : ¬ p) :
    (ofResult (refuse p e) >>= f).run.run kv = (f ()).run.run kv :=
  run_ofResult_bind (refuse_eq_ok.mpr h)

theorem ends_refused {p : Prop} [Decidable p] {e : DlirError} {f : Unit → Forward m α γ} (h : p) :
    Ends (ofResult (refuse p e) >>= f) kv (pure ()) (.error e, kv) :=
  ends_ofResult_error (if_pos h)

theorem run_cache {f : KvCache α → Forward m α γ} :
    (Forward.cache >>= f).run.run kv = (f kv).run.run kv := by
  rw [ExceptT.run_bind, StateT.run_bind]
  exact pure_bind _ _

theorem run_notify {x : m Unit} {f : Unit → Forward m α γ} :
    (lift (.ok <$> x) >>= f).run.run kv = x >>= fun _ => (f ()).run.run kv := by
  rw [ExceptT.run_bind, StateT.run_bind]
  show (Except.ok <$> x >>= fun r => pure (r, kv)) >>= _ = _
  rw [bind_assoc, bind_map_left]
  refine bind_congr fun _ => ?_
  exact pure_bind _ _

theorem lift_pure_bind {f : Unit → Forward m α γ} : (lift (.ok <$> pure ()) >>= f) = f () := by
  refine ExceptT.ext (StateT.ext fun kv => ?_)
  show (lift (.ok <$> pure ()) >>= f).run.run kv = (f ()).run.run kv
  rw [run_notify, pure_bind]

namespace Ends

variable {notes notes' : m Unit} {result : Except DlirError β} {result' : Except DlirError γ × KvCache α}

theorem bind {b : β} (h : Ends c kv notes (.ok b, kv')) (hf : Ends (f b) kv' notes' result') :
    Ends (c >>= f) kv (notes >>= fun _ => notes') result' := by
  unfold Ends at *
  rw [ExceptT.run_bind, StateT.run_bind, h, bind_assoc, bind_assoc]
  refine bind_congr fun _ => ?_
  rw [pure_bind]
  exact hf

theorem error {e : DlirError} (h : Ends c kv notes (.error e, kv')) :
    Ends (c >>= f) kv notes (.error e, kv') := by
  unfold Ends at *
  rw [ExceptT.run_bind, StateT.run_bind, h, bind_assoc]
  refine bind_congr fun _ => ?_
  rw [pure_bind]
  rfl

/-- What comes last does not touch the cache. -/
theorem last {g : β → Except DlirError γ} (h : Ends c kv notes (result, kv')) :
    Ends (c >>= fun b => ofResult (g b)) kv notes (result >>= g, kv') := by
  cases result with
  | error e => exact h.error
  | ok b =>
    have hend := h.bind (f := fun b => ofResult (g b)) (ends_ofResult (g b))
    rwa [bind_pure] at hend

theorem notify {x : m Unit} {f : Unit → Forward m α γ} (h : Ends (f ()) kv notes result') :
    Ends (lift (.ok <$> x) >>= f) kv (x >>= fun _ => notes) result' := by
  unfold Ends at *
  rw [run_notify, bind_assoc]
  exact bind_congr fun _ => h

end Ends

/-- All blocks, each on its own layer of the cache. -/
def passBlocks (lib : Library α) (position : Nat) (rope : RotaryEmbedding α) :
    List (Block (Tensor α)) → Tensor α → List (LayerKvCache α) →
      Except DlirError (Tensor α) × List (LayerKvCache α) :=
  cascade fun block x layer => Block.onLayer lib block x position rope layer

section Loop

variable {lib : Library α} {position : Nat} {rope : RotaryEmbedding α}

/-- What a loop does with a block. -/
abbrev observedBlock (lib : Library α) (position : Nat) (rope : RotaryEmbedding α)
    (before after : Nat → m Unit) (x : Tensor α) (entry : Block (Tensor α) × Nat) :
    Forward m α (Tensor α) := do
  lift (.ok <$> before entry.2)
  let x ← Block.forward lib entry.1 x position entry.2 rope
  lift (.ok <$> after entry.2)
  pure x

/-- One notification after the other. -/
def notify (notes : List (m Unit)) : m Unit := notes.forM id

theorem notify_append (notes notes' : List (m Unit)) :
    notify (notes ++ notes') = notify notes >>= fun _ => notify notes' := by
  induction notes with
  | nil => exact (pure_bind () fun _ => notify notes').symm
  | cons note notes ih =>
    show note >>= (fun _ => notify (notes ++ notes')) = (note >>= fun _ => notify notes) >>= _
    rw [ih, bind_assoc]

theorem notify_pure {notes : List (m Unit)} (h : ∀ note ∈ notes, note = pure ()) :
    notify notes = pure () := by
  induction notes with
  | nil => rfl
  | cons note notes ih =>
    obtain ⟨hfirst, hrest⟩ := List.forall_mem_cons.mp h
    show note >>= (fun _ => notify notes) = pure ()
    rw [hfirst, pure_bind, ih hrest]

/-- The notifications about some layers. -/
def notesOf (before after : Nat → m Unit) (layers : List Nat) : List (m Unit) :=
  layers.flatMap fun layer => [before layer, after layer]

variable (lib position rope) in
theorem ends_block (x : Tensor α) (block : Block (Tensor α)) {i : Nat} {layer : LayerKvCache α}
    (h : kv.layers[i]? = some layer) :
    Ends (Block.forward lib block x position i rope : Forward m α (Tensor α)) kv (pure ())
      ((Block.onLayer lib block x position rope layer).1,
        kv.setLayer i (Block.onLayer lib block x position rope layer).2) := by
  unfold Ends
  rw [block_run lib block x position rope h, pure_bind]

variable (lib position rope) in
/-- The loop over the blocks of a model or a stage. -/
theorem ends_blocks (before after : Nat → m Unit) (blocks : List (Block (Tensor α))) {start : Nat}
    {done layers : List (LayerKvCache α)} (hstart : done.length = start)
    (hlayers : kv.layers = done ++ layers) (hcount : layers.length = blocks.length) (x : Tensor α) :
    ∃ notes, Ends ((blocks.zipIdx start).foldlM (observedBlock lib position rope before after) x) kv
        (notify notes) ((passBlocks lib position rope blocks x layers).1,
          { kv with layers := done ++ (passBlocks lib position rope blocks x layers).2 }) ∧
      (∀ note ∈ notes, ∃ i, note = before i ∨ note = after i) ∧
      ∀ y, (passBlocks lib position rope blocks x layers).1 = .ok y →
        notes = notesOf before after (List.range' start blocks.length) := by
  induction blocks generalizing start done layers kv x with
  | nil =>
    obtain rfl : layers = [] := List.length_eq_zero_iff.mp hcount
    refine ⟨[], ?_, by simp, fun _ _ => rfl⟩
    show Ends (pure x) kv (pure ()) (.ok x, { kv with layers := done ++ [] })
    rw [← hlayers]
    exact ends_ofResult (.ok x)
  | cons block blocks ih =>
    cases layers with
    | nil => cases hcount
    | cons layer layers =>
      have hplace : kv.layers[start]? = some layer := by
        rw [hlayers, ← hstart]
        simp
      have hset : ∀ layer', (kv.setLayer start layer').layers = done ++ layer' :: layers := by
        intro layer'
        simp [KvCache.setLayer, hlayers, ← hstart]
      have hblock := ends_block (m := m) lib position rope x block hplace
      rw [List.zipIdx_cons, List.foldlM_cons]
      rcases hlayer : Block.onLayer lib block x position rope layer with ⟨r, layer'⟩
      rw [hlayer] at hblock
      cases r with
      | error e =>
        have hfailed : passBlocks lib position rope (block :: blocks) x (layer :: layers) =
            (.error e, layer' :: layers) := cascade_cons_error hlayer
        have hstep : Ends (observedBlock lib position rope before after x (block, start)) kv
            (notify [before start]) (.error e, kv.setLayer start layer') := hblock.error.notify
        rw [hfailed, ← hset layer']
        refine ⟨[before start], hstep.error, ?_, fun y hy => by cases hy⟩
        intro note hnote
        exact ⟨start, .inl (List.mem_singleton.mp hnote)⟩
      | ok y =>
        have hpassed : passBlocks lib position rope (block :: blocks) x (layer :: layers) =
            ((passBlocks lib position rope blocks y layers).1,
              layer' :: (passBlocks lib position rope blocks y layers).2) := cascade_cons_ok hlayer
        have hdone : (done ++ [layer']).length = start + 1 := by simp [hstart]
        have hnext : (kv.setLayer start layer').layers = (done ++ [layer']) ++ layers := by
          rw [hset, List.append_assoc]
          rfl
        obtain ⟨notes, hrest, hkinds, hnotes⟩ := ih hdone hnext (Nat.succ.inj hcount) y
        have hstep : Ends (observedBlock lib position rope before after x (block, start)) kv
            (notify [before start, after start]) (.ok y, kv.setLayer start layer') := by
          have hend : Ends (lift (.ok <$> after start) >>= fun _ => pure y : Forward m α (Tensor α))
              (kv.setLayer start layer') (notify [after start]) (.ok y, kv.setLayer start layer') :=
            (ends_ofResult (.ok y)).notify
          have hfirst := hblock.bind (f := fun y => lift (.ok <$> after start) >>= fun _ => pure y) hend
          rw [pure_bind] at hfirst
          exact hfirst.notify
        rw [List.append_assoc] at hrest
        have hall := hstep.bind (f := fun y =>
          (blocks.zipIdx (start + 1)).foldlM (observedBlock lib position rope before after) y) hrest
        rw [← notify_append] at hall
        rw [hpassed]
        refine ⟨_, hall, ?_, fun z hz => ?_⟩
        · intro note hnote
          rcases List.mem_append.mp hnote with hfirst | hlast
          · rcases List.mem_cons.mp hfirst with hbefore | hafter
            · exact ⟨start, .inl hbefore⟩
            · exact ⟨start, .inr (List.mem_singleton.mp hafter)⟩
          · exact hkinds note hlast
        · rw [hnotes z hz, notesOf, notesOf, List.length_cons, List.range'_succ, List.flatMap_cons]

/-- The loop of a model, which nobody observes. -/
theorem ends_allBlocks {blocks : List (Block (Tensor α))} (hcount : kv.layers.length = blocks.length)
    (x : Tensor α) :
    Ends (blocks.zipIdx.foldlM (fun x (block, layer) =>
        Block.forward lib block x position layer rope) x : Forward m α _) kv (pure ())
      ((passBlocks lib position rope blocks x kv.layers).1,
        { kv with layers := (passBlocks lib position rope blocks x kv.layers).2 }) := by
  have hsilent : (fun x entry => Block.forward lib entry.1 x position entry.2 rope :
      Tensor α → Block (Tensor α) × Nat → Forward m α (Tensor α)) =
      observedBlock lib position rope (fun _ => pure ()) fun _ => pure () := by
    funext x entry
    rw [observedBlock, lift_pure_bind]
    simp only [lift_pure_bind, bind_pure]
  obtain ⟨notes, hends, hkinds, -⟩ := ends_blocks (m := m) lib position rope (fun _ => pure ())
    (fun _ => pure ()) blocks List.length_nil (List.nil_append kv.layers).symm hcount x
  have hnone : notify notes = pure () := notify_pure fun note hnote => by
    obtain ⟨-, hpure | hpure⟩ := hkinds note hnote
    · exact hpure
    · exact hpure
  rw [hnone, ← hsilent] at hends
  exact hends

end Loop

section Llama

variable {lib : Library α} {tokens : TokenTensor} {sequence : Nat}

/-- The input of a forward pass is one row of tokens. -/
structure Admits (tokens : TokenTensor) (sequence : Nat) : Prop where
  shape : tokens.ids.shape = [1, sequence]
  pos : 0 < sequence

variable (lib) in
theorem ends_llama {model : Llama (Tensor α) (RotaryEmbedding α)}
    (h : Admits tokens sequence) (hroom : kv.len + sequence ≤ kv.capacity)
    (hcount : kv.layers.length = model.blocks.length) :
    Ends (Llama.forward lib model tokens kv.len : Forward m α _) kv (pure ())
      (match lib.embed model.embeddings tokens with
      | .error e => (.error e, kv)
      | .ok x =>
        ((passBlocks lib kv.len model.rope model.blocks x kv.layers).1 >>= fun hidden =>
            lastLogits lib model.finalNorm model.lmHead hidden sequence,
          { kv with layers := (passBlocks lib kv.len model.rope model.blocks x kv.layers).2 })) := by
  have hpos := h.pos
  unfold Llama.forward Ends
  rw [run_ofResult_bind (dims2_ok.mpr h.shape)]
  dsimp only
  rw [run_refuse (by decide), run_refuse (by omega), run_cache, run_refuse (not_not.mpr rfl),
    run_refuse (by omega)]
  cases hx : lib.embed model.embeddings tokens with
  | error e => exact ends_ofResult_error rfl
  | ok x =>
    rw [run_ofResult_bind rfl]
    exact (ends_allBlocks hcount x).last

variable (lib) in
/-- Other input, or more than there is room for, is refused. -/
theorem ends_llama_refused (model : Llama (Tensor α) (RotaryEmbedding α))
    (h : ∀ sequence, Admits tokens sequence → ¬ kv.len + sequence ≤ kv.capacity) :
    ∃ e, Ends (Llama.forward lib model tokens kv.len : Forward m α _) kv (pure ()) (.error e, kv) := by
  unfold Llama.forward
  cases hdims : dims2 tokens.ids with
  | error e => exact ⟨e, ends_ofResult_error rfl⟩
  | ok dims =>
    obtain ⟨batch, sequence⟩ := dims
    unfold Ends
    rw [run_ofResult_bind rfl]
    dsimp only
    by_cases hbatch : batch ≠ 1
    · exact ⟨_, ends_refused hbatch⟩
    · rw [run_refuse hbatch]
      by_cases hsequence : sequence = 0
      · exact ⟨_, ends_refused hsequence⟩
      · have hshape := dims2_ok.mp hdims
        rw [not_not.mp hbatch] at hshape
        have hroom := h sequence ⟨hshape, by omega⟩
        rw [run_refuse hsequence, run_cache, run_refuse (not_not.mpr rfl)]
        exact ⟨_, ends_refused (by omega)⟩

end Llama

section Stage

variable {lib : Library α} {stage : LlamaStage (Tensor α) (RotaryEmbedding α)}
  {observer : LayerObserver m} {tokens : TokenTensor} {sequence hidden : Nat} {x : Tensor α}

variable (lib observer) in
/-- What a stage makes of its input, and what its observer hears of it. -/
theorem ends_stage (hx : x.shape = [1, sequence, hidden]) (hpos : 0 < sequence)
    (hroom : kv.len + sequence ≤ kv.capacity) (hcount : kv.layers.length = stage.blocks.length) :
    ∃ notes, Ends (LlamaStage.forwardHidden lib stage observer x kv.len) kv (notify notes)
        ((passBlocks lib kv.len stage.rope stage.blocks x kv.layers).1,
          { kv with layers := (passBlocks lib kv.len stage.rope stage.blocks x kv.layers).2 }) ∧
      ∀ y, (passBlocks lib kv.len stage.rope stage.blocks x kv.layers).1 = .ok y →
        notes = notesOf observer.layerStarted observer.layerCompleted
          (List.range' stage.layerStart stage.blocks.length) := by
  have hlayers : kv.layerCount = stage.blocks.length := hcount
  unfold LlamaStage.forwardHidden Ends
  rw [run_ofResult_bind (dims3_ok.mpr hx)]
  dsimp only
  rw [run_refuse (by omega), run_cache, run_refuse (not_not.mpr hlayers),
    run_refuse (not_not.mpr rfl), run_refuse (by omega)]
  obtain ⟨notes, hends, -, hnotes⟩ := ends_blocks (m := m) lib kv.len stage.rope
    (fun i => observer.layerStarted (stage.layerStart + i))
    (fun i => observer.layerCompleted (stage.layerStart + i)) stage.blocks List.length_nil
    (List.nil_append kv.layers).symm hcount x
  refine ⟨notes, hends, fun y hy => ?_⟩
  have hshift : List.range' stage.layerStart stage.blocks.length =
      (List.range' 0 stage.blocks.length).map (stage.layerStart + ·) := by
    rw [List.map_add_range', Nat.add_zero]
  rw [hnotes y hy, hshift, notesOf, notesOf, List.flatMap_map]

variable (lib stage observer) in
theorem ends_stage_full (hx : x.shape = [1, sequence, hidden])
    (hroom : ¬ kv.len + sequence ≤ kv.capacity) :
    ∃ e, Ends (LlamaStage.forwardHidden lib stage observer x kv.len) kv (pure ()) (.error e, kv) := by
  unfold LlamaStage.forwardHidden Ends
  rw [run_ofResult_bind (dims3_ok.mpr hx)]
  dsimp only
  by_cases hsequence : 1 ≠ 1 ∨ sequence = 0
  · exact ⟨_, ends_refused hsequence⟩
  · rw [run_refuse hsequence, run_cache]
    by_cases hcount : kv.layerCount ≠ stage.blocks.length
    · exact ⟨_, ends_refused hcount⟩
    · rw [run_refuse hcount, run_refuse (not_not.mpr rfl)]
      exact ⟨_, ends_refused (by omega)⟩

section Tokens

variable {table : Embedding (Tensor α)} (htable : stage.embeddings = some table)

include htable

/-- The first stage embeds the tokens before it goes on as every stage. -/
theorem run_tokens (h : Admits tokens sequence) (hx : lib.embed table tokens = .ok x) :
    (LlamaStage.forwardTokens lib stage observer tokens kv.len).run.run kv =
      (LlamaStage.forwardHidden lib stage observer x kv.len).run.run kv := by
  have hpos := h.pos
  unfold LlamaStage.forwardTokens
  rw [run_ofResult_bind (okOr_eq_ok.mpr htable), run_ofResult_bind (dims2_ok.mpr h.shape)]
  dsimp only
  rw [run_refuse (by omega), run_ofResult_bind hx]

theorem ends_tokens_error (h : Admits tokens sequence) {e : DlirError}
    (hx : lib.embed table tokens = .error e) :
    Ends (LlamaStage.forwardTokens lib stage observer tokens kv.len) kv (pure ()) (.error e, kv) := by
  have hpos := h.pos
  unfold LlamaStage.forwardTokens Ends
  rw [run_ofResult_bind (okOr_eq_ok.mpr htable), run_ofResult_bind (dims2_ok.mpr h.shape)]
  dsimp only
  rw [run_refuse (by omega)]
  exact ends_ofResult_error hx

variable (lib observer kv) in
theorem ends_tokens_refused (h : ∀ sequence, ¬ Admits tokens sequence) :
    ∃ e, Ends (LlamaStage.forwardTokens lib stage observer tokens kv.len) kv (pure ())
      (.error e, kv) := by
  unfold LlamaStage.forwardTokens Ends
  rw [run_ofResult_bind (okOr_eq_ok.mpr htable)]
  cases hdims : dims2 tokens.ids with
  | error e => exact ⟨e, ends_ofResult_error rfl⟩
  | ok dims =>
    obtain ⟨batch, sequence⟩ := dims
    rw [run_ofResult_bind rfl]
    dsimp only
    by_cases hinput : batch ≠ 1 ∨ sequence = 0
    · exact ⟨_, ends_refused hinput⟩
    · obtain ⟨hbatch, hsequence⟩ := not_or.mp hinput
      have hshape := dims2_ok.mp hdims
      rw [not_not.mp hbatch] at hshape
      exact absurd ⟨hshape, by omega⟩ (h sequence)

end Tokens

end Stage

end Runs

/-- Calls notify somebody who keeps a state. -/
theorem Ends.call {σ : Type} {c : Forward (StateM σ) α β} {kv : KvCache α} {notes : StateM σ Unit}
    {result : Except DlirError β × KvCache α} (h : Ends c kv notes result) (s : σ) :
    c.call kv s = result := by
  unfold Forward.call
  rw [h]
  rfl

end Dlir.Runtime.Model
