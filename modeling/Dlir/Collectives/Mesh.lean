import Dlir.Collectives.Rank
import Dlir.Collectives.Rendezvous
import Mathlib.Data.Fin.VecNotation
import Mathlib.Data.List.Sort
import Mathlib.Tactic.FinCases

namespace Dlir.Collectives

open Dlir.Framework Dlir.Math

structure PeerHandshake where
  protocolVersion : Nat
  runId : String
  worldSize : Nat
  source : Nat
  destination : Nat
  deriving DecidableEq, Repr

inductive HandshakeResponse
  | ready
  | error (message : String)
  deriving DecidableEq, Repr

def validateHandshake (handshake : PeerHandshake) (runId : String) (worldSize destination : Nat) :
    Option String :=
  if handshake.protocolVersion ≠ protocolVersion then
    some s!"peer uses protocol {handshake.protocolVersion}, expected {protocolVersion}"
  else if handshake.runId ≠ runId then some "peer supplied a different run ID"
  else if handshake.worldSize ≠ worldSize then some "peer supplied a different world size"
  else if handshake.destination ≠ destination then
    some s!"peer targeted rank {handshake.destination}, accepted by rank {destination}"
  else if handshake.source ≥ worldSize ∨ handshake.source = destination then
    some s!"invalid peer source rank {handshake.source}"
  else none

/-- One accepted connection, what `read_json` makes of its first message and whether the answer
`Ready` could be written to it. -/
structure Incoming (Conn : Type) where
  stream : Conn
  handshake : Except CollectivesError PeerHandshake
  write : Except CollectivesError Unit

section Mesh

variable {Conn : Type} (runId : String) (worldSize rank : Nat)

/-- The reason for which the accept loop turns a handshake down, if there is one. -/
def handshakeObjection (incoming : List (Nat × Conn)) (handshake : PeerHandshake) : Option String :=
  (validateHandshake handshake runId worldSize rank).or
    (if handshake.source ≥ rank then some s!"rank {rank} accepts only lower-ranked dialers"
    else if incoming.any (·.1 == handshake.source) then
      some s!"rank {handshake.source} connected more than once"
    else none)

/-- The accept thread: its result and what it answered on which connection. -/
structure AcceptRun (Conn : Type) where
  result : Except CollectivesError (List (Nat × Conn))
  replies : List (Conn × HandshakeResponse)

/-- The accept loop over the connections in the order in which they are accepted. -/
def acceptLoop (incoming : List (Nat × Conn)) : List (Incoming Conn) → AcceptRun Conn
  | [] =>
    if incoming.length < rank then
      ⟨.error (.rendezvous "accept peer handshake timed out"), []⟩
    else ⟨.ok incoming, []⟩
  | next :: rest =>
    if incoming.length < rank then
      match next.handshake with
      | .error e => ⟨.error e, []⟩
      | .ok handshake =>
        match handshakeObjection runId worldSize rank incoming handshake with
        | some message => ⟨.error (.protocol message), [(next.stream, .error message)]⟩
        | none =>
          match next.write with
          | .error e => ⟨.error e, []⟩
          | .ok () =>
            let later := acceptLoop (incoming ++ [(handshake.source, next.stream)]) rest
            ⟨later.result, (next.stream, .ready) :: later.replies⟩
    else ⟨.ok incoming, []⟩

-- `exchange` connects to an address, writes the handshake there and reads the answer
variable (exchange : String → PeerHandshake → Except CollectivesError (Conn × HandshakeResponse))

def dialPeer (peer : PeerInfo) : Except CollectivesError (Nat × Conn) := do
  let (stream, response) ← exchange peer.address
    ⟨protocolVersion, runId, worldSize, rank, peer.rank⟩
  match response with
  | .ready => .ok (peer.rank, stream)
  | .error message => .error (.protocol message)

/-- The streams of the dialling loop and of the accept loop, by rank. -/
def meshStreams (peers : List PeerInfo) (incoming : List (Incoming Conn)) :
    Except CollectivesError (List (Nat × Conn)) := do
  let dialled ← (peers.drop (rank + 1)).mapM (dialPeer runId worldSize rank exchange)
  let accepted ← (acceptLoop runId worldSize rank [] incoming).result
  .ok ((dialled ++ accepted).insertionSort fun a b => a.1 ≤ b.1)

def establishFullMesh (peers : List PeerInfo) (incoming : List (Incoming Conn)) :
    Except CollectivesError (List (Nat × Conn)) := do
  let streams ← meshStreams runId worldSize rank exchange peers incoming
  if streams.length ≠ worldSize - 1 then
    .error (.protocol
      s!"rank {rank} established {streams.length} of {worldSize - 1} peer connections")
  else .ok streams

end Mesh

/-- The two handles of each stream, under the rank at its other end. -/
structure PeerTables (Conn : Type) where
  readers : List (Option Conn)
  writers : List (Option Conn)

/-- The body of the loop of `connect`. `configure` disables Nagle's algorithm and clones the
handle. -/
def openStream {Conn : Type} (configure : Conn → Except CollectivesError Unit)
    (tables : PeerTables Conn) (s : Nat × Conn) : Except CollectivesError (PeerTables Conn) := do
  configure s.2
  .ok ⟨tables.readers.set s.1 (some s.2), tables.writers.set s.1 (some s.2)⟩

/-- The tables of `connect` for the streams of the mesh. -/
def openTables {Conn : Type} (configure : Conn → Except CollectivesError Unit) (worldSize : Nat)
    (streams : List (Nat × Conn)) : Except CollectivesError (PeerTables Conn) :=
  streams.foldlM (openStream configure)
    ⟨List.replicate worldSize none, List.replicate worldSize none⟩

section Exact

variable {Conn : Type} {runId : String} {worldSize rank : Nat} {peers : List PeerInfo}
  {exchange : String → PeerHandshake → Except CollectivesError (Conn × HandshakeResponse)}

theorem handshakeObjection_eq_none {incoming : List (Nat × Conn)} {handshake : PeerHandshake}
    (h : handshakeObjection runId worldSize rank incoming handshake = none) :
    handshake.destination = rank ∧ handshake.source < rank ∧
      handshake.source ∉ incoming.map (·.1) := by
  rw [handshakeObjection, Option.or_eq_none_iff] at h
  obtain ⟨hvalid, hrest⟩ := h
  refine ⟨?_, ?_, ?_⟩
  · unfold validateHandshake at hvalid
    split_ifs at hvalid with _ _ _ hdest
    exact not_not.mp hdest
  · split_ifs at hrest
    omega
  · split_ifs at hrest with _ hany
    intro hmem
    obtain ⟨s, hs, heq⟩ := List.mem_map.mp hmem
    exact hany (List.any_eq_true.mpr ⟨s, hs, by simpa using heq⟩)

/-- Everything an accept loop does that ends well: it extends the list by connections from lower
ranks, no two of which come from the same one, until there are `rank` of them. -/
structure AcceptSpec (rank : Nat) (incoming : List (Nat × Conn)) (items : List (Incoming Conn))
    (result : List (Nat × Conn)) (replies : List (Conn × HandshakeResponse)) : Prop where
  kept : incoming ⊆ result
  nodup : (incoming.map (·.1)).Nodup → (result.map (·.1)).Nodup
  lower : (∀ s ∈ incoming, s.1 < rank) → ∀ s ∈ result, s.1 < rank
  complete : incoming.length ≤ rank → result.length = rank
  ready : ∀ c, (c, .ready) ∈ replies → ∃ item ∈ items, ∃ handshake, item.stream = c ∧
    item.handshake = .ok handshake ∧ handshake.destination = rank ∧ (handshake.source, c) ∈ result

theorem acceptLoop_spec {incoming result : List (Nat × Conn)} {items : List (Incoming Conn)}
    (h : (acceptLoop runId worldSize rank incoming items).result = .ok result) :
    AcceptSpec rank incoming items result
      (acceptLoop runId worldSize rank incoming items).replies := by
  induction items generalizing incoming with
  | nil =>
    rw [acceptLoop] at h ⊢
    split_ifs at h with hlt
    obtain rfl := Except.ok.inj h
    rw [if_neg hlt]
    exact ⟨List.Subset.refl _, id, id, by omega, by simp⟩
  | cons next rest ih =>
    rw [acceptLoop] at h ⊢
    by_cases hlt : incoming.length < rank
    · rw [if_pos hlt] at h ⊢
      cases hread : next.handshake with
      | error e => simp [hread] at h
      | ok handshake =>
        cases hobj : handshakeObjection runId worldSize rank incoming handshake with
        | some message => simp [hread, hobj] at h
        | none =>
          cases hwrite : next.write with
          | error e => simp [hread, hobj, hwrite] at h
          | ok u =>
            simp only [hread, hobj, hwrite] at h ⊢
            have hnext := ih h
            obtain ⟨hdest, hsource, hnew⟩ := handshakeObjection_eq_none hobj
            refine ⟨?_, ?_, ?_, ?_, ?_⟩
            · intro s hs
              exact hnext.kept (List.mem_append_left _ hs)
            · intro hnodup
              apply hnext.nodup
              rw [List.map_append, List.nodup_append]
              refine ⟨hnodup, by simp, ?_⟩
              rintro a ha b hb rfl
              obtain rfl := List.mem_singleton.mp hb
              exact hnew ha
            · intro hlower
              apply hnext.lower
              intro s hs
              rcases List.mem_append.mp hs with hs | hs
              · exact hlower s hs
              · obtain rfl := List.mem_singleton.mp hs
                exact hsource
            · intro _
              apply hnext.complete
              simp
              omega
            · intro c hc
              rcases List.mem_cons.mp hc with heq | hc
              · obtain rfl := (Prod.mk.inj heq).1
                exact ⟨next, List.mem_cons_self, handshake, rfl, hread, hdest,
                  hnext.kept (by simp)⟩
              · obtain ⟨item, hitem, hs, hrest⟩ := hnext.ready c hc
                exact ⟨item, List.mem_cons_of_mem _ hitem, hs, hrest⟩
    · rw [if_neg hlt] at h ⊢
      obtain rfl := Except.ok.inj h
      exact ⟨List.Subset.refl _, id, id, by omega, by simp⟩

theorem peers_of_acceptPeers (h : acceptPeers worldSize (.ready peers) = .ok peers) :
    peers.map (·.rank) = List.range worldSize := by
  simp only [acceptPeers] at h
  split_ifs at h with hbad
  rw [not_or, not_not] at hbad
  obtain ⟨hlen, hranks⟩ := hbad
  apply List.ext_getElem (by simp [hlen])
  intro i h1 h2
  rw [List.length_map] at h1
  rw [List.any_eq_true, not_exists] at hranks
  have hi := hranks (peers[i], i)
  rw [not_and] at hi
  have hmem : (peers[i], i) ∈ peers.zipIdx := List.mk_mem_zipIdx_iff_getElem?.mpr (by simp [h1])
  simpa using hi hmem

theorem dialPeer_ok {peer : PeerInfo} {s : Nat × Conn}
    (h : dialPeer runId worldSize rank exchange peer = .ok s) :
    s.1 = peer.rank ∧ exchange peer.address
      ⟨protocolVersion, runId, worldSize, rank, peer.rank⟩ = .ok (s.2, .ready) := by
  obtain ⟨⟨stream, response⟩, hex, h1⟩ := ok_of_bind h
  cases response with
  | error message => cases h1
  | ready =>
    obtain rfl := Except.ok.inj h1
    exact ⟨rfl, hex⟩

/-- What the two loops of a rank have produced when the mesh stands. -/
theorem meshStreams_ok {incoming : List (Incoming Conn)} {streams : List (Nat × Conn)}
    (h : meshStreams runId worldSize rank exchange peers incoming = .ok streams) :
    ∃ dialled accepted,
      List.Forall₂ (fun peer s => dialPeer runId worldSize rank exchange peer = .ok s)
        (peers.drop (rank + 1)) dialled ∧
      (acceptLoop runId worldSize rank [] incoming).result = .ok accepted ∧
      streams.Perm (dialled ++ accepted) ∧ (streams.map (·.1)).Pairwise (· ≤ ·) := by
  obtain ⟨dialled, hdial, h1⟩ := ok_of_bind h
  obtain ⟨accepted, haccept, h2⟩ := ok_of_bind h1
  obtain rfl := Except.ok.inj h2
  refine ⟨dialled, accepted, forall₂_of_mapM hdial, haccept, List.perm_insertionSort _ _, ?_⟩
  rw [List.pairwise_map]
  apply List.pairwise_insertionSort

/-- The ranks at the other ends of the streams. The accept loop stops after `rank` handshakes, and
being distinct and lower they come from all lower ranks. -/
theorem meshStreams_keys {incoming : List (Incoming Conn)} {streams : List (Nat × Conn)}
    (hpeers : acceptPeers worldSize (.ready peers) = .ok peers) (hrank : rank < worldSize)
    (h : meshStreams runId worldSize rank exchange peers incoming = .ok streams) :
    streams.map (·.1) = (List.range worldSize).filter (· != rank) := by
  obtain ⟨dialled, accepted, hdial, haccept, hperm, hsorted⟩ := meshStreams_ok h
  have hspec := acceptLoop_spec haccept
  have haccepted : (accepted.map (·.1)).Perm (List.range rank) := by
    apply perm_range_of_nodup_lt (hspec.nodup (by simp))
    · intro k hk
      obtain ⟨s, hs, rfl⟩ := List.mem_map.mp hk
      exact hspec.lower (by simp) s hs
    · simpa using hspec.complete (by simp)
  have hdialled : dialled.map (·.1) = (List.range worldSize).drop (rank + 1) := by
    rw [← peers_of_acceptPeers hpeers, ← List.map_drop]
    symm
    rw [← List.forall₂_eq_eq_eq, List.forall₂_map_left_iff, List.forall₂_map_right_iff]
    exact hdial.imp fun peer s hs => (dialPeer_ok hs).1.symm
  have hkeys : (streams.map (·.1)).Perm ((List.range worldSize).filter (· != rank)) := by
    have hupper : ∀ a, a ∈ (List.range worldSize).drop (rank + 1) ↔ rank < a ∧ a < worldSize := by
      intro a
      rw [List.range_eq_range', List.drop_range', List.mem_range'_1]
      omega
    have hsplit := hperm.map (·.1)
    rw [List.map_append, hdialled] at hsplit
    apply (hsplit.trans (haccepted.append_left _)).trans
    apply (List.perm_ext_iff_of_nodup ?_ (List.nodup_range.filter _)).mpr
    · intro a
      rw [List.mem_append, hupper, List.mem_range, List.mem_filter, List.mem_range, bne_iff_ne]
      omega
    · rw [List.nodup_append]
      refine ⟨List.nodup_range.sublist (List.drop_sublist _ _), List.nodup_range, ?_⟩
      intro a ha b hb
      rw [hupper] at ha
      rw [List.mem_range] at hb
      omega
  exact hkeys.eq_of_pairwise (by intros; omega) hsorted
    ((List.pairwise_lt_range.imp fun h => Nat.le_of_lt h).filter _)

/-- The length check of `establish_full_mesh` never fires. -/
theorem establishFullMesh_eq (hpeers : acceptPeers worldSize (.ready peers) = .ok peers)
    (hrank : rank < worldSize) (incoming : List (Incoming Conn)) :
    establishFullMesh runId worldSize rank exchange peers incoming =
      meshStreams runId worldSize rank exchange peers incoming := by
  rw [establishFullMesh]
  cases h : meshStreams runId worldSize rank exchange peers incoming with
  | error e => rfl
  | ok streams =>
    have hkeys := meshStreams_keys hpeers hrank h
    have hlen : streams.length = worldSize - 1 := by
      rw [← List.length_map, hkeys, ← List.nodup_range.erase_eq_filter, List.length_erase_of_mem
        (List.mem_range.mpr hrank), List.length_range]
    show (if streams.length ≠ worldSize - 1 then _ else _) = _
    rw [if_neg (not_not.mpr hlen)]

end Exact

section Tables

variable {Conn : Type} {configure : Conn → Except CollectivesError Unit} {worldSize : Nat}

theorem openStream_ok {tables tables' : PeerTables Conn} {s : Nat × Conn}
    (h : openStream configure tables s = .ok tables') :
    tables' = ⟨tables.readers.set s.1 (some s.2), tables.writers.set s.1 (some s.2)⟩ := by
  obtain ⟨_, -, h1⟩ := ok_of_bind h
  exact (Except.ok.inj h1).symm

/-- The loop overwrites the entries of the ranks it meets and no others. -/
theorem openStream_frame {streams : List (Nat × Conn)} {tables tables' : PeerTables Conn}
    (h : streams.foldlM (openStream configure) tables = .ok tables') {k : Nat}
    (hk : k ∉ streams.map (·.1)) :
    tables'.readers[k]? = tables.readers[k]? ∧ tables'.writers[k]? = tables.writers[k]? := by
  induction streams generalizing tables with
  | nil =>
    obtain rfl := Except.ok.inj h
    exact ⟨rfl, rfl⟩
  | cons s streams ih =>
    rw [List.map_cons, List.mem_cons, not_or] at hk
    rw [List.foldlM_cons] at h
    obtain ⟨tables1, hopen, hrest⟩ := ok_of_bind h
    obtain rfl := openStream_ok hopen
    have hframe := ih hrest hk.2
    simpa [List.getElem?_set_ne (Ne.symm hk.1)] using hframe

theorem openStream_entry {streams : List (Nat × Conn)} {tables tables' : PeerTables Conn}
    (hnodup : (streams.map (·.1)).Nodup) (hreaders : ∀ s ∈ streams, s.1 < tables.readers.length)
    (hwriters : ∀ s ∈ streams, s.1 < tables.writers.length)
    (h : streams.foldlM (openStream configure) tables = .ok tables') {s : Nat × Conn}
    (hs : s ∈ streams) :
    tables'.readers[s.1]? = some (some s.2) ∧ tables'.writers[s.1]? = some (some s.2) := by
  induction streams generalizing tables with
  | nil => simp at hs
  | cons q streams ih =>
    rw [List.map_cons, List.nodup_cons] at hnodup
    rw [List.foldlM_cons] at h
    obtain ⟨tables1, hopen, hrest⟩ := ok_of_bind h
    obtain rfl := openStream_ok hopen
    rcases List.mem_cons.mp hs with rfl | hs
    · have hframe := openStream_frame hrest hnodup.1
      have hr := hreaders s List.mem_cons_self
      have hw := hwriters s List.mem_cons_self
      simpa [List.getElem?_set_self hr, List.getElem?_set_self hw] using hframe
    · apply ih hnodup.2 _ _ hrest hs
      · intro p hp
        simpa using hreaders p (List.mem_cons_of_mem _ hp)
      · intro p hp
        simpa using hwriters p (List.mem_cons_of_mem _ hp)

end Tables

/-- All ranks of a world while they build the mesh. Strangers may connect as well, but an answer
that a rank reads on a connection comes from the rank whose loop accepted it. -/
structure Network (world : Nat) (Conn : Type) where
  runId : Rank world → String
  peers : Rank world → List PeerInfo
  registered : ∀ r, acceptPeers world (.ready (peers r)) = .ok (peers r)
  exchange : Rank world → String → PeerHandshake →
    Except CollectivesError (Conn × HandshakeResponse)
  incoming : Rank world → List (Incoming Conn)
  once : ∀ r r' item item', item ∈ incoming r → item' ∈ incoming r' →
    item.stream = item'.stream → r = r' ∧ item = item'
  answered : ∀ r, ∀ peer ∈ (peers r).drop (r.val + 1), ∀ c response,
    exchange r peer.address ⟨protocolVersion, runId r, world, r.val, peer.rank⟩ =
      .ok (c, response) →
    ∃ k, (c, response) ∈ (acceptLoop (runId k) world k.val [] (incoming k)).replies ∧
      ∃ item ∈ incoming k, item.stream = c ∧
        item.handshake = .ok ⟨protocolVersion, runId r, world, r.val, peer.rank⟩

namespace Network

variable {world : Nat} {Conn : Type} (net : Network world Conn)

/-- What `establish_full_mesh` returns to one rank. -/
def mesh (r : Rank world) : Except CollectivesError (List (Nat × Conn)) :=
  establishFullMesh (net.runId r) world r.val (net.exchange r) (net.peers r) (net.incoming r)

variable {net} {streams : Rank world → List (Nat × Conn)}

theorem mesh_keys (hall : ∀ r, net.mesh r = .ok (streams r)) (r : Rank world) :
    (streams r).map (·.1) = (List.range world).filter (· != r.val) := by
  have h := hall r
  rw [mesh, establishFullMesh_eq (net.registered r) r.isLt] at h
  exact meshStreams_keys (net.registered r) r.isLt h

theorem mesh_unique (hall : ∀ r, net.mesh r = .ok (streams r)) {r : Rank world} {k : Nat}
    {c c' : Conn} (h : (k, c) ∈ streams r) (h' : (k, c') ∈ streams r) : c = c' := by
  have hnodup : ((streams r).map (·.1)).Nodup := by
    rw [mesh_keys hall r]
    exact List.nodup_range.filter _
  exact (Prod.mk.inj (List.inj_on_of_nodup_map hnodup h h' rfl)).2

/-- The connection that a rank dialled to a higher one: the accept loop of that rank has it under
the rank of the dialler. -/
theorem mesh_dialled (hall : ∀ r, net.mesh r = .ok (streams r)) {a b : Rank world} (hab : a < b) :
    ∃ c, (b.val, c) ∈ streams a ∧ (a.val, c) ∈ streams b ∧ ∃ item ∈ net.incoming b,
      item.stream = c ∧ item.handshake = .ok ⟨protocolVersion, net.runId a, world, a.val, b.val⟩ := by
  have hlt : a.val < b.val := hab
  have hmesh : ∀ r, meshStreams (net.runId r) world r.val (net.exchange r) (net.peers r)
      (net.incoming r) = .ok (streams r) := by
    intro r
    rw [← establishFullMesh_eq (net.registered r) r.isLt]
    exact hall r
  obtain ⟨dialled, accepted, hdial, haccept, hperm, -⟩ := meshStreams_ok (hmesh a)
  have hkey : b.val ∈ (streams a).map (·.1) := by
    rw [mesh_keys hall a, List.mem_filter, List.mem_range, bne_iff_ne]
    exact ⟨b.isLt, by omega⟩
  obtain ⟨⟨k, c⟩, hs, rfl⟩ := List.mem_map.mp hkey
  have hmem : (b.val, c) ∈ dialled := by
    rcases List.mem_append.mp (hperm.mem_iff.mp hs) with h | h
    · exact h
    · have hlower := (acceptLoop_spec haccept).lower (by simp) _ h
      dsimp only at hlower
      omega
  obtain ⟨peer, hpeer, hok⟩ := exists_of_forall₂_right hdial hmem
  obtain ⟨hrank, hexchange⟩ := dialPeer_ok hok
  obtain ⟨k, hreply, item, hitem, hstream, hhandshake⟩ := net.answered a peer hpeer _ _ hexchange
  obtain ⟨dialled', accepted', -, haccept', hperm', -⟩ := meshStreams_ok (hmesh k)
  obtain ⟨item', hitem', handshake, hstream', hhandshake', hdest, hresult⟩ :=
    (acceptLoop_spec haccept').ready _ hreply
  obtain ⟨-, rfl⟩ := net.once k k item item' hitem hitem' (hstream.trans hstream'.symm)
  rw [hhandshake] at hhandshake'
  obtain rfl := Except.ok.inj hhandshake'
  have hk : k = b := Fin.ext (hdest.symm.trans hrank.symm)
  subst hk
  refine ⟨c, hs, hperm'.mem_iff.mpr (List.mem_append_right _ hresult), item, hitem, hstream, ?_⟩
  rw [hhandshake, ← hrank]

/-- Either end of a pair has the same connection to the other. -/
theorem mesh_joined (hall : ∀ r, net.mesh r = .ok (streams r)) {a b : Rank world} (hab : a ≠ b) :
    ∃ c, (b.val, c) ∈ streams a ∧ (a.val, c) ∈ streams b := by
  rcases lt_or_gt_of_ne hab with h | h
  · obtain ⟨c, hb, ha, -⟩ := mesh_dialled hall h
    exact ⟨c, hb, ha⟩
  · obtain ⟨c, ha, hb, -⟩ := mesh_dialled hall h
    exact ⟨c, hb, ha⟩

/-- Every stream of a rank was dialled by the lower rank of its pair and accepted by the higher. -/
theorem mesh_accepted (hall : ∀ r, net.mesh r = .ok (streams r)) {a : Rank world} {k : Nat}
    {c : Conn} (h : (k, c) ∈ streams a) : ∃ (b : Rank world) (item : Incoming Conn)
      (handshake : PeerHandshake), k = b.val ∧ item ∈ net.incoming (max a b) ∧ item.stream = c ∧
      item.handshake = .ok handshake ∧ handshake.source = (min a b).val ∧
      handshake.destination = (max a b).val := by
  have hkey : k ∈ (streams a).map (·.1) := List.mem_map.mpr ⟨(k, c), h, rfl⟩
  rw [mesh_keys hall a, List.mem_filter, List.mem_range, bne_iff_ne] at hkey
  obtain ⟨hlt, hne⟩ := hkey
  have hne' : a ≠ ⟨k, hlt⟩ := fun heq => hne (by rw [heq])
  refine ⟨⟨k, hlt⟩, ?_⟩
  rcases lt_or_gt_of_ne hne' with hab | hab
  · obtain ⟨c', hb, -, item, hitem, hstream, hhandshake⟩ := mesh_dialled hall hab
    obtain rfl := mesh_unique hall h hb
    rw [max_eq_right hab.le, min_eq_left hab.le]
    exact ⟨item, _, rfl, hitem, hstream, hhandshake, rfl, rfl⟩
  · obtain ⟨c', -, ha, item, hitem, hstream, hhandshake⟩ := mesh_dialled hall hab
    obtain rfl := mesh_unique hall h ha
    rw [max_eq_left hab.le, min_eq_right hab.le]
    exact ⟨item, _, rfl, hitem, hstream, hhandshake, rfl, rfl⟩

end Network

/-- The mesh is complete and exact. Whatever connects to a rank, it ends with an error or with one
stream for each other rank, which gives every peer it can name a reader and a writer. When all
ranks end well, each pair shares one connection and no two pairs share the same. -/
theorem mesh_complete_exact {world : Nat} {Conn : Type} :
    (∀ (rank : Rank world) (runId : String) (peers : List PeerInfo)
        (exchange : String → PeerHandshake → Except CollectivesError (Conn × HandshakeResponse))
        (incoming : List (Incoming Conn)) (configure : Conn → Except CollectivesError Unit),
      acceptPeers world (.ready peers) = .ok peers →
        establishFullMesh runId world rank.val exchange peers incoming =
          meshStreams runId world rank.val exchange peers incoming ∧
        ∀ streams, establishFullMesh runId world rank.val exchange peers incoming = .ok streams →
          streams.map (·.1) = (List.range world).filter (· != rank.val) ∧
          ∀ tables, openTables configure world streams = .ok tables →
            ∀ peer p, rank.validatePeer peer = .ok p →
              ∃ c, (peer, c) ∈ streams ∧ tables.readers[peer]? = some (some c) ∧
                tables.writers[peer]? = some (some c)) ∧
    ∀ (net : Network world Conn) (streams : Rank world → List (Nat × Conn)),
      (∀ r, net.mesh r = .ok (streams r)) →
        (∀ a b : Rank world, a ≠ b → ∃ c, (∀ c', (b.val, c') ∈ streams a ↔ c' = c) ∧
          ∀ c', (a.val, c') ∈ streams b ↔ c' = c) ∧
        ∀ (a b a' b' : Rank world) (c : Conn), (b.val, c) ∈ streams a → (b'.val, c) ∈ streams a' →
          (a = a' ∧ b = b') ∨ (a = b' ∧ b = a') := by
  constructor
  · intro rank runId peers exchange incoming configure hpeers
    have heq := @establishFullMesh_eq Conn runId world rank.val peers exchange hpeers rank.isLt
      incoming
    refine ⟨heq, ?_⟩
    intro streams hstreams
    rw [heq] at hstreams
    have hkeys := meshStreams_keys hpeers rank.isLt hstreams
    refine ⟨hkeys, ?_⟩
    intro tables htables peer p hp
    have hmem : peer ∈ streams.map (·.1) := by
      rw [hkeys, List.mem_filter, List.mem_range, bne_iff_ne]
      exact Rank.of_validatePeer hp
    have hlt : ∀ s ∈ streams, s.1 < world := by
      intro s hs
      have hsmem : s.1 ∈ streams.map (·.1) := List.mem_map.mpr ⟨s, hs, rfl⟩
      rw [hkeys, List.mem_filter, List.mem_range] at hsmem
      exact hsmem.1
    obtain ⟨⟨k, c⟩, hs, rfl⟩ := List.mem_map.mp hmem
    have hentry := openStream_entry (by rw [hkeys]; exact List.nodup_range.filter _)
      (by simpa using hlt) (by simpa using hlt) htables hs
    exact ⟨c, hs, hentry⟩
  · intro net streams hall
    constructor
    · intro a b hab
      obtain ⟨c, hb, ha⟩ := Network.mesh_joined hall hab
      refine ⟨c, ?_, ?_⟩
      · intro c'
        exact ⟨fun h => Network.mesh_unique hall h hb, fun h => h ▸ hb⟩
      · intro c'
        exact ⟨fun h => Network.mesh_unique hall h ha, fun h => h ▸ ha⟩
    · intro a b a' b' c h h'
      obtain ⟨d, item, handshake, hd, hitem, hstream, hread, hsource, hdest⟩ :=
        Network.mesh_accepted hall h
      obtain ⟨d', item', handshake', hd', hitem', hstream', hread', hsource', hdest'⟩ :=
        Network.mesh_accepted hall h'
      obtain rfl := Fin.ext hd
      obtain rfl := Fin.ext hd'
      obtain ⟨hmax, rfl⟩ := net.once _ _ _ _ hitem hitem' (hstream.trans hstream'.symm)
      have hmin : min a b = min a' b' := by
        rw [hread] at hread'
        obtain rfl := Except.ok.inj hread'
        exact Fin.ext (hsource.symm.trans hsource')
      rcases le_total a b with hab | hab <;> rcases le_total a' b' with hab' | hab' <;>
        simp_all

/-- Two ranks: connection 0 is dialled by rank 0, and rank 1 also meets a stranger later. -/
def pairNetwork : Network 2 Nat where
  runId _ := "demo"
  peers _ := [⟨0, "a:1"⟩, ⟨1, "b:2"⟩]
  registered := by decide
  exchange _ _ _ := .ok (0, .ready)
  incoming r := if r = 0 then [] else
    [⟨0, .ok ⟨protocolVersion, "demo", 2, 0, 1⟩, .ok ()⟩,
      ⟨1, .ok ⟨protocolVersion, "other", 2, 0, 1⟩, .ok ()⟩]
  once := by
    intro r r' item item' h h' heq
    fin_cases r <;> fin_cases r' <;> simp at h h'
    rcases h with rfl | rfl <;> rcases h' with rfl | rfl <;> simp_all
  answered := by
    intro r peer hpeer c response hexchange
    obtain ⟨rfl, rfl⟩ := Prod.mk.inj (Except.ok.inj hexchange)
    fin_cases r
    · obtain rfl := List.mem_singleton.mp hpeer
      refine ⟨1, ?_, ⟨0, .ok ⟨protocolVersion, "demo", 2, 0, 1⟩, .ok ()⟩, by simp, rfl, rfl⟩
      decide
    · simp at hpeer

theorem mesh_complete_exact_pair :
    pairNetwork.mesh 0 = .ok [(1, 0)] ∧ pairNetwork.mesh 1 = .ok [(0, 0)] ∧
    ∃ c, (∀ c', (1, c') ∈ [(1, 0)] ↔ c' = c) ∧ ∀ c', (0, c') ∈ [(0, 0)] ↔ c' = c := by
  have h0 : pairNetwork.mesh 0 = .ok [(1, 0)] := by decide
  have h1 : pairNetwork.mesh 1 = .ok [(0, 0)] := by decide
  refine ⟨h0, h1, ?_⟩
  exact (mesh_complete_exact.2 pairNetwork ![[(1, 0)], [(0, 0)]]
    (by intro r; fin_cases r; exacts [h0, h1])).1 0 1 (by decide)

end Dlir.Collectives
