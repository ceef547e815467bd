import Dlir.Collectives.Wire
import Dlir.Framework.Results
import Dlir.Math.Lists
import Mathlib.Data.List.ReduceOption

namespace Dlir.Collectives

open Dlir.Math

/-- Upper bound for one JSON message of the startup protocol. -/
def controlFrameLimit : Nat := 64 * 1024

/-- One rank and its network-visible data address. -/
structure PeerInfo where
  rank : Nat
  address : String
  deriving DecidableEq, Repr

structure Registration where
  protocolVersion : Nat
  runId : String
  rank : Nat
  worldSize : Nat
  advertiseAddr : String
  deriving DecidableEq, Repr

inductive RendezvousResponse
  | ready (peers : List PeerInfo)
  | error (message : String)
  deriving DecidableEq, Repr

/-- Characters with the Unicode property `White_Space`, which `trim` removes. -/
def isWhiteSpace (c : Char) : Bool :=
  (0x9 ≤ c.val && c.val ≤ 0xd) || c.val == 0x20 || c.val == 0x85 || c.val == 0xa0 ||
    c.val == 0x1680 || (0x2000 ≤ c.val && c.val ≤ 0x200a) || c.val == 0x2028 || c.val == 0x2029 ||
    c.val == 0x202f || c.val == 0x205f || c.val == 0x3000

/-- `trim().is_empty()`. -/
def isBlank (s : String) : Bool := s.toList.all isWhiteSpace

/-- The coordinator while it collects registrations. A client is the number of its connection. -/
structure RendezvousServer where
  registrations : List (Option Registration)
  clients : List (Option Nat)

/-- How the coordinator ended: its result and what it wrote to which client. -/
structure RendezvousRun where
  result : Except CollectivesError Unit
  sent : List (Nat × RendezvousResponse)

namespace RendezvousServer

/-- The reason for which a registration is turned down, if there is one. -/
def objection (runId : String) (worldSize : Nat) (registrations : List (Option Registration))
    (registration : Registration) : Option String :=
  if registration.protocolVersion ≠ protocolVersion then
    some s!"rank {registration.rank} uses protocol {registration.protocolVersion}, expected {protocolVersion}"
  else if registration.runId ≠ runId then
    some s!"rank {registration.rank} supplied a different run ID"
  else if registration.worldSize ≠ worldSize then
    some s!"rank {registration.rank} supplied world size {registration.worldSize}, expected {worldSize}"
  else if registration.rank ≥ worldSize then
    some s!"rank {registration.rank} is outside world size {worldSize}"
  else if (registrations.getD registration.rank none).isSome then
    some s!"rank {registration.rank} registered more than once"
  else if isBlank registration.advertiseAddr then
    some s!"rank {registration.rank} advertised an empty address"
  else if registrations.reduceOption.any fun existing =>
      existing.advertiseAddr == registration.advertiseAddr then
    some s!"rank {registration.rank} advertised duplicate address {registration.advertiseAddr}"
  else none

section Run

-- `encodedLength` is the length of a response as JSON
variable (encodedLength : RendezvousResponse → Nat) (runId : String) (worldSize : Nat)

/-- Writes one response to each client and stops at the first that is too long. -/
def writeAll (response : RendezvousResponse) : List Nat → RendezvousRun
  | [] => ⟨.ok (), []⟩
  | client :: clients =>
    if encodedLength response > controlFrameLimit then
      ⟨.error (.protocol s!"control frame is {encodedLength response} bytes, maximum is {controlFrameLimit}"), []⟩
    else
      let rest := writeAll response clients
      ⟨rest.result, (client, response) :: rest.sent⟩

/-- Writes one response to each client and ignores failures. -/
def notifyAll (response : RendezvousResponse) (clients : List Nat) : List (Nat × RendezvousResponse) :=
  if encodedLength response > controlFrameLimit then [] else clients.map fun c => (c, response)

/-- The table of all addresses. Every entry is filled when the loop has ended. -/
def peers (server : RendezvousServer) : List PeerInfo :=
  server.registrations.mapIdx fun rank registration =>
    ⟨rank, (registration.map (·.advertiseAddr)).getD ""⟩

/-- The accept loop. The argument holds the connections in the order in which they are accepted,
each with what `read_json` makes of its first message. -/
def collect (server : RendezvousServer) (next : Nat) :
    List (Except CollectivesError Registration) → RendezvousRun
  | [] =>
    if server.registrations.any Option.isNone then
      ⟨.error (.rendezvous "accept rendezvous registration timed out"), []⟩
    else writeAll encodedLength (.ready server.peers) server.clients.reduceOption
  | incoming :: rest =>
    if server.registrations.any Option.isNone then
      match incoming with
      | .error e => ⟨.error e, []⟩
      | .ok registration =>
        match objection runId worldSize server.registrations registration with
        | some message =>
          ⟨.error (.rendezvous message), notifyAll encodedLength (.error message)
            (next :: server.clients.reduceOption)⟩
        | none => collect
            ⟨server.registrations.set registration.rank (some registration),
              server.clients.set registration.rank (some next)⟩ (next + 1) rest
    else writeAll encodedLength (.ready server.peers) server.clients.reduceOption

def run (incoming : List (Except CollectivesError Registration)) : RendezvousRun :=
  collect encodedLength runId worldSize
    ⟨List.replicate worldSize none, List.replicate worldSize none⟩ 0 incoming

end Run

end RendezvousServer

/-- What a client makes of the coordinator's answer. -/
def acceptPeers (worldSize : Nat) : RendezvousResponse → Except CollectivesError (List PeerInfo)
  | .ready peers =>
    if peers.length ≠ worldSize ∨ (peers.zipIdx.any fun p => p.1.rank != p.2) then
      .error (.rendezvous "coordinator returned a malformed peer table")
    else .ok peers
  | .error message => .error (.rendezvous message)

/-- The registrations of a complete or growing world that agree with each other. -/
structure AllValid (runId : String) (worldSize : Nat) (registrations : List Registration) : Prop where
  agrees : ∀ r ∈ registrations, r.protocolVersion = protocolVersion ∧ r.runId = runId ∧
    r.worldSize = worldSize ∧ r.rank < worldSize ∧ isBlank r.advertiseAddr = false
  ranks : (registrations.map (·.rank)).Nodup
  addresses : (registrations.map (·.advertiseAddr)).Nodup

/-- The address of every rank. -/
def peerTable (worldSize : Nat) (registrations : List Registration) : List PeerInfo :=
  (List.range worldSize).map fun rank =>
    ⟨rank, ((registrations.find? (·.rank == rank)).map (·.advertiseAddr)).getD ""⟩

/-- What one client has been sent. -/
def RendezvousRun.received (run : RendezvousRun) (client : Nat) : List RendezvousResponse :=
  (run.sent.filter (·.1 == client)).map (·.2)

section Registered

variable {runId : String} {n : Nat} {done : List Registration} {r : Registration}

theorem AllValid.find?_rank (h : AllValid runId n done) (hr : r ∈ done) :
    done.find? (·.rank == r.rank) = some r := by
  induction done with
  | nil => simp at hr
  | cons d done ih =>
    have hranks := List.nodup_cons.mp h.ranks
    rcases List.mem_cons.mp hr with rfl | hr
    · simp
    · have hne : d.rank ≠ r.rank := by
        intro heq
        exact hranks.1 (List.mem_map.mpr ⟨r, hr, heq.symm⟩)
      have htail : AllValid runId n done :=
        ⟨fun q hq => h.agrees q (List.mem_cons_of_mem _ hq), hranks.2,
          (List.nodup_cons.mp h.addresses).2⟩
      simp [hne, ih htail hr]

theorem AllValid.rank_lt (h : AllValid runId n done) : ∀ k ∈ done.map (·.rank), k < n := by
  intro k hk
  obtain ⟨q, hq, rfl⟩ := List.mem_map.mp hk
  exact (h.agrees q hq).2.2.2.1

theorem AllValid.length_le (h : AllValid runId n done) : done.length ≤ n := by
  simpa using length_le_of_nodup_lt h.ranks h.rank_lt

/-- A full world has every rank. -/
theorem AllValid.exists_rank (h : AllValid runId n done) (hfull : done.length = n) {i : Nat}
    (hi : i < n) : ∃ r ∈ done, r.rank = i := by
  have hperm := perm_range_of_nodup_lt h.ranks h.rank_lt (by simp [hfull])
  exact List.mem_map.mp (hperm.mem_iff.mpr (List.mem_range.mpr hi))

theorem AllValid.of_append {more : List Registration} (h : AllValid runId n (done ++ more)) :
    AllValid runId n done := by
  have hranks := h.ranks
  have haddresses := h.addresses
  rw [List.map_append] at hranks haddresses
  exact ⟨fun q hq => h.agrees q (List.mem_append_left _ hq), hranks.of_append_left,
    haddresses.of_append_left⟩

theorem allValid_snoc : AllValid runId n (done ++ [r]) ↔ AllValid runId n done ∧
    r.protocolVersion = protocolVersion ∧ r.runId = runId ∧ r.worldSize = n ∧ r.rank < n ∧
    (∀ q ∈ done, q.rank ≠ r.rank) ∧ isBlank r.advertiseAddr = false ∧
    ∀ q ∈ done, q.advertiseAddr ≠ r.advertiseAddr := by
  constructor
  · intro h
    obtain ⟨hv, hid, hw, hlt, hb⟩ := h.agrees r (by simp)
    have hranks := h.ranks
    have haddresses := h.addresses
    simp only [List.map_append, List.map_cons, List.map_nil, List.nodup_append] at hranks haddresses
    refine ⟨h.of_append, hv, hid, hw, hlt, ?_, hb, ?_⟩
    · intro q hq
      exact hranks.2.2 q.rank (List.mem_map_of_mem hq) r.rank (by simp)
    · intro q hq
      exact haddresses.2.2 q.advertiseAddr (List.mem_map_of_mem hq) r.advertiseAddr (by simp)
  · rintro ⟨h, hv, hid, hw, hlt, hrank, hb, haddr⟩
    refine ⟨?_, ?_, ?_⟩
    · intro q hq
      rcases List.mem_append.mp hq with hq | hq
      · exact h.agrees q hq
      · obtain rfl := List.mem_singleton.mp hq
        exact ⟨hv, hid, hw, hlt, hb⟩
    · simp only [List.map_append, List.map_cons, List.map_nil, List.nodup_append]
      refine ⟨h.ranks, by simp, ?_⟩
      intro a ha b hb heq
      obtain ⟨q, hq, rfl⟩ := List.mem_map.mp ha
      obtain rfl := List.mem_singleton.mp hb
      exact hrank q hq heq
    · simp only [List.map_append, List.map_cons, List.map_nil, List.nodup_append]
      refine ⟨h.addresses, by simp, ?_⟩
      intro a ha b hb heq
      obtain ⟨q, hq, rfl⟩ := List.mem_map.mp ha
      obtain rfl := List.mem_singleton.mp hb
      exact haddr q hq heq

end Registered

namespace RendezvousServer

/-- The coordinator after the registrations `done`, in the order of their connections. -/
def after (n : Nat) (done : List Registration) : RendezvousServer :=
  ⟨(List.range n).map fun i => done.find? (·.rank == i),
    (List.range n).map fun i => done.findIdx? (·.rank == i)⟩

section Loop

variable {runId : String} {n : Nat} {done : List Registration} {r : Registration}

theorem after_nil (n : Nat) :
    after n [] = ⟨List.replicate n none, List.replicate n none⟩ := by
  simp [after, List.map_const']

theorem after_snoc (hnew : ∀ q ∈ done, q.rank ≠ r.rank) :
    after n (done ++ [r]) = ⟨(after n done).registrations.set r.rank (some r),
      (after n done).clients.set r.rank (some done.length)⟩ := by
  have hnone : done.find? (·.rank == r.rank) = none := by
    rw [List.find?_eq_none]
    simpa using hnew
  have hidx : done.findIdx? (·.rank == r.rank) = none := by
    rw [List.findIdx?_eq_none_iff]
    simpa using hnew
  simp only [after, set_map_range]
  congr 1
  · apply List.map_congr_left
    intro i _
    by_cases hi : i = r.rank
    · subst hi
      simp [List.find?_append, hnone]
    · simp [List.find?_append, Function.update_of_ne hi, Ne.symm hi]
  · apply List.map_congr_left
    intro i _
    by_cases hi : i = r.rank
    · subst hi
      simp [List.findIdx?_append, hidx, List.findIdx?_cons]
    · simp [List.findIdx?_append, Function.update_of_ne hi, Ne.symm hi, List.findIdx?_cons]

theorem getD_after {i : Nat} (hi : i < n) :
    (after n done).registrations.getD i none = done.find? (·.rank == i) := by
  simp [after, List.getD, hi]

theorem reduceOption_after (h : AllValid runId n done) (q : Registration) :
    q ∈ (after n done).registrations.reduceOption ↔ q ∈ done := by
  rw [List.reduceOption_mem_iff]
  simp only [after, List.mem_map, List.mem_range]
  constructor
  · rintro ⟨i, -, hfind⟩
    exact List.mem_of_find?_eq_some hfind
  · intro hq
    exact ⟨q.rank, (h.agrees q hq).2.2.2.1, h.find?_rank hq⟩

/-- The checks of the loop are those of a world that stays valid. -/
theorem objection_eq_none (h : AllValid runId n done) :
    objection runId n (after n done).registrations r = none ↔ AllValid runId n (done ++ [r]) := by
  have hsome : r.rank < n → (((after n done).registrations.getD r.rank none).isSome = true ↔
      ¬ ∀ q ∈ done, q.rank ≠ r.rank) := by
    intro hlt
    rw [getD_after hlt, List.find?_isSome]
    simp
  have hany : ((after n done).registrations.reduceOption.any fun existing =>
      existing.advertiseAddr == r.advertiseAddr) = true ↔
      ¬ ∀ q ∈ done, q.advertiseAddr ≠ r.advertiseAddr := by
    rw [List.any_eq_true]
    simp [reduceOption_after h]
  rw [allValid_snoc]
  unfold objection
  split_ifs with hv hid hw hrank hdup hb haddr
  · simp [hv]
  · simp [hid]
  · simp [hw]
  · simp only [false_iff]
    intro hall
    omega
  · have hlt : r.rank < n := by omega
    simp only [false_iff]
    intro hall
    exact (hsome hlt).mp hdup hall.2.2.2.2.2.1
  · simp [hb]
  · simp only [false_iff]
    intro hall
    exact hany.mp haddr hall.2.2.2.2.2.2.2
  · have hlt : r.rank < n := by omega
    simp only [true_iff]
    refine ⟨h, not_not.mp hv, not_not.mp hid, not_not.mp hw, hlt, ?_, by simpa using hb, ?_⟩
    · exact not_not.mp fun hne => hdup ((hsome hlt).mpr hne)
    · exact not_not.mp fun hne => haddr (hany.mpr hne)

theorem any_isNone_after (h : AllValid runId n done) :
    (after n done).registrations.any Option.isNone = true ↔ done.length < n := by
  have hle := h.length_le
  rw [List.any_eq_true]
  simp only [after, List.mem_map, List.mem_range]
  constructor
  · rintro ⟨_, ⟨i, hi, rfl⟩, hnone⟩
    by_contra hfull
    obtain ⟨q, hq, rfl⟩ := h.exists_rank (by omega) hi
    rw [h.find?_rank hq] at hnone
    simp at hnone
  · intro hlt
    by_contra hall
    have hsub : List.range n ⊆ done.map (·.rank) := by
      intro i hi
      rw [List.mem_range] at hi
      by_contra hmem
      apply hall
      refine ⟨_, ⟨i, hi, rfl⟩, ?_⟩
      rw [Option.isNone_iff_eq_none, List.find?_eq_none]
      intro q hq
      simp only [beq_iff_eq]
      intro heq
      exact hmem (heq ▸ List.mem_map_of_mem hq)
    have hlen := (List.nodup_range.subperm hsub).length_le
    simp at hlen
    omega

theorem peers_after : (after n done).peers = peerTable n done := by
  apply List.ext_getElem (by simp [peers, after, peerTable])
  intro i h1 h2
  simp [peers, after, peerTable]

end Loop

section Outcome

variable {encodedLength : RendezvousResponse → Nat} {runId : String} {n : Nat}
  {done more : List Registration} {incoming : List (Except CollectivesError Registration)}

theorem writeAll_ok {response : RendezvousResponse}
    (h : encodedLength response ≤ controlFrameLimit) (clients : List Nat) :
    writeAll encodedLength response clients = ⟨.ok (), clients.map fun c => (c, response)⟩ := by
  induction clients with
  | nil => rfl
  | cons c clients ih =>
    rw [writeAll, if_neg (by omega), ih]
    rfl

/-- With the registrations that were missing the coordinator publishes the table. -/
theorem collect_ready (hvalid : AllValid runId n (done ++ more))
    (hfull : (done ++ more).length = n)
    (htake : incoming.take more.length = more.map .ok)
    (hfit : encodedLength (.ready (peerTable n (done ++ more))) ≤ controlFrameLimit) :
    collect encodedLength runId n (after n done) done.length incoming =
      ⟨.ok (), (after n (done ++ more)).clients.reduceOption.map
        fun c => (c, .ready (peerTable n (done ++ more)))⟩ := by
  induction more generalizing done incoming with
  | nil =>
    rw [List.append_nil] at hvalid hfull hfit ⊢
    have hall : ¬ (after n done).registrations.any Option.isNone = true := by
      rw [any_isNone_after hvalid]
      omega
    have hcollect : collect encodedLength runId n (after n done) done.length incoming =
        writeAll encodedLength (.ready (after n done).peers) (after n done).clients.reduceOption := by
      cases incoming with
      | nil => rw [collect, if_neg hall]
      | cons x rest =>
        cases x with
        | error e => rw [collect, if_neg hall]
        | ok r => rw [collect, if_neg hall]
    rw [hcollect, peers_after, writeAll_ok hfit]
  | cons r more ih =>
    have hdone : AllValid runId n (done ++ [r]) := by
      have hsplit : done ++ r :: more = done ++ [r] ++ more := by simp
      rw [hsplit] at hvalid
      exact hvalid.of_append
    have hopen : (after n done).registrations.any Option.isNone = true := by
      rw [any_isNone_after hdone.of_append]
      simp at hfull
      omega
    have hnone := (objection_eq_none hdone.of_append).mpr hdone
    have hnew := (allValid_snoc.mp hdone).2.2.2.2.2.1
    cases incoming with
    | nil => simp at htake
    | cons x rest =>
      simp only [List.length_cons, List.take_succ_cons, List.map_cons, List.cons.injEq] at htake
      obtain ⟨rfl, htake⟩ := htake
      have hsplit : done ++ r :: more = done ++ [r] ++ more := by simp
      rw [collect, if_pos hopen]
      simp only [hnone]
      rw [← after_snoc hnew, hsplit]
      rw [hsplit] at hvalid hfull hfit
      have hrec := ih hvalid hfull htake hfit
      rw [List.length_append] at hrec
      exact hrec

/-- Without them it fails and nobody gets the table. -/
theorem collect_failed (hvalid : AllValid runId n done)
    (hbad : ¬ ∃ more, (done ++ more).length = n ∧ incoming.take more.length = more.map .ok ∧
      AllValid runId n (done ++ more)) :
    (∃ e, (collect encodedLength runId n (after n done) done.length incoming).result = .error e) ∧
    ∀ m ∈ (collect encodedLength runId n (after n done) done.length incoming).sent,
      ∃ message, m.2 = .error message := by
  induction incoming generalizing done with
  | nil =>
    have hopen : (after n done).registrations.any Option.isNone = true := by
      rw [any_isNone_after hvalid]
      by_contra hfull
      have hle := hvalid.length_le
      exact hbad ⟨[], by simp; omega, rfl, by simpa using hvalid⟩
    rw [collect, if_pos hopen]
    exact ⟨⟨_, rfl⟩, by simp⟩
  | cons x rest ih =>
    have hopen : (after n done).registrations.any Option.isNone = true := by
      rw [any_isNone_after hvalid]
      by_contra hfull
      have hle := hvalid.length_le
      exact hbad ⟨[], by simp; omega, rfl, by simpa using hvalid⟩
    cases x with
    | error e =>
      rw [collect, if_pos hopen]
      exact ⟨⟨e, rfl⟩, by simp⟩
    | ok r =>
      rw [collect, if_pos hopen]
      cases hobj : objection runId n (after n done).registrations r with
      | some message =>
        refine ⟨⟨_, rfl⟩, ?_⟩
        intro m hm
        simp only [notifyAll] at hm
        split_ifs at hm
        · simp at hm
        · obtain ⟨c, -, rfl⟩ := List.mem_map.mp hm
          exact ⟨message, rfl⟩
      | none =>
        have hsnoc := (objection_eq_none hvalid).mp hobj
        have hnew := (allValid_snoc.mp hsnoc).2.2.2.2.2.1
        dsimp only
        rw [← after_snoc hnew]
        have hrec := ih hsnoc (by
          rintro ⟨more, hlen, htake, hall⟩
          exact hbad ⟨r :: more, by simpa using hlen, by simpa using htake, by simpa using hall⟩)
        rw [List.length_append] at hrec
        exact hrec

/-- An invalid registration ends the loop. It and all earlier clients are told why. -/
theorem collect_rejected {r : Registration} {rest : List (Except CollectivesError Registration)}
    (hvalid : AllValid runId n (done ++ more)) (hroom : (done ++ more).length < n)
    (hbad : ¬ AllValid runId n (done ++ more ++ [r])) :
    ∃ message, collect encodedLength runId n (after n done) done.length
        (more.map .ok ++ .ok r :: rest) =
      ⟨.error (.rendezvous message), notifyAll encodedLength (.error message)
        ((done ++ more).length :: (after n (done ++ more)).clients.reduceOption)⟩ := by
  induction more generalizing done with
  | nil =>
    rw [List.append_nil] at hvalid hroom hbad
    have hopen := (any_isNone_after hvalid).mpr hroom
    cases hobj : objection runId n (after n done).registrations r with
    | none => exact absurd ((objection_eq_none hvalid).mp hobj) hbad
    | some message =>
      refine ⟨message, ?_⟩
      rw [List.map_nil, List.nil_append, collect, if_pos hopen, List.append_nil]
      simp only [hobj]
  | cons q more ih =>
    have hsplit : done ++ q :: more = done ++ [q] ++ more := by simp
    rw [hsplit] at hvalid hroom hbad ⊢
    have hdone := hvalid.of_append
    have hopen : (after n done).registrations.any Option.isNone = true := by
      rw [any_isNone_after hdone.of_append]
      simp at hroom
      omega
    have hnone := (objection_eq_none hdone.of_append).mpr hdone
    have hnew := (allValid_snoc.mp hdone).2.2.2.2.2.1
    obtain ⟨message, hrec⟩ := ih hvalid hroom hbad
    refine ⟨message, ?_⟩
    rw [List.map_cons, List.cons_append, collect, if_pos hopen]
    simp only [hnone]
    rw [← after_snoc hnew]
    rw [List.length_append] at hrec
    exact hrec

theorem findIdx?_rank (hvalid : AllValid runId n done) {c : Nat} (hc : c < done.length) (i : Nat) :
    done.findIdx? (·.rank == i) = some c ↔ i = done[c].rank := by
  rw [List.findIdx?_eq_some_iff_getElem]
  constructor
  · rintro ⟨_, heq, -⟩
    exact (beq_iff_eq.mp heq).symm
  · rintro rfl
    refine ⟨hc, by simp, ?_⟩
    intro j hj
    have hranks := hvalid.ranks
    rw [List.Nodup, List.pairwise_map] at hranks
    have hne := List.pairwise_iff_getElem.mp hranks j c (by omega) hc hj
    simpa using hne

/-- Every connection that was accepted is one of the clients, and only once. -/
theorem count_clients_after (hvalid : AllValid runId n done) {c : Nat} (hlt : c < done.length) :
    (after n done).clients.reduceOption.count c = 1 := by
  have hrank : done[c].rank < n := (hvalid.agrees _ (List.getElem_mem hlt)).2.2.2.1
  have hcount : (after n done).clients.reduceOption.count c =
      (List.range n).count done[c].rank := by
    rw [after, List.reduceOption, List.count, List.countP_filterMap, List.countP_map, List.count]
    apply List.countP_congr
    intro i _
    have hiff := findIdx?_rank hvalid hlt i
    rw [Function.comp_apply, beq_iff_eq, ← hiff]
    cases done.findIdx? (·.rank == i) with
    | none => simp
    | some k => simp
  rw [hcount, List.count_eq_one_of_mem List.nodup_range (List.mem_range.mpr hrank)]

theorem length_not_mem_clients : done.length ∉ (after n done).clients.reduceOption := by
  rw [List.reduceOption_mem_iff]
  intro hmem
  obtain ⟨i, -, hfind⟩ := List.mem_map.mp hmem
  have hlt := (List.findIdx?_eq_some_iff_getElem.mp hfind).1
  omega

end Outcome

end RendezvousServer

/-- The table lists every registration under its rank. -/
theorem peerTable_entry {runId : String} {n : Nat} {done : List Registration} {r : Registration}
    (h : AllValid runId n done) (hr : r ∈ done) :
    (peerTable n done)[r.rank]? = some ⟨r.rank, r.advertiseAddr⟩ := by
  have hlt := (h.agrees r hr).2.2.2.1
  simp [peerTable, hlt, h.find?_rank hr]

theorem AllValid.perm {runId : String} {n : Nat} {done done' : List Registration}
    (h : AllValid runId n done) (hperm : done'.Perm done) : AllValid runId n done' :=
  ⟨fun r hr => h.agrees r (hperm.mem_iff.mp hr), (hperm.map _).nodup_iff.mpr h.ranks,
    (hperm.map _).nodup_iff.mpr h.addresses⟩

theorem peerTable_perm {runId : String} {n : Nat} {done done' : List Registration}
    (h : AllValid runId n done) (hfull : done.length = n) (hperm : done'.Perm done) :
    peerTable n done' = peerTable n done := by
  have h' := h.perm hperm
  apply List.map_congr_left
  intro i hi
  obtain ⟨r, hr, rfl⟩ := h.exists_rank hfull (List.mem_range.mp hi)
  rw [h.find?_rank hr, h'.find?_rank (hperm.mem_iff.mpr hr)]

theorem acceptPeers_table (n : Nat) (done : List Registration) :
    acceptPeers n (.ready (peerTable n done)) = .ok (peerTable n done) := by
  have hlen : (peerTable n done).length = n := by simp [peerTable]
  have hranks : (peerTable n done).zipIdx.any (fun p => p.1.rank != p.2) = false := by
    rw [List.any_eq_false]
    intro p hp
    obtain ⟨i, hi, heq⟩ := List.mem_iff_getElem.mp hp
    subst heq
    simp [peerTable]
  simp only [acceptPeers]
  rw [if_neg (by simp [hlen, hranks])]

theorem received_map {result : Except CollectivesError Unit} {response : RendezvousResponse}
    {clients : List Nat} {c : Nat} (hcount : clients.count c = 1) :
    RendezvousRun.received ⟨result, clients.map fun c => (c, response)⟩ c = [response] := by
  have hfilter : clients.filter (· == c) = [c] := by
    rw [List.filter_beq, hcount]
    rfl
  simp only [RendezvousRun.received, List.filter_map, List.map_map]
  show List.map _ (clients.filter (· == c)) = _
  rw [hfilter]
  rfl

section AllOrNothing

variable {encodedLength : RendezvousResponse → Nat} {runId : String} {n : Nat}
  {registrations : List Registration} {incoming : List (Except CollectivesError Registration)}

theorem run_ready (hvalid : AllValid runId n registrations) (hfull : registrations.length = n)
    (htake : incoming.take n = registrations.map .ok)
    (hfit : encodedLength (.ready (peerTable n registrations)) ≤ controlFrameLimit) :
    (RendezvousServer.run encodedLength runId n incoming).result = .ok () ∧
    ∀ c < n, (RendezvousServer.run encodedLength runId n incoming).received c =
      [.ready (peerTable n registrations)] := by
  have hrun := @RendezvousServer.collect_ready encodedLength runId n [] registrations incoming
    hvalid hfull (by rw [hfull]; exact htake) hfit
  rw [RendezvousServer.after_nil] at hrun
  rw [RendezvousServer.run, show (0 : Nat) = ([] : List Registration).length from rfl, hrun]
  refine ⟨rfl, ?_⟩
  intro c hc
  exact received_map (RendezvousServer.count_clients_after hvalid (by simpa [hfull] using hc))

theorem run_rejected {r : Registration} {rest : List (Except CollectivesError Registration)}
    (hvalid : AllValid runId n registrations) (hroom : registrations.length < n)
    (hbad : ¬ AllValid runId n (registrations ++ [r])) :
    ∃ message, (RendezvousServer.run encodedLength runId n
        (registrations.map .ok ++ .ok r :: rest)).result = .error (.rendezvous message) ∧
      ∀ c ≤ registrations.length, (RendezvousServer.run encodedLength runId n
        (registrations.map .ok ++ .ok r :: rest)).received c =
          if encodedLength (.error message) > controlFrameLimit then [] else [.error message] := by
  obtain ⟨message, hrun⟩ := @RendezvousServer.collect_rejected encodedLength runId n []
    registrations r rest hvalid hroom hbad
  rw [RendezvousServer.after_nil] at hrun
  refine ⟨message, ?_⟩
  rw [RendezvousServer.run, show (0 : Nat) = ([] : List Registration).length from rfl, hrun]
  refine ⟨rfl, ?_⟩
  intro c hc
  rw [RendezvousServer.notifyAll]
  split_ifs with hlong
  · rfl
  · apply received_map
    rw [List.nil_append, List.count_cons]
    rcases Nat.lt_or_eq_of_le hc with hlt | rfl
    · rw [RendezvousServer.count_clients_after hvalid hlt]
      simp [Nat.ne_of_gt hlt]
    · rw [List.count_eq_zero.mpr RendezvousServer.length_not_mem_clients]
      simp

theorem run_failed (hbad : ¬ ∃ registrations, incoming.take n = registrations.map .ok ∧
      registrations.length = n ∧ AllValid runId n registrations) :
    (∃ e, (RendezvousServer.run encodedLength runId n incoming).result = .error e) ∧
    ∀ c, ∀ m ∈ (RendezvousServer.run encodedLength runId n incoming).received c,
      ∃ message, m = .error message := by
  have hfailed := @RendezvousServer.collect_failed encodedLength runId n [] incoming
    ⟨by simp, by simp, by simp⟩ (by
      rintro ⟨more, hfull, htake, hvalid⟩
      rw [List.nil_append] at hfull hvalid
      exact hbad ⟨more, hfull ▸ htake, hfull, hvalid⟩)
  rw [RendezvousServer.after_nil] at hfailed
  refine ⟨hfailed.1, ?_⟩
  intro c m hm
  obtain ⟨sent, hsent, rfl⟩ := List.mem_map.mp hm
  exact hfailed.2 sent (List.mem_filter.mp hsent).1

/-- The coordinator publishes the table exactly when the first `n` registrations agree. Then every
client gets the same one, whatever the order in which the ranks arrived. Otherwise no client gets
a table, and those who registered up to the offending rank are told so or find their connection
closed. -/
theorem rendezvous_all_or_nothing (encodedLength : RendezvousResponse → Nat) (runId : String)
    (n : Nat) (hn : 1 ≤ n) (incoming : List (Except CollectivesError Registration))
    (hfit : ∀ registrations, incoming.take n = registrations.map .ok →
      registrations.length = n → AllValid runId n registrations →
        encodedLength (.ready (peerTable n registrations)) ≤ controlFrameLimit) :
    ((∃ c peers, .ready peers ∈ (RendezvousServer.run encodedLength runId n incoming).received c) ↔
      ∃ registrations, incoming.take n = registrations.map .ok ∧ registrations.length = n ∧
        AllValid runId n registrations) ∧
    (∀ registrations, incoming.take n = registrations.map .ok → registrations.length = n →
      AllValid runId n registrations →
        (RendezvousServer.run encodedLength runId n incoming).result = .ok () ∧
        (∀ c < n, (RendezvousServer.run encodedLength runId n incoming).received c =
          [.ready (peerTable n registrations)]) ∧
        (∀ i < n, ∃ r ∈ registrations, r.rank = i ∧
          (peerTable n registrations)[i]? = some ⟨i, r.advertiseAddr⟩) ∧
        acceptPeers n (.ready (peerTable n registrations)) = .ok (peerTable n registrations) ∧
        ∀ reordered : List Registration, reordered.Perm registrations →
          (RendezvousServer.run encodedLength runId n (reordered.map .ok)).result = .ok () ∧
          ∀ c < n, (RendezvousServer.run encodedLength runId n (reordered.map .ok)).received c =
            [.ready (peerTable n registrations)]) ∧
    (∀ registrations r rest, incoming = registrations.map .ok ++ .ok r :: rest →
      registrations.length < n → AllValid runId n registrations →
      ¬ AllValid runId n (registrations ++ [r]) →
        ∃ message, (RendezvousServer.run encodedLength runId n incoming).result =
            .error (.rendezvous message) ∧
          ∀ c ≤ registrations.length,
            (RendezvousServer.run encodedLength runId n incoming).received c = [] ∨
            (RendezvousServer.run encodedLength runId n incoming).received c = [.error message]) ∧
    ((¬ ∃ registrations, incoming.take n = registrations.map .ok ∧ registrations.length = n ∧
        AllValid runId n registrations) →
      (∃ e, (RendezvousServer.run encodedLength runId n incoming).result = .error e) ∧
      ∀ c, ∀ m ∈ (RendezvousServer.run encodedLength runId n incoming).received c,
        ∃ message, m = .error message) := by
  have hready : ∀ registrations, incoming.take n = registrations.map .ok →
      registrations.length = n → AllValid runId n registrations →
      (RendezvousServer.run encodedLength runId n incoming).result = .ok () ∧
      ∀ c < n, (RendezvousServer.run encodedLength runId n incoming).received c =
        [.ready (peerTable n registrations)] := by
    intro registrations htake hfull hvalid
    exact run_ready hvalid hfull htake (hfit registrations htake hfull hvalid)
  refine ⟨⟨?_, ?_⟩, ?_, ?_, run_failed⟩
  · rintro ⟨c, peers, hmem⟩
    by_contra hbad
    obtain ⟨message, hm⟩ := (run_failed hbad).2 c _ hmem
    cases hm
  · rintro ⟨registrations, htake, hfull, hvalid⟩
    refine ⟨0, peerTable n registrations, ?_⟩
    rw [(hready registrations htake hfull hvalid).2 0 hn]
    exact List.mem_singleton_self _
  · intro registrations htake hfull hvalid
    refine ⟨(hready registrations htake hfull hvalid).1, (hready registrations htake hfull hvalid).2,
      ?_, acceptPeers_table n registrations, ?_⟩
    · intro i hi
      obtain ⟨r, hr, rfl⟩ := hvalid.exists_rank hfull hi
      exact ⟨r, hr, rfl, peerTable_entry hvalid hr⟩
    · intro reordered hperm
      have hlen : reordered.length = n := hperm.length_eq.trans hfull
      have htable := peerTable_perm hvalid hfull hperm
      rw [← htable]
      apply run_ready (hvalid.perm hperm) hlen
      · rw [← hlen, ← List.length_map, List.take_length]
      · rw [htable]
        exact hfit registrations htake hfull hvalid
  · rintro registrations r rest rfl hroom hvalid hbad
    obtain ⟨message, hresult, hreceived⟩ := run_rejected hvalid hroom hbad
    refine ⟨message, hresult, ?_⟩
    intro c hc
    rw [hreceived c hc]
    split_ifs
    · exact .inl rfl
    · exact .inr rfl

/-- The length as JSON of a response whose strings need no escapes. -/
def plainLength : RendezvousResponse → Nat
  | .ready peers => 29 + (peers.length - 1) + (peers.map fun peer =>
      22 + (Nat.toDigits 10 peer.rank).length + peer.address.utf8ByteSize).sum
  | .error message => 31 + message.utf8ByteSize

/-- Two ranks of the run `demo`, the second of which arrives first. -/
def demoRegistrations : List Registration :=
  [⟨protocolVersion, "demo", 1, 2, "b:2"⟩, ⟨protocolVersion, "demo", 0, 2, "a:1"⟩]

theorem rendezvous_all_or_nothing_pair :
    AllValid "demo" 2 demoRegistrations ∧
    (RendezvousServer.run plainLength "demo" 2 (demoRegistrations.map .ok)).received 0 =
      [.ready (peerTable 2 demoRegistrations)] := by
  have hvalid : AllValid "demo" 2 demoRegistrations :=
    ⟨by decide +kernel, by decide, by decide +kernel⟩
  have htable : plainLength (.ready (peerTable 2 demoRegistrations)) ≤ controlFrameLimit := by
    decide +kernel
  have hfit : ∀ registrations,
      (demoRegistrations.map Except.ok).take 2 = registrations.map (Except.ok (ε := CollectivesError)) →
      registrations.length = 2 → AllValid "demo" 2 registrations →
        plainLength (.ready (peerTable 2 registrations)) ≤ controlFrameLimit := by
    intro registrations heq _ _
    have hsame : demoRegistrations = registrations :=
      List.map_injective_iff.mpr (fun a b h => Except.ok.inj h) heq
    rw [← hsame]
    exact htable
  have hmain := rendezvous_all_or_nothing plainLength "demo" 2 (by decide)
    (demoRegistrations.map .ok) hfit
  exact ⟨hvalid, (hmain.2.1 demoRegistrations rfl rfl hvalid).2.1 0 (by decide)⟩

end AllOrNothing

end Dlir.Collectives
