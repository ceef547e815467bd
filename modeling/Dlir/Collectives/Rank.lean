import Dlir.Collectives.Error
import Mathlib.Tactic.Common

namespace Dlir.Collectives

/-- Identity of one participant in a world of `world` ranks. -/
abbrev Rank (world : Nat) := Fin world

namespace Rank

variable {world : Nat}

/-- Constructs a rank after validating its world membership. -/
def new (globalRank worldSize : Nat) : Except CollectivesError (Rank worldSize) :=
  if worldSize = 0 then .error .invalidWorldSize
  else if h : globalRank < worldSize then .ok ⟨globalRank, h⟩
  else .error (.invalidRank globalRank worldSize)

def globalRank (rank : Rank world) : Nat := rank.val

def worldSize (_rank : Rank world) : Nat := world

/-- Validates that `peer` is a distinct rank in the same world. -/
def validatePeer (rank : Rank world) (peer : Nat) : Except CollectivesError (Rank world) :=
  if h : peer < world then
    if peer = rank.globalRank then .error (.selfSend rank.globalRank) else .ok ⟨peer, h⟩
  else .error (.invalidPeer rank.globalRank peer world)

theorem validatePeer_ok {rank : Rank world} {peer : Nat} (h : peer < world)
    (hne : peer ≠ rank.val) : rank.validatePeer peer = .ok ⟨peer, h⟩ := by
  simp [validatePeer, h, globalRank, hne]

theorem of_validatePeer {rank p : Rank world} {peer : Nat} (h : rank.validatePeer peer = .ok p) :
    peer < world ∧ peer ≠ rank.val := by
  unfold validatePeer at h
  split_ifs at h with hlt hne
  exact ⟨hlt, hne⟩

theorem validatePeer_val {rank p : Rank world} {peer : Nat} (h : rank.validatePeer peer = .ok p) :
    peer = p.val := by
  unfold validatePeer at h
  split_ifs at h
  obtain rfl := Except.ok.inj h
  rfl

end Rank

/-- Application-selected identifier used to match point-to-point messages. -/
structure MessageTag where
  value : UInt64
  deriving DecidableEq, Repr

end Dlir.Collectives
