import Dlir.Collectives.Native
import Mathlib.Tactic.NormNum

namespace Dlir.Collectives

open Dlir.Math

theorem CollectiveKind.tagId_le (kind : CollectiveKind) : kind.tagId ≤ 6 := by
  cases kind <;> decide

/-- The number behind a collective tag, before it is cut to 64 bits. -/
def tagNumber (sequence : Nat) (kind : CollectiveKind) (phase step : Nat) : Nat :=
  sequence * 2 ^ 16 + kind.tagId * 2 ^ 12 + phase * 2 ^ 8 + step + collectiveTagBase

/-- The tag of one message of a collective whose sequence number is in range. -/
def tagOf (sequence : Nat) (kind : CollectiveKind) (phase step : Nat) : MessageTag :=
  ⟨.ofNat (tagNumber sequence kind phase step)⟩

section

variable {sequence phase step : Nat} {kind : CollectiveKind}

theorem collectiveTagBase_eq : collectiveTagBase = 2 ^ 62 := by norm_num [collectiveTagBase]

theorem collectiveTagLimit_eq : collectiveTagLimit = 2 ^ 62 + 2 ^ 60 := by
  norm_num [collectiveTagLimit]

theorem tagSequenceStride_eq : tagSequenceStride = 2 ^ 16 := by
  norm_num [tagSequenceStride, Nat.shiftLeft_eq]

theorem tag_of_number {tag : Option Nat} {number limit : Nat} {e : CollectivesError}
    (h : tag = some number) (hl : number < limit) :
    (match tag.filter (· < limit) with
      | some value => Except.ok (MessageTag.mk (.ofNat value))
      | none => .error e) = .ok ⟨.ofNat number⟩ := by
  subst h
  have hd : decide (number < limit) = true := decide_eq_true hl
  simp [Option.filter, hd]

theorem collectiveTag_ok (hs : sequence < 2 ^ 44) (hp : phase ≤ 15) (ht : step ≤ 255) :
    collectiveTag sequence kind phase step = .ok (tagOf sequence kind phase step) := by
  have hk := kind.tagId_le
  have hbase := collectiveTagBase_eq
  have hlimit := collectiveTagLimit_eq
  have hguard : ¬ (phase > 15 ∨ step > 255) := by omega
  have hnum : tagNumber sequence kind phase step =
    sequence * 2 ^ 16 + kind.tagId * 2 ^ 12 + phase * 2 ^ 8 + step + collectiveTagBase := rfl
  have h1 := checkedMul_some (a := sequence) (b := 2 ^ 16) (by omega)
  have h2 := checkedAdd_some (a := sequence * 2 ^ 16) (b := kind.tagId * 2 ^ 12) (by omega)
  have h3 := checkedAdd_some (a := sequence * 2 ^ 16 + kind.tagId * 2 ^ 12) (b := phase * 2 ^ 8)
    (by omega)
  have h4 := checkedAdd_some (a := sequence * 2 ^ 16 + kind.tagId * 2 ^ 12 + phase * 2 ^ 8)
    (b := step) (by omega)
  have h5 := checkedAdd_some
    (a := sequence * 2 ^ 16 + kind.tagId * 2 ^ 12 + phase * 2 ^ 8 + step)
    (b := collectiveTagBase) (by omega)
  have hlt : tagNumber sequence kind phase step < collectiveTagLimit := by omega
  unfold collectiveTag
  rw [if_neg hguard]
  refine tag_of_number ?_ hlt
  simp only [Option.bind_eq_bind, tagSequenceStride_eq, Nat.shiftLeft_eq]
  rw [h1, Option.bind_some, h2, Option.bind_some, h3, Option.bind_some, h4, Option.bind_some, h5,
    hnum]

theorem collectiveTag_overflow (hs : 2 ^ 44 ≤ sequence) (hp : phase ≤ 15) (ht : step ≤ 255) :
    collectiveTag sequence kind phase step =
      .error (.collective "collective message-tag overflow") := by
  have hbase := collectiveTagBase_eq
  have hlimit := collectiveTagLimit_eq
  have hguard : ¬ (phase > 15 ∨ step > 255) := by omega
  simp only [collectiveTag, if_neg hguard]
  split
  · rename_i v hv
    exfalso
    simp only [Option.filter_eq_some_iff, Option.bind_eq_bind, Option.bind_eq_some_iff,
      checkedMul, checkedAdd, Option.ite_none_right_eq_some, Option.some.injEq,
      tagSequenceStride_eq, Nat.shiftLeft_eq] at hv
    obtain ⟨⟨v1, ⟨-, h1⟩, v2, ⟨-, h2⟩, v3, ⟨-, h3⟩, v4, ⟨-, h4⟩, -, h5⟩, hlim⟩ := hv
    have hv := of_decide_eq_true hlim
    omega
  · rfl

/-- `begin` accepts exactly the sequence numbers all of whose tags stay in range. -/
theorem sequence_lt_of_tag {tag : MessageTag} (h : collectiveTag sequence kind 0 0 = .ok tag) :
    sequence < 2 ^ 44 := by
  by_contra hs
  rw [collectiveTag_overflow (by omega) (by omega) (by omega)] at h
  cases h

end

end Dlir.Collectives
