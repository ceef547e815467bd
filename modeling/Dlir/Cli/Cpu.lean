import Dlir.Collectives.Rendezvous
import Dlir.Framework.Results
import Dlir.Math.Text

namespace Dlir.Cli

open Dlir.Collectives Dlir.Framework Dlir.Math

/-- Positive CPU quantity stored in thousandths of one CPU. -/
structure CpuAmount where
  millis : Nat
  deriving DecidableEq, Repr

namespace CpuAmount

/-- The thousandths that the decimal places denote. -/
def scaleFraction (fraction : List Char) : Except String Nat :=
  if fraction = [] then .ok 0
  else do
    let digits ← okOr "CPU total must be a positive decimal" (parseU64 fraction)
    .ok (digits * 10 ^ (3 - (String.ofList fraction).utf8ByteSize))

/-- Parses a text without surrounding white space. -/
def fromTrimmed (value : List Char) : Except String CpuAmount := do
  refuse (value = [] ∨ value.head? = some '-' ∨ value.head? = some '+')
    "CPU total must be a positive decimal"
  let parts := value.splitOn '.'
  let whole ← okOr "CPU total must be a positive decimal" (parseU64 (parts.headD []))
  let fraction := parts[1]?.getD []
  refuse (parts[2]?.isSome ∨ (String.ofList fraction).utf8ByteSize > 3 ∨
      ¬ fraction.all Char.isDigit)
    "CPU total accepts at most three decimal places"
  let fraction ← scaleFraction fraction
  let millis ← okOr "CPU total is too large" do
    let value ← checkedMul whole 1000
    checkedAdd value fraction
  refuse (millis = 0) "CPU total must be greater than zero"
  pure ⟨millis⟩

def fromStr (value : String) : Except String CpuAmount :=
  fromTrimmed (trimMatches isWhiteSpace value.toList)

end CpuAmount

/-- Three decimal places, as `{fraction:03}` prints them. -/
def threePlaces (fraction : Nat) : List Char := (Nat.toDigits 10 fraction).leftpad 3 '0'

def formatCpu (millis : Nat) : String :=
  let whole := millis / 1000
  let fraction := millis % 1000
  if fraction = 0 then toString whole
  else String.ofList
    (trimEndMatches (· == '0') ((toString whole).toList ++ '.' :: threePlaces fraction))

/-- The texts that denote an amount: digits, and possibly a point with at most three more. -/
def DenotesCpu (text : List Char) (millis : Nat) : Prop :=
  ∃ whole fraction : List Char, whole ≠ [] ∧ whole.all Char.isDigit = true ∧
    fraction.all Char.isDigit = true ∧ fraction.length ≤ 3 ∧
    (text = whole ∧ fraction = [] ∨ text = whole ++ '.' :: fraction) ∧
    millis = digitsValue whole * 1000 + digitsValue fraction * 10 ^ (3 - fraction.length)

/-- Digits take one byte each. -/
theorem utf8ByteSize_digits {digits : List Char} (h : digits.all Char.isDigit = true) :
    (String.ofList digits).utf8ByteSize = digits.length := by
  induction digits with
  | nil => rfl
  | cons c digits ih =>
    obtain ⟨hc, hdigits⟩ : c.isDigit = true ∧ digits.all Char.isDigit = true := by simpa using h
    have hsize : c.utf8Size = 1 := by
      simp only [Char.isDigit, Bool.and_eq_true, decide_eq_true_eq] at hc
      rw [Char.utf8Size, if_pos]
      exact UInt32.le_trans hc.2 (by decide)
    rw [String.ofList_cons, String.utf8ByteSize_append]
    simp [hsize, ih hdigits, Nat.add_comm]

theorem point_not_mem {digits : List Char} (h : digits.all Char.isDigit = true) : '.' ∉ digits := by
  intro hmem
  have := List.all_eq_true.mp h _ hmem
  cases this

namespace CpuAmount

/-- The parts of a text with at most one point. -/
theorem splitOn_point {value : List Char} (h : (value.splitOn '.')[2]? = none) :
    (∃ whole, value.splitOn '.' = [whole] ∧ value = whole) ∨
      ∃ whole fraction, value.splitOn '.' = [whole, fraction] ∧ value = whole ++ '.' :: fraction := by
  have hjoin : List.intercalate ['.'] (value.splitOn '.') = value := List.intercalate_splitOn '.'
  have hne := List.splitOn_ne_nil '.' value
  match hparts : value.splitOn '.' with
  | [] => exact absurd hparts hne
  | [whole] =>
    rw [hparts] at hjoin
    exact .inl ⟨whole, rfl, by simpa using hjoin.symm⟩
  | [whole, fraction] =>
    rw [hparts] at hjoin
    exact .inr ⟨whole, fraction, rfl, by simpa [List.intercalate_cons_cons] using hjoin.symm⟩
  | _ :: _ :: _ :: _ =>
    rw [hparts] at h
    cases h

theorem scaleFraction_eq_ok {fraction : List Char} (hdigits : fraction.all Char.isDigit = true)
    (hlen : fraction.length ≤ 3) {n : Nat} : scaleFraction fraction = .ok n ↔
      n = digitsValue fraction * 10 ^ (3 - fraction.length) := by
  unfold scaleFraction
  split_ifs with hnil
  · subst hnil
    simp [digitsValue, eq_comm]
  · have hlt : digitsValue fraction < 2 ^ 64 := by
      calc digitsValue fraction < 10 ^ fraction.length := digitsValue_lt hdigits
        _ ≤ 10 ^ 3 := Nat.pow_le_pow_right (by omega) hlen
        _ < 2 ^ 64 := by omega
    have hparse : parseU64 fraction = some (digitsValue fraction) :=
      (parseU64_eq_some (head_ne_of_digits hdigits rfl)).mpr ⟨hnil, hdigits, rfl, hlt⟩
    rw [hparse, utf8ByteSize_digits hdigits]
    exact ⟨fun h => (Except.ok.inj h).symm, fun h => by rw [h]; rfl⟩

theorem scaled_eq_some {whole fraction millis : Nat} :
    (do
      let value ← checkedMul whole 1000
      checkedAdd value fraction) = some millis ↔
      millis = whole * 1000 + fraction ∧ millis < 2 ^ 64 := by
  simp only [Option.bind_eq_bind, Option.bind_eq_some_iff, checkedMul_eq_some, checkedAdd_eq_some]
  constructor
  · rintro ⟨value, ⟨-, rfl⟩, hlt, rfl⟩
    exact ⟨rfl, hlt⟩
  · rintro ⟨rfl, hlt⟩
    have hmul : whole * 1000 < 2 ^ 64 := lt_of_le_of_lt (Nat.le_add_right _ _) hlt
    exact ⟨whole * 1000, ⟨hmul, rfl⟩, hlt, rfl⟩

theorem fromTrimmed_ok {value : List Char} {amount : CpuAmount}
    (h : fromTrimmed value = .ok amount) :
    DenotesCpu value amount.millis ∧ 0 < amount.millis ∧ amount.millis < 2 ^ 64 := by
  simp only [fromTrimmed, bind_eq_ok, refuse_eq_ok, okOr_eq_ok, pure_eq_ok, scaled_eq_some] at h
  obtain ⟨-, hsign, whole, hwhole, -, hplaces, fraction, hfraction, millis, ⟨rfl, hlt⟩, -, hpos,
    rfl⟩ := h
  push Not at hsign hplaces
  obtain ⟨hthird, hbytes, hdigits⟩ := hplaces
  rw [utf8ByteSize_digits hdigits] at hbytes
  rw [scaleFraction_eq_ok hdigits hbytes] at hfraction
  rcases splitOn_point (by simpa using hthird) with
    ⟨whole', hparts, hvalue⟩ | ⟨whole', fraction', hparts, hvalue⟩
  · rw [hparts] at hwhole hdigits hbytes hfraction
    have hhead : whole'.head? ≠ some '+' := by rw [← hvalue]; exact hsign.2.2
    obtain ⟨hne, hall, rfl, -⟩ := (parseU64_eq_some hhead).mp hwhole
    refine ⟨⟨whole', [], hne, hall, rfl, by simp, .inl ⟨hvalue, rfl⟩, ?_⟩, Nat.pos_of_ne_zero hpos,
      hlt⟩
    rw [hfraction]
    rfl
  · rw [hparts] at hwhole hdigits hbytes hfraction
    have hhead : whole'.head? ≠ some '+' := by
      intro hplus
      exact hsign.2.2 (by rw [hvalue, List.head?_append, hplus]; rfl)
    obtain ⟨hne, hall, rfl, -⟩ := (parseU64_eq_some hhead).mp hwhole
    refine ⟨⟨whole', fraction', hne, hall, hdigits, hbytes, .inr hvalue, ?_⟩,
      Nat.pos_of_ne_zero hpos, hlt⟩
    rw [hfraction]
    rfl

theorem fromTrimmed_of_denotes {value : List Char} {millis : Nat} (h : DenotesCpu value millis)
    (hpos : 0 < millis) (hlt : millis < 2 ^ 64) : fromTrimmed value = .ok ⟨millis⟩ := by
  obtain ⟨whole, fraction, hne, hall, hdigits, hlen, hvalue, hmillis⟩ := h
  have hhead : ∀ c, c.isDigit = false → value.head? ≠ some c := by
    intro c hc
    rcases hvalue with ⟨rfl, -⟩ | rfl
    · exact head_ne_of_digits hall hc
    · rw [List.head?_append_of_ne_nil _ hne]
      exact head_ne_of_digits hall hc
  have hparts : (value.splitOn '.').headD [] = whole ∧ (value.splitOn '.')[1]?.getD [] = fraction ∧
      (value.splitOn '.')[2]? = none := by
    rcases hvalue with ⟨rfl, rfl⟩ | rfl
    · rw [List.splitOn_eq_singleton (point_not_mem hall)]
      exact ⟨rfl, rfl, rfl⟩
    · rw [List.splitOn_append_cons_self_of_not_mem (point_not_mem hall),
        List.splitOn_eq_singleton (point_not_mem hdigits)]
      exact ⟨rfl, rfl, rfl⟩
  obtain ⟨hwhole, hfraction, hthird⟩ := hparts
  have hvalueNe : value ≠ [] := by
    rcases hvalue with ⟨rfl, -⟩ | rfl
    · exact hne
    · simp
  have hparse : parseU64 whole = some (digitsValue whole) := by
    refine (parseU64_eq_some (head_ne_of_digits hall rfl)).mpr ⟨hne, hall, rfl, ?_⟩
    omega
  simp only [fromTrimmed, bind_eq_ok, refuse_eq_ok, okOr_eq_ok, pure_eq_ok, scaled_eq_some, hwhole,
    hfraction, hthird]
  refine ⟨(), ?_, digitsValue whole, hparse, (), ?_, _,
    (scaleFraction_eq_ok hdigits hlen).mpr rfl, millis, ⟨hmillis, hlt⟩, (), by omega, rfl⟩
  · simp [hvalueNe, hhead '-' rfl, hhead '+' rfl]
  · rw [utf8ByteSize_digits hdigits]
    simp [hlen, hdigits]

theorem fromStr_eq_ok {s : String} {amount : CpuAmount} : fromStr s = .ok amount ↔
    DenotesCpu (trimMatches isWhiteSpace s.toList) amount.millis ∧
      0 < amount.millis ∧ amount.millis < 2 ^ 64 :=
  ⟨fromTrimmed_ok, fun ⟨h, hpos, hlt⟩ => fromTrimmed_of_denotes h hpos hlt⟩

end CpuAmount

/-- The decimal places of a formatted amount without their zeros at the end. -/
def places (fraction : Nat) : List Char := trimEndMatches (· == '0') (threePlaces fraction)

section Places

variable {fraction : Nat} (hlt : fraction < 1000)

theorem digitsValue_threePlaces (fraction : Nat) : digitsValue (threePlaces fraction) = fraction := by
  rw [threePlaces, List.leftpad, digitsValue_append, digitsValue_zeros, digitsValue_toDigits]
  omega

theorem all_isDigit_threePlaces (fraction : Nat) :
    (threePlaces fraction).all Char.isDigit = true := by
  rw [threePlaces, List.leftpad, List.all_append, all_isDigit_toDigits, List.all_replicate]
  simp

include hlt in
theorem length_threePlaces : (threePlaces fraction).length = 3 := by
  have hlen : (Nat.toDigits 10 fraction).length ≤ 3 :=
    (Nat.length_toDigits_le_iff (by omega) (by omega)).mpr hlt
  rw [threePlaces, List.leftpad, List.length_append, List.length_replicate]
  omega

/-- Only zeros are taken off. -/
theorem threePlaces_eq (fraction : Nat) : ∃ zeros,
    threePlaces fraction = places fraction ++ List.replicate zeros '0' := by
  refine ⟨((threePlaces fraction).rtakeWhile (· == '0')).length, ?_⟩
  have hzeros : (threePlaces fraction).rtakeWhile (· == '0') =
      List.replicate ((threePlaces fraction).rtakeWhile (· == '0')).length '0' := by
    rw [List.eq_replicate_iff]
    refine ⟨rfl, fun c hc => ?_⟩
    simpa using List.mem_rtakeWhile_imp hc
  rw [← hzeros]
  exact List.rdropWhile_append_rtakeWhile.symm

theorem places_ne_nil (hne : fraction ≠ 0) : places fraction ≠ [] := by
  intro hnil
  obtain ⟨zeros, heq⟩ := threePlaces_eq fraction
  have hvalue := digitsValue_threePlaces fraction
  rw [heq, hnil, List.nil_append, digitsValue_zeros] at hvalue
  exact hne hvalue.symm

theorem getLast?_places (hne : fraction ≠ 0) : (places fraction).getLast? ≠ some '0' := by
  have hnil := places_ne_nil hne
  have hlast := List.rdropWhile_last_not (· == '0') (threePlaces fraction) hnil
  rw [List.getLast?_eq_getLast_of_ne_nil hnil]
  intro h
  exact hlast (beq_iff_eq.mpr (Option.some.inj h))

theorem all_isDigit_places (fraction : Nat) : (places fraction).all Char.isDigit = true := by
  obtain ⟨zeros, heq⟩ := threePlaces_eq fraction
  have hall := all_isDigit_threePlaces fraction
  rw [heq, List.all_append, Bool.and_eq_true] at hall
  exact hall.1

include hlt in
/-- What is left denotes the same thousandths. -/
theorem digitsValue_places :
    digitsValue (places fraction) * 10 ^ (3 - (places fraction).length) = fraction ∧
      (places fraction).length ≤ 3 := by
  obtain ⟨zeros, heq⟩ := threePlaces_eq fraction
  have hlen := length_threePlaces hlt
  have hvalue := digitsValue_threePlaces fraction
  rw [heq, List.length_append, List.length_replicate] at hlen
  rw [heq, digitsValue_append, digitsValue_zeros, List.length_replicate, Nat.add_zero] at hvalue
  have hzeros : 3 - (places fraction).length = zeros := by omega
  exact ⟨by rw [hzeros, hvalue], by omega⟩

end Places

theorem toList_formatCpu_whole {millis : Nat} (h : millis % 1000 = 0) :
    (formatCpu millis).toList = Nat.toDigits 10 (millis / 1000) := by
  simp [formatCpu, h]

theorem toList_formatCpu_places {millis : Nat} (h : millis % 1000 ≠ 0) :
    (formatCpu millis).toList =
      Nat.toDigits 10 (millis / 1000) ++ '.' :: places (millis % 1000) := by
  obtain ⟨zeros, heq⟩ := threePlaces_eq (millis % 1000)
  have hlast : (Nat.toDigits 10 (millis / 1000) ++ '.' :: places (millis % 1000)).getLast? ≠
      some '0' := by
    obtain ⟨c, rest, hcons⟩ := List.exists_cons_of_ne_nil (places_ne_nil h)
    have hplaces := getLast?_places h
    rw [hcons] at hplaces ⊢
    rw [List.getLast?_append_of_ne_nil _ (by simp), List.getLast?_cons_cons]
    exact hplaces
  have hdigits : (toString (millis / 1000)).toList = Nat.toDigits 10 (millis / 1000) := by simp
  simp only [formatCpu, if_neg h, String.toList_ofList, hdigits]
  rw [heq, ← List.cons_append, ← List.append_assoc, trimEndMatches_append_replicate,
    trimEndMatches_eq_self hlast]

theorem denotesCpu_formatCpu (millis : Nat) : DenotesCpu (formatCpu millis).toList millis := by
  have hdigits := all_isDigit_toDigits (millis / 1000)
  by_cases h : millis % 1000 = 0
  · refine ⟨Nat.toDigits 10 (millis / 1000), [], Nat.toDigits_ne_nil, hdigits, rfl, by simp,
      .inl ⟨toList_formatCpu_whole h, rfl⟩, ?_⟩
    rw [digitsValue_toDigits, show digitsValue [] = 0 from rfl]
    omega
  · obtain ⟨hvalue, hlen⟩ := digitsValue_places (Nat.mod_lt millis (by omega : 0 < 1000))
    refine ⟨Nat.toDigits 10 (millis / 1000), places (millis % 1000), Nat.toDigits_ne_nil, hdigits,
      all_isDigit_places _, hlen, .inr (toList_formatCpu_places h), ?_⟩
    rw [digitsValue_toDigits, hvalue]
    omega

/-- Digits and points are no white space. -/
theorem isWhiteSpace_eq_false {c : Char} (h : c.isDigit = true ∨ c = '.') :
    isWhiteSpace c = false := by
  rcases h with h | rfl
  · simp only [Char.isDigit, Bool.and_eq_true, decide_eq_true_eq] at h
    simp only [ge_iff_le, UInt32.le_iff_toNat_le] at h
    have hlow : 48 ≤ c.val.toNat := h.1
    have hhigh : c.val.toNat ≤ 57 := h.2
    simp only [isWhiteSpace, Bool.or_eq_false_iff, Bool.and_eq_false_iff, decide_eq_false_iff_not,
      beq_eq_false_iff_ne, UInt32.le_iff_toNat_le, ne_eq, ← UInt32.toNat_inj, UInt32.reduceToNat]
    omega
  · decide

theorem trimMatches_of_denotes {text : List Char} {millis : Nat} (h : DenotesCpu text millis) :
    trimMatches isWhiteSpace text = text := by
  obtain ⟨whole, fraction, -, hall, hdigits, -, htext, -⟩ := h
  apply trimMatches_eq_self
  intro c hc
  apply isWhiteSpace_eq_false
  rcases htext with ⟨rfl, -⟩ | rfl
  · exact .inl (List.all_eq_true.mp hall c hc)
  · rcases List.mem_append.mp hc with hc | hc
    · exact .inl (List.all_eq_true.mp hall c hc)
    · rcases List.mem_cons.mp hc with rfl | hc
      · exact .inr rfl
      · exact .inl (List.all_eq_true.mp hdigits c hc)

/-- Which texts are CPU amounts, and that formatting an amount gives such a text, without a point
or a zero behind a point at its end. -/
theorem cpuAmount_exact :
    (∀ (s : String) (amount : CpuAmount), CpuAmount.fromStr s = .ok amount ↔
      DenotesCpu (trimMatches isWhiteSpace s.toList) amount.millis ∧
        0 < amount.millis ∧ amount.millis < 2 ^ 64) ∧
    ∀ millis : Nat, 1 ≤ millis → millis < 2 ^ 64 →
      CpuAmount.fromStr (formatCpu millis) = .ok ⟨millis⟩ ∧
      ('.' ∈ (formatCpu millis).toList →
        (formatCpu millis).toList.getLast? ≠ some '.' ∧
          (formatCpu millis).toList.getLast? ≠ some '0') := by
  refine ⟨fun s amount => CpuAmount.fromStr_eq_ok, fun millis hpos hlt => ⟨?_, fun hpoint => ?_⟩⟩
  · have hdenotes := denotesCpu_formatCpu millis
    refine CpuAmount.fromStr_eq_ok.mpr ⟨?_, hpos, hlt⟩
    rw [trimMatches_of_denotes hdenotes]
    exact hdenotes
  · by_cases h : millis % 1000 = 0
    · rw [toList_formatCpu_whole h] at hpoint
      exact absurd hpoint (point_not_mem (all_isDigit_toDigits _))
    · obtain ⟨c, rest, hcons⟩ := List.exists_cons_of_ne_nil (places_ne_nil h)
      have hlast : (formatCpu millis).toList.getLast? = (places (millis % 1000)).getLast? := by
        rw [toList_formatCpu_places h, hcons, List.getLast?_append_of_ne_nil _ (by simp),
          List.getLast?_cons_cons]
      rw [hlast]
      refine ⟨fun hdot => ?_, getLast?_places h⟩
      exact point_not_mem (all_isDigit_places _) (List.mem_of_getLast? hdot)

theorem cpuAmount_exact_half : CpuAmount.fromStr (formatCpu 1500) = .ok ⟨1500⟩ ∧
    formatCpu 1500 = "1.5" :=
  ⟨(cpuAmount_exact.2 1500 (by decide) (by decide)).1, by decide +kernel⟩

end Dlir.Cli
