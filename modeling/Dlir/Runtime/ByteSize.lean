import Dlir.Collectives.Rendezvous
import Dlir.Framework.Machine
import Dlir.Math.Ascii
import Dlir.Math.Utf8

namespace Dlir.Runtime

open Dlir.Collectives Dlir.Framework Dlir.Math

/-- The payload of `DlirError::InvalidMemorySize`. -/
structure InvalidMemorySize where
  value : String
  reason : String
  deriving DecidableEq, Repr

def invalidSize (value : List Char) (reason : String) : InvalidMemorySize :=
  ⟨String.ofList value, reason⟩

/-- The factor that a suffix stands for. -/
def multiplier (suffix : List Char) : Option Nat :=
  let suffix := suffix.map Char.toLower
  if suffix = [] ∨ suffix = ['b'] then some 1
  else if suffix = ['k', 'i', 'b'] then some (1 <<< 10)
  else if suffix = ['m', 'i', 'b'] then some (1 <<< 20)
  else if suffix = ['g', 'i', 'b'] then some (1 <<< 30)
  else none

/-- What `parse_byte_size` makes of digits and a suffix. -/
def scaleSize (value digits suffix : List Char) : Except InvalidMemorySize Nat := do
  refuse (digits = []) (invalidSize value "expected an integer byte count")
  let amount ← okOr (invalidSize value "integer is out of range") (parseU64 digits)
  let multiplier ← okOr (invalidSize value
    "expected B, KiB, MiB, or GiB; decimal and ambiguous suffixes are rejected") (multiplier suffix)
  okOr (invalidSize value "byte count overflow") (checkedMul amount multiplier)

/-- Parses an integer byte count with an optional unambiguous IEC suffix. -/
def parseByteSize (value : String) : Panicking InvalidMemorySize Nat :=
  let value := trimMatches isWhiteSpace value.toList
  if value = [] then throw (invalidSize value "value is empty")
  else do
    let split := (findByte (!·.isDigit) value).getD (utf8Length value)
    let (digits, suffix) ← ExceptT.lift (splitAtByte value split)
    ExceptT.mk (.ok (scaleSize value digits suffix))

/-- The suffixes with what they stand for. -/
def units : List (List Char × Nat) :=
  [([], 1), (['B'], 1), (['K', 'i', 'B'], 2 ^ 10), (['M', 'i', 'B'], 2 ^ 20),
    (['G', 'i', 'B'], 2 ^ 30)]

/-- One letter in either case. -/
def EitherCase (c letter : Char) : Prop := c = letter.toLower ∨ c = letter.toUpper

/-- The texts that denote a number of bytes: digits with a suffix, or none. -/
def DenotesBytes (text : List Char) (n : Nat) : Prop :=
  ∃ digits suffix name scale, text = digits ++ suffix ∧
    digits ≠ [] ∧ digits.all Char.isDigit = true ∧ digitsValue digits < 2 ^ 64 ∧
    (name, scale) ∈ units ∧ List.Forall₂ EitherCase suffix name ∧
    n = digitsValue digits * scale ∧ n < 2 ^ 64

/-- The letters agree when they do in lower case. -/
theorem forall₂_eitherCase {suffix name : List Char} :
    List.Forall₂ EitherCase suffix name ↔ suffix.map Char.toLower = name.map Char.toLower := by
  induction suffix generalizing name with
  | nil => cases name <;> simp
  | cons c suffix ih =>
    cases name with
    | nil => simp
    | cons letter name => simp [EitherCase, ← toLower_eq_toLower_iff, ih]

theorem multiplier_eq_some {suffix : List Char} {scale : Nat} : multiplier suffix = some scale ↔
    ∃ name, (name, scale) ∈ units ∧ List.Forall₂ EitherCase suffix name := by
  simp only [forall₂_eitherCase, multiplier]
  constructor
  · intro h
    split_ifs at h with hbytes hkib hmib hgib <;> obtain rfl := Option.some.inj h
    · rcases hbytes with hnone | hb
      · exact ⟨[], by decide +kernel, hnone⟩
      · exact ⟨['B'], by decide +kernel, hb⟩
    · exact ⟨['K', 'i', 'B'], by decide +kernel, hkib⟩
    · exact ⟨['M', 'i', 'B'], by decide +kernel, hmib⟩
    · exact ⟨['G', 'i', 'B'], by decide +kernel, hgib⟩
  · intro h
    obtain ⟨name, hunit, hname⟩ := h
    simp only [units, List.mem_cons, Prod.mk.injEq, List.not_mem_nil, or_false] at hunit
    rcases hunit with ⟨rfl, rfl⟩ | ⟨rfl, rfl⟩ | ⟨rfl, rfl⟩ | ⟨rfl, rfl⟩ | ⟨rfl, rfl⟩ <;>
      rw [hname] <;> rfl

theorem head_mem_of_units {letter : Char} {name : List Char} {scale : Nat}
    (h : (letter :: name, scale) ∈ units) : letter ∈ ['B', 'K', 'M', 'G'] := by
  simp only [units, List.mem_cons, Prod.mk.injEq, List.cons.injEq, reduceCtorEq, List.not_mem_nil,
    false_and, false_or, or_false] at h
  rcases h with ⟨⟨rfl, -⟩, -⟩ | ⟨⟨rfl, -⟩, -⟩ | ⟨⟨rfl, -⟩, -⟩ | ⟨⟨rfl, -⟩, -⟩ <;> decide

/-- A suffix does not begin with a digit. -/
theorem head_of_units {suffix name : List Char} {scale : Nat} (hunit : (name, scale) ∈ units)
    (h : List.Forall₂ EitherCase suffix name) {c : Char} {rest : List Char}
    (hsuffix : suffix = c :: rest) : c.isDigit = false := by
  subst hsuffix
  cases h with
  | @cons _ letter _ name hc _ =>
    have hletters : ∀ letter ∈ ['B', 'K', 'M', 'G'],
        letter.toLower.isDigit = false ∧ letter.toUpper.isDigit = false := by simp
    obtain ⟨hlower, hupper⟩ := hletters letter (head_mem_of_units hunit)
    rcases hc with rfl | rfl
    · exact hlower
    · exact hupper

theorem scaleSize_eq_ok {value digits suffix : List Char} {n : Nat}
    (hdigits : digits.all Char.isDigit = true) : scaleSize value digits suffix = .ok n ↔
      ∃ name scale, digits ≠ [] ∧ digitsValue digits < 2 ^ 64 ∧ (name, scale) ∈ units ∧
        List.Forall₂ EitherCase suffix name ∧ n = digitsValue digits * scale ∧ n < 2 ^ 64 := by
  simp only [scaleSize, bind_eq_ok, refuse_eq_ok, okOr_eq_ok, multiplier_eq_some,
    checkedMul_eq_some, parseU64_eq_some (head_ne_of_digits hdigits (c := '+') rfl)]
  constructor
  · intro h
    obtain ⟨-, hne, amount, ⟨-, -, rfl, hamount⟩, scale, ⟨name, hunit, hname⟩, hlt, rfl⟩ := h
    exact ⟨name, scale, hne, hamount, hunit, hname, rfl, hlt⟩
  · intro h
    obtain ⟨name, scale, hne, hamount, hunit, hname, rfl, hlt⟩ := h
    exact ⟨(), hne, _, ⟨hne, hdigits, rfl, hamount⟩, scale, ⟨name, hunit, hname⟩, hlt, rfl⟩

/-- Digits and a suffix are found again in the text that they form. -/
theorem takeWhile_digits {digits suffix : List Char} (hdigits : digits.all Char.isDigit = true)
    (hsuffix : ∀ c rest, suffix = c :: rest → c.isDigit = false) :
    (digits ++ suffix).takeWhile Char.isDigit = digits ∧
      (digits ++ suffix).dropWhile Char.isDigit = suffix := by
  have hall := List.all_eq_true.mp hdigits
  rw [List.takeWhile_append_of_pos hall, List.dropWhile_append_of_pos hall]
  cases suffix with
  | nil => exact ⟨List.append_nil _, rfl⟩
  | cons c rest =>
    have hc := hsuffix c rest rfl
    simp [hc]

theorem denotesBytes_iff {text : List Char} {n : Nat} : DenotesBytes text n ↔
    scaleSize text (text.takeWhile Char.isDigit) (text.dropWhile Char.isDigit) = .ok n := by
  have hdigits : (text.takeWhile Char.isDigit).all Char.isDigit = true := by
    rw [List.all_eq_true]
    intro c hc
    exact List.mem_takeWhile_imp hc
  rw [scaleSize_eq_ok hdigits]
  constructor
  · intro h
    obtain ⟨digits, suffix, name, scale, rfl, hne, hall, hamount, hunit, hname, hn, hlt⟩ := h
    obtain ⟨htake, hdrop⟩ := takeWhile_digits hall fun c rest => head_of_units hunit hname
    rw [htake, hdrop]
    exact ⟨name, scale, hne, hamount, hunit, hname, hn, hlt⟩
  · intro h
    obtain ⟨name, scale, hne, hamount, hunit, hname, hn, hlt⟩ := h
    exact ⟨_, _, name, scale, List.takeWhile_append_dropWhile.symm, hne, hdigits, hamount, hunit,
      hname, hn, hlt⟩

/-- The text is always split between two of its characters. -/
theorem run_parseByteSize (value : String) : (parseByteSize value).run = .ok
    (let value := trimMatches isWhiteSpace value.toList
    if value = [] then .error (invalidSize value "value is empty")
    else scaleSize value (value.takeWhile Char.isDigit) (value.dropWhile Char.isDigit)) := by
  unfold parseByteSize
  simp only
  split_ifs with hempty
  · rfl
  · have hsplit := splitAtByte_findByte (!·.isDigit) (trimMatches isWhiteSpace value.toList)
    simp only [Bool.not_not] at hsplit
    rw [hsplit]
    rfl

/-- Every text is accepted or refused, without a panic, and the accepted ones are those that denote
a number of bytes. -/
theorem parseByteSize_exact (value : String) :
    Returns (parseByteSize value) ∧
    ∀ n, (parseByteSize value).run = .ok (.ok n) ↔
      DenotesBytes (trimMatches isWhiteSpace value.toList) n := by
  refine ⟨⟨_, run_parseByteSize value⟩, fun n => ?_⟩
  rw [run_parseByteSize, denotesBytes_iff, Except.ok.injEq]
  simp only
  split_ifs with hempty
  · rw [hempty]
    constructor
    · intro h
      cases h
    · intro h
      cases h
  · rfl

example : (parseByteSize " 2gIb\n").run = .ok (.ok (2 <<< 30)) := by decide +kernel

end Dlir.Runtime
