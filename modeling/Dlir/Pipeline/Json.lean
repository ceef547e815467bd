import Dlir.Math.Ascii
import Dlir.Pipeline.Turns

namespace Dlir.Pipeline

open Dlir.Collectives Dlir.Math Dlir.Runtime Dlir.Runtime.Model

section Json

def PipelineDecision.json : PipelineDecision → List Char
  | continueGeneration => "\x7b\"action\":\"continue\"\x7d".toList
  | stop reason => ("\x7b\"action\":\"stop\",\"reason\":\"" ++ reason.display ++ "\"\x7d").toList

def decisions : List PipelineDecision :=
  [.continueGeneration, .stop .eos, .stop .maxNewTokens, .stop .contextLimit]

def tokenStart : List Char := "\x7b\"kind\":\"token\",\"step\":".toList

def tokenIdField : List Char := "\"token_id\":".toList

def decisionStart : List Char := "\x7b\"kind\":\"decision\",\"step\":".toList

def decisionField : List Char := "\"decision\":".toList

/-- A message with its fields in their order and no blanks. -/
def PipelineControl.json : PipelineControl → List Char
  | token step tokenId =>
    tokenStart ++ (Nat.toDigits 10 step ++ ',' :: (tokenIdField ++ (Nat.toDigits 10 tokenId ++ ['\x7d'])))
  | decision step action =>
    decisionStart ++ (Nat.toDigits 10 step ++ ',' :: (decisionField ++ (action.json ++ ['\x7d'])))

/-- Reads a message of that form. -/
def PipelineControl.ofJson (text : List Char) : Option PipelineControl :=
  match strip tokenStart text with
  | some rest => do
    let (step, rest) := number rest
    let rest ← strip (',' :: tokenIdField) rest
    let (tokenId, rest) := number rest
    if rest = ['\x7d'] then some (.token step tokenId) else none
  | none => do
    let rest ← strip decisionStart text
    let (step, rest) := number rest
    let rest ← strip (',' :: decisionField) rest
    (decisions.find? fun action => action.json ++ ['\x7d'] = rest).map (.decision step)

theorem mem_decisions (action : PipelineDecision) : action ∈ decisions := by
  cases action with
  | continueGeneration => decide
  | stop reason =>
    cases reason with
    | eos => decide
    | maxNewTokens => decide
    | contextLimit => decide

theorem find_decision (action : PipelineDecision) :
    (decisions.find? fun d => d.json ++ ['\x7d'] = action.json ++ ['\x7d']) = some action := by
  have hall : ∀ action ∈ decisions,
      (decisions.find? fun d => d.json ++ ['\x7d'] = action.json ++ ['\x7d']) = some action := by
    decide +kernel
  exact hall action (mem_decisions action)

theorem ofJson_json (control : PipelineControl) : PipelineControl.ofJson control.json = some control := by
  cases control with
  | token step tokenId =>
    have hid := strip_append (',' :: tokenIdField) (Nat.toDigits 10 tokenId ++ ['\x7d'])
    have hlast : number (Nat.toDigits 10 tokenId ++ ['\x7d']) = (tokenId, ['\x7d']) :=
      number_toDigits tokenId [] (by decide)
    rw [List.cons_append] at hid
    unfold PipelineControl.json PipelineControl.ofJson
    rw [strip_append]
    simp only [Option.bind_eq_bind, Option.bind_some,
      number_toDigits step _ (show Char.isDigit ',' = false by decide), hid, hlast]
    exact if_pos trivial
  | decision step action =>
    have hother : ¬ tokenStart <+: decisionStart := by decide +kernel
    have hfield := strip_append (',' :: decisionField) (action.json ++ ['\x7d'])
    rw [List.cons_append] at hfield
    unfold PipelineControl.json PipelineControl.ofJson
    rw [strip_eq_none _ (by decide +kernel) hother]
    simp only [strip_append]
    simp only [Option.bind_eq_bind, Option.bind_some,
      number_toDigits step _ (show Char.isDigit ',' = false by decide), hfield]
    rw [find_decision]
    rfl

/-- A codec for these texts. -/
def jsonControls : Codec PipelineControl where
  toVec control := .ok (asciiBytes control.json)
  fromSlice bytes := match PipelineControl.ofJson (asciiText bytes) with
    | some control => .ok control
    | none => .error ()

theorem isAscii_json (control : PipelineControl) : isAscii control.json = true := by
  have htoken : isAscii tokenStart = true := by decide +kernel
  have hid : isAscii (',' :: tokenIdField) = true := by decide +kernel
  have hstart : isAscii decisionStart = true := by decide +kernel
  have hfield : isAscii (',' :: decisionField) = true := by decide +kernel
  have haction : ∀ d ∈ decisions, isAscii d.json = true := by decide +kernel
  have hclose : isAscii ['\x7d'] = true := by decide
  cases control with
  | token step tokenId =>
    rw [PipelineControl.json, ← List.cons_append]
    simp only [isAscii_append, htoken, hid, hclose, isAscii_toDigits, Bool.and_self]
  | decision step action =>
    rw [PipelineControl.json, ← List.cons_append]
    simp only [isAscii_append, hstart, hfield, hclose, isAscii_toDigits,
      haction action (mem_decisions action), Bool.and_self]

theorem jsonControls_documented : jsonControls.Documented where
  ne_nil {control bytes} h := by
    obtain rfl := Except.ok.inj h
    cases control with
    | token step tokenId => exact List.cons_ne_nil _ _
    | decision step action => exact List.cons_ne_nil _ _
  round_trip {control bytes} h := by
    obtain rfl := Except.ok.inj h
    show (match PipelineControl.ofJson (asciiText (asciiBytes control.json)) with
      | some control => Except.ok control
      | none => .error ()) = _
    rw [asciiText_asciiBytes (isAscii_json control), ofJson_json]

theorem jsonControls_compact : Compact jsonControls := by
  have hdigits : ∀ n < 2 ^ 64, (Nat.toDigits 10 n).length ≤ 20 := by
    intro n hn
    refine (Nat.length_toDigits_le_iff (by decide) (by decide)).mpr ?_
    omega
  have htoken : tokenStart.length + tokenIdField.length ≤ 100 := by decide +kernel
  have hdecision : decisionStart.length + decisionField.length ≤ 100 := by decide +kernel
  have haction : ∀ d ∈ decisions, d.json.length ≤ 100 := by decide +kernel
  intro control hrange
  refine ⟨rfl, ?_⟩
  show (asciiBytes control.json).length ≤ 64 * 1024
  rw [asciiBytes, List.length_map]
  cases control with
  | token step tokenId =>
    obtain ⟨hstep, hid⟩ := hrange
    have hsteps := hdigits step (by omega)
    have hids := hdigits tokenId (by omega)
    simp only [PipelineControl.json, List.length_append, List.length_cons, List.length_nil]
    omega
  | decision step action =>
    have hrange' : step < 2 ^ 60 := hrange
    have hsteps := hdigits step (by omega)
    have hactions := haction action (mem_decisions action)
    simp only [PipelineControl.json, List.length_append, List.length_cons, List.length_nil]
    omega

end Json

end Dlir.Pipeline
