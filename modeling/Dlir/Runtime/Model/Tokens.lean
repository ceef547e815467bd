import Dlir.Runtime.Model.Numerics

namespace Dlir.Runtime.Model

open Dlir.Collectives Dlir.Framework

variable {α β : Type}

/-- What a tokenizer file is used for. -/
structure Tokenizer where
  /-- The text of all tokens but the special ones. -/
  decode : List Nat → Except String String
  /-- The text that a stream of decoded tokens gains with the next one. -/
  step : List Nat → Nat → Except String (Option String)

/-- A byte format for messages. -/
structure Codec (β : Type) where
  toVec : β → Except Unit (List UInt8)
  fromSlice : List UInt8 → Except Unit β

/-- Every message is written to some bytes, from which it is read back. -/
structure Codec.Documented (codec : Codec β) : Prop where
  ne_nil : ∀ {message bytes}, codec.toVec message = .ok bytes → bytes ≠ []
  round_trip : ∀ {message bytes}, codec.toVec message = .ok bytes →
    codec.fromSlice bytes = .ok message

/-- The tensor `[[a, b, ..]]` of token IDs. -/
def tokenRow (ids : List Nat) : Except CandleError TokenTensor := do
  let row ← Tensor.fromVec ids [1, ids.length]
  pure ⟨row, true⟩

/-- The only element of a tensor without dimensions. -/
def toScalar (t : Tensor Nat) : Except CandleError Nat :=
  match t.shape, t.data with
  | [], [a] => .ok a
  | shape, _ => .error (.unexpectedNumberOfDims 0 shape)

def toVec1 (t : Tensor Nat) : Except CandleError (List Nat) :=
  if t.shape.length = 1 then .ok t.data else .error (.unexpectedNumberOfDims 1 t.shape)

/-- Removes the first dimension where it is one. -/
def squeeze (t : Tensor α) : Except CandleError (Tensor α) :=
  match t.shape with
  | [] => .error (.dimOutOfRange [] 0)
  | 1 :: rest => t.reshape rest
  | _ => .ok t

/-- The token with the greatest logit; `argmax` looks along the last dimension. -/
def greedyToken (argmax : Tensor α → Except CandleError (Tensor Nat)) (logits : Tensor α) :
    Except CandleError Nat := do
  let logits ← squeeze logits
  let best ← argmax logits
  toScalar best

theorem tokenRow_shape {ids : List Nat} {tokens : TokenTensor} (h : tokenRow ids = .ok tokens) :
    tokens.ids.shape = [1, ids.length] := by
  simp only [tokenRow, bind_eq_ok, pure_eq_ok] at h
  obtain ⟨row, hrow, rfl⟩ := h
  exact (Tensor.fromVec_parts hrow).1

end Dlir.Runtime.Model
