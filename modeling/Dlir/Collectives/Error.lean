namespace Dlir.Collectives

/-- Failure of a Candle tensor operation. -/
inductive CandleError
  | shapeMismatch (expected : List Nat) (actual : List Nat)
  | dimOutOfRange (shape : List Nat) (dim : Nat)
  | narrowInvalidArgs (shape : List Nat) (dim start len : Nat)
  | unexpectedNumberOfDims (expected : Nat) (shape : List Nat)
  | opRequiresAtLeastOneTensor
  | indexOutOfRange (index size : Nat)
  deriving DecidableEq, Repr

/-- Failure detected at a point-to-point communication boundary. -/
inductive CollectivesError
  | invalidWorldSize
  | invalidRank (rank worldSize : Nat)
  | invalidPeer (rank peer worldSize : Nat)
  | selfSend (rank : Nat)
  | shapeOverflow (shape : List Nat)
  | elementCountMismatch (shape : List Nat) (expected actual : Nat)
  | receiveTimeout (rank sourceRank : Nat) (tag : UInt64)
  | barrierTimeout (rank generation : Nat)
  | barrierBroken (rank generation : Nat)
  | io (context : String)
  | protocol (message : String)
  | rendezvous (message : String)
  | collective (message : String)
  | tensor (error : CandleError)
  deriving DecidableEq, Repr

end Dlir.Collectives
