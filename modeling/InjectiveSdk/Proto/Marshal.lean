import InjectiveSdk.Proto.Wire

namespace InjectiveSdk.Proto
open InjectiveSdk.Go

/-- `TxResponseGenericMessage`: a header string and a data blob. -/
structure TxResponseGenericMessage where
  header : Bytes
  data : Bytes
  deriving DecidableEq, Repr, Inhabited

/-- `TxResponseData`: the messages of a transaction response. The source holds pointers to
them; a nil one is not modelled. -/
structure TxResponseData where
  messages : List TxResponseGenericMessage
  deriving DecidableEq, Repr, Inhabited

/-- `1 + l + sovTxResponse(uint64(l))`: what a length-delimited field of `l` bytes adds to
`Size`. -/
def fieldSize (l : Nat) : Nat := 1 + l + sovTxResponse (toUint64 l)

/-- `TxResponseGenericMessage.Size`. The source adds in `int`; the model adds in `Nat`, which
agrees while the size stays within `maxInt`. -/
def TxResponseGenericMessage.size (m : TxResponseGenericMessage) : Nat :=
  (if m.header.length > 0 then fieldSize m.header.length else 0) +
    (if m.data.length > 0 then fieldSize m.data.length else 0)

def TxResponseData.size (m : TxResponseData) : Nat :=
  (m.messages.map fun e => fieldSize e.size).sum

/-- One `if len(field) > 0` block of `TxResponseGenericMessage.MarshalToSizedBuffer`: the bytes
of the field, then its length and its tag in front of them, written backwards from `i`. -/
def marshalField (tag : UInt8) (field : Bytes) (dAtA : Bytes) (i : Int) :
    Except Panic (Bytes × Int) :=
  if field.length > 0 then do
    let i := i - field.length
    let dAtA ← copyAt dAtA i field
    let (dAtA, i) ← encodeVarintTxResponse dAtA i (toUint64 field.length)
    let i := i - 1
    let dAtA ← setIndex dAtA i tag
    pure (dAtA, i)
  else pure (dAtA, i)

/-- `TxResponseGenericMessage.MarshalToSizedBuffer`: the fields last to first, ending at the end
of `dAtA`; the count written and the buffer. Its error is always nil. -/
def TxResponseGenericMessage.marshalToSizedBuffer (m : TxResponseGenericMessage) (dAtA : Bytes) :
    Except Panic (Int × Bytes) := do
  let (written, i) ← marshalField 0x12 m.data dAtA dAtA.length
  let (written, i) ← marshalField 0x0a m.header written i
  pure (dAtA.length - i, written)

/-- The loop of `TxResponseData.MarshalToSizedBuffer` from the last message to the first, each
marshalled into `dAtA[:i]`, which shares its bytes with `dAtA`. -/
def marshalMessages (dAtA : Bytes) (i : Int) :
    List TxResponseGenericMessage → Except Panic (Bytes × Int)
  | [] => pure (dAtA, i)
  | e :: rest => do
    let (dAtA, i) ← marshalMessages dAtA i rest
    let (size, written) ← e.marshalToSizedBuffer (← sliceTo dAtA i)
    let dAtA := written ++ dAtA.drop i.toNat
    let i := i - size
    let (dAtA, i) ← encodeVarintTxResponse dAtA i (toUint64 size)
    let i := i - 1
    let dAtA ← setIndex dAtA i 0x0a
    pure (dAtA, i)

def TxResponseData.marshalToSizedBuffer (m : TxResponseData) (dAtA : Bytes) :
    Except Panic (Int × Bytes) := do
  let (written, i) ← marshalMessages dAtA dAtA.length m.messages
  pure (dAtA.length - i, written)

/-- `Marshal` of a message of the given `Size` and `MarshalToSizedBuffer`: a buffer of `size`
bytes, filled through `dAtA[:size]`, which is all of it, and cut to the bytes written. -/
def marshalSized (size : Nat) (marshalToSizedBuffer : Bytes → Except Panic (Int × Bytes)) :
    Except Panic Bytes := do
  let dAtA := List.replicate size 0
  let (n, dAtA) ← marshalToSizedBuffer (← sliceTo dAtA size)
  sliceTo dAtA n

/-- `MarshalTo` of a message of the given `Size` into a buffer with no spare capacity: the count
written, and the caller's buffer as `dAtA[:size]` leaves it. -/
def marshalTo (size : Nat) (marshalToSizedBuffer : Bytes → Except Panic (Int × Bytes))
    (dAtA : Bytes) : Except Panic (Int × Bytes) := do
  let (n, written) ← marshalToSizedBuffer (← sliceTo dAtA size)
  pure (n, written ++ dAtA.drop size)

def TxResponseGenericMessage.marshal (m : TxResponseGenericMessage) : Except Panic Bytes :=
  marshalSized m.size m.marshalToSizedBuffer

def TxResponseData.marshal (m : TxResponseData) : Except Panic Bytes :=
  marshalSized m.size m.marshalToSizedBuffer

def TxResponseGenericMessage.marshalTo (m : TxResponseGenericMessage) (dAtA : Bytes) :
    Except Panic (Int × Bytes) :=
  Proto.marshalTo m.size m.marshalToSizedBuffer dAtA

def TxResponseData.marshalTo (m : TxResponseData) (dAtA : Bytes) : Except Panic (Int × Bytes) :=
  Proto.marshalTo m.size m.marshalToSizedBuffer dAtA

end InjectiveSdk.Proto
