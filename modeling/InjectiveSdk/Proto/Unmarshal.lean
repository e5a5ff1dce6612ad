import InjectiveSdk.Proto.Marshal

namespace InjectiveSdk.Proto
open InjectiveSdk.Go

/-- The `switch wireType` of `skipTxResponse`: the index after the field's value, and the
groups left open. -/
def skipWireType (dAtA : Bytes) (wireType : Nat) (iNdEx : Int) (depth : Nat) :
    Decode (Int × Nat) :=
  match wireType with
  | 0 => do pure (← skipVarintLoop dAtA 0 iNdEx, depth)
  | 1 => pure (addInt iNdEx 8, depth)
  | 2 => do
    let (length, iNdEx) ← readVarint dAtA iNdEx
    let length := toInt length
    if length < 0 then throw (.fail .invalidLength)
    else pure (addInt iNdEx length, depth)
  | 3 => pure (iNdEx, depth + 1)
  | 4 => if depth = 0 then throw (.fail .unexpectedEndOfGroup) else pure (iNdEx, depth - 1)
  | 5 => pure (addInt iNdEx 4, depth)
  | _ => throw (.fail (.illegalWireType wireType))

/-- The loop of `skipTxResponse`: one field per pass, `depth` the groups left open. Each pass reads
a byte, so `fuel` beyond the length is never needed; the source's `int` depth stays small. -/
def skipLoop (dAtA : Bytes) : Nat → Int → Nat → Decode Int
  | 0, _, _ => .error .outOfFuel
  | fuel + 1, iNdEx, depth =>
    if iNdEx < dAtA.length then do
      let (wire, iNdEx) ← readVarint dAtA iNdEx
      let (iNdEx, depth) ← skipWireType dAtA (wire &&& 0x7).toNat iNdEx depth
      if iNdEx < 0 then throw (.fail .invalidLength)
      else if depth = 0 then pure iNdEx
      else skipLoop dAtA fuel iNdEx depth
    else .error (.fail .unexpectedEOF)

/-- `skipTxResponse`: the length of the field at the start of `dAtA`. -/
def skipTxResponse (dAtA : Bytes) : Decode Int := skipLoop dAtA (dAtA.length + 1) 0 0

/-- The start of each pass of the `Unmarshal` loops: the tag varint, its `fieldNum` (an
`int32`) and `wireType`, and the checks on them; `message` names the message in the errors. -/
def readTag (message : Bytes) (dAtA : Bytes) (iNdEx : Int) : Decode (Int × Nat × Int) := do
  let (wire, iNdEx) ← readVarint dAtA iNdEx
  let fieldNum := toInt32 (wire >>> 3)
  let wireType := (wire &&& 0x7).toNat
  if wireType = 4 then throw (.fail (.endGroupForNonGroup message))
  else if fieldNum ≤ 0 then throw (.fail (.illegalTag message fieldNum wire))
  else pure (fieldNum, wireType, iNdEx)

/-- The length of a length-delimited field, read as an `int`, and its checks: where the field's
bytes start and end. -/
def readLength (dAtA : Bytes) (iNdEx : Int) : Decode (Int × Int) := do
  let (length, iNdEx) ← readVarint dAtA iNdEx
  let length := toInt length
  if length < 0 then throw (.fail .invalidLength) else
  let postIndex := addInt iNdEx length
  if postIndex < 0 then throw (.fail .invalidLength)
  else if dAtA.length < postIndex then throw (.fail .unexpectedEOF)
  else pure (iNdEx, postIndex)

/-- A `case` of the `Unmarshal`s for a length-delimited field: the wire type check (`name` is
the field's in the error), the length, and `dAtA[iNdEx:postIndex]`, with the index after it. -/
def readBytesField (name : Bytes) (dAtA : Bytes) (wireType : Nat) (iNdEx : Int) :
    Decode (Int × Bytes) := do
  if wireType ≠ 2 then throw (.fail (.wrongWireType wireType name)) else
  let (iNdEx, postIndex) ← readLength dAtA iNdEx
  let value ← liftPanic (slice dAtA iNdEx postIndex)
  pure (postIndex, value)

/-- The `default` case of the `Unmarshal`s: `skipTxResponse(dAtA[iNdEx:])` from the field's
tag at `preIndex`, and the checks on what it returns. -/
def skipField (dAtA : Bytes) (preIndex : Int) : Decode Int := do
  let iNdEx := preIndex
  let skippy ← skipTxResponse (← liftPanic (sliceFrom dAtA iNdEx))
  if skippy < 0 ∨ addInt iNdEx skippy < 0 then throw (.fail .invalidLength)
  else if dAtA.length < addInt iNdEx skippy then throw (.fail .unexpectedEOF)
  else pure (addInt iNdEx skippy)

/-- The loop both `Unmarshal`s run and the check after it; `field` is the message's `switch
fieldNum`, `none` for `default`. Each pass reads a tag, so `fuel` beyond the length is enough. -/
def unmarshalLoop {σ : Type} (message : Bytes)
    (field : Bytes → Int → Nat → Int → σ → Option (Decode (Int × σ))) (dAtA : Bytes) :
    Nat → Int → σ → Decode σ
  | 0, _, _ => .error .outOfFuel
  | fuel + 1, iNdEx, m =>
    if iNdEx < dAtA.length then do
      let preIndex := iNdEx
      let (fieldNum, wireType, iNdEx) ← readTag message dAtA iNdEx
      let (iNdEx, m) ← match field dAtA fieldNum wireType iNdEx m with
        | some read => read
        | none => do pure (← skipField dAtA preIndex, m)
      unmarshalLoop message field dAtA fuel iNdEx m
    else if dAtA.length < iNdEx then .error (.fail .unexpectedEOF)
    else pure m

def TxResponseGenericMessage.unmarshalField (dAtA : Bytes) (fieldNum : Int) (wireType : Nat)
    (iNdEx : Int) (m : TxResponseGenericMessage) :
    Option (Decode (Int × TxResponseGenericMessage)) :=
  match fieldNum with
  | 1 => some do
    let (iNdEx, header) ← readBytesField (ascii "Header") dAtA wireType iNdEx
    pure (iNdEx, { m with header })
  | 2 => some do
    let (iNdEx, data) ← readBytesField (ascii "Data") dAtA wireType iNdEx
    pure (iNdEx, { m with data })
  | _ => none

/-- `TxResponseGenericMessage.Unmarshal`, which sets the fields of `m` it reads. -/
def TxResponseGenericMessage.unmarshal (m : TxResponseGenericMessage) (dAtA : Bytes) :
    Decode TxResponseGenericMessage :=
  unmarshalLoop (ascii "TxResponseGenericMessage") TxResponseGenericMessage.unmarshalField dAtA
    (dAtA.length + 1) 0 m

def TxResponseData.unmarshalField (dAtA : Bytes) (fieldNum : Int) (wireType : Nat) (iNdEx : Int)
    (m : TxResponseData) : Option (Decode (Int × TxResponseData)) :=
  match fieldNum with
  | 1 => some do
    let (iNdEx, msg) ← readBytesField (ascii "Messages") dAtA wireType iNdEx
    let e ← TxResponseGenericMessage.unmarshal default msg
    pure (iNdEx, { messages := m.messages ++ [e] })
  | _ => none

/-- `TxResponseData.Unmarshal`, which appends the messages it reads to `m`. -/
def TxResponseData.unmarshal (m : TxResponseData) (dAtA : Bytes) : Decode TxResponseData :=
  unmarshalLoop (ascii "TxResponseData") TxResponseData.unmarshalField dAtA (dAtA.length + 1) 0 m

end InjectiveSdk.Proto
