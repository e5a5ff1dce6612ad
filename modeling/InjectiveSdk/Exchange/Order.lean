import InjectiveSdk.Go.BigInt

namespace InjectiveSdk.Exchange
open InjectiveSdk.Go

/-- `BaseOrder`, the message form of a 0x signed order. Every field but the chain id is a
string: amounts in decimal, addresses and asset data in hex. -/
structure BaseOrder where
  chainId : Int
  exchangeAddress : Bytes
  makerAddress : Bytes
  takerAddress : Bytes
  feeRecipientAddress : Bytes
  senderAddress : Bytes
  makerAssetAmount : Bytes
  takerAssetAmount : Bytes
  makerFee : Bytes
  takerFee : Bytes
  expirationTimeSeconds : Bytes
  salt : Bytes
  makerAssetData : Bytes
  takerAssetData : Bytes
  makerFeeAssetData : Bytes
  takerFeeAssetData : Bytes
  signature : Bytes
  deriving DecidableEq, Repr, Inhabited

/-- A derivative `Order`: the signed order and the two fields validation writes. -/
structure Order where
  order : BaseOrder
  orderType : UInt64
  indexPriceRequirement : Bytes
  deriving DecidableEq, Repr, Inhabited

/-- The fields of a `DerivativeMarket` the margin engine reads. -/
structure DerivativeMarket where
  initialMarginRatio : Bytes
  indexPrice : Bytes
  deriving DecidableEq, Repr, Inhabited

/-- The registered errors the modelled functions wrap. -/
inductive ErrorCode
  | errInvalidAddress
  | errUnknownRequest
  | errInsufficientOrderQuantity
  | errOrderExpired
  | errOverLeveragedOrder
  | errUnrecognizedOrderType
  deriving DecidableEq, Repr

/-- An error built by `sdkerrors.Wrap` or `Wrapf`: the registered error and its text. -/
structure Error where
  code : ErrorCode
  msg : Bytes
  deriving DecidableEq, Repr

/-- Modelled from the spec: `BigNum.Int` is not in src. An amount's canonical form is a
base-10 decimal string, and a string that does not parse gives nil, never a silent zero. -/
def bigNumInt (s : Bytes) : Option Int := setString s 10

/-- `BigNum(s).Int()` where the code goes on to use the value: a nil `*big.Int` is
dereferenced. -/
def readInt (s : Bytes) : Except Panic Int :=
  match bigNumInt s with
  | some v => .ok v
  | none => .error .nilPointerDereference

/-- `PERMYRIAD_BASE`, which is `BigNum("10000").Int()`. -/
def permyriadBase : Int := 10000

theorem bigNumInt_permyriadBase : bigNumInt (ascii "10000") = some permyriadBase := by decide

/-- `ScalePermyriad`: `amount * permyriad / 10000`, by `big.Int.Div`. The divisor is the
constant base, so it never panics. -/
def scalePermyriad (amount permyriad : Int) : Int := amount * permyriad / permyriadBase

def incrementByScaledPermyriad (amount permyriad : Int) : Int :=
  amount + scalePermyriad amount permyriad

/-- A step of validation: it panics, or returns an error or nil together with the order as
it leaves it. -/
abbrev Checked := Except Panic (Option Error × Order)

/-- `if err != nil { return err }` between two steps of validation. -/
def Checked.andThen (prev : Checked) (next : Order → Checked) : Checked :=
  match prev with
  | .ok (none, order) => next order
  | r => r

def unrecognizedOrderTypeError (o : BaseOrder) : Error :=
  ⟨.errUnrecognizedOrderType, ascii "Cannot recognize MakerFeeAssetData of " ++ o.makerFeeAssetData⟩

/-- `ComputeAndSetOrderType`: the first `HashLength` bytes of the fee asset data, narrowed by
`Uint64`, must be 0 or 5; `[:common.HashLength]` reaches into the capacity. -/
def Order.computeAndSetOrderType (order : Order) : Checked := do
  let typeBytes ← (fromHexSlice order.order.makerFeeAssetData).sliceTo hashLength
  let orderTypeNumber := UInt64.ofNat (bytesToNat typeBytes.bytes)
  if orderTypeNumber ≠ 0 ∧ orderTypeNumber ≠ 5 then
    pure (some (unrecognizedOrderTypeError order.order), order)
  else pure (none, { order with orderType := orderTypeNumber })

def Order.computeContractPriceMarginRequirement (order : Order) (market : DerivativeMarket) :
    Except Panic Int := do
  let price ← readInt order.order.makerAssetAmount
  let quantity ← readInt order.order.takerAssetAmount
  let alphaQuantity := scalePermyriad quantity (← readInt market.initialMarginRatio)
  pure (alphaQuantity * price)

/-- The `num` and `denom` of `ComputeIndexPriceMarginRequirement`. -/
def indexPriceFraction (isLong : Bool) (price quantity margin initialMarginRatio : Int) :
    Int × Int :=
  let pq := price * quantity
  let alphaQuantity := scalePermyriad quantity initialMarginRatio
  if isLong then (margin - pq, alphaQuantity - quantity) else (margin + pq, alphaQuantity + quantity)

/-- `ComputeIndexPriceMarginRequirement`, which also stores the result on the order. -/
def Order.computeIndexPriceMarginRequirement (order : Order) (isLong : Bool)
    (market : DerivativeMarket) : Except Panic (Int × Order) := do
  let price ← readInt order.order.makerAssetAmount
  let quantity ← readInt order.order.takerAssetAmount
  let margin ← readInt order.order.makerFee
  let initialMarginRatio ← readInt market.initialMarginRatio
  let (num, denom) := indexPriceFraction isLong price quantity margin initialMarginRatio
  let indexPriceReq ← bigDiv num denom
  pure (indexPriceReq, { order with indexPriceRequirement := bigIntString indexPriceReq })

def Order.computeOrderMarginHold (o : Order) (remainingQuantity makerTxFeePermyriad : Int) :
    Except Panic Int := do
  let margin ← readInt o.order.makerFee
  let scaledMargin := incrementByScaledPermyriad margin makerTxFeePermyriad
  let originalQuantity ← readInt o.order.takerAssetAmount
  bigDiv (scaledMargin * remainingQuantity) originalQuantity

def orderExpiredError (orderExpirationTime blockTime : Int) : Error :=
  ⟨.errOrderExpired, ascii "order expiration " ++ bigIntString orderExpirationTime ++
    ascii " <= block time " ++ bigIntString blockTime⟩

def contractPriceError (margin requirement : Int) : Error :=
  ⟨.errOverLeveragedOrder, ascii "margin " ++ bigIntString margin ++
    ascii " < contractPriceMarginRequirement " ++ bigIntString requirement⟩

/-- The error of an order past its index-price requirement, long (`<=`) or short (`>=`). -/
def indexPriceError (isLong : Bool) (market : DerivativeMarket) (order : Order) : Error :=
  ⟨.errOverLeveragedOrder, ascii "indexPrice " ++ market.indexPrice ++
    ascii (if isLong then " <= indexPriceReq " else " >= indexPriceReq ") ++
    order.indexPriceRequirement⟩

def Order.checkExpiration (order : Order) (currBlockTime : Int) : Checked := do
  let orderExpirationTime ← readInt order.order.expirationTimeSeconds
  let blockTime := currBlockTime
  if orderExpirationTime ≤ blockTime then
    pure (some (orderExpiredError orderExpirationTime blockTime), order)
  else pure (none, order)

def Order.checkContractPriceMargin (order : Order) (market : DerivativeMarket) : Checked := do
  let margin ← readInt order.order.makerFee
  let contractPriceMarginRequirement ← order.computeContractPriceMarginRequirement market
  if margin < contractPriceMarginRequirement then
    pure (some (contractPriceError margin contractPriceMarginRequirement), order)
  else pure (none, order)

/-- The index-price check of `DoesValidationPass`. -/
def Order.checkIndexPriceMargin (order : Order) (isLong : Bool) (market : DerivativeMarket) :
    Checked := do
  let (indexPriceMarginRequirement, order) ← order.computeIndexPriceMarginRequirement isLong market
  let indexPrice ← readInt market.indexPrice
  if isLong ∧ indexPrice < indexPriceMarginRequirement then
    pure (some (indexPriceError true market order), order)
  else if !isLong ∧ indexPrice > indexPriceMarginRequirement then
    pure (some (indexPriceError false market order), order)
  else pure (none, order)

/-- `DoesValidationPass`: its four checks in order, stopping at the first error. -/
def Order.doesValidationPass (order : Order) (isLong : Bool) (market : DerivativeMarket)
    (currBlockTime : Int) : Checked :=
  ((order.computeAndSetOrderType.andThen (·.checkExpiration currBlockTime)).andThen
    (·.checkContractPriceMargin market)).andThen (·.checkIndexPriceMargin isLong market)

@[simp] theorem Checked.andThen_none (o : Order) (next : Order → Checked) :
    Checked.andThen (.ok (none, o)) next = next o := rfl

@[simp] theorem Checked.andThen_some (e : Error) (o : Order) (next : Order → Checked) :
    Checked.andThen (.ok (some e, o)) next = .ok (some e, o) := rfl

@[simp] theorem Checked.andThen_error (p : Panic) (next : Order → Checked) :
    Checked.andThen (.error p) next = .error p := rfl

theorem readInt_of_eq {s : Bytes} {v : Int} (h : bigNumInt s = some v) : readInt s = .ok v := by
  simp [readInt, h]

/-- The integers the margin engine reads from an order and its market. -/
structure Amounts where
  price : Int
  quantity : Int
  margin : Int
  expiration : Int
  initialMarginRatio : Int
  indexPrice : Int

/-- Every amount the engine reads parses, to the value `a` records. -/
structure Amounts.Read (a : Amounts) (o : BaseOrder) (market : DerivativeMarket) : Prop where
  price : bigNumInt o.makerAssetAmount = some a.price
  quantity : bigNumInt o.takerAssetAmount = some a.quantity
  margin : bigNumInt o.makerFee = some a.margin
  expiration : bigNumInt o.expirationTimeSeconds = some a.expiration
  initialMarginRatio : bigNumInt market.initialMarginRatio = some a.initialMarginRatio
  indexPrice : bigNumInt market.indexPrice = some a.indexPrice

instance (a : Amounts) (o : BaseOrder) (market : DerivativeMarket) : Decidable (a.Read o market) :=
  decidable_of_iff (bigNumInt o.makerAssetAmount = some a.price ∧
      bigNumInt o.takerAssetAmount = some a.quantity ∧ bigNumInt o.makerFee = some a.margin ∧
      bigNumInt o.expirationTimeSeconds = some a.expiration ∧
      bigNumInt market.initialMarginRatio = some a.initialMarginRatio ∧
      bigNumInt market.indexPrice = some a.indexPrice)
    ⟨fun ⟨h1, h2, h3, h4, h5, h6⟩ => ⟨h1, h2, h3, h4, h5, h6⟩,
      fun h => ⟨h.1, h.2, h.3, h.4, h.5, h.6⟩⟩

def Amounts.contractRequirement (a : Amounts) : Int :=
  scalePermyriad a.quantity a.initialMarginRatio * a.price

def Amounts.fraction (a : Amounts) (isLong : Bool) : Int × Int :=
  indexPriceFraction isLong a.price a.quantity a.margin a.initialMarginRatio

/-- The number `ComputeAndSetOrderType` reads from fee asset data whose decoded slice has a
capacity of at least `HashLength` bytes. -/
def orderTypeNumber (o : BaseOrder) : UInt64 :=
  UInt64.ofNat (bytesToNat ((fromHexSlice o.makerFeeAssetData).array.take hashLength))

section Steps

variable {a : Amounts} {market : DerivativeMarket} (o : Order)

theorem computeAndSetOrderType_eq (hf : hashLength ≤ (fromHexSlice o.order.makerFeeAssetData).cap) :
    o.computeAndSetOrderType =
      .ok (if orderTypeNumber o.order ≠ 0 ∧ orderTypeNumber o.order ≠ 5
        then (some (unrecognizedOrderTypeError o.order), o)
        else (none, { o with orderType := orderTypeNumber o.order })) := by
  obtain ⟨t, hs, ht⟩ := GoSlice.sliceTo_of_le hf
  simp only [Order.computeAndSetOrderType, hs, ht, ok_bind, orderTypeNumber]
  split_ifs <;> rfl

theorem computeAndSetOrderType_short
    {o : Order} (hf : (fromHexSlice o.order.makerFeeAssetData).cap < hashLength) :
    o.computeAndSetOrderType = .error (.sliceBoundsOutOfRange 0 hashLength
      (fromHexSlice o.order.makerFeeAssetData).cap) := by
  simp only [Order.computeAndSetOrderType, GoSlice.sliceTo_of_lt hf, error_bind]

theorem checkExpiration_eq (h : a.Read o.order market) (t : Int) :
    o.checkExpiration t =
      .ok (if a.expiration ≤ t then some (orderExpiredError a.expiration t) else none, o) := by
  simp only [Order.checkExpiration, readInt_of_eq h.expiration, ok_bind]
  split_ifs <;> rfl

theorem computeContractPriceMarginRequirement_eq (h : a.Read o.order market) :
    o.computeContractPriceMarginRequirement market = .ok a.contractRequirement := by
  simp [Order.computeContractPriceMarginRequirement, readInt_of_eq h.price,
    readInt_of_eq h.quantity, readInt_of_eq h.initialMarginRatio, Amounts.contractRequirement]

theorem checkContractPriceMargin_eq (h : a.Read o.order market) :
    o.checkContractPriceMargin market =
      .ok (if a.margin < a.contractRequirement
        then some (contractPriceError a.margin a.contractRequirement) else none, o) := by
  simp only [Order.checkContractPriceMargin, readInt_of_eq h.margin,
    computeContractPriceMarginRequirement_eq o h, ok_bind]
  split_ifs <;> rfl

theorem computeIndexPriceMarginRequirement_eq (h : a.Read o.order market) (isLong : Bool) :
    o.computeIndexPriceMarginRequirement isLong market =
      (fun q => (q, { o with indexPriceRequirement := bigIntString q })) <$>
        bigDiv (a.fraction isLong).1 (a.fraction isLong).2 := by
  simp only [Order.computeIndexPriceMarginRequirement, readInt_of_eq h.price,
    readInt_of_eq h.quantity, readInt_of_eq h.margin, readInt_of_eq h.initialMarginRatio,
    Amounts.fraction, ok_bind]
  cases bigDiv _ _ <;> rfl

theorem computeOrderMarginHold_eq {margin quantity : Int}
    (hm : bigNumInt o.order.makerFee = some margin)
    (hq : bigNumInt o.order.takerAssetAmount = some quantity) (r f : Int) :
    o.computeOrderMarginHold r f = bigDiv (incrementByScaledPermyriad margin f * r) quantity := by
  simp [Order.computeOrderMarginHold, readInt_of_eq hm, readInt_of_eq hq]

theorem checkIndexPriceMargin_eq (h : a.Read o.order market) (isLong : Bool) :
    o.checkIndexPriceMargin isLong market =
      (fun q =>
        let o' := { o with indexPriceRequirement := bigIntString q }
        (if isLong ∧ a.indexPrice < q then some (indexPriceError true market o')
          else if !isLong ∧ a.indexPrice > q then some (indexPriceError false market o')
          else none, o')) <$>
        bigDiv (a.fraction isLong).1 (a.fraction isLong).2 := by
  simp only [Order.checkIndexPriceMargin, computeIndexPriceMarginRequirement_eq o h,
    readInt_of_eq h.indexPrice]
  cases bigDiv _ _ with
  | error p => rfl
  | ok q =>
    simp only [Except.map_ok, ok_bind]
    split_ifs <;> rfl

end Steps

end InjectiveSdk.Exchange
