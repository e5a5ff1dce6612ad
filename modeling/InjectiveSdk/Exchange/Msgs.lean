import Mathlib.Data.List.Forall2
import Mathlib.Tactic.IntervalCases
import InjectiveSdk.Exchange.Margin

namespace InjectiveSdk.Exchange
open InjectiveSdk.Go

/-- `zeroex.SignatureType`: the scheme tags of 0x v3, in their `iota` order. -/
inductive SignatureType
  | illegalSignature
  | invalidSignature
  | eip712Signature
  | ethSignSignature
  | walletSignature
  | validatorSignature
  | preSignedSignature
  | eip1271WalletSignature
  deriving DecidableEq, Repr

/-- The scheme a tag byte names; `none` from `NSignatureTypes` on. -/
def SignatureType.ofTag (b : UInt8) : Option SignatureType :=
  [illegalSignature, invalidSignature, eip712Signature, ethSignSignature, walletSignature,
    validatorSignature, preSignedSignature, eip1271WalletSignature][b.toNat]?

/-- `isValidSignature`: the last byte of the decoded signature is its scheme tag. An empty
signature has no last byte, and `signature[len(signature)-1]` is an index out of range. -/
def isValidSignature (sig : Bytes) : Except Panic Bool := do
  let signature := fromHex sig
  let signatureType ← index signature (signature.length - 1 : Int)
  pure <| match SignatureType.ofTag signatureType with
    | some .invalidSignature | some .illegalSignature => false
    | some .eip712Signature => signature.length == 66
    | some .ethSignSignature => signature.length == 66
    | some .validatorSignature => !decide (signature.length < 21)
    | some .preSignedSignature | some .walletSignature | some .eip1271WalletSignature => true
    | none => false

/-- `zeroex.SignedOrder`: amounts as integers, addresses and asset data decoded from hex. -/
structure SignedOrder where
  chainID : Int
  exchangeAddress : Address
  makerAddress : Address
  takerAddress : Address
  senderAddress : Address
  feeRecipientAddress : Address
  makerAssetData : Bytes
  makerFeeAssetData : Bytes
  takerAssetData : Bytes
  takerFeeAssetData : Bytes
  makerAssetAmount : Int
  makerFee : Int
  takerAssetAmount : Int
  takerFee : Int
  expirationTimeSeconds : Int
  salt : Int
  signature : Bytes
  deriving DecidableEq

/-- One amount of `so2zo`: `math.ParseBig256` of the field, or the field's failure text. -/
def parseAmount (s msg : Bytes) : Except Bytes Int :=
  match parseBig256 s with
  | some v => .ok v
  | none => .error msg

/-- `so2zo` of a non-nil order. -/
def so2zo (o : BaseOrder) : Except Bytes SignedOrder := do
  let makerAssetAmount ← parseAmount o.makerAssetAmount (ascii "makerAssetAmmount parse failed")
  let makerFee ← parseAmount o.makerFee (ascii "makerFee parse failed")
  let takerAssetAmount ← parseAmount o.takerAssetAmount (ascii "takerAssetAmmount parse failed")
  let takerFee ← parseAmount o.takerFee (ascii "takerFee parse failed")
  let expirationTimeSeconds ←
    parseAmount o.expirationTimeSeconds (ascii "expirationTimeSeconds parse failed")
  let salt ← parseAmount o.salt (ascii "salt parse failed")
  pure {
    chainID := o.chainId
    exchangeAddress := hexToAddress o.exchangeAddress
    makerAddress := hexToAddress o.makerAddress
    takerAddress := hexToAddress o.takerAddress
    senderAddress := hexToAddress o.senderAddress
    feeRecipientAddress := hexToAddress o.feeRecipientAddress
    makerAssetData := fromHex o.makerAssetData
    makerFeeAssetData := fromHex o.makerFeeAssetData
    takerAssetData := fromHex o.takerAssetData
    takerFeeAssetData := fromHex o.takerFeeAssetData
    makerAssetAmount, makerFee, takerAssetAmount, takerFee, expirationTimeSeconds, salt
    signature := fromHex o.signature }

/-- `ToSignedOrder`: an error of `so2zo` is a panic. -/
def BaseOrder.toSignedOrder (m : BaseOrder) : Except Panic SignedOrder :=
  match so2zo m with
  | .ok o => .ok o
  | .error err => .error (.value err)

/-- `SafeSignedOrder`, the order in primitive types for messages: the chain id as an `int64`,
each amount as the decimal string of a `BigNum`. -/
structure SafeSignedOrder where
  chainID : Int
  exchangeAddress : Address
  makerAddress : Address
  takerAddress : Address
  feeRecipientAddress : Address
  senderAddress : Address
  makerAssetAmount : Bytes
  takerAssetAmount : Bytes
  makerFee : Bytes
  takerFee : Bytes
  expirationTimeSeconds : Bytes
  salt : Bytes
  makerAssetData : Bytes
  takerAssetData : Bytes
  makerFeeAssetData : Bytes
  takerFeeAssetData : Bytes
  signature : Bytes
  deriving DecidableEq

/-- `zo2so` of a non-nil order. -/
def zo2so (o : SignedOrder) : SafeSignedOrder where
  chainID := bigInt64 o.chainID
  exchangeAddress := o.exchangeAddress
  makerAddress := o.makerAddress
  takerAddress := o.takerAddress
  feeRecipientAddress := o.feeRecipientAddress
  senderAddress := o.senderAddress
  makerAssetAmount := bigIntString o.makerAssetAmount
  takerAssetAmount := bigIntString o.takerAssetAmount
  makerFee := bigIntString o.makerFee
  takerFee := bigIntString o.takerFee
  expirationTimeSeconds := bigIntString o.expirationTimeSeconds
  salt := bigIntString o.salt
  makerAssetData := o.makerAssetData
  takerAssetData := o.takerAssetData
  makerFeeAssetData := o.makerFeeAssetData
  takerFeeAssetData := o.takerFeeAssetData
  signature := o.signature

def newSafeSignedOrder (o : SignedOrder) : SafeSignedOrder := zo2so o

structure MsgCreateDerivativeOrder where
  sender : Bytes
  order : Option BaseOrder
  deriving DecidableEq

structure MsgCreateSpotOrder where
  sender : Bytes
  order : Option BaseOrder
  deriving DecidableEq

/-- The `else if` chain of both order messages' `ValidateBasic`; `last` is what its final branch
gives. `ComputeOrderHash` is not in src and is a parameter. -/
def validateOrderMsg (computeOrderHash : SignedOrder → Except Bytes Hash) (sender : Bytes)
    (order : Option BaseOrder) (last : Option Error) : Except Panic (Option Error) := do
  if sender = [] then return some ⟨.errInvalidAddress, sender⟩
  match order with
  | none => return some ⟨.errUnknownRequest, ascii "no make order specified"⟩
  | some o =>
    match computeOrderHash (← o.toSignedOrder) with
    | .error err => return some ⟨.errUnknownRequest, ascii "hash check failed: " ++ err⟩
    | .ok _ =>
      if !(← isValidSignature o.signature) then
        return some ⟨.errUnknownRequest, ascii "invalid signature"⟩
      return last

def MsgCreateDerivativeOrder.validateBasic (computeOrderHash : SignedOrder → Except Bytes Hash)
    (msg : MsgCreateDerivativeOrder) : Except Panic (Option Error) :=
  validateOrderMsg computeOrderHash msg.sender msg.order none

/-- `MsgCreateSpotOrder.ValidateBasic`. The quantity is read before the nil check; the getter of
a nil order gives the empty string. -/
def MsgCreateSpotOrder.validateBasic (computeOrderHash : SignedOrder → Except Bytes Hash)
    (msg : MsgCreateSpotOrder) : Except Panic (Option Error) :=
  let quantity := bigNumInt ((msg.order.map BaseOrder.takerAssetAmount).getD [])
  let insufficient := match quantity with
    | none => true
    | some q => decide (q ≤ 0)
  validateOrderMsg computeOrderHash msg.sender msg.order
    (if insufficient then some ⟨.errInsufficientOrderQuantity, ascii "insufficient quantity"⟩
      else none)

def amountFields (o : BaseOrder) : List (Bytes × Bytes) :=
  [(o.makerAssetAmount, ascii "makerAssetAmmount parse failed"),
    (o.makerFee, ascii "makerFee parse failed"),
    (o.takerAssetAmount, ascii "takerAssetAmmount parse failed"),
    (o.takerFee, ascii "takerFee parse failed"),
    (o.expirationTimeSeconds, ascii "expirationTimeSeconds parse failed"),
    (o.salt, ascii "salt parse failed")]

/-- The failure text of the first amount of `o` that `math.ParseBig256` refuses. -/
def firstUnparsedAmount (o : BaseOrder) : Option Bytes :=
  ((amountFields o).find? (fun x => parseBig256 x.1 = none)).map Prod.snd

/-- The six amounts of a signed order, in the order of its fields. -/
def SignedOrder.amounts (o : SignedOrder) : List Int :=
  [o.makerAssetAmount, o.takerAssetAmount, o.makerFee, o.takerFee, o.expirationTimeSeconds, o.salt]

def BaseOrder.amounts (o : BaseOrder) : List Bytes :=
  [o.makerAssetAmount, o.takerAssetAmount, o.makerFee, o.takerFee, o.expirationTimeSeconds, o.salt]

def SafeSignedOrder.amounts (o : SafeSignedOrder) : List Bytes :=
  [o.makerAssetAmount, o.takerAssetAmount, o.makerFee, o.takerFee, o.expirationTimeSeconds, o.salt]

/-- A signature whose last decoded byte tags a 0x v3 scheme that takes its length: EIP-712 (2) and
EthSign (3) at 66 bytes, Validator (5) at 21 or more, Wallet (4), PreSigned (6), EIP-1271 (7). -/
def TaggedSignature (sig : Bytes) : Prop :=
  ∃ s b, fromHex sig = s ++ [b] ∧
    ((b.toNat = 2 ∨ b.toNat = 3) ∧ s.length = 65 ∨ b.toNat = 5 ∧ 20 ≤ s.length ∨
      b.toNat = 4 ∨ b.toNat = 6 ∨ b.toNat = 7)

/-- The checks both order messages make before their last branch pass: a sender, an order whose
signed form hashes, and a tagged signature. -/
def OrderChecksPass (computeOrderHash : SignedOrder → Except Bytes Hash) (sender : Bytes)
    (order : Option BaseOrder) : Prop :=
  sender ≠ [] ∧ ∃ o so hash, order = some o ∧ so2zo o = .ok so ∧ computeOrderHash so = .ok hash ∧
    TaggedSignature o.signature

/-- A panic of the order messages' checks: `ToSignedOrder` with the text of the first amount that
does not parse, or `isValidSignature` on a hashed order whose signature has no bytes. -/
def OrderMsgPanic (computeOrderHash : SignedOrder → Except Bytes Hash) (sender : Bytes)
    (order : Option BaseOrder) (p : Panic) : Prop :=
  sender ≠ [] ∧ ∃ o, order = some o ∧
    ((∃ e, firstUnparsedAmount o = some e ∧ p = .value e) ∨
      ∃ so hash, so2zo o = .ok so ∧ computeOrderHash so = .ok hash ∧ fromHex o.signature = [] ∧
        p = .indexOutOfRange (-1) 0)

section Lemmas
variable {sig : Bytes} {o : BaseOrder}

theorem isValidSignature_of_nil (h : fromHex sig = []) :
    isValidSignature sig = .error (.indexOutOfRange (-1) 0) := by
  simp [isValidSignature, h, index]

theorem isValidSignature_of_ne_nil (h : fromHex sig ≠ []) : ∃ b, isValidSignature sig = .ok b := by
  obtain ⟨t, ht⟩ := index_of_lt (b := fromHex sig) (i := (fromHex sig).length - 1)
    (by have := List.length_pos.mpr h; omega) (by omega)
  exact ⟨_, by simp only [isValidSignature, ht, ok_bind]; rfl⟩

theorem isValidSignature_eq_ok_true_iff : isValidSignature sig = .ok true ↔ TaggedSignature sig := by
  unfold TaggedSignature
  rcases List.eq_nil_or_concat (fromHex sig) with h | ⟨s, b, h⟩
  · simp [isValidSignature_of_nil h, h]
  rw [List.concat_eq_append] at h
  have hi : index (s ++ [b]) ((s ++ [b]).length - 1 : Int) = .ok b := by simp
  have hex : ∀ P : Bytes → UInt8 → Prop, (∃ s' b', s ++ [b] = s' ++ [b'] ∧ P s' b') ↔ P s b :=
    fun P => ⟨fun ⟨s', b', e, hp⟩ => by
      obtain ⟨rfl, e₁⟩ := List.append_inj' e rfl
      obtain rfl := List.singleton_inj.mp e₁
      exact hp, fun hp => ⟨s, b, rfl, hp⟩⟩
  rw [h, hex, isValidSignature, h, hi, ok_bind, SignatureType.ofTag]
  generalize b.toNat = n
  rcases Nat.lt_or_ge n 8 with hlt | hge
  · interval_cases n <;> simp [pure, Except.pure]
  · rw [List.getElem?_eq_none (by simpa using hge)]
    simp only [pure, Except.pure, Except.ok.injEq, Bool.false_eq_true, false_iff]
    omega

theorem parseAmount_bind_eq_error {s msg e : Bytes} {f : Int → Except Bytes SignedOrder} :
    (parseAmount s msg >>= f) = .error e ↔
      parseBig256 s = none ∧ msg = e ∨ ∃ v, parseBig256 s = some v ∧ f v = .error e := by
  unfold parseAmount
  split <;> simp_all [bind, Except.bind]

theorem so2zo_eq_error_iff {e : Bytes} : so2zo o = .error e ↔ firstUnparsedAmount o = some e := by
  simp only [so2zo, firstUnparsedAmount, amountFields, parseAmount_bind_eq_error, List.find?_cons]
  rcases parseBig256 o.makerAssetAmount with _ | _ <;> simp
  rcases parseBig256 o.makerFee with _ | _ <;> simp
  rcases parseBig256 o.takerAssetAmount with _ | _ <;> simp
  rcases parseBig256 o.takerFee with _ | _ <;> simp
  rcases parseBig256 o.expirationTimeSeconds with _ | _ <;> simp
  rcases parseBig256 o.salt with _ | _ <;> simp [pure, Except.pure]

theorem parseAmount_eq_ok {s msg : Bytes} {v : Int} :
    parseAmount s msg = .ok v ↔ parseBig256 s = some v := by
  unfold parseAmount
  split <;> simp_all

theorem so2zo_eq_ok {so : SignedOrder} (h : so2zo o = .ok so) :
    List.Forall₂ (fun s v => parseBig256 s = some v) o.amounts so.amounts := by
  simp only [so2zo, bind_eq_ok, parseAmount_eq_ok, pure_eq_ok, Except.ok.injEq] at h
  obtain ⟨_, h1, _, h2, _, h3, _, h4, _, h5, _, h6, rfl⟩ := h
  simp [BaseOrder.amounts, SignedOrder.amounts, *]

end Lemmas

/-- `NewSafeSignedOrder` loses no amount `BigNum.Int` reads, and those of at most 256 bits for
`math.ParseBig256`; the chain id survives `Int64` exactly when it fits. -/
theorem newSafeSignedOrder_reads_back (o : SignedOrder) :
    (newSafeSignedOrder o).amounts.map bigNumInt = o.amounts.map some ∧
      (newSafeSignedOrder o).amounts.map parseBig256 =
        o.amounts.map (fun x => if x.natAbs < 2 ^ 256 then some x else none) ∧
      ((newSafeSignedOrder o).chainID = o.chainID ↔ -2 ^ 63 ≤ o.chainID ∧ o.chainID < 2 ^ 63) := by
  simp only [newSafeSignedOrder, zo2so, SafeSignedOrder.amounts, SignedOrder.amounts, List.map,
    bigNumInt, setString_bigIntString, parseBig256_bigIntString, bigInt64_eq_iff, and_self]

/-- The engine's `BigNum(s).Int()` reads every amount `so2zo` accepts as `so2zo` does, but for the
empty string and hexadecimal, where it gives nil. -/
theorem so2zo_amounts_engine_reads {o : BaseOrder} {so : SignedOrder} (h : so2zo o = .ok so) :
    List.Forall₂ (fun s v => readInt s =
        if s = [] ∨ hasHexPrefix s then .error .nilPointerDereference else .ok v)
      o.amounts so.amounts :=
  (so2zo_eq_ok h).imp fun s v hv => by
    unfold readInt bigNumInt
    rw [setString_of_parseBig256 hv]
    split_ifs <;> rfl

theorem bigNumInt_of_parseBig256 {s : Bytes} {v : Int} (h : parseBig256 s = some v)
    (hs : s ≠ [] ∧ hasHexPrefix s = false) : bigNumInt s = some v := by
  rw [bigNumInt, setString_of_parseBig256 h, if_neg (by simp [hs.1, hs.2])]

def hexAmountOrder : BaseOrder :=
  { (default : BaseOrder) with makerAssetAmount := ascii "0x64" }

theorem hex_amount_engine_reads : ∃ so, so2zo hexAmountOrder = .ok so ∧
    List.Forall₂ (fun s v => readInt s =
        if s = [] ∨ hasHexPrefix s then .error .nilPointerDereference else .ok v)
      hexAmountOrder.amounts so.amounts := by
  obtain ⟨so, h⟩ : ∃ so, so2zo hexAmountOrder = .ok so := ⟨_, rfl⟩
  exact ⟨so, h, so2zo_amounts_engine_reads h⟩

section Validate
variable {computeOrderHash : SignedOrder → Except Bytes Hash} {sender : Bytes}
  {order : Option BaseOrder} {last : Option Error}

theorem validateOrderMsg_eq_error_iff {p : Panic} :
    validateOrderMsg computeOrderHash sender order last = .error p ↔
      sender ≠ [] ∧ ∃ o, order = some o ∧
        ((∃ e, so2zo o = .error e ∧ p = .value e) ∨
          ∃ so hash, so2zo o = .ok so ∧ computeOrderHash so = .ok hash ∧
            fromHex o.signature = [] ∧ p = .indexOutOfRange (-1) 0) := by
  unfold validateOrderMsg
  by_cases hs : sender = []
  · simp only [hs, if_true, ne_eq, not_true_eq_false, false_and, iff_false]
    exact nofun
  cases order with
  | none =>
    simp only [hs, if_false, ne_eq, reduceCtorEq, false_and, exists_false, and_false, iff_false]
    exact nofun
  | some o =>
    simp only [hs, if_false, ne_eq, not_false_eq_true, Option.some.injEq, exists_eq_left', true_and,
      BaseOrder.toSignedOrder, pure_eq_ok, ok_bind]
    cases h : so2zo o with
    | error e =>
      simp only [error_bind, Except.error.injEq, reduceCtorEq, false_and, exists_false, or_false,
        exists_eq_left', eq_comm]
    | ok so =>
      simp only [ok_bind, reduceCtorEq, false_and, exists_false, Except.ok.injEq, exists_and_left,
        exists_eq_left', false_or]
      cases hh : computeOrderHash so with
      | error e => simp only [pure_eq_ok, reduceCtorEq, false_and, exists_false, iff_self]
      | ok hash =>
        simp only [Except.ok.injEq, exists_eq_left', true_and]
        by_cases hsig : fromHex o.signature = []
        · simp only [hsig, isValidSignature_of_nil hsig, error_bind, Except.error.injEq, eq_comm,
            true_and]
        · obtain ⟨b, hb⟩ := isValidSignature_of_ne_nil hsig
          cases b <;> simp [hsig, hb, pure, Except.pure]

theorem validateOrderMsg_of_passes (hp : OrderChecksPass computeOrderHash sender order) :
    validateOrderMsg computeOrderHash sender order last = .ok last := by
  obtain ⟨hs, o, so, hash, rfl, h1, h2, h3⟩ := hp
  simp only [validateOrderMsg, hs, if_false, BaseOrder.toSignedOrder, h1, h2,
    isValidSignature_eq_ok_true_iff.mpr h3, pure_eq_ok, ok_bind]
  rfl

/-- A stop before the last branch is an invalid address or an unknown request. -/
theorem validateOrderMsg_early (hp : ¬ OrderChecksPass computeOrderHash sender order)
    {r : Option Error} (h : validateOrderMsg computeOrderHash sender order last = .ok r) :
    ∃ e, r = some e ∧ (e.code = .errInvalidAddress ∨ e.code = .errUnknownRequest) := by
  simp only [validateOrderMsg, BaseOrder.toSignedOrder, pure_eq_ok] at h
  split_ifs at h with hs
  · exact ⟨_, (Except.ok.inj h).symm, .inl rfl⟩
  rcases order with _ | o
  · exact ⟨_, (Except.ok.inj h).symm, .inr rfl⟩
  rcases h1 : so2zo o with e | so <;> simp only [h1, error_bind, ok_bind, reduceCtorEq] at h
  rcases h2 : computeOrderHash so with e | hash <;> simp only [h2] at h
  · exact ⟨_, (Except.ok.inj h).symm, .inr rfl⟩
  rcases h3 : isValidSignature o.signature with p | _ | _ <;>
    simp only [h3, error_bind, ok_bind, reduceCtorEq, Bool.not_false, if_true, Except.ok.injEq] at h
  · exact ⟨_, h.symm, .inr rfl⟩
  · exact absurd ⟨hs, o, so, hash, rfl, h1, h2, isValidSignature_eq_ok_true_iff.mp h3⟩ hp

theorem validateOrderMsg_eq_ok_none_iff :
    validateOrderMsg computeOrderHash sender order last = .ok none ↔
      OrderChecksPass computeOrderHash sender order ∧ last = none := by
  by_cases hp : OrderChecksPass computeOrderHash sender order
  · rw [validateOrderMsg_of_passes hp, Except.ok.injEq, eq_comm]
    exact ⟨fun h => ⟨hp, h⟩, And.right⟩
  · refine ⟨fun h => ?_, fun h => absurd h.1 hp⟩
    obtain ⟨e, he, -⟩ := validateOrderMsg_early hp h
    cases he

theorem validateOrderMsg_last_iff {c : ErrorCode}
    (hc : c ≠ .errInvalidAddress ∧ c ≠ .errUnknownRequest) :
    (∃ e, validateOrderMsg computeOrderHash sender order last = .ok (some e) ∧ e.code = c) ↔
      OrderChecksPass computeOrderHash sender order ∧ ∃ e, last = some e ∧ e.code = c := by
  by_cases hp : OrderChecksPass computeOrderHash sender order
  · simp only [validateOrderMsg_of_passes hp, Except.ok.injEq, true_and, hp]
  · refine ⟨fun ⟨e, h, hce⟩ => ?_, fun h => absurd h.1 hp⟩
    obtain ⟨e', he', hcode⟩ := validateOrderMsg_early hp h
    cases he'
    subst hce
    exact (hcode.elim hc.1 hc.2).elim

end Validate

/-- Both order messages accept exactly what passes their common checks; the spot message checks a
positive quantity last. -/
theorem order_messages_accept_iff (computeOrderHash : SignedOrder → Except Bytes Hash) :
    (∀ msg : MsgCreateDerivativeOrder, msg.validateBasic computeOrderHash = .ok none ↔
      OrderChecksPass computeOrderHash msg.sender msg.order) ∧
    ∀ msg : MsgCreateSpotOrder,
      (msg.validateBasic computeOrderHash = .ok none ↔
        OrderChecksPass computeOrderHash msg.sender msg.order ∧
          ∃ q, bigNumInt ((msg.order.map BaseOrder.takerAssetAmount).getD []) = some q ∧ 0 < q) ∧
      ((∃ e, msg.validateBasic computeOrderHash = .ok (some e) ∧
          e.code = .errInsufficientOrderQuantity) ↔
        OrderChecksPass computeOrderHash msg.sender msg.order ∧
          ¬ ∃ q, bigNumInt ((msg.order.map BaseOrder.takerAssetAmount).getD []) = some q ∧ 0 < q) := by
  refine ⟨fun _ => validateOrderMsg_eq_ok_none_iff.trans (and_iff_left rfl), fun msg => ⟨?_, ?_⟩⟩
  · rw [MsgCreateSpotOrder.validateBasic, validateOrderMsg_eq_ok_none_iff]
    cases bigNumInt ((msg.order.map BaseOrder.takerAssetAmount).getD []) <;> simp
  · rw [MsgCreateSpotOrder.validateBasic, validateOrderMsg_last_iff (by decide)]
    cases bigNumInt ((msg.order.map BaseOrder.takerAssetAmount).getD []) <;> simp [and_assoc]

def unparsedAmountOrder : BaseOrder :=
  { (default : BaseOrder) with makerAssetAmount := ascii "x" }

/-- Both order messages panic on an empty signature once the hash check passes, and on an amount
that does not parse. -/
theorem order_messages_panic (computeOrderHash : SignedOrder → Except Bytes Hash) (hash : Hash)
    (hh : (so2zo default >>= computeOrderHash) = .ok hash) :
    MsgCreateDerivativeOrder.validateBasic computeOrderHash ⟨ascii "a", some default⟩ =
        .error (.indexOutOfRange (-1) 0) ∧
      MsgCreateSpotOrder.validateBasic computeOrderHash ⟨ascii "a", some default⟩ =
        .error (.indexOutOfRange (-1) 0) ∧
      MsgCreateDerivativeOrder.validateBasic computeOrderHash ⟨ascii "a", some unparsedAmountOrder⟩ =
        .error (.value (ascii "makerAssetAmmount parse failed")) ∧
      MsgCreateSpotOrder.validateBasic computeOrderHash ⟨ascii "a", some unparsedAmountOrder⟩ =
        .error (.value (ascii "makerAssetAmmount parse failed")) := by
  obtain ⟨so, hso⟩ : ∃ so, so2zo default = .ok so := ⟨_, rfl⟩
  rw [hso, ok_bind] at hh
  have hpanic (last : Option Error) : validateOrderMsg computeOrderHash (ascii "a") (some default)
      last = .error (.indexOutOfRange (-1) 0) :=
    validateOrderMsg_eq_error_iff.mpr ⟨by decide, default, rfl, .inr ⟨so, hash, hso, hh, rfl, rfl⟩⟩
  have hparse (last : Option Error) : validateOrderMsg computeOrderHash (ascii "a")
      (some unparsedAmountOrder) last = .error (.value (ascii "makerAssetAmmount parse failed")) :=
    validateOrderMsg_eq_error_iff.mpr ⟨by decide, _, rfl, .inl ⟨_, by decide, rfl⟩⟩
  exact ⟨hpanic _, hpanic _, hparse _, hparse _⟩

theorem order_messages_panic_on_constant_hash :
    (so2zo default >>= fun _ => .ok Hash.zero) = (.ok Hash.zero : Except Bytes Hash) ∧
      MsgCreateDerivativeOrder.validateBasic (fun _ => .ok Hash.zero) ⟨ascii "a", some default⟩ =
          .error (.indexOutOfRange (-1) 0) ∧
        MsgCreateSpotOrder.validateBasic (fun _ => .ok Hash.zero) ⟨ascii "a", some default⟩ =
          .error (.indexOutOfRange (-1) 0) ∧
        MsgCreateDerivativeOrder.validateBasic (fun _ => .ok Hash.zero)
            ⟨ascii "a", some unparsedAmountOrder⟩ =
          .error (.value (ascii "makerAssetAmmount parse failed")) ∧
        MsgCreateSpotOrder.validateBasic (fun _ => .ok Hash.zero)
            ⟨ascii "a", some unparsedAmountOrder⟩ =
          .error (.value (ascii "makerAssetAmmount parse failed")) :=
  ⟨rfl, order_messages_panic _ _ rfl⟩

/-- The order messages' checks panic exactly on an amount `math.ParseBig256` refuses, with the
first such field's text, and on a hashed order whose signature decodes to no bytes. -/
theorem order_messages_panic_iff (computeOrderHash : SignedOrder → Except Bytes Hash) :
    (∀ (msg : MsgCreateDerivativeOrder) (p : Panic), msg.validateBasic computeOrderHash = .error p ↔
      OrderMsgPanic computeOrderHash msg.sender msg.order p) ∧
    ∀ (msg : MsgCreateSpotOrder) (p : Panic), msg.validateBasic computeOrderHash = .error p ↔
      OrderMsgPanic computeOrderHash msg.sender msg.order p := by
  refine ⟨fun msg p => ?_, fun msg p => ?_⟩ <;>
    simp only [MsgCreateDerivativeOrder.validateBasic, MsgCreateSpotOrder.validateBasic,
      validateOrderMsg_eq_error_iff, so2zo_eq_error_iff, OrderMsgPanic]

/-- Past `ValidateBasic`, with amounts `BigNum.Int` reads and fee asset data of 32 bytes or more,
`DoesValidationPass` panics only dividing by zero. -/
theorem validated_order_engine_panics (computeOrderHash : SignedOrder → Except Bytes Hash)
    {msg : MsgCreateDerivativeOrder} {order : Order} {market : DerivativeMarket} {isLong : Bool}
    {t r ip : Int} (hmsg : msg.validateBasic computeOrderHash = .ok none)
    (ho : msg.order = some order.order)
    (hs : ∀ s ∈ [order.order.makerAssetAmount, order.order.takerAssetAmount, order.order.makerFee,
      order.order.expirationTimeSeconds], s ≠ [] ∧ hasHexPrefix s = false)
    (hf : hashLength ≤ (fromHex order.order.makerFeeAssetData).length)
    (hr : bigNumInt market.initialMarginRatio = some r) (hi : bigNumInt market.indexPrice = some ip)
    (p : Panic) (he : order.doesValidationPass isLong market t = .error p) :
    p = .divisionByZero := by
  obtain ⟨⟨-, o, so, -, hmo, hso, -⟩, -⟩ := validateOrderMsg_eq_ok_none_iff.mp hmsg
  rw [ho, Option.some.injEq] at hmo
  subst hmo
  have hF := so2zo_eq_ok hso
  simp only [BaseOrder.amounts, SignedOrder.amounts, List.forall₂_cons, List.Forall₂.nil] at hF
  obtain ⟨h1, h2, h3, -, h5, -⟩ := hF
  exact ((doesValidationPass_eq_error_iff (a := ⟨so.makerAssetAmount, so.takerAssetAmount,
      so.makerFee, so.expirationTimeSeconds, r, ip⟩)
    ⟨bigNumInt_of_parseBig256 h1 (hs _ (by simp)), bigNumInt_of_parseBig256 h2 (hs _ (by simp)),
      bigNumInt_of_parseBig256 h3 (hs _ (by simp)), bigNumInt_of_parseBig256 h5 (hs _ (by simp)),
      hr, hi⟩
    (fromHexSlice_take hf).1).mp he).1

/-- A derivative order with a hexadecimal expiration, or with no fee asset data, passes
`ValidateBasic` and makes `DoesValidationPass` panic. -/
example :
    let order (expiration feeAssetData : Bytes) : BaseOrder := { (default : BaseOrder) with
      expirationTimeSeconds := expiration, makerFeeAssetData := feeAssetData,
      signature := ascii "04" }
    let market : DerivativeMarket := ⟨ascii "1000", ascii "95"⟩
    MsgCreateDerivativeOrder.validateBasic (fun _ => .ok Hash.zero)
        ⟨ascii "a", some (order (ascii "0x10") (List.replicate 64 0x30))⟩ = .ok none ∧
      ({ (default : Order) with order := order (ascii "0x10") (List.replicate 64 0x30) }
        ).doesValidationPass true market 1 = .error .nilPointerDereference ∧
      MsgCreateDerivativeOrder.validateBasic (fun _ => .ok Hash.zero)
        ⟨ascii "a", some (order (ascii "2") [])⟩ = .ok none ∧
      ({ (default : Order) with order := order (ascii "2") [] }).doesValidationPass true market 1 =
        .error (.sliceBoundsOutOfRange 0 32 0) := by
  decide

/-- A signed order of quantity 0: it passes `ValidateBasic`, and its index-price requirement
divides by zero. -/
def zeroQuantitySignedOrder : BaseOrder :=
  { (default : BaseOrder) with
      makerAssetAmount := ascii "100", takerAssetAmount := ascii "0", makerFee := ascii "150",
      expirationTimeSeconds := ascii "2", makerFeeAssetData := List.replicate 64 0x30,
      signature := ascii "04" }

theorem validated_zero_quantity_order_divides_by_zero :
    MsgCreateDerivativeOrder.validateBasic (fun _ => .ok Hash.zero)
        ⟨ascii "a", some zeroQuantitySignedOrder⟩ = .ok none ∧
      ({ (default : Order) with order := zeroQuantitySignedOrder }).doesValidationPass true
        specExampleMarket 1 = .error .divisionByZero ∧
      Panic.divisionByZero = .divisionByZero :=
  have hmsg : MsgCreateDerivativeOrder.validateBasic (fun _ => .ok Hash.zero)
      ⟨ascii "a", some zeroQuantitySignedOrder⟩ = .ok none := by decide
  have he : ({ (default : Order) with order := zeroQuantitySignedOrder }).doesValidationPass true
      specExampleMarket 1 = .error .divisionByZero := by decide
  ⟨hmsg, he, validated_order_engine_panics (fun _ => .ok Hash.zero) hmsg rfl (by decide)
    (by decide) (show bigNumInt specExampleMarket.initialMarginRatio = some 1000 by decide)
    (show bigNumInt specExampleMarket.indexPrice = some 95 by decide) _ he⟩

end InjectiveSdk.Exchange
