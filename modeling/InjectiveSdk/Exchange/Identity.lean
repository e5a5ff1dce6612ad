import InjectiveSdk.Exchange.Order

namespace InjectiveSdk.Exchange
open InjectiveSdk.Go

/-- Maker fee asset data whose first 32 bytes hold 2^64: 23 zero bytes, then 1, then 8 zero
bytes. -/
def twoPow64TypeData : Bytes := List.replicate 46 0x30 ++ ascii "01" ++ List.replicate 16 0x30

def twoPow64TypeOrder : Order :=
  { (default : Order) with order := { (default : BaseOrder) with
      makerFeeAssetData := twoPow64TypeData } }

/-- `Uint64` keeps the low 64 bits of the type number, so a prefix of value 2^64 is accepted as
order type 0. -/
theorem order_type_two_pow_64_accepted :
    bytesToNat ((fromHex twoPow64TypeData).take hashLength) = 2 ^ 64 ∧
      twoPow64TypeOrder.computeAndSetOrderType =
        .ok (none, { twoPow64TypeOrder with orderType := 0 }) :=
  ⟨by decide, by decide⟩

/-- The bytes `ComputeSubaccountID` hands to Keccak-256: the maker address and the magnitude
of the taker fee as big-endian bytes left-padded to 32. `(*big.Int).Bytes` drops the sign. -/
def subaccountIDPreimage (makerAddress takerFee : Bytes) : Except Panic Bytes := do
  let fee ← readInt takerFee
  pure ((hexToAddress makerAddress).bytes ++ leftPadBytes (natToBytes fee.natAbs) 32)

/-- `ComputeSubaccountID`. `crypto.Keccak256Hash` of several slices hashes their
concatenation; the hash function itself is a parameter. -/
def computeSubaccountID (keccak256Hash : Bytes → Hash) (makerAddress takerFee : Bytes) :
    Except Panic Hash :=
  keccak256Hash <$> subaccountIDPreimage makerAddress takerFee

def BaseOrder.getDirectionMarketAndSubaccountID (keccak256Hash : Bytes → Hash) (m : BaseOrder) :
    Except Panic (Bool × Hash × Hash) := do
  let mData := fromHex m.makerAssetData
  let tData := fromHex m.takerAssetData
  let mData := if mData.length > hashLength then mData.take hashLength else mData
  let tData := if tData.length > hashLength then tData.take hashLength else tData
  let (isLong, marketID) :=
    if tData = Hash.zero.bytes then (true, bytesToHash mData) else (false, bytesToHash tData)
  let subaccountID ← computeSubaccountID keccak256Hash m.makerAddress m.takerFee
  pure (isLong, marketID, subaccountID)

theorem take_of_gt_hashLength (b : Bytes) :
    (if b.length > hashLength then b.take hashLength else b) = b.take hashLength := by
  split
  · rfl
  · rw [List.take_of_length_le (by omega)]

theorem take_eq_zero_hash_iff (d : Bytes) :
    d.take hashLength = Hash.zero.bytes ↔
      hashLength ≤ d.length ∧ ∀ b ∈ d.take hashLength, b = 0 := by
  rw [Hash.zero, List.eq_replicate_iff, List.length_take]
  constructor
  · rintro ⟨hl, hb⟩
    exact ⟨by omega, hb⟩
  · rintro ⟨hl, hb⟩
    exact ⟨by omega, hb⟩

theorem subaccountIDPreimage_eq {makerAddress takerFee : Bytes} {fee : Int}
    (h : bigNumInt takerFee = some fee) :
    subaccountIDPreimage makerAddress takerFee =
      .ok ((hexToAddress makerAddress).bytes ++ leftPadBytes (natToBytes fee.natAbs) 32) := by
  simp [subaccountIDPreimage, readInt_of_eq h]

/-- The subaccount preimage determines the maker address and the magnitude of the taker fee,
and nothing more: fees `f` and `-f` share a subaccount. -/
theorem subaccount_preimage_eq_iff {a a' f f' : Bytes} {fee fee' : Int}
    (hf : bigNumInt f = some fee) (hf' : bigNumInt f' = some fee') :
    subaccountIDPreimage a f = subaccountIDPreimage a' f' ↔
      hexToAddress a = hexToAddress a' ∧ fee.natAbs = fee'.natAbs := by
  rw [subaccountIDPreimage_eq hf, subaccountIDPreimage_eq hf', Except.ok.injEq]
  constructor
  · intro h
    obtain ⟨ha, hpad⟩ := List.append_inj h (by rw [(hexToAddress a).length_eq,
      (hexToAddress a').length_eq])
    refine ⟨Address.ext_bytes ha, ?_⟩
    have := congrArg bytesToNat hpad
    simpa only [bytesToNat_leftPadBytes, bytesToNat_natToBytes] using this
  · rintro ⟨ha, hn⟩
    rw [ha, hn]

theorem subaccount_preimage_spec_pair :
    bigNumInt (ascii "1") = some 1 ∧ bigNumInt (ascii "2") = some 2 ∧
      (subaccountIDPreimage (ascii "0x01") (ascii "1") =
          subaccountIDPreimage (ascii "0x01") (ascii "2") ↔
        hexToAddress (ascii "0x01") = hexToAddress (ascii "0x01") ∧
          (1 : Int).natAbs = (2 : Int).natAbs) :=
  ⟨by decide, by decide, subaccount_preimage_eq_iff (by decide) (by decide)⟩

theorem opposite_fees_share_subaccount :
    bigNumInt (ascii "1") = some 1 ∧ bigNumInt (ascii "-1") = some (-1) ∧
      subaccountIDPreimage (ascii "0x01") (ascii "1") =
        subaccountIDPreimage (ascii "0x01") (ascii "-1") :=
  ⟨by decide, by decide, rfl⟩

/-- Long exactly when the taker asset data starts with 32 zero bytes; the market is the first 32
bytes of the maker (long) or taker (short) asset data, left-padded with zeros. -/
theorem direction_and_market_from_leading_hash (keccak256Hash : Bytes → Hash) (m : BaseOrder)
    (hfee : bigNumInt m.takerFee ≠ none) :
    ∃ isLong marketID subaccountID,
      m.getDirectionMarketAndSubaccountID keccak256Hash = .ok (isLong, marketID, subaccountID) ∧
      (isLong = true ↔ hashLength ≤ (fromHex m.takerAssetData).length ∧
        ∀ b ∈ (fromHex m.takerAssetData).take hashLength, b = 0) ∧
      marketID.bytes =
        let d := fromHex (if isLong then m.makerAssetData else m.takerAssetData)
        List.replicate (hashLength - d.length) 0 ++ d.take hashLength := by
  obtain ⟨fee, hf⟩ := Option.ne_none_iff_exists'.mp hfee
  simp only [BaseOrder.getDirectionMarketAndSubaccountID, take_of_gt_hashLength,
    computeSubaccountID, subaccountIDPreimage_eq hf, Except.map_ok, ok_bind]
  have hz := take_eq_zero_hash_iff (fromHex m.takerAssetData)
  split_ifs with h
  · exact ⟨true, _, _, rfl, by simpa using hz.mp h, fitLeft_take _ _⟩
  · exact ⟨false, _, _, rfl, by simpa using mt hz.mpr h, fitLeft_take _ _⟩

def twentyZeroTakerOrder : BaseOrder :=
  { (default : BaseOrder) with
    makerAssetData := ascii "0x01"
    takerAssetData := List.replicate 40 0x30
    takerFee := ascii "0" }

theorem twenty_zero_taker_direction :
    bigNumInt twentyZeroTakerOrder.takerFee ≠ none ∧
      ∃ isLong marketID subaccountID,
        twentyZeroTakerOrder.getDirectionMarketAndSubaccountID (fun _ => Hash.zero) =
          .ok (isLong, marketID, subaccountID) ∧
        (isLong = true ↔ hashLength ≤ (fromHex twentyZeroTakerOrder.takerAssetData).length ∧
          ∀ b ∈ (fromHex twentyZeroTakerOrder.takerAssetData).take hashLength, b = 0) ∧
        marketID.bytes =
          let d := fromHex (if isLong then twentyZeroTakerOrder.makerAssetData
            else twentyZeroTakerOrder.takerAssetData)
          List.replicate (hashLength - d.length) 0 ++ d.take hashLength :=
  ⟨by decide, direction_and_market_from_leading_hash _ _ (by decide)⟩

/-- Taker asset data of 20 zero bytes is read as a short order with a zero-padded market id,
not as a long one. -/
theorem twenty_zero_taker_is_short :
    (fromHex twentyZeroTakerOrder.takerAssetData).take 20 = List.replicate 20 0 ∧
      Prod.fst <$> twentyZeroTakerOrder.getDirectionMarketAndSubaccountID (fun _ => Hash.zero) =
        .ok false :=
  ⟨by decide, by decide⟩

end InjectiveSdk.Exchange
