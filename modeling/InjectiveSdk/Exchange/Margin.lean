import InjectiveSdk.Exchange.Order
import Mathlib.Tactic.Linarith

namespace InjectiveSdk.Exchange
open InjectiveSdk.Go

/-- `DoesValidationPass` gets past its order-type, expiry and contract-price checks. -/
structure PassesEarlySteps (o : BaseOrder) (a : Amounts) (t : Int) : Prop where
  orderType : orderTypeNumber o = 0 ∨ orderTypeNumber o = 5
  notExpired : t < a.expiration
  margin : a.contractRequirement ≤ a.margin

instance (o : BaseOrder) (a : Amounts) (t : Int) : Decidable (PassesEarlySteps o a t) :=
  decidable_of_iff ((orderTypeNumber o = 0 ∨ orderTypeNumber o = 5) ∧ t < a.expiration ∧
      a.contractRequirement ≤ a.margin)
    ⟨fun ⟨h1, h2, h3⟩ => ⟨h1, h2, h3⟩, fun h => ⟨h.1, h.2, h.3⟩⟩

section Division

variable {n d x : Int}

theorem lt_ediv_iff (hd : d ≠ 0) : x < n / d ↔ d < 0 ∧ n < d * x ∨ 0 < d ∧ d * (x + 1) ≤ n := by
  rcases lt_or_gt_of_ne hd with hneg | hpos
  · rw [show n / d = -(n / -d) by rw [Int.ediv_neg, neg_neg], lt_neg,
      Int.ediv_lt_iff_lt_mul (by omega)]
    constructor
    · intro h
      exact .inl ⟨hneg, by linarith⟩
    · rintro (⟨-, h⟩ | ⟨h, -⟩)
      · linarith
      · omega
  · rw [← Int.add_one_le_iff, Int.le_ediv_iff_mul_le hpos]
    constructor
    · intro h
      exact .inr ⟨hpos, by linarith⟩
    · rintro (⟨h, -⟩ | ⟨-, h⟩)
      · omega
      · linarith

theorem ediv_lt_iff (hd : d ≠ 0) : n / d < x ↔ 0 < d ∧ n < d * x ∨ d < 0 ∧ d * (x - 1) ≤ n := by
  rcases lt_or_gt_of_ne hd with hneg | hpos
  · rw [show n / d = -(n / -d) by rw [Int.ediv_neg, neg_neg], neg_lt, ← Int.add_one_le_iff,
      Int.le_ediv_iff_mul_le (by omega)]
    constructor
    · intro h
      exact .inr ⟨hneg, by linarith⟩
    · rintro (⟨h, -⟩ | ⟨-, h⟩)
      · omega
      · linarith
  · rw [Int.ediv_lt_iff_lt_mul hpos]
    constructor
    · intro h
      exact .inl ⟨hpos, by linarith⟩
    · rintro (⟨-, h⟩ | ⟨h, -⟩)
      · linarith
      · omega

end Division

/-- The long order of the spec's worked example: price 100, quantity 10, margin 150, with
fee asset data of 32 zero bytes (order type 0), expiring at 2. -/
def specExampleOrder : Order :=
  { (default : Order) with order := { (default : BaseOrder) with
      makerAssetAmount := ascii "100", takerAssetAmount := ascii "10", makerFee := ascii "150",
      expirationTimeSeconds := ascii "2", makerFeeAssetData := List.replicate 64 0x30 } }

def specExampleMarket : DerivativeMarket := ⟨ascii "1000", ascii "95"⟩

def specExampleAmounts : Amounts := ⟨100, 10, 150, 2, 1000, 95⟩

section Validation

variable {a : Amounts} {o : Order} {market : DerivativeMarket} {isLong : Bool} {t : Int}

/-- Once the amounts parse and the fee asset data is long enough, `DoesValidationPass` is its
first three checks on parsed integers followed by the index-price check. -/
theorem doesValidationPass_eq (h : a.Read o.order market)
    (hf : hashLength ≤ (fromHexSlice o.order.makerFeeAssetData).cap) :
    o.doesValidationPass isLong market t =
      if orderTypeNumber o.order ≠ 0 ∧ orderTypeNumber o.order ≠ 5 then
        .ok (some (unrecognizedOrderTypeError o.order), o)
      else if a.expiration ≤ t then
        .ok (some (orderExpiredError a.expiration t), { o with orderType := orderTypeNumber o.order })
      else if a.margin < a.contractRequirement then
        .ok (some (contractPriceError a.margin a.contractRequirement),
          { o with orderType := orderTypeNumber o.order })
      else ({ o with orderType := orderTypeNumber o.order }).checkIndexPriceMargin isLong market := by
  let o₁ := { o with orderType := orderTypeNumber o.order }
  simp only [Order.doesValidationPass, computeAndSetOrderType_eq o hf]
  split_ifs <;> simp [checkExpiration_eq o₁ h, checkContractPriceMargin_eq o₁ h, *]

theorem doesValidationPass_of_passes (h : a.Read o.order market)
    (hf : hashLength ≤ (fromHexSlice o.order.makerFeeAssetData).cap)
    (hp : PassesEarlySteps o.order a t) :
    o.doesValidationPass isLong market t =
      ({ o with orderType := orderTypeNumber o.order }).checkIndexPriceMargin isLong market := by
  have := hp.notExpired
  have := hp.margin
  rw [doesValidationPass_eq h hf, if_neg fun ⟨h0, h5⟩ => hp.orderType.elim h0 h5, if_neg (by omega),
    if_neg (by omega)]

theorem doesValidationPass_of_not_passes (h : a.Read o.order market)
    (hf : hashLength ≤ (fromHexSlice o.order.makerFeeAssetData).cap)
    (hp : ¬ PassesEarlySteps o.order a t) :
    ∃ e o', o.doesValidationPass isLong market t = .ok (some e, o') := by
  rw [doesValidationPass_eq h hf]
  split_ifs with h1 h2 h3
  any_goals exact ⟨_, _, rfl⟩
  exact absurd ⟨or_iff_not_and_not.mpr h1, by omega, by omega⟩ hp

theorem doesValidationPass_of_short (hf : (fromHexSlice o.order.makerFeeAssetData).cap < hashLength) :
    o.doesValidationPass isLong market t =
      .error (.sliceBoundsOutOfRange 0 hashLength (fromHexSlice o.order.makerFeeAssetData).cap) := by
  simp only [Order.doesValidationPass, computeAndSetOrderType_short hf, Checked.andThen]

theorem passes_of_accepted (h : a.Read o.order market)
    (hacc : Prod.fst <$> o.doesValidationPass isLong market t = .ok none) :
    PassesEarlySteps o.order a t ∧ hashLength ≤ (fromHexSlice o.order.makerFeeAssetData).cap := by
  by_cases hf : hashLength ≤ (fromHexSlice o.order.makerFeeAssetData).cap
  · refine ⟨?_, hf⟩
    by_contra hp
    obtain ⟨e, o', he⟩ := @doesValidationPass_of_not_passes a o market isLong t h hf hp
    rw [he] at hacc
    cases hacc
  · rw [doesValidationPass_of_short (not_le.mp hf)] at hacc
    cases hacc

/-- An accepted order's margin covers the initial-margin fraction of its notional, with
`quantity * initialMarginRatio` first rounded down to a multiple of 10000. -/
theorem accepted_margin_covers_rounded_notional (h : a.Read o.order market)
    (hacc : Prod.fst <$> o.doesValidationPass isLong market t = .ok none) :
    (a.quantity * a.initialMarginRatio - a.quantity * a.initialMarginRatio % 10000) * a.price ≤
      10000 * a.margin := by
  have hm := (passes_of_accepted h hacc).1.margin
  simp only [Amounts.contractRequirement, scalePermyriad, permyriadBase] at hm
  generalize a.quantity * a.initialMarginRatio = z at *
  have hz : z - z % 10000 = 10000 * (z / 10000) := by omega
  rw [hz]
  linarith

theorem spec_example_margin_covered :
    specExampleAmounts.Read specExampleOrder.order specExampleMarket ∧
      Prod.fst <$> specExampleOrder.doesValidationPass true specExampleMarket 1 = .ok none ∧
      (10 * 1000 - 10 * 1000 % 10000) * 100 ≤ 10000 * (150 : Int) :=
  ⟨by decide, by decide, @accepted_margin_covers_rounded_notional specExampleAmounts
    specExampleOrder specExampleMarket true 1 (by decide) (by decide)⟩

/-- A long order whose `quantity * initialMarginRatio` is below 10000: its contract-price
requirement rounds to 0, and it is accepted with no margin at all. -/
def thinMarginOrder : Order :=
  { (default : Order) with order := { (default : BaseOrder) with
      makerAssetAmount := ascii "100", takerAssetAmount := ascii "1", makerFee := ascii "0",
      expirationTimeSeconds := ascii "2", makerFeeAssetData := List.replicate 64 0x30 } }

theorem thin_margin_order_accepted :
    (⟨100, 1, 0, 2, 1000, 100⟩ : Amounts).Read thinMarginOrder.order ⟨ascii "1000", ascii "100"⟩ ∧
      Prod.fst <$> thinMarginOrder.doesValidationPass true ⟨ascii "1000", ascii "100"⟩ 1 =
        .ok none ∧
      ¬ (1000 * 1 * 100 ≤ 10000 * (0 : Int)) :=
  ⟨by decide, by decide, by decide⟩

/-- At the index-price check, rejection is the division-free inequality that matches the
sign of `denom`: Euclidean `Div` rounds down for a positive divisor and up for a negative one. -/
theorem index_price_rejection_iff {n d : Int} (h : a.Read o.order market)
    (hf : hashLength ≤ (fromHex o.order.makerFeeAssetData).length)
    (hp : PassesEarlySteps o.order a t) (hnd : a.fraction isLong = (n, d)) (hd : d ≠ 0) :
    (∃ e o', o.doesValidationPass isLong market t = .ok (some e, o') ∧
        e.code = .errOverLeveragedOrder) ↔
      isLong ∧ (d < 0 ∧ n < d * a.indexPrice ∨ 0 < d ∧ d * (a.indexPrice + 1) ≤ n) ∨
      !isLong ∧ (0 < d ∧ n < d * a.indexPrice ∨ d < 0 ∧ d * (a.indexPrice - 1) ≤ n) := by
  rw [doesValidationPass_of_passes h (fromHexSlice_take hf).1 hp,
    checkIndexPriceMargin_eq { o with orderType := orderTypeNumber o.order } h, hnd,
    bigDiv_of_ne hd, Except.map_ok, ← lt_ediv_iff hd, ← ediv_lt_iff hd]
  cases isLong
  · by_cases hq : n / d < a.indexPrice <;> simp [hq, indexPriceError]
  · by_cases hq : a.indexPrice < n / d <;> simp [hq, indexPriceError]

theorem spec_example_index_price_rejection :
    specExampleAmounts.Read specExampleOrder.order specExampleMarket ∧
      hashLength ≤ (fromHex specExampleOrder.order.makerFeeAssetData).length ∧
      PassesEarlySteps specExampleOrder.order specExampleAmounts 1 ∧
      specExampleAmounts.fraction true = (-850, -9) ∧ (-9 : Int) ≠ 0 ∧
      ((∃ e o', specExampleOrder.doesValidationPass true specExampleMarket 1 = .ok (some e, o') ∧
          e.code = .errOverLeveragedOrder) ↔
        true ∧ (-9 < 0 ∧ -850 < -9 * 95 ∨ 0 < -9 ∧ -9 * (95 + 1) ≤ (-850 : Int)) ∨
        !true ∧ (0 < -9 ∧ -850 < -9 * 95 ∨ -9 < 0 ∧ -9 * (95 - 1) ≤ (-850 : Int))) :=
  ⟨by decide, by decide, by decide, by decide, by decide,
    @index_price_rejection_iff specExampleAmounts specExampleOrder specExampleMarket true 1
      (-850) (-9) (by decide) (by decide) (by decide) (by decide) (by decide)⟩

/-- A long order with ratio 20000: `denom = alpha - quantity` is positive, so Euclidean `Div`
rounds the requirement down and the order passes although `n < denom * indexPrice`. -/
def positiveDenominatorOrder : Order :=
  { (default : Order) with order := { (default : BaseOrder) with
      makerAssetAmount := ascii "0", takerAssetAmount := ascii "1", makerFee := ascii "0",
      expirationTimeSeconds := ascii "2", makerFeeAssetData := List.replicate 64 0x30 } }

theorem positive_denominator_long_accepted :
    (⟨0, 1, 0, 2, 20000, 1⟩ : Amounts).Read positiveDenominatorOrder.order
        ⟨ascii "20000", ascii "1"⟩ ∧
      PassesEarlySteps positiveDenominatorOrder.order ⟨0, 1, 0, 2, 20000, 1⟩ 1 ∧
      (⟨0, 1, 0, 2, 20000, 1⟩ : Amounts).fraction true = (0, 1) ∧
      Prod.fst <$> positiveDenominatorOrder.doesValidationPass true ⟨ascii "20000", ascii "1"⟩ 1 =
        .ok none ∧
      (0 : Int) < 1 * 1 :=
  ⟨by decide, by decide, by decide, by decide, by decide⟩

/-- Each of the engine's three `big.Int.Div`s, which are Euclidean, agrees with truncation exactly
when its dividend is non-negative or a multiple of its divisor. -/
theorem margin_divisions_match_truncation_iff :
    (∀ amount permyriad : Int, scalePermyriad amount permyriad = (amount * permyriad).tdiv 10000 ↔
        0 ≤ amount * permyriad ∨ 10000 ∣ amount * permyriad) ∧
    (∀ (a : Amounts) (o : Order) (market : DerivativeMarket) (isLong : Bool) (n d : Int),
        a.Read o.order market → a.fraction isLong = (n, d) → d ≠ 0 →
        (Prod.fst <$> o.computeIndexPriceMarginRequirement isLong market = .ok (n.tdiv d) ↔
          0 ≤ n ∨ d ∣ n)) ∧
    (∀ (o : Order) (margin quantity remainingQuantity makerTxFeePermyriad : Int),
        bigNumInt o.order.makerFee = some margin →
        bigNumInt o.order.takerAssetAmount = some quantity → quantity ≠ 0 →
        (o.computeOrderMarginHold remainingQuantity makerTxFeePermyriad =
            .ok ((incrementByScaledPermyriad margin makerTxFeePermyriad * remainingQuantity).tdiv
              quantity) ↔
          0 ≤ incrementByScaledPermyriad margin makerTxFeePermyriad * remainingQuantity ∨
            quantity ∣ incrementByScaledPermyriad margin makerTxFeePermyriad * remainingQuantity)) := by
  refine ⟨fun amount permyriad => ediv_eq_tdiv_iff (by decide),
    fun a o market isLong n d h hnd hd => ?_, fun o margin quantity r f hm hq h0 => ?_⟩
  · rw [computeIndexPriceMarginRequirement_eq o h, hnd, bigDiv_of_ne hd]
    simpa using ediv_eq_tdiv_iff hd
  · rw [computeOrderMarginHold_eq o hm hq, bigDiv_of_ne h0]
    simpa using ediv_eq_tdiv_iff h0

theorem spec_example_divisions :
    (-1 * 1 : Int) < 0 ∧
      specExampleAmounts.Read specExampleOrder.order specExampleMarket ∧
      (Prod.fst <$> specExampleOrder.computeIndexPriceMarginRequirement true specExampleMarket =
          .ok ((-850 : Int).tdiv (-9)) ↔ 0 ≤ (-850 : Int) ∨ (-9 : Int) ∣ -850) :=
  ⟨by decide, by decide,
    margin_divisions_match_truncation_iff.2.1 specExampleAmounts specExampleOrder specExampleMarket
      true (-850) (-9) (by decide) (by decide) (by decide)⟩

/-- A composite can differ although each division agrees: the hold of margin 1000 at fee rate
-15 is 998, where the spec's truncation gives 999. -/
example :
    let o : Order := { (default : Order) with order := { (default : BaseOrder) with
      makerFee := ascii "1000", takerAssetAmount := ascii "10" } }
    o.computeOrderMarginHold 10 (-15) = .ok 998 ∧
      ((1000 + (1000 * -15 : Int).tdiv 10000) * 10).tdiv 10 = 999 := by
  decide

/-- On the spec's own example, `ComputeIndexPriceMarginRequirement` gives 95, where truncating
`-850 / -9` gives the spec's 94. -/
theorem spec_example_requirement_is_euclidean :
    specExampleAmounts.fraction true = (-850, -9) ∧
      Prod.fst <$> specExampleOrder.computeIndexPriceMarginRequirement true specExampleMarket =
        .ok 95 ∧
      (-850 : Int).tdiv (-9) = 94 :=
  ⟨by decide, by decide, by decide⟩

theorem doesValidationPass_eq_error_iff (h : a.Read o.order market)
    (hf : hashLength ≤ (fromHexSlice o.order.makerFeeAssetData).cap) {p : Panic} :
    o.doesValidationPass isLong market t = .error p ↔
      p = .divisionByZero ∧ PassesEarlySteps o.order a t ∧ (a.fraction isLong).2 = 0 := by
  by_cases hp : PassesEarlySteps o.order a t
  · rw [doesValidationPass_of_passes h hf hp,
      checkIndexPriceMargin_eq { o with orderType := orderTypeNumber o.order } h, map_eq_error,
      bigDiv_eq_error_iff]
    simp only [hp, true_and]
  · obtain ⟨e, o', he⟩ := @doesValidationPass_of_not_passes a o market isLong t h hf hp
    simp [he, hp]

theorem checkIndexPriceMargin_passes_iff (h : a.Read o.order market) :
    Prod.fst <$> o.checkIndexPriceMargin isLong market = .ok none ↔
      (a.fraction isLong).2 ≠ 0 ∧
        if isLong then (a.fraction isLong).1 / (a.fraction isLong).2 ≤ a.indexPrice
        else a.indexPrice ≤ (a.fraction isLong).1 / (a.fraction isLong).2 := by
  rw [checkIndexPriceMargin_eq o h]
  by_cases hd : (a.fraction isLong).2 = 0
  · simp [hd]
  · rw [bigDiv_of_ne hd]
    cases isLong <;> simp [hd]

theorem fraction_with_margin (m : Int) :
    ({ a with margin := m } : Amounts).fraction isLong =
      ((a.fraction isLong).1 + (m - a.margin), (a.fraction isLong).2) := by
  cases isLong <;>
    simp only [Amounts.fraction, indexPriceFraction, Bool.false_eq_true, ite_false, ite_true,
      Prod.mk.injEq, and_true] <;> omega

/-- The sign of the denominator the requirement's formula assumes: positive for a short, and
negative for a long when the ratio is below 100%. -/
theorem fraction_denom_sign (hq : 0 < a.quantity) (hr : 0 ≤ a.initialMarginRatio)
    (hlong : isLong → a.initialMarginRatio < 10000) :
    if isLong then (a.fraction isLong).2 < 0 else 0 < (a.fraction isLong).2 := by
  simp only [Amounts.fraction, indexPriceFraction, scalePermyriad, permyriadBase]
  cases isLong
  · have : 0 ≤ a.quantity * a.initialMarginRatio / 10000 :=
      Int.ediv_nonneg (mul_nonneg hq.le hr) (by norm_num)
    simp only [Bool.false_eq_true, ite_false]
    omega
  · have : a.quantity * a.initialMarginRatio / 10000 < a.quantity := by
      rw [Int.ediv_lt_iff_lt_mul (by norm_num)]
      nlinarith [hlong rfl]
    simp only [ite_true]
    omega

theorem more_margin_stays_accepted {fee : Bytes} {m : Int} (h : a.Read o.order market)
    (hm : bigNumInt fee = some m) (hle : a.margin ≤ m) (hq : 0 < a.quantity)
    (hr : 0 ≤ a.initialMarginRatio) (hlong : isLong → a.initialMarginRatio < 10000)
    (hacc : Prod.fst <$> o.doesValidationPass isLong market t = .ok none) :
    Prod.fst <$> ({ o with order := { o.order with makerFee := fee } } : Order).doesValidationPass
      isLong market t = .ok none := by
  obtain ⟨hp, hf⟩ := passes_of_accepted h hacc
  have h' : ({ a with margin := m } : Amounts).Read { o.order with makerFee := fee } market :=
    { h with margin := hm }
  have hp' : PassesEarlySteps { o.order with makerFee := fee } { a with margin := m } t :=
    ⟨hp.orderType, hp.notExpired, hp.margin.trans hle⟩
  let o' : Order := { o with order := { o.order with makerFee := fee } }
  rw [doesValidationPass_of_passes h hf hp,
    checkIndexPriceMargin_passes_iff (o := { o with orderType := orderTypeNumber o.order }) h] at hacc
  rw [doesValidationPass_of_passes (o := o') h' hf hp',
    checkIndexPriceMargin_passes_iff (o := { o' with orderType := orderTypeNumber o'.order }) h',
    fraction_with_margin]
  obtain ⟨hd, hs⟩ := hacc
  refine ⟨hd, ?_⟩
  have hsign := @fraction_denom_sign a isLong hq hr hlong
  cases isLong
  · simp only [Bool.false_eq_true, ite_false] at hs hsign ⊢
    exact hs.trans (Int.ediv_le_ediv hsign (by omega))
  · simp only [ite_true] at hs hsign ⊢
    generalize (a.fraction true).1 = n, (a.fraction true).2 = d at hs hsign ⊢
    calc (n + (m - a.margin)) / d = -((n + (m - a.margin)) / -d) := by rw [Int.ediv_neg, neg_neg]
      _ ≤ -(n / -d) := neg_le_neg (Int.ediv_le_ediv (by omega) (by omega))
      _ = n / d := by rw [Int.ediv_neg, neg_neg]
      _ ≤ a.indexPrice := hs

theorem spec_example_accepted_with_more_margin :
    bigNumInt (ascii "200") = some 200 ∧
      Prod.fst <$> specExampleOrder.doesValidationPass true specExampleMarket 1 = .ok none ∧
      Prod.fst <$> ({ specExampleOrder with order := { specExampleOrder.order with
        makerFee := ascii "200" } } : Order).doesValidationPass true specExampleMarket 1 = .ok none :=
  ⟨by decide, by decide, @more_margin_stays_accepted specExampleAmounts specExampleOrder
    specExampleMarket true 1 (ascii "200") 200 (by decide) (by decide) (by decide) (by decide)
    (by decide) (fun _ => by decide) (by decide)⟩

/-- Above a 100% ratio a long's denominator is positive: a long passes with margin 0 and is
refused as over-leveraged with margin 2. -/
example :
    let order (fee : String) : Order := { (default : Order) with order := { (default : BaseOrder) with
      makerAssetAmount := ascii "0", takerAssetAmount := ascii "1", makerFee := ascii fee,
      expirationTimeSeconds := ascii "2", makerFeeAssetData := List.replicate 64 0x30 } }
    let market : DerivativeMarket := ⟨ascii "20000", ascii "1"⟩
    Prod.fst <$> (order "0").doesValidationPass true market 1 = .ok none ∧
      (Option.map Error.code ∘ Prod.fst) <$> (order "2").doesValidationPass true market 1 =
        .ok (some .errOverLeveragedOrder) := by
  decide

/-- A long of negative quantity has a positive denominator too: quantity -1 at price 0, on a
market of ratio 0 and index price 0, passes with margin 0 and is refused with margin 1. -/
example :
    let order (fee : String) : Order := { (default : Order) with order := { (default : BaseOrder) with
      makerAssetAmount := ascii "0", takerAssetAmount := ascii "-1", makerFee := ascii fee,
      expirationTimeSeconds := ascii "2", makerFeeAssetData := List.replicate 64 0x30 } }
    let market : DerivativeMarket := ⟨ascii "0", ascii "0"⟩
    Prod.fst <$> (order "0").doesValidationPass true market 1 = .ok none ∧
      (Option.map Error.code ∘ Prod.fst) <$> (order "1").doesValidationPass true market 1 =
        .ok (some .errOverLeveragedOrder) := by
  decide

/-- An order accepted at one block time is accepted at every block time before its expiration, and
from then on refused as expired, the error naming both times. -/
theorem accepted_until_expiration (h : a.Read o.order market)
    (hacc : Prod.fst <$> o.doesValidationPass isLong market t = .ok none) (t' : Int) :
    Prod.fst <$> o.doesValidationPass isLong market t' =
      .ok (if t' < a.expiration then none else some (orderExpiredError a.expiration t')) := by
  obtain ⟨hp, hf⟩ := passes_of_accepted h hacc
  rw [doesValidationPass_of_passes h hf hp] at hacc
  rw [doesValidationPass_eq h hf, if_neg fun ⟨h0, h5⟩ => hp.orderType.elim h0 h5]
  by_cases ht : a.expiration ≤ t'
  · rw [if_pos ht, if_neg (not_lt.mpr ht)]
    rfl
  · rw [if_neg ht, if_neg (not_lt.mpr hp.margin), if_pos (lt_of_not_le ht), hacc]

theorem spec_example_expires_at_two :
    Prod.fst <$> specExampleOrder.doesValidationPass true specExampleMarket 1 = .ok none ∧
      Prod.fst <$> specExampleOrder.doesValidationPass true specExampleMarket 2 =
        .ok (some (orderExpiredError 2 2)) := by
  refine ⟨by decide, ?_⟩
  rw [@accepted_until_expiration specExampleAmounts specExampleOrder specExampleMarket true 1
    (by decide) (by decide) 2]
  rfl

end Validation

section Hold
variable {o : Order} {margin quantity f : Int}

theorem le_incrementByScaledPermyriad (hm : 0 ≤ margin) (hf : 0 ≤ f) :
    margin ≤ incrementByScaledPermyriad margin f := by
  have : 0 ≤ margin * f / permyriadBase := Int.ediv_nonneg (Int.mul_nonneg hm hf) (by decide)
  simp only [incrementByScaledPermyriad, scalePermyriad]
  omega

/-- The hold of an order of positive quantity, non-negative margin and fee rate: the scaled margin
for the full quantity, falling with the remaining quantity but never below 0. -/
theorem computeOrderMarginHold_monotone (hm : bigNumInt o.order.makerFee = some margin)
    (hq : bigNumInt o.order.takerAssetAmount = some quantity) (hq0 : 0 < quantity)
    (hm0 : 0 ≤ margin) (hf : 0 ≤ f) :
    margin ≤ incrementByScaledPermyriad margin f ∧
      o.computeOrderMarginHold quantity f = .ok (incrementByScaledPermyriad margin f) ∧
      ∀ r₁ r₂, 0 ≤ r₁ → r₁ ≤ r₂ → r₂ ≤ quantity →
        ∃ h₁ h₂, o.computeOrderMarginHold r₁ f = .ok h₁ ∧ o.computeOrderMarginHold r₂ f = .ok h₂ ∧
          0 ≤ h₁ ∧ h₁ ≤ h₂ ∧ h₂ ≤ incrementByScaledPermyriad margin f := by
  have hS := le_incrementByScaledPermyriad hm0 hf
  have hold (r : Int) : o.computeOrderMarginHold r f =
      .ok (incrementByScaledPermyriad margin f * r / quantity) := by
    rw [computeOrderMarginHold_eq o hm hq, bigDiv_of_ne hq0.ne']
  generalize incrementByScaledPermyriad margin f = S at *
  refine ⟨hS, by rw [hold, Int.mul_ediv_cancel _ hq0.ne'], fun r₁ r₂ h0 h12 h2q => ?_⟩
  refine ⟨_, _, hold r₁, hold r₂, Int.ediv_nonneg (Int.mul_nonneg (by omega) h0) hq0.le,
    Int.ediv_le_ediv hq0 (Int.mul_le_mul_of_nonneg_left h12 (by omega)), ?_⟩
  calc S * r₂ / quantity ≤ S * quantity / quantity :=
        Int.ediv_le_ediv hq0 (Int.mul_le_mul_of_nonneg_left h2q (by omega))
    _ = S := Int.mul_ediv_cancel _ hq0.ne'

end Hold

theorem spec_example_hold_falls :
    bigNumInt specExampleOrder.order.makerFee = some 150 ∧
      bigNumInt specExampleOrder.order.takerAssetAmount = some 10 ∧ (0 : Int) < 10 ∧
      (0 : Int) ≤ 150 ∧ (0 : Int) ≤ 15 ∧
      (150 ≤ incrementByScaledPermyriad 150 15 ∧
        specExampleOrder.computeOrderMarginHold 10 15 = .ok (incrementByScaledPermyriad 150 15) ∧
        ∀ r₁ r₂, 0 ≤ r₁ → r₁ ≤ r₂ → r₂ ≤ 10 →
          ∃ h₁ h₂, specExampleOrder.computeOrderMarginHold r₁ 15 = .ok h₁ ∧
            specExampleOrder.computeOrderMarginHold r₂ 15 = .ok h₂ ∧
            0 ≤ h₁ ∧ h₁ ≤ h₂ ∧ h₂ ≤ incrementByScaledPermyriad 150 15) :=
  ⟨by decide, by decide, by decide, by decide, by decide,
    @computeOrderMarginHold_monotone specExampleOrder 150 10 15 (by decide) (by decide) (by decide)
      (by decide) (by decide)⟩

end InjectiveSdk.Exchange
