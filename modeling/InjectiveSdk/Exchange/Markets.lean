import InjectiveSdk.Go.Strings
import Mathlib.Tactic.DeriveFintype
import Mathlib.Data.Fintype.Option

namespace InjectiveSdk.Exchange
open InjectiveSdk.Go

/-- The registered errors the market messages wrap. -/
inductive MarketErrorCode
  | errInvalidAddress
  | errBadField
  deriving DecidableEq, Repr

/-- An error built by `sdkerrors.Wrap`: the registered error and its text. -/
structure MarketError where
  code : MarketErrorCode
  msg : Bytes
  deriving DecidableEq, Repr

structure MsgRegisterSpotMarket where
  sender : Bytes
  name : Bytes
  makerAssetData : Bytes
  takerAssetData : Bytes
  deriving DecidableEq, Repr

structure MsgRegisterDerivativeMarket where
  sender : Bytes
  ticker : Bytes
  deriving DecidableEq, Repr

/-- `MsgSuspendDerivativeMarket` and `MsgResumeDerivativeMarket` carry the same fields. -/
structure MsgSuspendDerivativeMarket where
  sender : Bytes
  marketId : Bytes
  exchangeAddress : Bytes
  deriving DecidableEq, Repr

structure MsgResumeDerivativeMarket where
  sender : Bytes
  marketId : Bytes
  exchangeAddress : Bytes
  deriving DecidableEq, Repr

/-- `MsgSuspendSpotMarket` and `MsgResumeSpotMarket` carry the same fields. -/
structure MsgSuspendSpotMarket where
  sender : Bytes
  name : Bytes
  deriving DecidableEq, Repr

structure MsgResumeSpotMarket where
  sender : Bytes
  name : Bytes
  deriving DecidableEq, Repr

/-- `if msg.Sender == ""`, the first check of every market message. -/
def checkSender (sender : Bytes) : Option MarketError :=
  if sender = [] then some ⟨.errInvalidAddress, sender⟩ else none

/-- The check both register messages make of a trade pair name: present, then split at `/` into
exactly two parts, neither of them blank; each message gives its own two texts. -/
def checkPairName (name : Bytes) (missing malformed : String) : Option MarketError :=
  if name = [] then some ⟨.errBadField, ascii missing⟩
  else match split name 0x2f with
    | [base, quote] =>
      if trimSpaceEmpty base || trimSpaceEmpty quote then some ⟨.errBadField, ascii malformed⟩
      else none
    | _ => some ⟨.errBadField, ascii malformed⟩

def MsgRegisterSpotMarket.validateBasic (msg : MsgRegisterSpotMarket) : Option MarketError :=
  checkSender msg.sender <|>
    checkPairName msg.name "no trade pair name specified" "pair name must be in format AAA/BBB" <|>
    if msg.makerAssetData = [] then some ⟨.errBadField, ascii "no maker asset data specified"⟩
    else if msg.takerAssetData = [] then some ⟨.errBadField, ascii "no taker asset data specified"⟩
    else none

def MsgRegisterDerivativeMarket.validateBasic (msg : MsgRegisterDerivativeMarket) :
    Option MarketError :=
  checkSender msg.sender <|>
    checkPairName msg.ticker "no market ticker name specified"
      "market ticker must be in format AAA/BBB"

/-- The checks of the two derivative market switches: the sender, the market ID, then the
exchange address, whose text each message gives. -/
def checkDerivativeMarketSwitch (sender marketId exchangeAddress : Bytes)
    (noExchangeAddress : String) : Option MarketError :=
  checkSender sender <|>
    if marketId = [] then some ⟨.errBadField, ascii "no derivative market ID specified"⟩
    else if exchangeAddress = [] then some ⟨.errBadField, ascii noExchangeAddress⟩
    else none

def MsgSuspendDerivativeMarket.validateBasic (msg : MsgSuspendDerivativeMarket) :
    Option MarketError :=
  checkDerivativeMarketSwitch msg.sender msg.marketId msg.exchangeAddress
    "no derivative exchange address specified"

/-- `MsgResumeDerivativeMarket.ValidateBasic`: a missing exchange address is reported with the
text of a missing market ID. -/
def MsgResumeDerivativeMarket.validateBasic (msg : MsgResumeDerivativeMarket) :
    Option MarketError :=
  checkDerivativeMarketSwitch msg.sender msg.marketId msg.exchangeAddress
    "no derivative market ID specified"

/-- The checks of the two spot market switches: the sender, then the pair name, present in
any form. -/
def checkSpotMarketSwitch (sender name : Bytes) : Option MarketError :=
  checkSender sender <|>
    if name = [] then some ⟨.errBadField, ascii "no trade pair name specified"⟩ else none

def MsgSuspendSpotMarket.validateBasic (msg : MsgSuspendSpotMarket) : Option MarketError :=
  checkSpotMarketSwitch msg.sender msg.name

def MsgResumeSpotMarket.validateBasic (msg : MsgResumeSpotMarket) : Option MarketError :=
  checkSpotMarketSwitch msg.sender msg.name

/-- A trade pair name `AAA/BBB`: two sides around the one `/`, neither of them the UTF-8
encoding of white space alone. -/
def IsPairName (name : Bytes) : Prop :=
  ∃ base quote, name = base ++ 0x2f :: quote ∧ 0x2f ∉ base ∧ 0x2f ∉ quote ∧
    ¬ IsBlank base ∧ ¬ IsBlank quote

section Lemmas
variable {sender name : Bytes} {missing malformed : String}

@[simp] theorem checkSender_eq_none_iff : checkSender sender = none ↔ sender ≠ [] := by
  unfold checkSender
  split_ifs <;> simp_all

theorem checkPairName_eq_none_iff : checkPairName name missing malformed = none ↔ IsPairName name := by
  unfold checkPairName IsPairName
  split_ifs with hn
  · subst hn
    simp
  · split
    · rename_i base quote hs
      obtain ⟨rfl, hb, hq⟩ := split_eq_pair_iff.mp hs
      simp only [ite_eq_right_iff, reduceCtorEq, imp_false, Bool.or_eq_true, not_or,
        trimSpaceEmpty_iff_isBlank]
      constructor
      · rintro ⟨h1, h2⟩
        exact ⟨base, quote, rfl, hb, hq, h1, h2⟩
      · rintro ⟨b, q, he, hb', hq', h1, h2⟩
        obtain ⟨rfl, rfl⟩ : b = base ∧ q = quote := by
          have := split_eq_pair_iff.mpr ⟨he, hb', hq'⟩
          rw [hs] at this
          simpa using this.symm
        exact ⟨h1, h2⟩
    · rename_i hs
      simp only [reduceCtorEq, false_iff]
      rintro ⟨b, q, he, hb, hq, -⟩
      exact hs b q (split_eq_pair_iff.mpr ⟨he, hb, hq⟩)

end Lemmas

/-- Both register messages accept exactly a sender and a pair name `AAA/BBB`, neither side white
space alone; the spot market also wants both asset data. -/
theorem register_markets_accept_iff :
    (∀ msg : MsgRegisterSpotMarket, msg.validateBasic = none ↔
      msg.sender ≠ [] ∧ IsPairName msg.name ∧ msg.makerAssetData ≠ [] ∧
        msg.takerAssetData ≠ []) ∧
    ∀ msg : MsgRegisterDerivativeMarket, msg.validateBasic = none ↔
      msg.sender ≠ [] ∧ IsPairName msg.ticker := by
  refine ⟨fun msg => ?_, fun msg => ?_⟩
  · simp only [MsgRegisterSpotMarket.validateBasic, Option.orElse_eq_none, checkSender_eq_none_iff,
      checkPairName_eq_none_iff]
    split_ifs <;> simp_all
  · simp only [MsgRegisterDerivativeMarket.validateBasic, Option.orElse_eq_none,
      checkSender_eq_none_iff, checkPairName_eq_none_iff]

end InjectiveSdk.Exchange
