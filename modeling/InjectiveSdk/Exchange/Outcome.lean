import InjectiveSdk.Exchange.Margin

namespace InjectiveSdk.Exchange
open InjectiveSdk.Go

/-- A step leaves the signed order of `o` as it was, whatever it returns. -/
def KeepsOrder (c : Checked) (o : Order) : Prop :=
  ∀ r o', c = .ok (r, o') → o'.order = o.order

section Steps
variable {o o' : Order} {r : Option Error} {market : DerivativeMarket} {isLong : Bool} {t : Int}

theorem Checked.andThen_eq_ok {prev : Checked} {next : Order → Checked}
    (h : prev.andThen next = .ok (r, o')) :
    (r.isSome ∧ prev = .ok (r, o')) ∨ ∃ o₁, prev = .ok (none, o₁) ∧ next o₁ = .ok (r, o') := by
  match prev, h with
  | .ok (none, o₁), h => exact .inr ⟨o₁, rfl, h⟩
  | .ok (some _, _), h => cases h; exact .inl ⟨rfl, rfl⟩
  | .error _, h => cases h

theorem Checked.andThen_eq_ok_none {prev : Checked} {next : Order → Checked}
    (h : prev.andThen next = .ok (none, o')) :
    ∃ o₁, prev = .ok (none, o₁) ∧ next o₁ = .ok (none, o') := by
  rcases Checked.andThen_eq_ok h with ⟨hs, -⟩ | h
  · cases hs
  · exact h

theorem KeepsOrder.andThen {prev : Checked} {next : Order → Checked} (hp : KeepsOrder prev o)
    (hn : ∀ o₁, KeepsOrder (next o₁) o₁) : KeepsOrder (prev.andThen next) o := by
  intro r o' h
  rcases Checked.andThen_eq_ok h with ⟨-, h1⟩ | ⟨o₁, h1, h2⟩
  · exact hp _ _ h1
  · exact (hn o₁ _ _ h2).trans (hp _ _ h1)

/-- `ComputeAndSetOrderType` returns its error with the order as it was, or nil with the order
type set to 0 or 5. -/
theorem computeAndSetOrderType_eq_ok (h : o.computeAndSetOrderType = .ok (r, o')) :
    (r.isSome ∧ o' = o) ∨ r = none ∧ (o'.orderType = 0 ∨ o'.orderType = 5) ∧
      o' = { o with orderType := o'.orderType } := by
  obtain ⟨typeBytes, -, h⟩ := bind_eq_ok.mp h
  dsimp only at h
  split_ifs at h with hn <;> cases h
  · exact .inl ⟨rfl, rfl⟩
  · exact .inr ⟨rfl, by tauto, rfl⟩

theorem checkExpiration_eq_ok (h : o.checkExpiration t = .ok (r, o')) : o' = o := by
  obtain ⟨_, -, h⟩ := bind_eq_ok.mp h
  dsimp only at h
  split_ifs at h <;> cases h <;> rfl

theorem checkContractPriceMargin_eq_ok (h : o.checkContractPriceMargin market = .ok (r, o')) :
    o' = o := by
  obtain ⟨_, -, h⟩ := bind_eq_ok.mp h
  obtain ⟨_, -, h⟩ := bind_eq_ok.mp h
  split_ifs at h <;> cases h <;> rfl

theorem computeIndexPriceMarginRequirement_eq_ok {q : Int}
    (h : o.computeIndexPriceMarginRequirement isLong market = .ok (q, o')) :
    o' = { o with indexPriceRequirement := bigIntString q } := by
  simp only [Order.computeIndexPriceMarginRequirement, bind_eq_ok] at h
  obtain ⟨_, -, _, -, _, -, _, -, _, -, h⟩ := h
  cases h
  rfl

theorem checkIndexPriceMargin_eq_ok (h : o.checkIndexPriceMargin isLong market = .ok (r, o')) :
    ∃ q, o' = { o with indexPriceRequirement := bigIntString q } ∧
      (r = none → ∃ ip, bigNumInt market.indexPrice = some ip ∧
        if isLong then q ≤ ip else ip ≤ q) := by
  obtain ⟨⟨q, o₁⟩, hq, h⟩ := bind_eq_ok.mp h
  obtain ⟨ip, hip, h⟩ := bind_eq_ok.mp h
  have hip : bigNumInt market.indexPrice = some ip := by
    unfold readInt at hip
    split at hip <;> cases hip
    assumption
  obtain rfl := computeIndexPriceMarginRequirement_eq_ok hq
  refine ⟨q, ?_⟩
  split_ifs at h with h1 h2 <;> cases h
  · exact ⟨rfl, nofun⟩
  · exact ⟨rfl, nofun⟩
  · refine ⟨rfl, fun _ => ⟨ip, hip, ?_⟩⟩
    cases isLong
    · simpa using h2
    · simpa using h1

theorem keepsOrder_doesValidationPass (o : Order) :
    KeepsOrder (o.doesValidationPass isLong market t) o := by
  refine KeepsOrder.andThen (KeepsOrder.andThen (KeepsOrder.andThen ?_ fun o₁ => ?_) fun o₂ => ?_)
    fun o₃ => ?_
  · intro r o' h
    rcases computeAndSetOrderType_eq_ok h with ⟨-, rfl⟩ | ⟨-, -, e⟩
    · rfl
    · rw [e]
  · exact fun r o' h => by rw [checkExpiration_eq_ok h]
  · exact fun r o' h => by rw [checkContractPriceMargin_eq_ok h]
  · intro r o' h
    obtain ⟨q, rfl, -⟩ := checkIndexPriceMargin_eq_ok h
    rfl

/-- `DoesValidationPass` keeps the signed order; on acceptance it sets type 0 or 5 and stores a
requirement `q` that reads back, with the index price on the side of `q` the direction allows. -/
theorem doesValidationPass_leaves_order (h : o.doesValidationPass isLong market t = .ok (r, o')) :
    o'.order = o.order ∧ (r = none → (o'.orderType = 0 ∨ o'.orderType = 5) ∧
      ∃ q ip, o'.indexPriceRequirement = bigIntString q ∧
        bigNumInt o'.indexPriceRequirement = some q ∧ bigNumInt market.indexPrice = some ip ∧
        if isLong then q ≤ ip else ip ≤ q) := by
  refine ⟨keepsOrder_doesValidationPass o r o' h, fun hr => ?_⟩
  subst hr
  obtain ⟨o₃, h3, h4⟩ := Checked.andThen_eq_ok_none h
  obtain ⟨o₂, h2, h3⟩ := Checked.andThen_eq_ok_none h3
  obtain ⟨o₁, h1, h2⟩ := Checked.andThen_eq_ok_none h2
  rcases computeAndSetOrderType_eq_ok h1 with ⟨hs, -⟩ | ⟨-, hn, -⟩
  · cases hs
  obtain rfl := checkExpiration_eq_ok h2
  obtain rfl := checkContractPriceMargin_eq_ok h3
  obtain ⟨q, rfl, hq⟩ := checkIndexPriceMargin_eq_ok h4
  obtain ⟨ip, hip, hside⟩ := hq rfl
  exact ⟨hn, q, ip, rfl, setString_bigIntString q, hip, hside⟩

end Steps

/-- Two runs of validation agree, given a relation `R` on the orders they pass on: they give the
same panic, or the same error or nil, and when both pass, orders related by `R`. -/
def Checked.Agree (R : Order → Order → Prop) (c₁ c₂ : Checked) : Prop :=
  Prod.fst <$> c₁ = Prod.fst <$> c₂ ∧
    ∀ o₁ o₂, c₁ = .ok (none, o₁) → c₂ = .ok (none, o₂) → R o₁ o₂

section TwoRuns
variable {o₁ o₂ : Order} {market : DerivativeMarket} {isLong : Bool} {t : Int}

theorem Checked.Agree.andThen {R S : Order → Order → Prop} {c₁ c₂ : Checked}
    {next : Order → Checked} (h : c₁.Agree R c₂)
    (hn : ∀ o₁ o₂, R o₁ o₂ → (next o₁).Agree S (next o₂)) :
    (c₁.andThen next).Agree S (c₂.andThen next) := by
  obtain ⟨hv, hR⟩ := h
  rcases c₁ with p | ⟨r, o₁⟩ <;> rcases c₂ with q | ⟨r', o₂⟩ <;> cases hv
  · exact ⟨rfl, nofun⟩
  · cases r with
    | none => exact hn o₁ o₂ (hR o₁ o₂ rfl rfl)
    | some e => exact ⟨rfl, nofun⟩

theorem Checked.Agree.of_keeps {R : Order → Order → Prop} {c : Order → Checked}
    (hk : ∀ o r o', c o = .ok (r, o') → o' = o) (hv : Prod.fst <$> c o₁ = Prod.fst <$> c o₂)
    (hR : R o₁ o₂) : (c o₁).Agree R (c o₂) :=
  ⟨hv, fun _ _ h₁ h₂ => hk _ _ _ h₁ ▸ hk _ _ _ h₂ ▸ hR⟩

/-- `ComputeAndSetOrderType` on the same signed order: the same verdict, and the same order
type written. -/
theorem computeAndSetOrderType_agree (h : o₁.order = o₂.order) :
    o₁.computeAndSetOrderType.Agree (fun a b => a.order = b.order ∧ a.orderType = b.orderType)
      o₂.computeAndSetOrderType := by
  refine ⟨by simp only [Order.computeAndSetOrderType, h, map_bind, apply_ite, map_pure,
    unrecognizedOrderTypeError], fun a b h₁ h₂ => ?_⟩
  obtain ⟨typeBytes, hb₁, h₁⟩ := bind_eq_ok.mp h₁
  obtain ⟨typeBytes', hb₂, h₂⟩ := bind_eq_ok.mp h₂
  obtain rfl : typeBytes = typeBytes' := by rw [h] at hb₁; simpa [hb₁] using hb₂
  dsimp only at h₁ h₂
  split_ifs at h₁ h₂
  · cases h₁
  · cases h₁
    cases h₂
    exact ⟨h, rfl⟩

theorem checkExpiration_agree {R : Order → Order → Prop} (h : o₁.order = o₂.order)
    (hR : R o₁ o₂) : (o₁.checkExpiration t).Agree R (o₂.checkExpiration t) :=
  Checked.Agree.of_keeps (fun _ _ _ => checkExpiration_eq_ok)
    (by simp only [Order.checkExpiration, h, map_bind, apply_ite, map_pure]) hR

theorem checkContractPriceMargin_agree {R : Order → Order → Prop} (h : o₁.order = o₂.order)
    (hR : R o₁ o₂) :
    (o₁.checkContractPriceMargin market).Agree R (o₂.checkContractPriceMargin market) :=
  Checked.Agree.of_keeps (fun _ _ _ => checkContractPriceMargin_eq_ok)
    (by simp only [Order.checkContractPriceMargin, Order.computeContractPriceMarginRequirement, h,
      map_bind, apply_ite, map_pure]) hR

/-- The index-price check never reads the requirement it stores. -/
theorem checkIndexPriceMargin_overwrites (s : Bytes) (o : Order) :
    ({ o with indexPriceRequirement := s } : Order).checkIndexPriceMargin isLong market =
      o.checkIndexPriceMargin isLong market := rfl

/-- `DoesValidationPass` reads none of the fields it writes: two orders with one signed order get
the same outcome, and an accepted order is accepted again unchanged. -/
theorem doesValidationPass_reads_only_signed_order (h : o₁.order = o₂.order) :
    Prod.fst <$> o₁.doesValidationPass isLong market t =
        Prod.fst <$> o₂.doesValidationPass isLong market t ∧
      ∀ o', o₁.doesValidationPass isLong market t = .ok (none, o') →
        o₂.doesValidationPass isLong market t = .ok (none, o') ∧
          o'.doesValidationPass isLong market t = .ok (none, o') := by
  have agree {o₁ o₂ : Order} (h : o₁.order = o₂.order) :
      (o₁.doesValidationPass isLong market t).Agree (· = ·)
        (o₂.doesValidationPass isLong market t) := by
    refine (((computeAndSetOrderType_agree h).andThen fun a b hab =>
      checkExpiration_agree hab.1 hab).andThen fun a b hab =>
        checkContractPriceMargin_agree hab.1 hab).andThen fun a b ⟨ho, hτ⟩ => ?_
    have hb : b = { a with indexPriceRequirement := b.indexPriceRequirement } := by
      cases a; cases b; simp_all
    have e : b.checkIndexPriceMargin isLong market = a.checkIndexPriceMargin isLong market := by
      rw [hb]
      exact checkIndexPriceMargin_overwrites _ a
    rw [e]
    exact ⟨rfl, fun _ _ h₁ h₂ => by rw [h₁] at h₂; cases h₂; rfl⟩
  have rerun {o₁ o₂ : Order} (h : o₁.order = o₂.order) (o' : Order)
      (h₁ : o₁.doesValidationPass isLong market t = .ok (none, o')) :
      o₂.doesValidationPass isLong market t = .ok (none, o') := by
    obtain ⟨hv, hR⟩ := agree h
    rw [h₁] at hv
    cases h₂ : o₂.doesValidationPass isLong market t with
    | error p => rw [h₂] at hv; cases hv
    | ok p =>
      obtain ⟨r, o₂'⟩ := p
      rw [h₂] at hv
      cases hv
      rw [hR o' o₂' h₁ h₂]
  refine ⟨(agree h).1, fun o' h₁ => ⟨rerun h o' h₁, rerun ?_ o' h₁⟩⟩
  exact (keepsOrder_doesValidationPass o₁ none o' h₁).symm

/-- The spec's example order, carrying a stale order type and requirement, is validated as the
order itself is. -/
theorem stale_fields_validated_alike :
    Prod.fst <$> specExampleOrder.doesValidationPass true specExampleMarket 1 =
        Prod.fst <$> ({ specExampleOrder with orderType := 7, indexPriceRequirement := ascii "1" } :
          Order).doesValidationPass true specExampleMarket 1 ∧
      ∀ o', specExampleOrder.doesValidationPass true specExampleMarket 1 = .ok (none, o') →
        ({ specExampleOrder with orderType := 7, indexPriceRequirement := ascii "1" } :
          Order).doesValidationPass true specExampleMarket 1 = .ok (none, o') ∧
          o'.doesValidationPass true specExampleMarket 1 = .ok (none, o') :=
  @doesValidationPass_reads_only_signed_order specExampleOrder
    { specExampleOrder with orderType := 7, indexPriceRequirement := ascii "1" } specExampleMarket
    true 1 rfl

end TwoRuns

/-- The spec's example order is accepted with order type 0 and the requirement 95 stored, the
market's index price. -/
theorem spec_example_stores_requirement :
    specExampleOrder.doesValidationPass true specExampleMarket 1 =
        .ok (none, { specExampleOrder with orderType := 0, indexPriceRequirement := ascii "95" }) ∧
      specExampleOrder.order = specExampleOrder.order ∧
      ((none : Option Error) = none → ((0 : UInt64) = 0 ∨ (0 : UInt64) = 5) ∧
        ∃ q ip, ascii "95" = bigIntString q ∧ bigNumInt (ascii "95") = some q ∧
          bigNumInt specExampleMarket.indexPrice = some ip ∧ if true then q ≤ ip else ip ≤ q) :=
  ⟨by decide, @doesValidationPass_leaves_order specExampleOrder
    { specExampleOrder with orderType := 0, indexPriceRequirement := ascii "95" } none
    specExampleMarket true 1 (by decide)⟩

end InjectiveSdk.Exchange
