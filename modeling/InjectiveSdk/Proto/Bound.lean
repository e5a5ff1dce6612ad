import InjectiveSdk.Proto.Unknown

namespace InjectiveSdk.Proto
open InjectiveSdk.Go

section Varint

theorem toNat_accumulate_lt {wire : UInt64} {b : UInt8} {shift : Nat} (hs : shift < 64)
    (hw : wire.toNat < 2 ^ shift) :
    (wire ||| ((b &&& 0x7F).toUInt64 <<< shift.toUInt64)).toNat < 2 ^ (shift + 7) := by
  have hand : (b &&& 0x7F).toUInt64.toNat < 2 ^ 7 := by
    show (b &&& 0x7F).toNat < 2 ^ 7
    rw [UInt8.and_toNat]
    exact lt_of_le_of_lt Nat.and_le_right (by decide)
  have hP : 2 ^ (shift + 7) = 2 ^ 7 * 2 ^ shift := by rw [Nat.pow_add, Nat.mul_comm]
  rw [toNat_or, toNat_shiftLeft_of_lt _ hs]
  refine Nat.or_lt_two_pow (lt_of_lt_of_le hw (Nat.pow_le_pow_right (by decide) (by omega)))
    (lt_of_le_of_lt (Nat.mod_le _ _) ?_)
  rw [hP]
  exact Nat.mul_lt_mul_of_pos_right hand (Nat.two_pow_pos _)

/-- A varint read from `shift` on top of `wire < 2^shift` takes `n ≥ 1` bytes and gives a
value below `2^(shift + 7n)`. -/
theorem varintLoop_width {dAtA : Bytes} {shift : Nat} {iNdEx : Int} {wire v : UInt64} {j : Int}
    (hw : wire.toNat < 2 ^ shift) (h : varintLoop dAtA shift iNdEx wire = .ok (v, j)) :
    ∃ n : Nat, j = iNdEx + n ∧ 0 < n ∧ v.toNat < 2 ^ (shift + 7 * n) := by
  induction shift, iNdEx, wire using varintLoop.induct dAtA with
  | case1 shift iNdEx wire hs => rw [varintLoop, dif_pos hs] at h; cases h
  | case2 shift iNdEx wire hs hl => rw [varintLoop, dif_neg hs, if_pos hl] at h; cases h
  | case3 shift iNdEx wire hs hl ih =>
    rw [varintLoop, dif_neg hs, if_neg hl] at h
    obtain ⟨b, -, h⟩ := bind_eq_ok.mp h
    have hacc := @toNat_accumulate_lt wire b shift (by omega) hw
    dsimp only at h
    split at h
    · obtain ⟨rfl, rfl⟩ := Prod.mk.inj (Except.ok.inj h).symm
      exact ⟨1, by simp, by omega, by simpa using hacc⟩
    · obtain ⟨n, rfl, -, hv⟩ := ih b hacc h
      refine ⟨n + 1, by push_cast; ring, by omega, ?_⟩
      rwa [show shift + 7 * (n + 1) = shift + 7 + 7 * n by ring]

theorem readVarint_width {dAtA : Bytes} {iNdEx j : Int} {v : UInt64}
    (h : readVarint dAtA iNdEx = .ok (v, j)) : iNdEx + sovTxResponse v ≤ j := by
  obtain ⟨n, rfl, hn, hv⟩ := varintLoop_width (by decide) h
  have := (sovTxResponse_le_iff hn v).mpr (by simpa using hv)
  omega

end Varint

section Field
variable {dAtA : Bytes}

theorem toNat_of_toInt_nonneg {v : UInt64} (h : 0 ≤ toInt v) : toInt v = v.toNat := by
  have hv : v.toNat < 2 ^ 64 := v.toBitVec.isLt
  rw [toInt, Int.bmod_def, Int.emod_eq_of_lt (by omega) (by omega)] at h ⊢
  split_ifs at h ⊢
  · rfl
  · omega

/-- A length-delimited field that passes the checks takes at least the bytes `Size` counts for
it: the varint of its length, then its bytes. -/
theorem readBytesField_width {name : Bytes} {wireType : Nat} {iNdEx j : Int} {b : Bytes}
    (hl : dAtA.length ≤ maxInt) (h0 : 0 ≤ iNdEx)
    (h : readBytesField name dAtA wireType iNdEx = .ok (j, b)) :
    iNdEx + sovTxResponse (toUint64 b.length) + b.length ≤ j := by
  rw [readBytesField] at h
  split_ifs at h
  obtain ⟨⟨i, post⟩, hr, hc⟩ := bind_eq_ok.mp h
  rw [readLength] at hr
  obtain ⟨⟨v, i'⟩, hv, hr⟩ := bind_eq_ok.mp hr
  have hw := readVarint_width hv
  have hi := (readVarint_returns h0).of_ok hv
  have hlt := toInt_lt v
  dsimp only at hr hi
  split_ifs at hr with h1 h2 h3
  obtain ⟨rfl, rfl⟩ : i' = i ∧ addInt i' (toInt v) = post := by simpa using hr
  have hlen := toNat_of_toInt_nonneg (not_lt.mp h1)
  rcases @addInt_cases i' (toInt v) (by omega) (by omega) (not_lt.mp h1) (by simp only [maxInt]; omega) with
    hneg | ⟨hsum, -⟩
  · exact absurd hneg h2
  dsimp only at hc
  rw [hsum] at h3 hc
  rw [InjectiveSdk.Go.slice, if_pos ⟨by omega, by omega, not_lt.mp h3⟩, liftPanic_ok, ok_bind]
    at hc
  obtain ⟨rfl, rfl⟩ := Prod.mk.inj (Except.ok.inj hc).symm
  have hb : ((dAtA.take (i' + toInt v).toNat).drop i'.toNat).length = v.toNat := by
    simp only [List.length_drop, List.length_take]
    omega
  have hu : toUint64 ((dAtA.take (i' + toInt v).toNat).drop i'.toNat).length = v :=
    UInt64.toNat.inj
      (by rw [hb, toNat_toUint64_of_lt (show v.toNat < 2 ^ 64 from v.toBitVec.isLt)])
  rw [hu, hb]
  omega

theorem sovTxResponse_toUint64_mono {a b : Nat} (hab : a ≤ b) (hb : b < 2 ^ 64) :
    sovTxResponse (toUint64 a) ≤ sovTxResponse (toUint64 b) := by
  have hg : 0 < sovTxResponse (toUint64 b) := by
    rw [sovTxResponse_eq]
    exact length_varintBytes_pos _
  have hlt := (sovTxResponse_le_iff hg (toUint64 b)).mp le_rfl
  rw [toNat_toUint64_of_lt hb] at hlt
  exact (sovTxResponse_le_iff hg _).mpr (by rw [toNat_toUint64_of_lt (by omega)]; omega)

end Field

section Loop
variable {σ : Type} {message : Bytes}
  {field : Bytes → Int → Nat → Int → σ → Option (Decode (Int × σ))} {B : Bytes}

/-- A pass adds to the message no more than the bytes it reads, when each `case` adds no more
than the bytes it reads and the tag before them. -/
theorem unmarshalPass_size (size : σ → Nat)
    (hsize : ∀ {fieldNum wireType i i' m m'}, 0 ≤ i →
      field B fieldNum wireType i m = some (.ok (i', m')) → (size m' : Int) + i ≤ size m + i' + 1)
    (hl : B.length ≤ maxInt) {i j : Int} {m m₁ : σ} (h0 : 0 ≤ i)
    (h : unmarshalPass message field B i m = .ok (j, m₁)) : (size m₁ : Int) + i ≤ size m + j := by
  rw [unmarshalPass] at h
  obtain ⟨⟨fieldNum, wireType, i₁⟩, ht, hc⟩ := bind_eq_ok.mp h
  have hi₁ := (readTag_returns message h0).of_ok ht
  dsimp only at hc hi₁
  revert hc
  split
  · rename_i read hf
    intro hc
    subst hc
    have := @hsize fieldNum wireType i₁ j m m₁ (by omega) hf
    omega
  · intro hc
    obtain ⟨k, hk, hc⟩ := bind_eq_ok.mp hc
    obtain ⟨rfl, rfl⟩ : k = j ∧ m = m₁ := by simpa using hc
    have := (skipField_returns hl h0 (by omega)).of_ok hk
    omega

/-- A run of the loop adds to the message no more than the bytes it reads. -/
theorem unmarshalLoop_size (hs : FieldSwitch field) (size : σ → Nat)
    (hsize : ∀ {fieldNum wireType i i' m m'}, 0 ≤ i →
      field B fieldNum wireType i m = some (.ok (i', m')) → (size m' : Int) + i ≤ size m + i' + 1)
    (hl : B.length ≤ maxInt) {fuel : Nat} {i : Int} {m m' : σ} (h0 : 0 ≤ i)
    (h : unmarshalLoop message field B fuel i m = .ok m') : (size m' : Int) + i ≤ size m + B.length := by
  induction fuel generalizing i m with
  | zero => cases h
  | succ fuel ih =>
    rw [unmarshalLoop_succ] at h
    split_ifs at h with h1 h2
    · obtain ⟨⟨j, m₁⟩, hp, hc⟩ := bind_eq_ok.mp h
      have hj := (unmarshalPass_returns hs hl h0 m).of_ok hp
      have hpass := unmarshalPass_size size hsize hl h0 hp
      dsimp only at hj hc
      have hrest := ih (by omega) hc
      omega
    · obtain rfl : m = m' := by simpa using h
      omega

end Loop

section Messages

/-- What a field read with the bytes from `i` to `i'` adds to `Size` is at most those bytes and
its tag. -/
theorem fieldSize_le_width {c : Bytes} {i i' : Int}
    (hw : i + sovTxResponse (toUint64 c.length) + c.length ≤ i') :
    ((if c.length > 0 then fieldSize c.length else 0 : Nat) : Int) + i ≤ i' + 1 := by
  split_ifs
  · simp only [fieldSize]
    push_cast
    omega
  · push_cast
    omega

theorem TxResponseGenericMessage.unmarshalField_size {B : Bytes} (hl : B.length ≤ maxInt)
    {fieldNum : Int} {wireType : Nat} {i i' : Int} {m m' : TxResponseGenericMessage}
    (h0 : 0 ≤ i) (h : TxResponseGenericMessage.unmarshalField B fieldNum wireType i m =
      some (.ok (i', m'))) : (m'.size : Int) + i ≤ m.size + i' + 1 := by
  unfold TxResponseGenericMessage.unmarshalField at h
  split at h
  · obtain ⟨⟨j, c⟩, hr, hc⟩ := bind_eq_ok.mp (Option.some.inj h)
    obtain ⟨rfl, rfl⟩ : j = i' ∧ { m with header := c } = m' := by simpa using hc
    have := fieldSize_le_width (readBytesField_width hl h0 hr)
    simp only [TxResponseGenericMessage.size, Nat.cast_add] at this ⊢
    omega
  · obtain ⟨⟨j, c⟩, hr, hc⟩ := bind_eq_ok.mp (Option.some.inj h)
    obtain ⟨rfl, rfl⟩ : j = i' ∧ { m with data := c } = m' := by simpa using hc
    have := fieldSize_le_width (readBytesField_width hl h0 hr)
    simp only [TxResponseGenericMessage.size, Nat.cast_add] at this ⊢
    omega
  · cases h

theorem TxResponseGenericMessage.unmarshal_size_le {m₀ m : TxResponseGenericMessage} {b : Bytes}
    (hl : b.length ≤ maxInt) (h : m₀.unmarshal b = .ok m) : m.size ≤ m₀.size + b.length := by
  have := unmarshalLoop_size fieldSwitch TxResponseGenericMessage.size
    (fun h0 hf => unmarshalField_size hl h0 hf) hl le_rfl h
  omega

theorem TxResponseData.size_concat (ms : List TxResponseGenericMessage)
    (e : TxResponseGenericMessage) :
    (⟨ms ++ [e]⟩ : TxResponseData).size = (⟨ms⟩ : TxResponseData).size + fieldSize e.size := by
  induction ms with
  | nil => simp [TxResponseData.size]
  | cons a ms ih =>
    simp only [List.cons_append, TxResponseData.size_cons, ih]
    omega

theorem TxResponseData.unmarshalField_size {B : Bytes} (hl : B.length ≤ maxInt)
    {fieldNum : Int} {wireType : Nat} {i i' : Int} {m m' : TxResponseData}
    (h0 : 0 ≤ i) (h : TxResponseData.unmarshalField B fieldNum wireType i m =
      some (.ok (i', m'))) : (m'.size : Int) + i ≤ m.size + i' + 1 := by
  unfold TxResponseData.unmarshalField at h
  split at h
  · obtain ⟨⟨j, c⟩, hr, hc⟩ := bind_eq_ok.mp (Option.some.inj h)
    obtain ⟨e, he, hc⟩ := bind_eq_ok.mp hc
    obtain ⟨rfl, rfl⟩ : j = i' ∧ ⟨m.messages ++ [e]⟩ = m' := by simpa using hc
    have hw := readBytesField_width hl h0 hr
    have hc : c.length ≤ B.length := ((readBytesField_returns hl _ _ h0).of_ok hr).2.2
    have hes := TxResponseGenericMessage.unmarshal_size_le (by omega) he
    have hd : (default : TxResponseGenericMessage).size = 0 := rfl
    have hsov := sovTxResponse_toUint64_mono (show e.size ≤ c.length by omega)
      (by simp only [maxInt] at hl; omega)
    rw [TxResponseData.size_concat, show (⟨m.messages⟩ : TxResponseData) = m from rfl, fieldSize]
    push_cast
    omega
  · cases h

theorem TxResponseData.unmarshal_size_le {m₀ m : TxResponseData} {b : Bytes}
    (hl : b.length ≤ maxInt) (h : m₀.unmarshal b = .ok m) : m.size ≤ m₀.size + b.length := by
  have := unmarshalLoop_size fieldSwitch TxResponseData.size
    (fun h0 hf => unmarshalField_size hl h0 hf) hl le_rfl h
  omega

end Messages

/-- Decoding `b` into `m₀` gives a message whose `Size` is at most `Size(m₀) + len(b)`. -/
theorem unmarshal_size_le_input :
    (∀ (m₀ m : TxResponseData) (b : Bytes), b.length ≤ maxInt → m₀.unmarshal b = .ok m →
      m.size ≤ m₀.size + b.length) ∧
    (∀ (m₀ m : TxResponseGenericMessage) (b : Bytes), b.length ≤ maxInt →
      m₀.unmarshal b = .ok m → m.size ≤ m₀.size + b.length) :=
  ⟨fun _ _ _ hl h => TxResponseData.unmarshal_size_le hl h,
    fun _ _ _ hl h => TxResponseGenericMessage.unmarshal_size_le hl h⟩

theorem one_message_size_le_input :
    (⟨[⟨ascii "a", []⟩]⟩ : TxResponseData).encode.length ≤ maxInt ∧
      TxResponseData.unmarshal default (⟨[⟨ascii "a", []⟩]⟩ : TxResponseData).encode =
        .ok ⟨[⟨ascii "a", []⟩]⟩ ∧
      (⟨[⟨ascii "a", []⟩]⟩ : TxResponseData).size ≤
        (default : TxResponseData).size + (⟨[⟨ascii "a", []⟩]⟩ : TxResponseData).encode.length := by
  have hl : (⟨[⟨ascii "a", []⟩]⟩ : TxResponseData).encode.length ≤ maxInt := by
    rw [TxResponseData.length_encode _ (by decide)]
    decide
  have hu := TxResponseData.unmarshal_encode_merge default ⟨[⟨ascii "a", []⟩]⟩ hl
  exact ⟨hl, hu, unmarshal_size_le_input.1 _ _ _ hl hu⟩

end InjectiveSdk.Proto
