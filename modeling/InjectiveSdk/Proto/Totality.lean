import InjectiveSdk.Proto.Unmarshal

namespace InjectiveSdk.Proto
open InjectiveSdk.Go

variable {dAtA : Bytes}

theorem readVarint_returns {iNdEx : Int} (h0 : 0 ≤ iNdEx) :
    Returns (fun r : UInt64 × Int => iNdEx < r.2 ∧ r.2 ≤ dAtA.length) (readVarint dAtA iNdEx) :=
  varintLoop_returns dAtA 0 0 h0

theorem skipVarintLoop_returns {iNdEx : Int} (h0 : 0 ≤ iNdEx) :
    Returns (fun j => iNdEx < j ∧ j ≤ dAtA.length) (skipVarintLoop dAtA 0 iNdEx) := by
  rw [skipVarintLoop_eq dAtA 0 iNdEx 0]
  exact (varintLoop_returns dAtA 0 0 h0).map

theorem readTag_returns (message : Bytes) {iNdEx : Int} (h0 : 0 ≤ iNdEx) :
    Returns (fun r : Int × Nat × Int => iNdEx < r.2.2 ∧ r.2.2 ≤ dAtA.length)
      (readTag message dAtA iNdEx) := by
  refine (readVarint_returns h0).bind fun ⟨wire, j⟩ hj => ?_
  dsimp only
  generalize toInt32 (wire >>> 3) = fieldNum
  split_ifs
  · exact .fail _
  · exact .fail _
  · exact .ok hj

section Bounded

-- A Go slice's length is an `int`, so it is at most `maxInt`.
variable (hl : dAtA.length ≤ maxInt)
include hl

theorem readLength_returns {iNdEx : Int} (h0 : 0 ≤ iNdEx) :
    Returns (fun r : Int × Int => iNdEx < r.1 ∧ r.1 ≤ r.2 ∧ r.2 ≤ dAtA.length)
      (readLength dAtA iNdEx) := by
  refine (readVarint_returns h0).bind fun ⟨length, j⟩ hj => ?_
  dsimp only at hj ⊢
  have hlt := toInt_lt length
  generalize toInt length = len at hlt ⊢
  split_ifs with h1 h2 h3
  · exact .fail _
  · exact .fail _
  · exact .fail _
  · have := @addInt_cases j len (by omega) (by omega) (by omega) (by simp only [maxInt]; omega)
    exact .ok ⟨hj.1, by omega, by omega⟩

theorem readBytesField_returns (name : Bytes) (wireType : Nat)
    {iNdEx : Int} (h0 : 0 ≤ iNdEx) :
    Returns (fun r : Int × Bytes => iNdEx < r.1 ∧ r.1 ≤ dAtA.length ∧ r.2.length ≤ dAtA.length)
      (readBytesField name dAtA wireType iNdEx) := by
  rw [readBytesField]
  split_ifs
  · exact .fail _
  · refine (readLength_returns hl h0).bind fun ⟨j, post⟩ hj => ?_
    obtain ⟨s, hs, hsl⟩ := @slice_of_le dAtA j post (by omega) hj.2.1 hj.2.2
    simp only [hs, liftPanic_ok, ok_bind]
    exact .ok ⟨by omega, hj.2.2, hsl⟩

/-- Each wire type moves the index forward to where an `int` still holds it, unless the sum
wraps, which the loop then rejects. -/
theorem skipWireType_returns (wireType : Nat) {iNdEx : Int} (depth : Nat) (h0 : 0 ≤ iNdEx)
    (hi : iNdEx ≤ dAtA.length) :
    Returns (fun r : Int × Nat => r.1 < 0 ∨ iNdEx ≤ r.1 ∧ r.1 ≤ maxInt)
      (skipWireType dAtA wireType iNdEx depth) := by
  have hmax : iNdEx ≤ maxInt := by omega
  unfold skipWireType
  split
  · exact (skipVarintLoop_returns h0).bind fun j hj => .ok (.inr ⟨by omega, by omega⟩)
  · exact .ok (by have := addInt_cases h0 hmax (by decide) (by decide : (8 : Int) ≤ maxInt); omega)
  · refine (readVarint_returns h0).bind fun ⟨length, j⟩ hj => ?_
    dsimp only at hj ⊢
    have hlt := toInt_lt length
    generalize toInt length = len at hlt ⊢
    split_ifs with h1
    · exact .fail _
    · exact .ok (by
        have := @addInt_cases j len (by omega) (by omega) (by omega) (by simp only [maxInt]; omega)
        omega)
  · exact .ok (.inr ⟨le_rfl, hmax⟩)
  · split_ifs
    · exact .fail _
    · exact .ok (.inr ⟨le_rfl, hmax⟩)
  · exact .ok (by have := addInt_cases h0 hmax (by decide) (by decide : (4 : Int) ≤ maxInt); omega)
  · exact .fail _

theorem skipLoop_returns (fuel : Nat) {iNdEx : Int} (depth : Nat) (h0 : 0 ≤ iNdEx)
    (hfuel : (dAtA.length - iNdEx).toNat < fuel) :
    Returns (fun r => iNdEx < r ∧ r ≤ maxInt) (skipLoop dAtA fuel iNdEx depth) := by
  induction fuel generalizing iNdEx depth with
  | zero => omega
  | succ fuel ih =>
    rw [skipLoop]
    split_ifs with hi
    · refine (readVarint_returns h0).bind fun ⟨wire, j⟩ hj => ?_
      dsimp only at hj ⊢
      refine (skipWireType_returns hl _ depth (by omega) hj.2).bind fun ⟨k, d⟩ hk => ?_
      dsimp only at hk ⊢
      split_ifs with h1 h2
      · exact .fail _
      · exact .ok ⟨by omega, by omega⟩
      · exact (ih d (by omega) (by omega)).mono fun r hr => ⟨by omega, hr.2⟩
    · exact .fail _

/-- `skipTxResponse` steps over at least one byte, to an index that fits an `int`. -/
theorem skipTxResponse_returns :
    Returns (fun n : Int => 0 < n ∧ n ≤ maxInt) (skipTxResponse dAtA) :=
  skipLoop_returns hl _ 0 le_rfl (by omega)

/-- The `default` case moves past the field's tag and stays within `dAtA`. -/
theorem skipField_returns {preIndex : Int} (h0 : 0 ≤ preIndex)
    (hp : preIndex ≤ dAtA.length) :
    Returns (fun r => preIndex < r ∧ r ≤ dAtA.length) (skipField dAtA preIndex) := by
  obtain ⟨s, hs, hsl⟩ := slice_of_le h0 hp le_rfl
  rw [skipField, sliceFrom, hs, liftPanic_ok, ok_bind]
  refine (skipTxResponse_returns (by omega : s.length ≤ maxInt)).bind fun skippy hk => ?_
  split_ifs with h1 h2
  · exact .fail _
  · exact .fail _
  · have := addInt_cases h0 (by omega) (by omega) hk.2
    exact .ok ⟨by omega, by omega⟩

/-- The loop of the `Unmarshal`s returns when each field the message declares does, and reads
it past its tag but not past the end. -/
theorem unmarshalLoop_returns {σ : Type} {message : Bytes}
    {field : Bytes → Int → Nat → Int → σ → Option (Decode (Int × σ))}
    (hfield : ∀ fieldNum wireType iNdEx m read, field dAtA fieldNum wireType iNdEx m = some read →
      0 ≤ iNdEx → Returns (fun r : Int × σ => iNdEx ≤ r.1 ∧ r.1 ≤ dAtA.length) read)
    (fuel : Nat) {iNdEx : Int} (m : σ) (h0 : 0 ≤ iNdEx)
    (hfuel : (dAtA.length - iNdEx).toNat < fuel) :
    Returns (fun _ => True) (unmarshalLoop message field dAtA fuel iNdEx m) := by
  induction fuel generalizing iNdEx m with
  | zero => omega
  | succ fuel ih =>
    rw [unmarshalLoop]
    split_ifs with hlt hgt
    · refine (readTag_returns message h0).bind fun ⟨fieldNum, wireType, j⟩ hj => ?_
      dsimp only at hj ⊢
      have hnext : ∀ r : Int × σ, iNdEx < r.1 → r.1 ≤ dAtA.length →
          Returns (fun _ => True) (unmarshalLoop message field dAtA fuel r.1 r.2) :=
        fun r h1 h2 => ih r.2 (by omega) (by omega)
      split
      · exact (hfield _ _ _ _ _ ‹_› (by omega)).bind fun r hr => hnext r (hj.1.trans_le hr.1) hr.2
      · exact (skipField_returns hl h0 hlt.le).bind fun k hk => hnext (k, m) hk.1 hk.2
    · exact .fail _
    · exact .ok trivial

theorem TxResponseGenericMessage.unmarshalField_returns {fieldNum : Int} {wireType : Nat}
    {iNdEx : Int} {m : TxResponseGenericMessage} {read}
    (h : TxResponseGenericMessage.unmarshalField dAtA fieldNum wireType iNdEx m = some read)
    (h0 : 0 ≤ iNdEx) :
    Returns (fun r : Int × TxResponseGenericMessage => iNdEx ≤ r.1 ∧ r.1 ≤ dAtA.length) read := by
  unfold TxResponseGenericMessage.unmarshalField at h
  split at h <;> cases h <;>
    exact (readBytesField_returns hl _ wireType h0).bind fun _ hr => .ok ⟨hr.1.le, hr.2.1⟩

theorem TxResponseGenericMessage.unmarshal_returns (m : TxResponseGenericMessage) :
    Returns (fun _ => True) (m.unmarshal dAtA) :=
  unmarshalLoop_returns hl (fun _ _ _ _ _ h h0 => unmarshalField_returns hl h h0) _ m le_rfl
    (by omega)

theorem TxResponseData.unmarshalField_returns {fieldNum : Int} {wireType : Nat} {iNdEx : Int}
    {m : TxResponseData} {read}
    (h : TxResponseData.unmarshalField dAtA fieldNum wireType iNdEx m = some read)
    (h0 : 0 ≤ iNdEx) :
    Returns (fun r : Int × TxResponseData => iNdEx ≤ r.1 ∧ r.1 ≤ dAtA.length) read := by
  unfold TxResponseData.unmarshalField at h
  split at h
  · cases h
    refine (readBytesField_returns hl _ wireType h0).bind fun ⟨j, msg⟩ hr => ?_
    exact (@TxResponseGenericMessage.unmarshal_returns msg (hr.2.2.trans hl) default).bind
      fun _ _ => .ok ⟨hr.1.le, hr.2.1⟩
  · cases h

theorem TxResponseData.unmarshal_returns (m : TxResponseData) :
    Returns (fun _ => True) (m.unmarshal dAtA) :=
  unmarshalLoop_returns hl (fun _ _ _ _ _ h h0 => unmarshalField_returns hl h h0) _ m le_rfl
    (by omega)

end Bounded

/-- Decoding any bytes a Go slice can hold returns a message or an error: no index or slice
is out of range, and no loop needs more passes than the model allows. -/
theorem unmarshal_total (dAtA : Bytes) (hl : dAtA.length ≤ maxInt) :
    (∀ m : TxResponseData, Returns (fun _ => True) (m.unmarshal dAtA)) ∧
      (∀ m : TxResponseGenericMessage, Returns (fun _ => True) (m.unmarshal dAtA)) ∧
      Returns (fun n : Int => 0 < n ∧ n ≤ maxInt) (skipTxResponse dAtA) :=
  ⟨fun m => m.unmarshal_returns hl, fun m => m.unmarshal_returns hl, skipTxResponse_returns hl⟩

/-- A group of field 3, opened and closed, and nothing else. -/
def emptyGroup : Bytes := [0x1b, 0x1c]

theorem empty_group_total : emptyGroup.length ≤ maxInt ∧
    (∀ m : TxResponseData, Returns (fun _ => True) (m.unmarshal emptyGroup)) ∧
      (∀ m : TxResponseGenericMessage, Returns (fun _ => True) (m.unmarshal emptyGroup)) ∧
      Returns (fun n : Int => 0 < n ∧ n ≤ maxInt) (skipTxResponse emptyGroup) :=
  ⟨by decide, unmarshal_total _ (by decide)⟩

end InjectiveSdk.Proto
