import InjectiveSdk.Proto.Frame

namespace InjectiveSdk.Proto
open InjectiveSdk.Go

section Switches
variable {B B' pre w post pre' post' : Bytes}

theorem TxResponseGenericMessage.unmarshalField_window (hB : B = pre ++ w ++ post)
    (hB' : B' = pre' ++ w ++ post') (hl : B.length ≤ maxInt) (hl' : B'.length ≤ maxInt)
    {fieldNum : Int} {wireType : Nat} {m m' : TxResponseGenericMessage}
    (h : unmarshalField B fieldNum wireType pre.length m = some (.ok (pre.length + w.length, m'))) :
    unmarshalField B' fieldNum wireType pre'.length m =
      some (.ok (pre'.length + w.length, m')) := by
  unfold unmarshalField at h ⊢
  split at h
  · obtain ⟨⟨j, header⟩, hr, hc⟩ := bind_eq_ok.mp (Option.some.inj h)
    obtain ⟨rfl, rfl⟩ : j = pre.length + w.length ∧ { m with header } = m' := by simpa using hc
    rw [readBytesField_window _ hB hB' hl hl' hr]
    rfl
  · obtain ⟨⟨j, data⟩, hr, hc⟩ := bind_eq_ok.mp (Option.some.inj h)
    obtain ⟨rfl, rfl⟩ : j = pre.length + w.length ∧ { m with data } = m' := by simpa using hc
    rw [readBytesField_window _ hB hB' hl hl' hr]
    rfl
  · cases h

theorem TxResponseGenericMessage.unmarshalField_none {fieldNum : Int} {wireType : Nat}
    {i i' : Int} {m : TxResponseGenericMessage}
    (h : unmarshalField B fieldNum wireType i m = none) :
    unmarshalField B' fieldNum wireType i' m = none := by
  unfold unmarshalField at h ⊢
  split at h
  · cases h
  · cases h
  · rfl

theorem TxResponseData.unmarshalField_window (hB : B = pre ++ w ++ post)
    (hB' : B' = pre' ++ w ++ post') (hl : B.length ≤ maxInt) (hl' : B'.length ≤ maxInt)
    {fieldNum : Int} {wireType : Nat} {m m' : TxResponseData}
    (h : unmarshalField B fieldNum wireType pre.length m = some (.ok (pre.length + w.length, m'))) :
    unmarshalField B' fieldNum wireType pre'.length m =
      some (.ok (pre'.length + w.length, m')) := by
  unfold unmarshalField at h ⊢
  split at h
  · obtain ⟨⟨j, msg⟩, hr, hc⟩ := bind_eq_ok.mp (Option.some.inj h)
    obtain ⟨e, he, hc⟩ := bind_eq_ok.mp hc
    obtain ⟨rfl, rfl⟩ : j = pre.length + w.length ∧ ⟨m.messages ++ [e]⟩ = m' := by simpa using hc
    rw [readBytesField_window _ hB hB' hl hl' hr, ok_bind]
    dsimp only
    rw [he]
    rfl
  · cases h

theorem TxResponseData.unmarshalField_none {fieldNum : Int} {wireType : Nat} {i i' : Int}
    {m : TxResponseData} (h : unmarshalField B fieldNum wireType i m = none) :
    unmarshalField B' fieldNum wireType i' m = none := by
  unfold unmarshalField at h ⊢
  split at h
  · cases h
  · rfl

end Switches

theorem TxResponseGenericMessage.fieldSwitch :
    FieldSwitch TxResponseGenericMessage.unmarshalField :=
  ⟨fun hl h h0 => TxResponseGenericMessage.unmarshalField_returns hl h h0,
    fun hB hB' hl hl' h => TxResponseGenericMessage.unmarshalField_window hB hB' hl hl' h,
    TxResponseGenericMessage.unmarshalField_none⟩

theorem TxResponseData.fieldSwitch : FieldSwitch TxResponseData.unmarshalField :=
  ⟨fun hl h h0 => TxResponseData.unmarshalField_returns hl h h0,
    fun hB hB' hl hl' h => TxResponseData.unmarshalField_window hB hB' hl hl' h,
    TxResponseData.unmarshalField_none⟩

theorem TxResponseGenericMessage.unmarshalField_default {fieldNum : Int} (h1 : fieldNum ≠ 1)
    (h2 : fieldNum ≠ 2) (dAtA : Bytes) (wireType : Nat) (iNdEx : Int)
    (m : TxResponseGenericMessage) : unmarshalField dAtA fieldNum wireType iNdEx m = none := by
  unfold unmarshalField
  split
  · exact absurd rfl h1
  · exact absurd rfl h2
  · rfl

theorem TxResponseData.unmarshalField_default {fieldNum : Int} (h1 : fieldNum ≠ 1)
    (dAtA : Bytes) (wireType : Nat) (iNdEx : Int) (m : TxResponseData) :
    unmarshalField dAtA fieldNum wireType iNdEx m = none := by
  unfold unmarshalField
  split
  · exact absurd rfl h1
  · rfl

section Insert
variable {x z : Bytes} (f : WireField)

/-- Inserting a field that `TxResponseGenericMessage.Unmarshal` dispatches to its `default`
case, at a boundary between the fields of bytes it decodes, leaves what it decodes unchanged. -/
theorem TxResponseGenericMessage.unmarshal_insert (hf : 0 < f.fieldNum) (h1 : f.fieldNum ≠ 1)
    (h2 : f.fieldNum ≠ 2) (hl : (x ++ f.encode ++ z).length ≤ maxInt)
    {m₀ m m₁ : TxResponseGenericMessage} (hxz : m₀.unmarshal (x ++ z) = .ok m)
    (hx : m₀.unmarshal x = .ok m₁) :
    m₀.unmarshal (x ++ f.encode ++ z) = .ok m :=
  unmarshalLoop_insert fieldSwitch f hf (unmarshalField_default h1 h2) hl hxz hx

/-- Inserting a field that `TxResponseData.Unmarshal` dispatches to its `default` case, at a
boundary between the fields of bytes it decodes, leaves what it decodes unchanged. -/
theorem TxResponseData.unmarshal_insert (hf : 0 < f.fieldNum) (h1 : f.fieldNum ≠ 1)
    (hl : (x ++ f.encode ++ z).length ≤ maxInt) {m₀ m m₁ : TxResponseData}
    (hxz : m₀.unmarshal (x ++ z) = .ok m)
    (hx : m₀.unmarshal x = .ok m₁) :
    m₀.unmarshal (x ++ f.encode ++ z) = .ok m :=
  unmarshalLoop_insert fieldSwitch f hf (unmarshalField_default h1) hl hxz hx

end Insert

/-- `skipTxResponse` steps over any well-formed field; fields are dispatched on `int32` of their
number, and one left to `default`, inserted at a field boundary, changes nothing decoded. -/
theorem unknown_field_skipped_exactly (f : WireField) :
    (∀ post : Bytes, (f.encode ++ post).length ≤ maxInt →
      skipTxResponse (f.encode ++ post) = .ok f.encode.length) ∧
    (∀ message pre post : Bytes, readTag message (pre ++ f.encode ++ post) pre.length =
      if f.fieldNum ≤ 0 then
        .error (.fail (.illegalTag message f.fieldNum (UInt64.ofNat (f.num * 8 + f.wireType))))
      else .ok (f.fieldNum, f.wireType, pre.length + f.tag.length)) ∧
    (f.fieldNum = f.num ↔ (f.num : Nat) < 2 ^ 31) ∧
    (0 < f.fieldNum → f.fieldNum ≠ 1 → ∀ (x z : Bytes) (m₀ m m₁ : TxResponseData),
      (x ++ f.encode ++ z).length ≤ maxInt → m₀.unmarshal (x ++ z) = .ok m →
        m₀.unmarshal x = .ok m₁ → m₀.unmarshal (x ++ f.encode ++ z) = .ok m) ∧
    (0 < f.fieldNum → f.fieldNum ≠ 1 → f.fieldNum ≠ 2 →
      ∀ (x z : Bytes) (m₀ m m₁ : TxResponseGenericMessage),
        (x ++ f.encode ++ z).length ≤ maxInt → m₀.unmarshal (x ++ z) = .ok m →
          m₀.unmarshal x = .ok m₁ → m₀.unmarshal (x ++ f.encode ++ z) = .ok m) :=
  ⟨fun _ hl => f.skipTxResponse_encode hl, fun message _ _ => f.readTag_encode message,
    f.fieldNum_eq_num_iff,
    fun hf h1 _ _ _ _ _ hl hxz hx => TxResponseData.unmarshal_insert f hf h1 hl hxz hx,
    fun hf h1 h2 _ _ _ _ _ hl hxz hx =>
      TxResponseGenericMessage.unmarshal_insert f hf h1 h2 hl hxz hx⟩

/-- A `varint` field of number 3, which neither message declares, its tag padded to two bytes
and its value 5 to three. -/
def unknownVarint : WireField :=
  .varint ⟨3, by decide⟩ ⟨1, by rw [varintBytes_of_lt] <;> decide⟩ 5
    ⟨2, by rw [varintBytes_of_lt] <;> decide⟩

/-- A message of a header only, and one of data only. -/
def headerOnly : TxResponseGenericMessage := ⟨ascii "a", []⟩

def dataOne : TxResponseGenericMessage := ⟨[], [1]⟩

theorem unknown_varint_between_fields :
    0 < unknownVarint.fieldNum ∧ unknownVarint.fieldNum ≠ 1 ∧ unknownVarint.fieldNum ≠ 2 ∧
      TxResponseData.unmarshal default ((⟨[headerOnly]⟩ : TxResponseData).encode ++
          unknownVarint.encode ++ (⟨[dataOne]⟩ : TxResponseData).encode) =
        .ok ⟨[headerOnly, dataOne]⟩ ∧
      TxResponseGenericMessage.unmarshal default
          (headerOnly.encode ++ unknownVarint.encode ++ dataOne.encode) = .ok ⟨ascii "a", [1]⟩ := by
  have hu : unknownVarint.encode.length ≤ 20 := by
    rw [unknownVarint, WireField.encode, List.length_append]
    exact Nat.add_le_add (Varint.length_bytes_le _) (Varint.length_bytes_le _)
  have hd : (⟨[headerOnly]⟩ : TxResponseData).encode ++ (⟨[dataOne]⟩ : TxResponseData).encode =
      (⟨[headerOnly, dataOne]⟩ : TxResponseData).encode := by
    simp only [TxResponseData.encode_cons, TxResponseData.encode_nil, List.append_nil]
  have hg : headerOnly.encode ++ dataOne.encode =
      (⟨ascii "a", [1]⟩ : TxResponseGenericMessage).encode := by
    simp [TxResponseGenericMessage.encode, encodeField, headerOnly, dataOne]
  have hD (m : TxResponseData) (hm : m.size ≤ 20) :
      m.encode.length ≤ 20 ∧ TxResponseData.unmarshal default m.encode = .ok m := by
    have hl := m.length_encode (by omega)
    exact ⟨hl ▸ hm, m.unmarshal_encode (by unfold maxInt; omega)⟩
  have hG (m : TxResponseGenericMessage) (hm : m.size ≤ 20) :
      m.encode.length ≤ 20 ∧ TxResponseGenericMessage.unmarshal default m.encode = .ok m := by
    have hl := m.length_encode (by omega)
    exact ⟨hl ▸ hm, m.unmarshal_encode (by unfold maxInt; omega)⟩
  have h := unknown_field_skipped_exactly unknownVarint
  refine ⟨by decide, by decide, by decide,
    h.2.2.2.1 (by decide) (by decide) _ _ default _ ⟨[headerOnly]⟩ ?_ (hd ▸ (hD _ (by decide)).2)
      (hD _ (by decide)).2,
    h.2.2.2.2 (by decide) (by decide) (by decide) _ _ default _ headerOnly ?_
      (hg ▸ (hG _ (by decide)).2) (hG _ (by decide)).2⟩
  · have := (hD ⟨[headerOnly]⟩ (by decide)).1
    have := (hD ⟨[dataOne]⟩ (by decide)).1
    simp only [List.length_append, maxInt]
    omega
  · have := (hG headerOnly (by decide)).1
    have := (hG dataOne (by decide)).1
    simp only [List.length_append, maxInt]
    omega

/-- A number whose `int32` is 1 is dispatched as field 1: an empty length-delimited field of
that number decodes as one message of `TxResponseData`. -/
theorem TxResponseData.unmarshal_fieldNum_one {num : Fin (2 ^ 61)} (t : Varint (num * 8 + 2))
    (l : Varint 0) (h1 : (WireField.bytes num t [] l).fieldNum = 1) :
    TxResponseData.unmarshal default (WireField.bytes num t [] l).encode = .ok ⟨[default]⟩ := by
  have htag := @WireField.readTag_encode [] [] (ascii "TxResponseData") (.bytes num t [] l)
  rw [h1, if_neg (by decide)] at htag
  simp only [List.nil_append, List.append_nil, List.length_nil, Nat.cast_zero, Int.zero_add]
    at htag
  have hB : (WireField.bytes num t [] l).encode = t.bytes ++ l.bytes ++ [] ++ [] := by
    simp only [WireField.encode, List.append_nil]
  have hread := @Varint.readBytesField_bytes t.bytes [] (ascii "Messages") [] l
    (by have := t.length_bytes_le; have := l.length_bytes_le; simp only [List.length_append,
      List.length_nil, maxInt]; omega)
  rw [← hB] at hread
  have hf : TxResponseData.unmarshalField (WireField.bytes num t [] l).encode 1 2
      t.bytes.length default =
        some (.ok ((WireField.bytes num t [] l).encode.length, ⟨[default]⟩)) := by
    simp only [TxResponseData.unmarshalField, hread, ok_bind]
    rw [show TxResponseGenericMessage.unmarshal default [] = .ok default from rfl, ok_bind, hB]
    simp only [List.length_append, List.length_nil, Nat.cast_add, Nat.cast_zero, add_zero,
      List.append_nil, pure_eq_ok]
    rfl
  obtain ⟨n, hn⟩ : ∃ n, (WireField.bytes num t [] l).encode.length = n + 1 :=
    ⟨_, (Nat.succ_pred_eq_of_pos (WireField.bytes num t [] l).length_encode_pos).symm⟩
  rw [TxResponseData.unmarshal, hn, unmarshalLoop_declared (by omega) htag hf]
  exact unmarshalLoop_end

def wrappedField : WireField :=
  .bytes ⟨2 ^ 32 + 1, by decide⟩ (.minimal (by decide)) [] (.minimal (by decide))

theorem wrapped_field_number_dispatched_as_declared :
    wrappedField.fieldNum = 1 ∧ TxResponseData.unmarshal default [] = .ok default ∧
      TxResponseData.unmarshal default wrappedField.encode = .ok ⟨[default]⟩ :=
  ⟨by decide, rfl, TxResponseData.unmarshal_fieldNum_one _ _ (by decide)⟩

end InjectiveSdk.Proto
