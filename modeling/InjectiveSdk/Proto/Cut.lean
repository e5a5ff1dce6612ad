import InjectiveSdk.Proto.Unknown

namespace InjectiveSdk.Proto
open InjectiveSdk.Go

section Varint
variable {pre : Bytes}

/-- The varint loop runs off the end of a buffer whose last bytes all carry the continuation
bit, before its shift reaches 64. -/
theorem varintLoop_continuation {bs : Bytes} (hb : ∀ b ∈ bs, 0x80 ≤ b) {shift : Nat}
    {wire : UInt64} (hs : shift + 7 * bs.length < 64) :
    varintLoop (pre ++ bs) shift pre.length wire = .error (.fail .unexpectedEOF) := by
  induction bs generalizing pre shift wire with
  | nil => rw [varintLoop, dif_neg (by omega), if_pos (by simp)]
  | cons b bs ih =>
    simp only [List.length_cons, List.mem_cons, forall_eq_or_imp] at hs hb
    obtain ⟨hb₁, hb₂⟩ := hb
    have hb₁' : 128 ≤ b.toNat := hb₁
    rw [varintLoop_byte (by omega)]
    dsimp only
    rw [if_neg (show ¬ b < 128 from fun h => by change b.toNat < 128 at h; omega)]
    simpa using @ih (pre ++ [b]) hb₂ (shift + 7) _ (by omega)

theorem continuation_of_mem_take_varintBytes (n : Nat) {r : Nat}
    (hr : r < (varintBytes n).length) : ∀ b ∈ (varintBytes n).take r, 0x80 ≤ b := by
  induction n using varintBytes.induct generalizing r with
  | case1 n hlt =>
    rw [varintBytes, if_pos hlt] at hr ⊢
    obtain rfl : r = 0 := by simpa using hr
    simp
  | case2 n hge ih =>
    rw [varintBytes, if_neg hge] at hr ⊢
    cases r with
    | zero => simp
    | succ r =>
      simp only [List.take_succ_cons, List.mem_cons, forall_eq_or_imp]
      exact ⟨show (128 : Nat) ≤ (n % 128 + 128).toUInt8.toNat by simp; omega,
        ih (by simpa using hr)⟩

theorem readVarint_cut {n r : Nat} (hn : n < 2 ^ 64) (hr : r < (varintBytes n).length) :
    readVarint (pre ++ (varintBytes n).take r) pre.length = .error (.fail .unexpectedEOF) := by
  have h10 := (length_varintBytes_le_iff (show 0 < 10 by decide) n).mpr (by omega)
  exact varintLoop_continuation (continuation_of_mem_take_varintBytes n hr)
    (by simp only [List.length_take]; omega)

end Varint

section Field
variable {pre : Bytes}

/-- A length-delimited field's length varint and bytes, cut before their end: the length is
read in full and points past the end of the buffer, or the varint itself is cut. -/
theorem readLength_cut {b : Bytes} {r : Nat} (hr : r < (varintBytes b.length ++ b).length)
    (hL : (pre ++ varintBytes b.length ++ b).length ≤ maxInt) :
    readLength (pre ++ (varintBytes b.length ++ b).take r) pre.length =
      .error (.fail .unexpectedEOF) := by
  simp only [List.length_append] at hL hr
  by_cases hv : r < (varintBytes b.length).length
  · rw [List.take_append_of_le_length hv.le, readLength,
      readVarint_cut (by simp only [maxInt] at hL; omega) hv]
    rfl
  · have hv' : (UInt64.ofNat b.length).toNat = b.length := by
      rw [toNat_uint64OfNat]; simp only [maxInt] at hL; omega
    have hr' := @readVarint_varintBytes pre (b.take (r - (varintBytes b.length).length))
      (UInt64.ofNat b.length)
    rw [hv'] at hr'
    rw [List.take_append_eq_append_take, List.take_of_length_le (by omega), ← List.append_assoc,
      readLength, hr', ok_bind]
    dsimp only
    rw [toInt_of_le (by rw [hv']; omega), hv', addInt_of_le (by omega) (by omega) (by omega)]
    simp only [List.length_append, List.length_take]
    rw [if_neg (by omega), if_neg (by omega), if_pos (by omega)]
    rfl

theorem readBytesField_cut (name : Bytes) {b : Bytes} {r : Nat}
    (hr : r < (varintBytes b.length ++ b).length)
    (hL : (pre ++ varintBytes b.length ++ b).length ≤ maxInt) :
    readBytesField name (pre ++ (varintBytes b.length ++ b).take r) 2 pre.length =
      .error (.fail .unexpectedEOF) := by
  rw [readBytesField, if_neg (by decide), readLength_cut hr hL]
  rfl

end Field

section Loop
variable {σ : Type} {message : Bytes}
  {field : Bytes → Int → Nat → Int → σ → Option (Decode (Int × σ))} {pre : Bytes}

/-- A pass of the `Unmarshal` loop over a length-delimited field of a number the message
declares, cut after its tag and before its end, stops the loop with `ErrUnexpectedEOF`. -/
theorem unmarshalLoop_cut {tag : UInt8} {fieldNum : Int} {name b : Bytes} {m : σ}
    {fuel r : Nat}
    (htag : ∀ pre post : Bytes,
      readTag message (pre ++ tag :: post) pre.length = .ok (fieldNum, 2, pre.length + 1))
    (hf : ∀ dAtA i e, readBytesField name dAtA 2 i = .error e →
      field dAtA fieldNum 2 i m = some (.error e))
    (hr0 : 0 < r) (hr : r < (lengthDelimited tag b).length)
    (hL : (pre ++ lengthDelimited tag b).length ≤ maxInt) :
    unmarshalLoop message field (pre ++ (lengthDelimited tag b).take r) (fuel + 1) pre.length m =
      .error (.fail .unexpectedEOF) := by
  obtain ⟨r, rfl⟩ : ∃ r', r = r' + 1 := ⟨r - 1, by omega⟩
  simp only [lengthDelimited, List.length_cons, List.take_succ_cons] at hr hL ⊢
  have hcut := @readBytesField_cut (pre ++ [tag]) name b r (by omega)
    (by simp only [List.length_append, List.length_cons, List.length_nil] at hL ⊢; omega)
  simp only [List.append_assoc, List.singleton_append, List.length_append,
    List.length_singleton, Nat.cast_add, Nat.cast_one] at hcut
  rw [unmarshalLoop, if_pos (by rw [List.length_append, List.length_cons]; push_cast; omega), htag,
    ok_bind]
  simp only [hf _ _ _ hcut]
  rfl

end Loop

section Data
variable {pre : Bytes}

theorem TxResponseData.unmarshalField_error {dAtA : Bytes} {wireType : Nat} {i : Int} {e : Exit}
    {m : TxResponseData} (h : readBytesField (ascii "Messages") dAtA wireType i = .error e) :
    TxResponseData.unmarshalField dAtA 1 wireType i m = some (.error e) := by
  simp only [TxResponseData.unmarshalField, h]
  rfl

/-- A cut of the encoding of `es` decodes the messages before it when it falls between two of
them, and otherwise returns `ErrUnexpectedEOF`. -/
theorem TxResponseData.unmarshalLoop_cut (es : List TxResponseGenericMessage) {acc : TxResponseData}
    {k fuel : Nat} (hL : (pre ++ (⟨es⟩ : TxResponseData).encode).length ≤ maxInt)
    (hf : ((⟨es⟩ : TxResponseData).encode.take k).length < fuel) :
    (∃ j, (⟨es.take j⟩ : TxResponseData).encode = (⟨es⟩ : TxResponseData).encode.take k ∧
      unmarshalLoop (ascii "TxResponseData") TxResponseData.unmarshalField
          (pre ++ (⟨es⟩ : TxResponseData).encode.take k) fuel pre.length acc =
        .ok ⟨acc.messages ++ es.take j⟩) ∨
    unmarshalLoop (ascii "TxResponseData") TxResponseData.unmarshalField
        (pre ++ (⟨es⟩ : TxResponseData).encode.take k) fuel pre.length acc =
      .error (.fail .unexpectedEOF) := by
  obtain ⟨fuel, rfl⟩ : ∃ f, fuel = f + 1 := ⟨fuel - 1, by omega⟩
  induction es generalizing pre acc k fuel with
  | nil =>
    left
    refine ⟨0, by simp [TxResponseData.encode], ?_⟩
    simpa [TxResponseData.encode] using @unmarshalLoop_end _ _ _ pre fuel acc
  | cons e rest ih =>
    rw [TxResponseData.encode_cons] at hL hf ⊢
    have hF := length_lengthDelimited_pos 0x0a e.encode
    by_cases hk : k < (lengthDelimited 0x0a e.encode).length
    · rw [List.take_append_of_le_length hk.le] at hf ⊢
      rcases Nat.eq_zero_or_pos k with rfl | hk0
      · left
        refine ⟨0, by simp [TxResponseData.encode], ?_⟩
        simpa using @unmarshalLoop_end _ _ _ pre fuel acc
      · right
        exact unmarshalLoop_cut (fun _ _ => readTag_header _)
          (fun _ _ _ h => TxResponseData.unmarshalField_error h) hk0 hk
          (by simp only [List.length_append] at hL ⊢; omega)
    · rw [List.take_append_eq_append_take, List.take_of_length_le (by omega)] at hf ⊢
      rw [← List.append_assoc]
      simp only [List.length_append] at hf
      obtain ⟨f, rfl⟩ : ∃ f, fuel = f + 1 := ⟨fuel - 1, by omega⟩
      rw [TxResponseData.unmarshalLoop_message
        (by simp only [List.length_append, List.length_take] at hL ⊢; omega)]
      rcases @ih (pre ++ lengthDelimited 0x0a e.encode) ⟨acc.messages ++ [e]⟩
        (k - (lengthDelimited 0x0a e.encode).length)
        (by simp only [List.length_append] at hL ⊢; omega) f (by omega) with ⟨j, hj, he⟩ | he
      · left
        refine ⟨j + 1, ?_, ?_⟩
        · simp [TxResponseData.encode_cons, hj]
        · simpa using he
      · exact .inr he

end Data

section Generic

theorem TxResponseGenericMessage.unmarshalField_header_error {dAtA : Bytes} {wireType : Nat}
    {i : Int} {e : Exit} {m : TxResponseGenericMessage}
    (h : readBytesField (ascii "Header") dAtA wireType i = .error e) :
    TxResponseGenericMessage.unmarshalField dAtA 1 wireType i m = some (.error e) := by
  simp only [TxResponseGenericMessage.unmarshalField, h]
  rfl

theorem TxResponseGenericMessage.unmarshalField_data_error {dAtA : Bytes} {wireType : Nat}
    {i : Int} {e : Exit} {m : TxResponseGenericMessage}
    (h : readBytesField (ascii "Data") dAtA wireType i = .error e) :
    TxResponseGenericMessage.unmarshalField dAtA 2 wireType i m = some (.error e) := by
  simp only [TxResponseGenericMessage.unmarshalField, h]
  rfl

theorem TxResponseGenericMessage.unmarshal_complete_cut {m₀ e : TxResponseGenericMessage}
    {c : Bytes} (hc : e.encode = c) (hL : c.length ≤ maxInt) :
    (∃ e : TxResponseGenericMessage, e.encode = c ∧ m₀.unmarshal c = .ok (m₀.merge e)) ∨
      m₀.unmarshal c = .error (.fail .unexpectedEOF) :=
  .inl ⟨e, hc, hc ▸ m₀.unmarshal_encode_merge e (hc ▸ hL)⟩

/-- A cut of the encoding of `⟨h, d⟩` is the encoding of a message, which it decodes, or returns
`ErrUnexpectedEOF`. -/
theorem TxResponseGenericMessage.unmarshal_cut (m₀ m : TxResponseGenericMessage)
    (hL : m.encode.length ≤ maxInt) (k : Nat) :
    (∃ e : TxResponseGenericMessage, e.encode = m.encode.take k ∧
      m₀.unmarshal (m.encode.take k) = .ok (m₀.merge e)) ∨
    m₀.unmarshal (m.encode.take k) = .error (.fail .unexpectedEOF) := by
  obtain ⟨h, d⟩ := m
  have pH := length_lengthDelimited_pos 0x0a h
  rw [show (⟨h, d⟩ : TxResponseGenericMessage).encode = encodeField 0x0a h ++ encodeField 0x12 d
    from rfl] at hL ⊢
  simp only [List.length_append] at hL
  by_cases hk1 : k ≤ (encodeField 0x0a h).length
  · rw [List.take_append_of_le_length hk1]
    rcases Nat.lt_or_eq_of_le hk1 with hk | rfl
    · have hh : h.length > 0 := by
        by_contra hh
        simp [encodeField, hh] at hk
      rw [show encodeField 0x0a h = lengthDelimited 0x0a h from if_pos hh] at hk hL ⊢
      rcases Nat.eq_zero_or_pos k with rfl | hk0
      · exact unmarshal_complete_cut
          (show (default : TxResponseGenericMessage).encode = List.take 0 _ by rfl) (by simp)
      · right
        simpa using @unmarshalLoop_cut _ _ _ [] 0x0a 1 (ascii "Header") h m₀ _ k
          (fun _ _ => readTag_header _) (fun _ _ _ he => unmarshalField_header_error he) hk0 hk
          (by simp only [List.nil_append]; omega)
    · exact unmarshal_complete_cut (show (⟨h, []⟩ : TxResponseGenericMessage).encode = _ by
        simp [TxResponseGenericMessage.encode, encodeField]) (by simp only [List.length_take]; omega)
  · push_neg at hk1
    rw [List.take_append_eq_append_take, List.take_of_length_le hk1.le]
    by_cases hk2 : k - (encodeField 0x0a h).length < (encodeField 0x12 d).length
    · have hd : d.length > 0 := by
        by_contra hd
        simp [encodeField, hd] at hk2
      rw [show encodeField 0x12 d = lengthDelimited 0x12 d from if_pos hd] at hk2 hL ⊢
      right
      have e1 : (⟨h, []⟩ : TxResponseGenericMessage).encode = encodeField 0x0a h :=
        List.append_nil _
      have hx := m₀.unmarshal_encode_merge ⟨h, []⟩ (by rw [e1]; omega)
      rw [e1] at hx
      have hz : ((lengthDelimited 0x12 d).take (k - (encodeField 0x0a h).length)).length <
          (lengthDelimited 0x12 d).length := by
        simp only [List.length_take]; omega
      exact unmarshalLoop_after TxResponseGenericMessage.fieldSwitch
        (by simp only [List.length_append]; omega) hx fun _ =>
          unmarshalLoop_cut (fun _ _ => readTag_data _)
            (fun _ _ _ he => unmarshalField_data_error he) (by omega) hk2
            (by simp only [List.length_append]; omega)
    · push_neg at hk2
      rw [List.take_of_length_le hk2]
      exact unmarshal_complete_cut (show (⟨h, d⟩ : TxResponseGenericMessage).encode = _ from rfl)
        (by simp only [List.length_append]; omega)

end Generic

/-- No cut of an encoding is decoded as a message it does not encode: it decodes whole fields, the
encoding of what it merges in, or returns `ErrUnexpectedEOF`. -/
theorem cut_encoding_decodes_prefix_or_eof :
    (∀ (m₀ m : TxResponseData) (k : Nat), m.size ≤ maxInt →
      (∃ j, (⟨m.messages.take j⟩ : TxResponseData).encode = m.encode.take k ∧
        m₀.unmarshal (m.encode.take k) = .ok (m₀.merge ⟨m.messages.take j⟩)) ∨
      m₀.unmarshal (m.encode.take k) = .error (.fail .unexpectedEOF)) ∧
    (∀ (m₀ m : TxResponseGenericMessage) (k : Nat), m.size ≤ maxInt →
      (∃ e : TxResponseGenericMessage, e.encode = m.encode.take k ∧
        m₀.unmarshal (m.encode.take k) = .ok (m₀.merge e)) ∨
      m₀.unmarshal (m.encode.take k) = .error (.fail .unexpectedEOF)) := by
  refine ⟨fun m₀ m k hm => ?_, fun m₀ m k hm => ?_⟩
  · have hl := m.length_encode (by simp only [maxInt] at hm; omega)
    have := @TxResponseData.unmarshalLoop_cut [] m.messages m₀ k ((m.encode.take k).length + 1)
      (by simpa [hl] using hm) (Nat.lt_succ_self _)
    simp only [List.nil_append, List.length_nil, Nat.cast_zero] at this
    exact this
  · exact TxResponseGenericMessage.unmarshal_cut m₀ m
      (by rw [m.length_encode (by simp only [maxInt] at hm; omega)]; exact hm) k

theorem cut_inside_message :
    (⟨[⟨ascii "a", [1]⟩]⟩ : TxResponseData).size ≤ maxInt ∧
      ((∃ j, (⟨(⟨[⟨ascii "a", [1]⟩]⟩ : TxResponseData).messages.take j⟩ : TxResponseData).encode =
          (⟨[⟨ascii "a", [1]⟩]⟩ : TxResponseData).encode.take 3 ∧
        TxResponseData.unmarshal default ((⟨[⟨ascii "a", [1]⟩]⟩ : TxResponseData).encode.take 3) =
          .ok (TxResponseData.merge default
            ⟨(⟨[⟨ascii "a", [1]⟩]⟩ : TxResponseData).messages.take j⟩)) ∨
        TxResponseData.unmarshal default ((⟨[⟨ascii "a", [1]⟩]⟩ : TxResponseData).encode.take 3) =
          .error (.fail .unexpectedEOF)) :=
  ⟨by decide, cut_encoding_decodes_prefix_or_eof.1 default _ 3 (by decide)⟩

end InjectiveSdk.Proto
