import InjectiveSdk.Proto.Cut

namespace InjectiveSdk.Proto
open InjectiveSdk.Go

section Tag
variable {pre post : Bytes}

theorem toInt32_tag (num : Fin (2 ^ 61)) {wireType : Nat} (hw : wireType < 8) :
    toInt32 (UInt64.ofNat (num * 8 + wireType) >>> 3) = Int.bmod num (2 ^ 32) := by
  rw [toInt32, tag_fieldNum _ hw]

theorem readTag_positive (message : Bytes) (num : Fin (2 ^ 61)) {wireType : Nat}
    (hw : wireType < 8) (h4 : wireType ≠ 4) (hn : 0 < Int.bmod num (2 ^ 32)) :
    readTag message (pre ++ tagBytes num wireType ++ post) pre.length =
      .ok (Int.bmod num (2 ^ 32), wireType, pre.length + (tagBytes num wireType).length) := by
  rw [readTag, readVarint_tagBytes _ hw, ok_bind]
  dsimp only
  rw [toInt32_tag _ hw, tag_wireType _ hw, if_neg h4, if_neg (by omega)]
  rfl

theorem readTag_tagBytes (message : Bytes) (num : Fin (2 ^ 61)) {wireType : Nat}
    (hw : wireType < 8) (h4 : wireType ≠ 4) (h0 : 0 < (num : Nat)) (h1 : (num : Nat) < 2 ^ 31) :
    readTag message (pre ++ tagBytes num wireType ++ post) pre.length =
      .ok (num, wireType, pre.length + (tagBytes num wireType).length) := by
  have hb : Int.bmod num (2 ^ 32) = num := bmod_eq_self (by omega) (by omega)
  rw [readTag_positive _ _ hw h4 (by omega), hb]

/-- `readTag` refuses a number that is 0 or negative as an `int32`, and reports the whole tag
where the text says wire type. -/
theorem readTag_illegal (message : Bytes) (num : Fin (2 ^ 61)) {wireType : Nat}
    (hw : wireType < 8) (h4 : wireType ≠ 4) (hn : Int.bmod num (2 ^ 32) ≤ 0) :
    readTag message (pre ++ tagBytes num wireType ++ post) pre.length =
      .error (.fail (.illegalTag message (Int.bmod num (2 ^ 32))
        (UInt64.ofNat (num * 8 + wireType)))) := by
  rw [readTag, readVarint_tagBytes _ hw, ok_bind]
  dsimp only
  rw [toInt32_tag _ hw, tag_wireType _ hw, if_neg h4, if_pos hn]
  rfl

theorem readTag_endGroup (message : Bytes) (num : Fin (2 ^ 61)) :
    readTag message (pre ++ tagBytes num 4 ++ post) pre.length =
      .error (.fail (.endGroupForNonGroup message)) := by
  rw [readTag, readVarint_tagBytes _ (by decide), ok_bind]
  dsimp only
  rw [tag_wireType _ (by decide)]
  rfl

theorem readBytesField_wrongWireType (name dAtA : Bytes) {wireType : Nat} (h2 : wireType ≠ 2)
    (i : Int) :
    readBytesField name dAtA wireType i = .error (.fail (.wrongWireType wireType name)) := by
  rw [readBytesField, if_pos h2]
  rfl

/-- `readLength` of a length `L` that runs past the end of the buffer: an invalid length when
the field's end does not fit in an `int`, an unexpected EOF when it does. -/
theorem readLength_overrun (L : UInt64) (hz : post.length < L.toNat)
    (hl : (pre ++ varintBytes L.toNat ++ post).length ≤ maxInt) :
    readLength (pre ++ varintBytes L.toNat ++ post) pre.length =
      .error (.fail (if maxInt < pre.length + (varintBytes L.toNat).length + L.toNat
        then .invalidLength else .unexpectedEOF)) := by
  simp only [List.length_append] at hl ⊢
  rw [readLength, readVarint_varintBytes, ok_bind]
  dsimp only
  by_cases hL : L.toNat ≤ maxInt
  · rw [toInt_of_le hL, if_neg (by omega)]
    by_cases hs : maxInt < pre.length + (varintBytes L.toNat).length + L.toNat
    · obtain h | ⟨-, h⟩ := addInt_cases (a := pre.length + (varintBytes L.toNat).length)
        (b := L.toNat) (by omega) (by omega) (by omega) (by omega)
      · rw [if_pos h, if_pos hs]
        rfl
      · omega
    · rw [addInt_of_le (a := pre.length + (varintBytes L.toNat).length) (b := L.toNat)
        (by omega) (by omega) (by omega), if_neg (by omega), if_neg hs]
      simp only [List.length_append, Nat.cast_add]
      rw [if_pos (by omega)]
      rfl
  · rw [if_pos (toInt_neg (by omega)), if_pos (by omega)]
    rfl

theorem readBytesField_overrun (name : Bytes) (L : UInt64) (hz : post.length < L.toNat)
    (hl : (pre ++ varintBytes L.toNat ++ post).length ≤ maxInt) :
    readBytesField name (pre ++ varintBytes L.toNat ++ post) 2 pre.length =
      .error (.fail (if maxInt < pre.length + (varintBytes L.toNat).length + L.toNat
        then .invalidLength else .unexpectedEOF)) := by
  rw [readBytesField, if_neg (by decide), readLength_overrun L hz hl]
  rfl

/-- Continuation bytes that take the shift to 64 make the varint loop overflow, whatever follows
them. -/
theorem varintLoop_overflow {c : Bytes} (hc : ∀ b ∈ c, 0x80 ≤ b) {shift : Nat}
    (hs : 64 ≤ shift + 7 * c.length) (wire : UInt64) :
    varintLoop (pre ++ c ++ post) shift pre.length wire = .error (.fail .intOverflow) := by
  induction c generalizing pre shift wire with
  | nil => rw [varintLoop, dif_pos (by simpa using hs)]
  | cons b c ih =>
    by_cases h64 : 64 ≤ shift
    · rw [varintLoop, dif_pos h64]
    rw [List.append_assoc, List.cons_append, varintLoop_byte (by omega)]
    dsimp only
    rw [if_neg (UInt8.not_lt.mpr (hc b (List.mem_cons_self _ _)))]
    have h := @ih (pre ++ [b]) (fun b hb => hc b (List.mem_cons_of_mem _ hb)) (shift + 7)
      (by simp only [List.length_cons] at hs; omega)
      (wire ||| ((b &&& 0x7F).toUInt64 <<< shift.toUInt64))
    simpa using h

theorem readTag_overflow (message : Bytes) {c : Bytes} (hc : ∀ b ∈ c, 0x80 ≤ b)
    (h10 : 10 ≤ c.length) :
    readTag message (pre ++ c ++ post) pre.length = .error (.fail .intOverflow) := by
  rw [readTag, readVarint, varintLoop_overflow hc (by omega)]
  rfl

theorem readBytesField_overflow (name : Bytes) {c : Bytes} (hc : ∀ b ∈ c, 0x80 ≤ b)
    (h10 : 10 ≤ c.length) :
    readBytesField name (pre ++ c ++ post) 2 pre.length = .error (.fail .intOverflow) := by
  rw [readBytesField, if_neg (by decide), readLength, readVarint, varintLoop_overflow hc (by omega)]
  rfl

theorem skipTxResponse_illegal (num : Fin (2 ^ 61)) {wireType : Nat}
    (hw : wireType = 6 ∨ wireType = 7) (z : Bytes) :
    skipTxResponse (tagBytes num wireType ++ z) = .error (.fail (.illegalWireType wireType)) := by
  have hw8 : wireType < 8 := by omega
  have hr := @readVarint_tagBytes [] z num wireType hw8
  simp only [List.nil_append, List.length_nil, Nat.cast_zero] at hr
  have hl : (0 : Int) < (tagBytes num wireType ++ z).length := by
    have := length_tagBytes_pos num wireType
    simp only [List.length_append]
    omega
  rw [skipTxResponse, skipLoop, if_pos hl, hr, ok_bind]
  dsimp only
  rw [tag_wireType _ hw8]
  rcases hw with rfl | rfl <;> rfl

theorem skipField_illegal {x : Bytes} (num : Fin (2 ^ 61)) {wireType : Nat}
    (hw : wireType = 6 ∨ wireType = 7) (z : Bytes) :
    skipField (x ++ tagBytes num wireType ++ z) x.length =
      .error (.fail (.illegalWireType wireType)) := by
  rw [skipField, List.append_assoc, sliceFrom_append, liftPanic_ok, ok_bind,
    skipTxResponse_illegal num hw z]
  rfl

end Tag

section Loop
variable {σ : Type} {message : Bytes}
  {field : Bytes → Int → Nat → Int → σ → Option (Decode (Int × σ))} {dAtA : Bytes} {i : Int}
  {m : σ} {fuel : Nat} {e : Exit}

theorem unmarshalLoop_tag_error (hi : i < dAtA.length) (h : readTag message dAtA i = .error e) :
    unmarshalLoop message field dAtA (fuel + 1) i m = .error e := by
  rw [unmarshalLoop, if_pos hi, h]
  rfl

theorem unmarshalLoop_field_error {fieldNum j : Int} {wireType : Nat} (hi : i < dAtA.length)
    (ht : readTag message dAtA i = .ok (fieldNum, wireType, j))
    (hf : field dAtA fieldNum wireType j m = some (.error e)) :
    unmarshalLoop message field dAtA (fuel + 1) i m = .error e := by
  rw [unmarshalLoop, if_pos hi, ht, ok_bind]
  simp only [hf]
  rfl

theorem unmarshalLoop_skip_error {fieldNum j : Int} {wireType : Nat} (hi : i < dAtA.length)
    (ht : readTag message dAtA i = .ok (fieldNum, wireType, j))
    (hnone : field dAtA fieldNum wireType j m = none) (hs : skipField dAtA i = .error e) :
    unmarshalLoop message field dAtA (fuel + 1) i m = .error e := by
  rw [unmarshalLoop, if_pos hi, ht, ok_bind]
  simp only [hnone]
  rw [hs]
  rfl

/-- After bytes `x` that the loop decodes, a tag `t` on which every pass fails with `err` makes
the loop fail with `err`, whatever follows the tag. -/
theorem unmarshalLoop_fails_after (hs : FieldSwitch field) {x t z : Bytes} {m₀ m₁ : σ}
    {err : ProtoError} (hl : (x ++ t ++ z).length ≤ maxInt)
    (hx : unmarshalLoop message field x (x.length + 1) 0 m₀ = .ok m₁)
    (hpass : ∀ fuel, unmarshalLoop message field (x ++ t ++ z) (fuel + 1) x.length m₁ =
      .error (.fail err)) :
    unmarshalLoop message field (x ++ t ++ z) ((x ++ t ++ z).length + 1) 0 m₀ =
      .error (.fail err) := by
  rw [List.append_assoc] at hl hpass ⊢
  exact unmarshalLoop_after hs hl hx hpass

end Loop

/-- After bytes `x` that `unmarshal` decodes, the tag `t` makes it fail with `err`, whatever
follows the tag. -/
def FailsAfter {σ : Type} (unmarshal : σ → Bytes → Decode σ) (x t : Bytes) (err : ProtoError) :
    Prop :=
  ∀ z m₀ m₁, unmarshal m₀ x = .ok m₁ → (x ++ t ++ z).length ≤ maxInt →
    unmarshal m₀ (x ++ t ++ z) = .error (.fail err)

section Messages

theorem lt_length_tag {x t z : Bytes} (ht : 0 < t.length) :
    ((x.length : Nat) : Int) < (x ++ t ++ z).length := by
  simp only [List.length_append]
  omega

/-- After decoded bytes, an end-group tag fails naming the message, and a declared field of a wire
type other than 2 fails naming the field. -/
theorem tag_errors_name_message_or_field (x : Bytes) :
    (∀ num, FailsAfter TxResponseGenericMessage.unmarshal x (tagBytes num 4)
      (.endGroupForNonGroup (ascii "TxResponseGenericMessage"))) ∧
    (∀ num, FailsAfter TxResponseData.unmarshal x (tagBytes num 4)
      (.endGroupForNonGroup (ascii "TxResponseData"))) ∧
    ∀ wireType < 8, wireType ≠ 2 → wireType ≠ 4 →
      FailsAfter TxResponseGenericMessage.unmarshal x (tagBytes ⟨1, by decide⟩ wireType)
        (.wrongWireType wireType (ascii "Header")) ∧
      FailsAfter TxResponseGenericMessage.unmarshal x (tagBytes ⟨2, by decide⟩ wireType)
        (.wrongWireType wireType (ascii "Data")) ∧
      FailsAfter TxResponseData.unmarshal x (tagBytes ⟨1, by decide⟩ wireType)
        (.wrongWireType wireType (ascii "Messages")) := by
  refine ⟨fun num z m₀ m₁ hx hl => ?_, fun num z m₀ m₁ hx hl => ?_,
    fun wireType hw h2 h4 => ⟨fun z m₀ m₁ hx hl => ?_, fun z m₀ m₁ hx hl => ?_,
      fun z m₀ m₁ hx hl => ?_⟩⟩
  · exact unmarshalLoop_fails_after TxResponseGenericMessage.fieldSwitch hl hx fun _ =>
      unmarshalLoop_tag_error (lt_length_tag (length_tagBytes_pos _ _)) (readTag_endGroup _ num)
  · exact unmarshalLoop_fails_after TxResponseData.fieldSwitch hl hx fun _ =>
      unmarshalLoop_tag_error (lt_length_tag (length_tagBytes_pos _ _)) (readTag_endGroup _ num)
  · exact unmarshalLoop_fails_after TxResponseGenericMessage.fieldSwitch hl hx fun _ =>
      unmarshalLoop_field_error (lt_length_tag (length_tagBytes_pos _ _))
        (readTag_tagBytes _ _ hw h4 (by decide) (by decide))
        (TxResponseGenericMessage.unmarshalField_header_error
          (readBytesField_wrongWireType _ _ h2 _))
  · exact unmarshalLoop_fails_after TxResponseGenericMessage.fieldSwitch hl hx fun _ =>
      unmarshalLoop_field_error (lt_length_tag (length_tagBytes_pos _ _))
        (readTag_tagBytes _ _ hw h4 (by decide) (by decide))
        (TxResponseGenericMessage.unmarshalField_data_error
          (readBytesField_wrongWireType _ _ h2 _))
  · exact unmarshalLoop_fails_after TxResponseData.fieldSwitch hl hx fun _ =>
      unmarshalLoop_field_error (lt_length_tag (length_tagBytes_pos _ _))
        (readTag_tagBytes _ _ hw h4 (by decide) (by decide))
        (TxResponseData.unmarshalField_error (readBytesField_wrongWireType _ _ h2 _))

/-- After bytes `x` that an `Unmarshal` decodes, a field it declares whose reader fails, from
the byte after the tag, makes it fail with that error. -/
theorem declared_field_fails {x c z : Bytes} {err : ProtoError}
    (hr : ∀ (name : Bytes) (tag : UInt8), (x ++ tag :: c ++ z).length ≤ maxInt →
      readBytesField name (x ++ [tag] ++ c ++ z) 2 (x ++ [tag]).length = .error (.fail err)) :
    (∀ tag ∈ [0x0a, 0x12], ∀ m₀ m₁, TxResponseGenericMessage.unmarshal m₀ x = .ok m₁ →
      (x ++ tag :: c ++ z).length ≤ maxInt →
      TxResponseGenericMessage.unmarshal m₀ (x ++ tag :: c ++ z) = .error (.fail err)) ∧
    ∀ m₀ m₁, TxResponseData.unmarshal m₀ x = .ok m₁ → (x ++ 0x0a :: c ++ z).length ≤ maxInt →
      TxResponseData.unmarshal m₀ (x ++ 0x0a :: c ++ z) = .error (.fail err) := by
  have hf {tag : UInt8} (name : Bytes) (hl : (x ++ tag :: c ++ z).length ≤ maxInt) :
      readBytesField name (x ++ tag :: c ++ z) 2 (x.length + 1) = .error (.fail err) := by
    simpa using hr name tag hl
  have ht : 0 < (0x0a :: c).length := List.length_pos.mpr (List.cons_ne_nil _ _)
  refine ⟨fun tag htag m₀ m₁ hx hl => ?_, fun m₀ m₁ hx hl => ?_⟩
  · rcases List.mem_pair.mp htag with rfl | rfl
    · exact unmarshalLoop_fails_after TxResponseGenericMessage.fieldSwitch hl hx fun _ =>
        unmarshalLoop_field_error (lt_length_tag ht)
          (by rw [List.append_assoc]; exact readTag_header _)
          (TxResponseGenericMessage.unmarshalField_header_error (hf _ hl))
    · exact unmarshalLoop_fails_after TxResponseGenericMessage.fieldSwitch hl hx fun _ =>
        unmarshalLoop_field_error (lt_length_tag ht)
          (by rw [List.append_assoc]; exact readTag_data _)
          (TxResponseGenericMessage.unmarshalField_data_error (hf _ hl))
  · exact unmarshalLoop_fails_after TxResponseData.fieldSwitch hl hx fun _ =>
      unmarshalLoop_field_error (lt_length_tag ht)
        (by rw [List.append_assoc]; exact readTag_header _)
        (TxResponseData.unmarshalField_error (hf _ hl))

/-- A tag whose `int32` number is 0 or negative is refused as illegal whatever follows; the error
reports the narrowed number, and the whole tag where its text says wire type. -/
theorem illegal_tag_error (x : Bytes) (num : Fin (2 ^ 61)) {wireType : Nat} (hw : wireType < 8)
    (h4 : wireType ≠ 4) (hn : Int.bmod num (2 ^ 32) ≤ 0) :
    FailsAfter TxResponseGenericMessage.unmarshal x (tagBytes num wireType)
        (.illegalTag (ascii "TxResponseGenericMessage") (Int.bmod num (2 ^ 32))
          (UInt64.ofNat (num * 8 + wireType))) ∧
      FailsAfter TxResponseData.unmarshal x (tagBytes num wireType)
        (.illegalTag (ascii "TxResponseData") (Int.bmod num (2 ^ 32))
          (UInt64.ofNat (num * 8 + wireType))) :=
  ⟨fun _ _ _ hx hl => unmarshalLoop_fails_after TxResponseGenericMessage.fieldSwitch hl hx
      fun _ => unmarshalLoop_tag_error (lt_length_tag (length_tagBytes_pos _ _))
        (readTag_illegal _ num hw h4 hn),
    fun _ _ _ hx hl => unmarshalLoop_fails_after TxResponseData.fieldSwitch hl hx
      fun _ => unmarshalLoop_tag_error (lt_length_tag (length_tagBytes_pos _ _))
        (readTag_illegal _ num hw h4 hn)⟩

/-- Field number `2^31` with wire type 2: its `int32` is `-2^31`, and the text's wire type is
the tag `2^34 + 2`. -/
theorem field_two_pow_31_illegal :
    FailsAfter TxResponseGenericMessage.unmarshal [] (tagBytes ⟨2 ^ 31, by decide⟩ 2)
        (.illegalTag (ascii "TxResponseGenericMessage") (-2147483648) 17179869186) ∧
      FailsAfter TxResponseData.unmarshal [] (tagBytes ⟨2 ^ 31, by decide⟩ 2)
        (.illegalTag (ascii "TxResponseData") (-2147483648) 17179869186) := by
  have h := @illegal_tag_error [] ⟨2 ^ 31, by decide⟩ 2 (by decide) (by decide) (by decide)
  rwa [show Int.bmod ((⟨2 ^ 31, by decide⟩ : Fin (2 ^ 61)) : Nat) (2 ^ 32) = -2147483648 by decide,
    show UInt64.ofNat (((⟨2 ^ 31, by decide⟩ : Fin (2 ^ 61)) : Nat) * 8 + 2) = 17179869186 by
      decide] at h

/-- An undeclared field of wire type 6 or 7 is refused as an illegal wire type whatever follows it. -/
theorem unknown_field_illegal_wireType (x : Bytes) (num : Fin (2 ^ 61)) {wireType : Nat}
    (hw : wireType = 6 ∨ wireType = 7) (hn : 0 < Int.bmod num (2 ^ 32))
    (h1 : Int.bmod num (2 ^ 32) ≠ 1) :
    (Int.bmod num (2 ^ 32) ≠ 2 → FailsAfter TxResponseGenericMessage.unmarshal x
      (tagBytes num wireType) (.illegalWireType wireType)) ∧
    FailsAfter TxResponseData.unmarshal x (tagBytes num wireType) (.illegalWireType wireType) := by
  have ht {message : Bytes} {z : Bytes} :=
    @readTag_positive x z message num wireType (by omega) (by omega) hn
  have hi {z : Bytes} : ((x.length : Nat) : Int) < (x ++ tagBytes num wireType ++ z).length :=
    lt_length_tag (length_tagBytes_pos _ _)
  refine ⟨fun h2 z m₀ m₁ hx hl => ?_, fun z m₀ m₁ hx hl => ?_⟩
  · exact unmarshalLoop_fails_after TxResponseGenericMessage.fieldSwitch hl hx fun _ =>
      unmarshalLoop_skip_error hi ht
        (TxResponseGenericMessage.unmarshalField_default h1 h2 _ _ _ _) (skipField_illegal num hw z)
  · exact unmarshalLoop_fails_after TxResponseData.fieldSwitch hl hx fun _ =>
      unmarshalLoop_skip_error hi ht (TxResponseData.unmarshalField_default h1 _ _ _ _)
        (skipField_illegal num hw z)

theorem field_three_wire_type_six_illegal :
    FailsAfter TxResponseData.unmarshal [] (tagBytes ⟨3, by decide⟩ 6) (.illegalWireType 6) :=
  (@unknown_field_illegal_wireType [] ⟨3, by decide⟩ 6 (.inl rfl) (by decide) (by decide)).2

/-- A declared field whose length runs past the buffer is refused before it is read: an invalid
length when its end does not fit an `int`, an unexpected EOF when it does. -/
theorem overrunning_length_error (x z : Bytes) (L : UInt64) (hz : z.length < L.toNat) :
    let err : ProtoError :=
      if maxInt < x.length + 1 + (varintBytes L.toNat).length + L.toNat then .invalidLength
      else .unexpectedEOF
    (∀ tag ∈ [0x0a, 0x12], ∀ m₀ m₁, TxResponseGenericMessage.unmarshal m₀ x = .ok m₁ →
      (x ++ tag :: varintBytes L.toNat ++ z).length ≤ maxInt →
      TxResponseGenericMessage.unmarshal m₀ (x ++ tag :: varintBytes L.toNat ++ z) =
        .error (.fail err)) ∧
    ∀ m₀ m₁, TxResponseData.unmarshal m₀ x = .ok m₁ →
      (x ++ 0x0a :: varintBytes L.toNat ++ z).length ≤ maxInt →
      TxResponseData.unmarshal m₀ (x ++ 0x0a :: varintBytes L.toNat ++ z) = .error (.fail err) :=
  declared_field_fails fun name tag hl => by
    have h := @readBytesField_overrun (x ++ [tag]) z name L hz (by simpa using hl)
    simpa only [List.length_append, List.length_singleton] using h

/-- Ten continuation bytes are refused as an integer overflow where a tag or a declared field's
length starts, whatever follows. -/
theorem long_varint_overflows (x : Bytes) {c : Bytes} (hc : ∀ b ∈ c, 0x80 ≤ b)
    (h10 : 10 ≤ c.length) :
    FailsAfter TxResponseGenericMessage.unmarshal x c .intOverflow ∧
    FailsAfter TxResponseData.unmarshal x c .intOverflow ∧
    (∀ tag ∈ [0x0a, 0x12], FailsAfter TxResponseGenericMessage.unmarshal x (tag :: c) .intOverflow) ∧
    FailsAfter TxResponseData.unmarshal x (0x0a :: c) .intOverflow := by
  have hfield (z : Bytes) := declared_field_fails (x := x) (c := c) (z := z)
    fun name _ _ => readBytesField_overflow name hc h10
  refine ⟨fun z m₀ m₁ hx hl => ?_, fun z m₀ m₁ hx hl => ?_,
    fun tag htag z => (hfield z).1 tag htag, fun z => (hfield z).2⟩
  · exact unmarshalLoop_fails_after TxResponseGenericMessage.fieldSwitch hl hx fun _ =>
      unmarshalLoop_tag_error (lt_length_tag (by omega)) (readTag_overflow _ hc h10)
  · exact unmarshalLoop_fails_after TxResponseData.fieldSwitch hl hx fun _ =>
      unmarshalLoop_tag_error (lt_length_tag (by omega)) (readTag_overflow _ hc h10)

theorem ten_continuation_bytes_overflow :
    TxResponseData.unmarshal ⟨[]⟩ (List.replicate 10 0x80) = .error (.fail .intOverflow) :=
  (long_varint_overflows [] (c := List.replicate 10 0x80) (by decide) (by decide)).2.1 [] ⟨[]⟩
    ⟨[]⟩ rfl (by decide)

/-- A header of length `2^63 - 1`, a positive `int`, at the start of the buffer: its end is past
the largest `int`, so the length is refused as invalid rather than as an unexpected EOF. -/
theorem largest_int_header_length_invalid :
    TxResponseGenericMessage.unmarshal ⟨[], []⟩ (0x0a :: varintBytes (2 ^ 63 - 1)) =
      .error (.fail .invalidLength) := by
  have hv : (varintBytes (2 ^ 63 - 1)).length ≤ 9 :=
    (length_varintBytes_le_iff (by decide) _).mpr (by decide)
  have hp := length_varintBytes_pos (2 ^ 63 - 1)
  have hL : (0x7fffffffffffffff : UInt64).toNat = 2 ^ 63 - 1 := rfl
  have h := (overrunning_length_error [] [] (0x7fffffffffffffff : UInt64) (by decide)).1 0x0a
    (List.mem_cons_self _ _) ⟨[], []⟩ ⟨[], []⟩ rfl
  rw [hL, List.nil_append, List.append_nil, if_pos (by rw [List.length_nil, maxInt]; omega)] at h
  exact h (by rw [List.length_cons, maxInt]; omega)

end Messages

end InjectiveSdk.Proto
