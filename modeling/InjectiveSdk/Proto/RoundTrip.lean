import InjectiveSdk.Proto.Unmarshal

namespace InjectiveSdk.Proto
open InjectiveSdk.Go

/-- A length-delimited field front to back: its tag, the varint of its length, its bytes. -/
def lengthDelimited (tag : UInt8) (b : Bytes) : Bytes := tag :: (varintBytes b.length ++ b)

/-- A proto3 field, left out when empty. -/
def encodeField (tag : UInt8) (b : Bytes) : Bytes :=
  if b.length > 0 then lengthDelimited tag b else []

/-- The encoding of a `TxResponseGenericMessage`: `header` as field 1, `data` as field 2. -/
def TxResponseGenericMessage.encode (m : TxResponseGenericMessage) : Bytes :=
  encodeField 0x0a m.header ++ encodeField 0x12 m.data

/-- The encoding of a `TxResponseData`: each message as field 1, in order, empty ones too. -/
def TxResponseData.encode (m : TxResponseData) : Bytes :=
  m.messages.flatMap fun e => lengthDelimited 0x0a e.encode

section Lengths

theorem toNat_toUint64_of_lt {l : Nat} (h : l < 2 ^ 64) : (toUint64 l).toNat = l := by
  rw [toUint64, toNat_uint64OfNat]
  omega

theorem length_lengthDelimited (tag : UInt8) {b : Bytes} (h : b.length < 2 ^ 64) :
    (lengthDelimited tag b).length = fieldSize b.length := by
  rw [lengthDelimited, fieldSize, sovTxResponse_eq, toNat_toUint64_of_lt h]
  simp only [List.length_cons, List.length_append]
  omega

theorem length_encodeField (tag : UInt8) {b : Bytes} (h : b.length < 2 ^ 64) :
    (encodeField tag b).length = if b.length > 0 then fieldSize b.length else 0 := by
  rw [encodeField]
  split
  · exact length_lengthDelimited tag h
  · rfl

theorem TxResponseGenericMessage.length_le_size (m : TxResponseGenericMessage) :
    m.header.length ≤ m.size ∧ m.data.length ≤ m.size := by
  simp only [TxResponseGenericMessage.size, fieldSize]
  constructor <;> split <;> split <;> omega

theorem TxResponseGenericMessage.length_encode (m : TxResponseGenericMessage)
    (hm : m.size < 2 ^ 64) : m.encode.length = m.size := by
  obtain ⟨hh, hd⟩ := m.length_le_size
  rw [TxResponseGenericMessage.encode, List.length_append, length_encodeField _ (by omega),
    length_encodeField _ (by omega), TxResponseGenericMessage.size]

@[simp] theorem TxResponseData.size_nil : (⟨[]⟩ : TxResponseData).size = 0 := rfl

@[simp] theorem TxResponseData.size_cons (e : TxResponseGenericMessage)
    (es : List TxResponseGenericMessage) :
    (⟨e :: es⟩ : TxResponseData).size = fieldSize e.size + (⟨es⟩ : TxResponseData).size := by
  simp [TxResponseData.size]

@[simp] theorem TxResponseData.encode_nil : (⟨[]⟩ : TxResponseData).encode = [] := rfl

@[simp] theorem TxResponseData.encode_cons (e : TxResponseGenericMessage)
    (es : List TxResponseGenericMessage) :
    (⟨e :: es⟩ : TxResponseData).encode =
      lengthDelimited 0x0a e.encode ++ (⟨es⟩ : TxResponseData).encode := by
  simp [TxResponseData.encode]

theorem TxResponseData.length_encode (m : TxResponseData) (hm : m.size < 2 ^ 64) :
    m.encode.length = m.size := by
  obtain ⟨es⟩ := m
  induction es with
  | nil => rfl
  | cons e es ih =>
    rw [TxResponseData.size_cons] at hm
    have he : e.size < 2 ^ 64 := by simp only [fieldSize] at hm; omega
    rw [TxResponseData.encode_cons, List.length_append, TxResponseData.size_cons,
      length_lengthDelimited _ (by rw [e.length_encode he]; exact he), e.length_encode he,
      ih (by omega)]

end Lengths

section Marshal
variable {pre mid post : Bytes}

/-- The last two writes of a length-delimited field whose content already stands at `i`: the
varint of its length before it, then its tag. -/
theorem lengthDelimited_prefix_eq (tag : UInt8) {content : Bytes} {v : UInt64}
    (hv : v.toNat = content.length) (h : mid.length = 1 + sovTxResponse v) :
    (encodeVarintTxResponse (pre ++ mid ++ content ++ post) ((pre ++ mid).length : Nat) v >>=
      fun p => setIndex p.1 (p.2 - 1) tag >>= fun dAtA => pure (dAtA, p.2 - 1)) =
      .ok (pre ++ lengthDelimited tag content ++ post, pre.length) := by
  obtain ⟨mt, mV, rfl, ht, hV⟩ := exists_append_of_length h
  obtain ⟨t, rfl⟩ := List.length_eq_one.mp ht
  rw [show pre ++ ([t] ++ mV) ++ content ++ post = pre ++ [t] ++ mV ++ (content ++ post) by simp,
    show (((pre ++ ([t] ++ mV)).length : Nat) : Int) = ((pre ++ [t]).length + mV.length : Nat) by
      simp; omega,
    encodeVarintTxResponse_eq v hV, ok_bind, hv]
  dsimp only
  rw [show (((pre ++ [t]).length : Nat) : Int) - 1 = pre.length by simp,
    show pre ++ [t] ++ varintBytes content.length ++ (content ++ post) =
      pre ++ t :: (varintBytes content.length ++ (content ++ post)) by simp, setIndex_append]
  simp [lengthDelimited]

theorem marshalField_eq (tag : UInt8) {field : Bytes} (hl : field.length < 2 ^ 64)
    (h : mid.length = (encodeField tag field).length) :
    marshalField tag field (pre ++ mid ++ post) (pre.length + mid.length : Nat) =
      .ok (pre ++ encodeField tag field ++ post, pre.length) := by
  by_cases hpos : field.length > 0
  · have hsov : (varintBytes field.length).length = sovTxResponse (toUint64 field.length) := by
      rw [sovTxResponse_eq, toNat_toUint64_of_lt hl]
    rw [encodeField, if_pos hpos, lengthDelimited, List.length_cons, List.length_append] at h
    obtain ⟨x, mF, rfl, hx, hF⟩ :=
      @exists_append_of_length mid (1 + sovTxResponse (toUint64 field.length)) field.length
        (by omega)
    have hi : ((pre.length + (x ++ mF).length : Nat) : Int) - (field.length : Nat) =
        ((pre ++ x).length : Nat) := by simp; omega
    rw [marshalField, encodeField, if_pos hpos, if_pos hpos]
    dsimp only
    rw [hi, ← List.append_assoc, copyAt_append hF, ok_bind]
    exact lengthDelimited_prefix_eq tag (toNat_toUint64_of_lt hl) hx
  · rw [encodeField, if_neg hpos, List.length_nil, List.length_eq_zero] at h
    subst h
    rw [marshalField, encodeField, if_neg hpos, if_neg hpos]
    rfl

theorem TxResponseGenericMessage.marshalToSizedBuffer_eq (m : TxResponseGenericMessage)
    (hm : m.size < 2 ^ 64) (h : mid.length = m.size) :
    m.marshalToSizedBuffer (pre ++ mid) = .ok (m.size, pre ++ m.encode) := by
  obtain ⟨hh, hd⟩ := m.length_le_size
  have eH := length_encodeField 0x0a (show m.header.length < 2 ^ 64 by omega)
  have eD := length_encodeField 0x12 (show m.data.length < 2 ^ 64 by omega)
  obtain ⟨mH, mD, rfl, hH, hD⟩ := @exists_append_of_length mid (encodeField 0x0a m.header).length
    (encodeField 0x12 m.data).length (by rw [h, eH, eD]; rfl)
  have h1 := @marshalField_eq (pre ++ mH) mD [] 0x12 m.data (by omega) hD
  have h2 := @marshalField_eq pre mH (encodeField 0x12 m.data) 0x0a m.header (by omega) hH
  simp only [List.append_nil] at h1
  rw [TxResponseGenericMessage.marshalToSizedBuffer, ← List.append_assoc,
    show ((pre ++ mH ++ mD).length : Int) = ((pre ++ mH).length + mD.length : Nat) by
      simp; omega, h1,
    ok_bind]
  dsimp only
  rw [show ((pre ++ mH).length : Int) = ((pre.length + mH.length : Nat) : Int) by simp, h2,
    ok_bind, TxResponseGenericMessage.encode]
  rw [List.length_append] at h
  simp only [pure_eq_ok, List.append_assoc, List.length_append]
  congr 2
  omega

theorem marshalMessages_eq (es : List TxResponseGenericMessage)
    (hm : (⟨es⟩ : TxResponseData).size < 2 ^ 64) (h : mid.length = (⟨es⟩ : TxResponseData).size) :
    marshalMessages (pre ++ mid ++ post) (pre.length + mid.length : Nat) es =
      .ok (pre ++ (⟨es⟩ : TxResponseData).encode ++ post, pre.length) := by
  induction es generalizing pre mid with
  | nil =>
    rw [TxResponseData.size_nil, List.length_eq_zero] at h
    subst h
    simp [marshalMessages]
  | cons e rest ih =>
    rw [TxResponseData.size_cons] at h hm
    rw [TxResponseData.encode_cons]
    have he : e.size < 2 ^ 64 := by simp only [fieldSize] at hm; omega
    obtain ⟨m1, m2, rfl, h1, h2⟩ := exists_append_of_length h
    obtain ⟨x, mE, rfl, hx, hE⟩ :=
      @exists_append_of_length m1 (1 + sovTxResponse (toUint64 e.size)) e.size
        (by rw [h1, fieldSize]; omega)
    have hrest := @ih (pre ++ (x ++ mE)) m2 (by omega) h2
    generalize (⟨rest⟩ : TxResponseData).encode = tail at hrest ⊢
    rw [marshalMessages,
      show pre ++ (x ++ mE ++ m2) ++ post = pre ++ (x ++ mE) ++ m2 ++ post by simp,
      show ((pre.length + (x ++ mE ++ m2).length : Nat) : Int) =
        ((pre ++ (x ++ mE)).length + m2.length : Nat) by simp; omega, hrest, ok_bind]
    dsimp only
    rw [List.append_assoc _ tail, sliceTo_append, ok_bind, ← List.append_assoc pre,
      e.marshalToSizedBuffer_eq he hE, ok_bind]
    dsimp only
    rw [Int.toNat_natCast, List.drop_left, ← List.append_assoc pre, List.append_assoc _ tail,
      show ((pre ++ x ++ mE).length : Int) - (e.size : Nat) = ((pre ++ x).length : Nat) by
        simp; omega]
    exact lengthDelimited_prefix_eq 0x0a (by rw [toNat_toUint64_of_lt he, e.length_encode he]) hx

theorem TxResponseData.marshalToSizedBuffer_eq (m : TxResponseData) (hm : m.size < 2 ^ 64)
    (h : mid.length = m.size) :
    m.marshalToSizedBuffer (pre ++ mid) = .ok (m.size, pre ++ m.encode) := by
  have hms := @marshalMessages_eq pre mid [] m.messages hm h
  simp only [List.append_nil] at hms
  rw [TxResponseData.marshalToSizedBuffer,
    show ((pre ++ mid).length : Int) = ((pre.length + mid.length : Nat) : Int) by simp, hms]
  simp only [pure_eq_ok, ok_bind, Except.ok.injEq, Prod.mk.injEq, and_true]
  omega

theorem marshalSized_eq {size : Nat} {f : Bytes → Except Panic (Int × Bytes)} {enc : Bytes}
    (hf : f (List.replicate size 0) = .ok (size, enc)) (hl : enc.length = size) :
    marshalSized size f = .ok enc := by
  have h1 := @sliceTo_append (List.replicate size 0) []
  have h2 := @sliceTo_append enc []
  simp only [List.append_nil, List.length_replicate] at h1 h2
  rw [marshalSized]
  simp only [h1, ok_bind, hf]
  rw [← hl]
  exact h2

theorem marshalTo_eq {size : Nat} {f : Bytes → Except Panic (Int × Bytes)} {enc dAtA : Bytes}
    (hf : ∀ mid : Bytes, mid.length = size → f mid = .ok (size, enc)) (h : size ≤ dAtA.length) :
    marshalTo size f dAtA = .ok (size, enc ++ dAtA.drop size) := by
  have hs : sliceTo dAtA size = .ok (dAtA.take size) := by
    simpa [sliceTo] using slice_natCast (Nat.zero_le _) h
  simp only [marshalTo, hs, ok_bind, hf (dAtA.take size) (by simp; omega)]
  rfl

end Marshal

section Decode
variable {pre post : Bytes}

theorem readVarint_byte {b : UInt8} (hb : b < 0x80) :
    readVarint (pre ++ b :: post) pre.length = .ok (b.toUInt64, pre.length + 1) := by
  have hb' : b.toNat < 128 := hb
  rw [readVarint, varintLoop_byte (by decide)]
  simp only [if_pos hb]
  congr
  apply UInt64.toNat.inj
  rw [toNat_accumulate (by decide) (by decide) (by simp; omega)]
  show 0 + b.toNat % 128 * 1 = b.toNat
  omega

theorem readTag_header (message : Bytes) :
    readTag message (pre ++ 0x0a :: post) pre.length = .ok (1, 2, pre.length + 1) := by
  rw [readTag, readVarint_byte (by decide)]
  rfl

theorem readTag_data (message : Bytes) :
    readTag message (pre ++ 0x12 :: post) pre.length = .ok (2, 2, pre.length + 1) := by
  rw [readTag, readVarint_byte (by decide)]
  rfl

/-- A length written as any varint reads back as a non-negative `int`. -/
theorem Varint.readVarint_length {b : Bytes} (x : Varint b.length)
    (hL : (pre ++ x.bytes ++ b ++ post).length ≤ maxInt) :
    ∃ length, readVarint (pre ++ x.bytes ++ b ++ post) pre.length =
      .ok (length, pre.length + x.bytes.length) ∧ toInt length = b.length := by
  simp only [List.length_append, maxInt] at hL
  have hv : (UInt64.ofNat b.length).toNat = b.length := by rw [toNat_uint64OfNat]; omega
  refine ⟨_, ?_, by rw [toInt_of_le (by rw [hv, maxInt]; omega), hv]⟩
  rw [List.append_assoc _ b]
  exact x.readVarint_bytes (by omega)

theorem Varint.readLength_bytes {b : Bytes} (x : Varint b.length)
    (hL : (pre ++ x.bytes ++ b ++ post).length ≤ maxInt) :
    readLength (pre ++ x.bytes ++ b ++ post) pre.length =
      .ok (pre.length + x.bytes.length, pre.length + x.bytes.length + b.length) := by
  obtain ⟨length, hr, hv⟩ := x.readVarint_length hL
  simp only [List.length_append] at hL
  rw [readLength, hr, ok_bind]
  dsimp only
  rw [hv, addInt_of_le (by omega) (by omega) (by omega)]
  simp only [List.length_append]
  rw [if_neg (by omega), if_neg (by omega), if_neg (by push_cast; omega)]
  rfl

/-- A length-delimited value, its length written as any varint. -/
theorem Varint.readBytesField_bytes (name : Bytes) {b : Bytes} (x : Varint b.length)
    (hL : (pre ++ x.bytes ++ b ++ post).length ≤ maxInt) :
    readBytesField name (pre ++ x.bytes ++ b ++ post) 2 pre.length =
      .ok (pre.length + x.bytes.length + b.length, b) := by
  have hs := @slice_append (pre ++ x.bytes) b post
  simp only [List.length_append, Nat.cast_add] at hs
  rw [readBytesField, if_neg (by decide)]
  simp only [x.readLength_bytes hL, ok_bind, hs, liftPanic_ok]
  rfl

theorem readBytesField_varintBytes (name : Bytes) {b : Bytes}
    (hL : (pre ++ varintBytes b.length ++ b ++ post).length ≤ maxInt) :
    readBytesField name (pre ++ varintBytes b.length ++ b ++ post) 2 pre.length =
      .ok (pre.length + (varintBytes b.length).length + b.length, b) := by
  have h : b.length < 2 ^ 70 := by simp only [List.length_append, maxInt] at hL; omega
  have hr := @Varint.readBytesField_bytes pre post name b (.minimal h) (by rwa [Varint.bytes_minimal])
  rwa [Varint.bytes_minimal] at hr

section Loop
variable {σ : Type} {message : Bytes}
  {field : Bytes → Int → Nat → Int → σ → Option (Decode (Int × σ))} {dAtA : Bytes} {fuel : Nat}

theorem unmarshalLoop_declared {iNdEx i i' fieldNum : Int} {wireType : Nat} {m m' : σ}
    (hi : iNdEx < dAtA.length) (htag : readTag message dAtA iNdEx = .ok (fieldNum, wireType, i))
    (hf : field dAtA fieldNum wireType i m = some (.ok (i', m'))) :
    unmarshalLoop message field dAtA (fuel + 1) iNdEx m =
      unmarshalLoop message field dAtA fuel i' m' := by
  rw [unmarshalLoop, if_pos hi, htag, ok_bind]
  simp only [hf, ok_bind]

theorem unmarshalLoop_end {m : σ} :
    unmarshalLoop message field dAtA (fuel + 1) dAtA.length m = .ok m := by
  rw [unmarshalLoop, if_neg (lt_irrefl _), if_neg (lt_irrefl _)]
  rfl

/-- A pass of the `Unmarshal` loop over a length-delimited field of a number the message
declares, whose `case` turns its bytes `b` into `m'`. -/
theorem unmarshalLoop_lengthDelimited {tag : UInt8} {fieldNum : Int} {name b pre post : Bytes}
    {m m' : σ}
    (htag : ∀ pre post : Bytes,
      readTag message (pre ++ tag :: post) pre.length = .ok (fieldNum, 2, pre.length + 1))
    (hf : ∀ dAtA i i', readBytesField name dAtA 2 i = .ok (i', b) →
      field dAtA fieldNum 2 i m = some (.ok (i', m')))
    (hL : (pre ++ lengthDelimited tag b ++ post).length ≤ maxInt) :
    unmarshalLoop message field (pre ++ lengthDelimited tag b ++ post) (fuel + 1) pre.length m =
      unmarshalLoop message field (pre ++ lengthDelimited tag b ++ post) fuel
        (pre ++ lengthDelimited tag b).length m' := by
  have e1 : pre ++ lengthDelimited tag b ++ post =
      pre ++ tag :: (varintBytes b.length ++ b ++ post) := by simp [lengthDelimited]
  have e2 : pre ++ lengthDelimited tag b ++ post =
      pre ++ [tag] ++ varintBytes b.length ++ b ++ post := by simp [lengthDelimited]
  have hread := @readBytesField_varintBytes (pre ++ [tag]) post name b (e2 ▸ hL)
  rw [← e2] at hread
  have hi : ((pre ++ [tag]).length : Int) = pre.length + 1 := by simp
  have hend : ((pre ++ [tag]).length : Int) + (varintBytes b.length).length + b.length =
      (pre ++ lengthDelimited tag b).length := by simp [lengthDelimited]; omega
  rw [hend, hi] at hread
  exact unmarshalLoop_declared (by rw [e1]; simp; omega) (by rw [e1]; exact htag _ _)
    (hf _ _ _ hread)

end Loop

section Generic
variable {fuel : Nat} {m : TxResponseGenericMessage}

theorem TxResponseGenericMessage.unmarshalLoop_header {h : Bytes}
    (hL : (pre ++ lengthDelimited 0x0a h ++ post).length ≤ maxInt) :
    unmarshalLoop (ascii "TxResponseGenericMessage") TxResponseGenericMessage.unmarshalField
        (pre ++ lengthDelimited 0x0a h ++ post) (fuel + 1) pre.length m =
      unmarshalLoop (ascii "TxResponseGenericMessage") TxResponseGenericMessage.unmarshalField
        (pre ++ lengthDelimited 0x0a h ++ post) fuel (pre ++ lengthDelimited 0x0a h).length
        { m with header := h } :=
  unmarshalLoop_lengthDelimited (fun _ _ => readTag_header _)
    (fun _ _ _ (hr : readBytesField (ascii "Header") _ 2 _ = _) => by
      simp only [TxResponseGenericMessage.unmarshalField, hr]; rfl) hL

theorem TxResponseGenericMessage.unmarshalLoop_data {d : Bytes}
    (hL : (pre ++ lengthDelimited 0x12 d ++ post).length ≤ maxInt) :
    unmarshalLoop (ascii "TxResponseGenericMessage") TxResponseGenericMessage.unmarshalField
        (pre ++ lengthDelimited 0x12 d ++ post) (fuel + 1) pre.length m =
      unmarshalLoop (ascii "TxResponseGenericMessage") TxResponseGenericMessage.unmarshalField
        (pre ++ lengthDelimited 0x12 d ++ post) fuel (pre ++ lengthDelimited 0x12 d).length
        { m with data := d } :=
  unmarshalLoop_lengthDelimited (fun _ _ => readTag_data _)
    (fun _ _ _ (hr : readBytesField (ascii "Data") _ 2 _ = _) => by
      simp only [TxResponseGenericMessage.unmarshalField, hr]; rfl) hL

end Generic

theorem length_lengthDelimited_pos (tag : UInt8) (b : Bytes) :
    2 ≤ (lengthDelimited tag b).length := by
  have := length_varintBytes_pos b.length
  simp only [lengthDelimited, List.length_cons, List.length_append]
  omega

/-- What decoding the encoding of `e` does to a receiver `m`: a field on the wire replaces the
receiver's, and an empty one, which proto3 leaves off, keeps it. -/
def TxResponseGenericMessage.merge (m e : TxResponseGenericMessage) : TxResponseGenericMessage :=
  { header := if e.header.length > 0 then e.header else m.header
    data := if e.data.length > 0 then e.data else m.data }

@[simp] theorem TxResponseGenericMessage.default_merge (e : TxResponseGenericMessage) :
    (default : TxResponseGenericMessage).merge e = e := by
  obtain ⟨h, d⟩ := e
  simp only [TxResponseGenericMessage.merge, TxResponseGenericMessage.mk.injEq]
  constructor <;> split_ifs with hp <;> simp_all <;> rfl

theorem TxResponseGenericMessage.unmarshal_encode_merge (m e : TxResponseGenericMessage)
    (hL : e.encode.length ≤ maxInt) : m.unmarshal e.encode = .ok (m.merge e) := by
  obtain ⟨h, d⟩ := e
  have pH := length_lengthDelimited_pos 0x0a h
  have pD := length_lengthDelimited_pos 0x12 d
  rw [TxResponseGenericMessage.unmarshal]
  simp only [TxResponseGenericMessage.encode, encodeField, TxResponseGenericMessage.merge] at hL ⊢
  by_cases hh : h.length > 0 <;> by_cases hd : d.length > 0 <;>
    simp only [hh, hd, if_true, if_false, List.append_nil, List.nil_append] at hL ⊢
  · obtain ⟨k, hk⟩ : ∃ k,
        (lengthDelimited 0x0a h ++ lengthDelimited 0x12 d).length + 1 = k + 1 + 1 + 1 :=
      ⟨(lengthDelimited 0x0a h ++ lengthDelimited 0x12 d).length - 2, by simp; omega⟩
    have s1 := @TxResponseGenericMessage.unmarshalLoop_header [] (lengthDelimited 0x12 d)
      (k + 1 + 1) m h (by simpa using hL)
    have s2 := @TxResponseGenericMessage.unmarshalLoop_data (lengthDelimited 0x0a h) [] (k + 1)
      { m with header := h } d (by simpa using hL)
    simp only [List.nil_append, List.append_nil, List.length_nil, Nat.cast_zero] at s1 s2
    rw [hk, s1, s2, unmarshalLoop_end]
  · obtain ⟨k, hk⟩ : ∃ k, (lengthDelimited 0x0a h).length + 1 = k + 1 + 1 :=
      ⟨(lengthDelimited 0x0a h).length - 1, by omega⟩
    have s1 := @TxResponseGenericMessage.unmarshalLoop_header [] [] (k + 1) m h
      (by simpa using hL)
    simp only [List.nil_append, List.append_nil, List.length_nil, Nat.cast_zero] at s1
    rw [hk, s1, unmarshalLoop_end]
  · obtain ⟨k, hk⟩ : ∃ k, (lengthDelimited 0x12 d).length + 1 = k + 1 + 1 :=
      ⟨(lengthDelimited 0x12 d).length - 1, by omega⟩
    have s2 := @TxResponseGenericMessage.unmarshalLoop_data [] [] (k + 1) m d
      (by simpa using hL)
    simp only [List.nil_append, List.append_nil, List.length_nil, Nat.cast_zero] at s2
    rw [hk, s2, unmarshalLoop_end]
  · exact unmarshalLoop_end

theorem TxResponseGenericMessage.unmarshal_encode (m : TxResponseGenericMessage)
    (hL : m.encode.length ≤ maxInt) :
    TxResponseGenericMessage.unmarshal default m.encode = .ok m := by
  rw [unmarshal_encode_merge _ _ hL, default_merge]

theorem TxResponseData.unmarshalLoop_message {fuel : Nat} {e : TxResponseGenericMessage}
    {acc : TxResponseData} (hL : (pre ++ lengthDelimited 0x0a e.encode ++ post).length ≤ maxInt) :
    unmarshalLoop (ascii "TxResponseData") TxResponseData.unmarshalField
        (pre ++ lengthDelimited 0x0a e.encode ++ post) (fuel + 1) pre.length acc =
      unmarshalLoop (ascii "TxResponseData") TxResponseData.unmarshalField
        (pre ++ lengthDelimited 0x0a e.encode ++ post) fuel
        (pre ++ lengthDelimited 0x0a e.encode).length ⟨acc.messages ++ [e]⟩ := by
  have he : e.encode.length ≤ maxInt := by
    simp only [List.length_append, lengthDelimited, List.length_cons] at hL; omega
  exact unmarshalLoop_lengthDelimited (fun _ _ => readTag_header _)
    (fun _ _ _ (hr : readBytesField (ascii "Messages") _ 2 _ = _) => by
      simp only [TxResponseData.unmarshalField, hr, ok_bind, e.unmarshal_encode he]; rfl) hL

theorem TxResponseData.unmarshalLoop_encode (es : List TxResponseGenericMessage)
    {acc : TxResponseData} {fuel : Nat}
    (hL : (pre ++ (⟨es⟩ : TxResponseData).encode).length ≤ maxInt) (hf : es.length < fuel) :
    unmarshalLoop (ascii "TxResponseData") TxResponseData.unmarshalField
        (pre ++ (⟨es⟩ : TxResponseData).encode) fuel pre.length acc = .ok ⟨acc.messages ++ es⟩ := by
  obtain ⟨fuel, rfl⟩ : ∃ f, fuel = f + 1 := ⟨fuel - 1, by omega⟩
  induction es generalizing pre acc fuel with
  | nil => simpa using @unmarshalLoop_end _ _ _ pre fuel acc
  | cons e rest ih =>
    rw [List.length_cons] at hf
    obtain ⟨f, rfl⟩ : ∃ f, fuel = f + 1 := ⟨fuel - 1, by omega⟩
    rw [TxResponseData.encode_cons, ← List.append_assoc] at hL ⊢
    rw [TxResponseData.unmarshalLoop_message hL]
    simpa using @ih (pre ++ lengthDelimited 0x0a e.encode) ⟨acc.messages ++ [e]⟩ hL f (by omega)

theorem TxResponseData.length_le_encode (m : TxResponseData) :
    m.messages.length ≤ m.encode.length := by
  obtain ⟨es⟩ := m
  induction es with
  | nil => simp
  | cons e rest ih =>
    have := length_lengthDelimited_pos 0x0a e.encode
    simp only [TxResponseData.encode_cons, List.length_append, List.length_cons] at ih ⊢
    omega

/-- What `TxResponseData.Unmarshal` of the encoding of `e` does to its receiver `m`: the messages
of `e` are appended to the receiver's. -/
def TxResponseData.merge (m e : TxResponseData) : TxResponseData := ⟨m.messages ++ e.messages⟩

theorem TxResponseData.unmarshal_encode_merge (m e : TxResponseData)
    (hL : e.encode.length ≤ maxInt) : m.unmarshal e.encode = .ok (m.merge e) :=
  @TxResponseData.unmarshalLoop_encode [] e.messages m (e.encode.length + 1) (by simpa using hL)
    (by have := e.length_le_encode; omega)

theorem TxResponseData.unmarshal_encode (m : TxResponseData) (hL : m.encode.length ≤ maxInt) :
    TxResponseData.unmarshal default m.encode = .ok m := by
  simpa [TxResponseData.merge] using TxResponseData.unmarshal_encode_merge default m hL

end Decode

/-- `Marshal` writes the front-to-back encoding, filling the `Size`-byte buffer from its end
to its start, and `Unmarshal` reads the message back from those bytes. -/
theorem marshal_unmarshal_round_trip (m : TxResponseData) (hm : m.size ≤ maxInt) :
    m.marshalToSizedBuffer (List.replicate m.size 0) = .ok (m.size, m.encode) ∧
      m.marshal = .ok m.encode ∧ m.encode.length = m.size ∧
      TxResponseData.unmarshal default m.encode = .ok m := by
  have hs : m.size < 2 ^ 64 := by simp only [maxInt] at hm; omega
  have hl := m.length_encode hs
  have hb : m.marshalToSizedBuffer (List.replicate m.size 0) = .ok (m.size, m.encode) := by
    simpa using @TxResponseData.marshalToSizedBuffer_eq [] (List.replicate m.size 0) m hs
      (by simp)
  exact ⟨hb, marshalSized_eq hb hl, hl, m.unmarshal_encode (hl ▸ hm)⟩

def twoMessageResponse : TxResponseData := ⟨[⟨ascii "a", [1]⟩, ⟨[], []⟩]⟩

theorem two_message_round_trip :
    twoMessageResponse.size ≤ maxInt ∧
      (twoMessageResponse.marshalToSizedBuffer (List.replicate twoMessageResponse.size 0) =
          .ok (twoMessageResponse.size, twoMessageResponse.encode) ∧
        twoMessageResponse.marshal = .ok twoMessageResponse.encode ∧
        twoMessageResponse.encode.length = twoMessageResponse.size ∧
        TxResponseData.unmarshal default twoMessageResponse.encode = .ok twoMessageResponse) :=
  ⟨by decide, marshal_unmarshal_round_trip _ (by decide)⟩

/-- `MarshalTo` into a buffer of at least `Size` bytes returns `Size` and writes the encoding over
the first `Size` bytes only. -/
theorem marshalTo_leaves_tail (dAtA : Bytes) :
    (∀ m : TxResponseData, m.size ≤ maxInt → m.size ≤ dAtA.length →
      m.marshalTo dAtA = .ok (m.size, m.encode ++ dAtA.drop m.size)) ∧
    ∀ m : TxResponseGenericMessage, m.size ≤ maxInt → m.size ≤ dAtA.length →
      m.marshalTo dAtA = .ok (m.size, m.encode ++ dAtA.drop m.size) := by
  refine ⟨fun m hm h => marshalTo_eq (fun mid hmid => ?_) h,
    fun m hm h => marshalTo_eq (fun mid hmid => ?_) h⟩
  · simpa using @TxResponseData.marshalToSizedBuffer_eq [] mid m (by simp only [maxInt] at hm; omega)
      hmid
  · simpa using @TxResponseGenericMessage.marshalToSizedBuffer_eq [] mid m
      (by simp only [maxInt] at hm; omega) hmid

theorem two_message_marshal_to :
    twoMessageResponse.size ≤ maxInt ∧ twoMessageResponse.size ≤ (List.replicate 12 0x2a).length ∧
      twoMessageResponse.marshalTo (List.replicate 12 0x2a) =
        .ok (twoMessageResponse.size,
          twoMessageResponse.encode ++ (List.replicate 12 0x2a).drop twoMessageResponse.size) :=
  ⟨by decide, by decide, (marshalTo_leaves_tail _).1 twoMessageResponse (by decide) (by decide)⟩

end InjectiveSdk.Proto
