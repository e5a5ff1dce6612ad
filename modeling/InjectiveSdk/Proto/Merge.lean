import InjectiveSdk.Proto.Unknown

namespace InjectiveSdk.Proto
open InjectiveSdk.Go

section Stream
variable {σ : Type} {message : Bytes}
  {field : Bytes → Int → Nat → Int → σ → Option (Decode (Int × σ))}

/-- Once the loop has decoded `x` alone into `m₁`, a run over `x ++ z` returns `m` exactly when a
run over `z` alone from `m₁` does. -/
theorem unmarshalLoop_append_iff (hs : FieldSwitch field) {x z : Bytes} {m₀ m₁ m : σ}
    (hl : (x ++ z).length ≤ maxInt)
    (hx : unmarshalLoop message field x (x.length + 1) 0 m₀ = .ok m₁) :
    unmarshalLoop message field (x ++ z) ((x ++ z).length + 1) 0 m₀ = .ok m ↔
      unmarshalLoop message field z (z.length + 1) 0 m₁ = .ok m := by
  obtain ⟨G, hG, e⟩ := unmarshalLoop_prefix hs hl le_rfl hx
    (show ((x ++ z).length - (0 : Int)).toNat < (x ++ z).length + 1 by omega)
  have hz : ([] ++ z).length ≤ maxInt := by
    simp only [List.nil_append, List.length_append] at hl ⊢; omega
  rw [e]
  constructor
  · intro h
    simpa using @unmarshalLoop_shift _ message field x [] hs z hl hz _ (z.length + 1) 0 m₁ m
      (by simpa using h) (by omega)
  · intro h
    simpa using @unmarshalLoop_shift _ message field [] x hs z hz hl _ G 0 m₁ m
      (by simpa using h) (by omega)

/-- If the loop decodes each encoding `enc a` into any receiver `m` as `merge m a`, it decodes
the concatenation of the encodings of `as` as their merges from left to right. -/
theorem unmarshalLoop_flatten (hs : FieldSwitch field) {α : Type} (enc : α → Bytes)
    (merge : σ → α → σ)
    (henc : ∀ m a, (enc a).length ≤ maxInt →
      unmarshalLoop message field (enc a) ((enc a).length + 1) 0 m = .ok (merge m a))
    (as : List α) (m₀ : σ) (hl : (as.map enc).flatten.length ≤ maxInt) :
    unmarshalLoop message field (as.map enc).flatten ((as.map enc).flatten.length + 1) 0 m₀ =
      .ok (as.foldl merge m₀) := by
  induction as generalizing m₀ with
  | nil => exact unmarshalLoop_end
  | cons a as ih =>
    simp only [List.map_cons, List.flatten_cons, List.foldl_cons] at hl ⊢
    have ha : (enc a).length ≤ maxInt := by simp only [List.length_append] at hl; omega
    have hr : (as.map enc).flatten.length ≤ maxInt := by
      simp only [List.length_append] at hl; omega
    exact (unmarshalLoop_append_iff hs hl (henc m₀ a ha)).mpr (ih _ hr)

end Stream

/-- A piece of a stream of fields: bytes of fields the decoder reads, or one field on the wire
that it may not declare. -/
inductive Piece
  | known (b : Bytes)
  | unknown (f : WireField)

def Piece.bytes : Piece → Bytes
  | .known b => b
  | .unknown f => f.encode

def Piece.stripped : Piece → Bytes
  | .known b => b
  | .unknown _ => []

theorem Piece.length_stripped_le (ps : List Piece) :
    (ps.flatMap Piece.stripped).length ≤ (ps.flatMap Piece.bytes).length := by
  induction ps with
  | nil => exact le_rfl
  | cons p ps ih =>
    cases p <;> simp only [List.flatMap_cons, List.length_append, Piece.stripped, Piece.bytes,
      List.length_nil] <;> omega

section Pieces
variable {σ : Type} {message : Bytes}
  {field : Bytes → Int → Nat → Int → σ → Option (Decode (Int × σ))}

theorem exists_take_of_append {P : List Piece → Prop} {pre : List Piece} {p : Piece}
    (h : ∀ k, P ((pre ++ [p]).take k)) (k : Nat) : P (pre.take k) := by
  by_cases hk : k ≤ pre.length
  · simpa [List.take_append_of_le_length hk] using h k
  · simpa [List.take_of_length_le (not_le.mp hk).le] using h pre.length

/-- The loop reads a stream of pieces as it reads the stream stripped of unknown fields, when each
is left to `default` and the stripped stream decodes at every boundary. -/
theorem unmarshalLoop_pieces (hs : FieldSwitch field) {m₀ : σ} (ps : List Piece)
    (hu : ∀ f, Piece.unknown f ∈ ps → 0 < f.fieldNum ∧
      ∀ dAtA wireType iNdEx m, field dAtA f.fieldNum wireType iNdEx m = none)
    (hl : (ps.flatMap Piece.bytes).length ≤ maxInt)
    (hpre : ∀ k, ∃ m, unmarshalLoop message field ((ps.take k).flatMap Piece.stripped)
      (((ps.take k).flatMap Piece.stripped).length + 1) 0 m₀ = .ok m) :
    unmarshalLoop message field (ps.flatMap Piece.bytes) ((ps.flatMap Piece.bytes).length + 1) 0
        m₀ =
      unmarshalLoop message field (ps.flatMap Piece.stripped)
        ((ps.flatMap Piece.stripped).length + 1) 0 m₀ := by
  induction ps using List.reverseRecOn with
  | nil => rfl
  | append_singleton pre p ih =>
    have hl' : (pre.flatMap Piece.bytes).length ≤ maxInt := by
      simp only [List.flatMap_append, List.length_append] at hl; omega
    have hs' : ((pre ++ [p]).flatMap Piece.stripped).length ≤ maxInt :=
      (Piece.length_stripped_le _).trans hl
    have hpre' := exists_take_of_append (P := fun qs => ∃ m, unmarshalLoop message field
      (qs.flatMap Piece.stripped) ((qs.flatMap Piece.stripped).length + 1) 0 m₀ = .ok m) hpre
    obtain ⟨m₁, hm₁⟩ := hpre' pre.length
    rw [List.take_length] at hm₁
    obtain ⟨m, hm⟩ := hpre (pre ++ [p]).length
    rw [List.take_length] at hm
    have hx : unmarshalLoop message field (pre.flatMap Piece.bytes)
        ((pre.flatMap Piece.bytes).length + 1) 0 m₀ = .ok m₁ := by
      rw [ih (fun f hf => hu f (List.mem_append_left _ hf)) hl' hpre', hm₁]
    rw [hm]
    cases p with
    | known b =>
      simp only [List.flatMap_append, List.flatMap_cons, List.flatMap_nil, List.append_nil,
        Piece.bytes, Piece.stripped] at hm hs' hl ⊢
      exact (unmarshalLoop_append_iff hs hl hx).mpr ((unmarshalLoop_append_iff hs hs' hm₁).mp hm)
    | unknown f =>
      simp only [List.flatMap_append, List.flatMap_cons, List.flatMap_nil, List.append_nil,
        Piece.bytes, Piece.stripped] at hm hl ⊢
      obtain rfl : m = m₁ := by rw [hm₁] at hm; exact (Except.ok.inj hm).symm
      obtain ⟨hf, hd⟩ := hu f (List.mem_append_right _ (List.mem_singleton_self _))
      simpa using unmarshalLoop_insert hs f hf hd (z := []) (by simpa using hl) (by simpa using hx) hx

end Pieces

/-- Decoding a concatenation is streaming: once `x` alone decodes into `m₁`, the bytes `x ++ z`
decode into `m` exactly when `z` decodes into `m₁` as `m`, for both messages and any receiver. -/
theorem unmarshal_append_streams (x z : Bytes) (hl : (x ++ z).length ≤ maxInt) :
    (∀ m₀ m₁ m : TxResponseData, m₀.unmarshal x = .ok m₁ →
      (m₀.unmarshal (x ++ z) = .ok m ↔ m₁.unmarshal z = .ok m)) ∧
    (∀ m₀ m₁ m : TxResponseGenericMessage, m₀.unmarshal x = .ok m₁ →
      (m₀.unmarshal (x ++ z) = .ok m ↔ m₁.unmarshal z = .ok m)) :=
  ⟨fun _ _ _ hx => unmarshalLoop_append_iff TxResponseData.fieldSwitch hl hx,
    fun _ _ _ hx => unmarshalLoop_append_iff TxResponseGenericMessage.fieldSwitch hl hx⟩

def headerAndData : TxResponseGenericMessage := ⟨ascii "a", [1]⟩

def dataOnly : TxResponseGenericMessage := ⟨[], [2]⟩

theorem responses_stream :
    ((⟨[headerAndData]⟩ : TxResponseData).encode ++ (⟨[dataOnly]⟩ : TxResponseData).encode).length ≤
        maxInt ∧
      TxResponseData.unmarshal default (⟨[headerAndData]⟩ : TxResponseData).encode =
        .ok ⟨[headerAndData]⟩ ∧
      (TxResponseData.unmarshal default
          ((⟨[headerAndData]⟩ : TxResponseData).encode ++ (⟨[dataOnly]⟩ : TxResponseData).encode) =
          .ok ⟨[headerAndData, dataOnly]⟩ ↔
        TxResponseData.unmarshal ⟨[headerAndData]⟩ (⟨[dataOnly]⟩ : TxResponseData).encode =
          .ok ⟨[headerAndData, dataOnly]⟩) := by
  have hl : ((⟨[headerAndData]⟩ : TxResponseData).encode ++
      (⟨[dataOnly]⟩ : TxResponseData).encode).length ≤ maxInt := by
    rw [List.length_append, TxResponseData.length_encode _ (by decide),
      TxResponseData.length_encode _ (by decide)]
    decide
  have hx := TxResponseData.unmarshal_encode_merge default ⟨[headerAndData]⟩
    (by simp only [List.length_append] at hl; omega)
  exact ⟨hl, hx, (unmarshal_append_streams _ _ hl).1 default _ _ hx⟩

/-- Decoding concatenated encodings merges them left to right: `TxResponseData` appends messages,
`TxResponseGenericMessage` keeps each field from the last message where it is not empty. -/
theorem unmarshal_flatten_merges :
    (∀ (m₀ : TxResponseData) (es : List TxResponseData),
      (es.map TxResponseData.encode).flatten.length ≤ maxInt →
        m₀.unmarshal (es.map TxResponseData.encode).flatten =
          .ok (es.foldl TxResponseData.merge m₀)) ∧
    (∀ (m₀ : TxResponseGenericMessage) (es : List TxResponseGenericMessage),
      (es.map TxResponseGenericMessage.encode).flatten.length ≤ maxInt →
        m₀.unmarshal (es.map TxResponseGenericMessage.encode).flatten =
          .ok (es.foldl TxResponseGenericMessage.merge m₀)) :=
  ⟨fun m₀ es hl => unmarshalLoop_flatten TxResponseData.fieldSwitch _ _
      TxResponseData.unmarshal_encode_merge es m₀ hl,
    fun m₀ es hl => unmarshalLoop_flatten TxResponseGenericMessage.fieldSwitch _ _
      TxResponseGenericMessage.unmarshal_encode_merge es m₀ hl⟩

theorem header_kept_data_replaced :
    ([headerAndData, dataOnly].map TxResponseGenericMessage.encode).flatten.length ≤ maxInt ∧
      TxResponseGenericMessage.unmarshal default
          ([headerAndData, dataOnly].map TxResponseGenericMessage.encode).flatten =
        .ok ⟨ascii "a", [2]⟩ := by
  have hl : ([headerAndData, dataOnly].map TxResponseGenericMessage.encode).flatten.length ≤
      maxInt := by
    simp only [List.map_cons, List.map_nil, List.flatten_cons, List.flatten_nil,
      List.append_nil, List.length_append, headerAndData.length_encode (by decide),
      dataOnly.length_encode (by decide)]
    decide
  exact ⟨hl, unmarshal_flatten_merges.2 default _ hl⟩

/-- Unknown fields are ignored wherever they stand between fields, any number of them: the stream
decodes as the stream stripped of them does. -/
theorem unknown_fields_ignored :
    (∀ (m₀ : TxResponseData) (ps : List Piece),
      (∀ f, Piece.unknown f ∈ ps → 0 < f.fieldNum ∧ f.fieldNum ≠ 1) →
      (ps.flatMap Piece.bytes).length ≤ maxInt →
      (∀ k, ∃ m, m₀.unmarshal ((ps.take k).flatMap Piece.stripped) = .ok m) →
      m₀.unmarshal (ps.flatMap Piece.bytes) = m₀.unmarshal (ps.flatMap Piece.stripped)) ∧
    (∀ (m₀ : TxResponseGenericMessage) (ps : List Piece),
      (∀ f, Piece.unknown f ∈ ps → 0 < f.fieldNum ∧ f.fieldNum ≠ 1 ∧ f.fieldNum ≠ 2) →
      (ps.flatMap Piece.bytes).length ≤ maxInt →
      (∀ k, ∃ m, m₀.unmarshal ((ps.take k).flatMap Piece.stripped) = .ok m) →
      m₀.unmarshal (ps.flatMap Piece.bytes) = m₀.unmarshal (ps.flatMap Piece.stripped)) :=
  ⟨fun _ ps hu hl hpre => unmarshalLoop_pieces TxResponseData.fieldSwitch ps
      (fun f hf => ⟨(hu f hf).1, TxResponseData.unmarshalField_default (hu f hf).2⟩) hl hpre,
    fun _ ps hu hl hpre => unmarshalLoop_pieces TxResponseGenericMessage.fieldSwitch ps
      (fun f hf => ⟨(hu f hf).1,
        TxResponseGenericMessage.unmarshalField_default (hu f hf).2.1 (hu f hf).2.2⟩) hl hpre⟩

end InjectiveSdk.Proto
