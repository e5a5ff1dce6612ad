import InjectiveSdk.Proto.RoundTrip

namespace InjectiveSdk.Proto
open InjectiveSdk.Go

/-- `n` little-endian bytes of `v`: the value of a `fixed64` or a `fixed32` field. -/
def littleEndian (n v : Nat) : Bytes := (List.range n).map fun i => (v / 256 ^ i).toUInt8

/-- A well-formed field on the wire, by wire type: a number below `2^61`, the tag's varint and the
value, every varint minimal or padded. A group ends with an end-group tag of its number. -/
inductive WireField where
  | varint (num : Fin (2 ^ 61)) (tag : Varint (num * 8 + 0)) (v : UInt64) (value : Varint v.toNat)
  | fixed64 (num : Fin (2 ^ 61)) (tag : Varint (num * 8 + 1)) (v : UInt64)
  | bytes (num : Fin (2 ^ 61)) (tag : Varint (num * 8 + 2)) (b : Bytes)
      (length : Varint b.length)
  | group (num : Fin (2 ^ 61)) (tag : Varint (num * 8 + 3)) (fields : List WireField)
      (endTag : Varint (num * 8 + 4))
  | fixed32 (num : Fin (2 ^ 61)) (tag : Varint (num * 8 + 5)) (v : UInt32)

def WireField.num : WireField → Fin (2 ^ 61)
  | .varint num .. | .fixed64 num .. | .bytes num .. | .group num .. | .fixed32 num .. => num

/-- The wire type of the field's tag. -/
def WireField.wireType : WireField → Nat
  | .varint .. => 0
  | .fixed64 .. => 1
  | .bytes .. => 2
  | .group .. => 3
  | .fixed32 .. => 5

/-- The number the decoders dispatch the field on: `int32(wire >> 3)` of its tag. -/
def WireField.fieldNum (f : WireField) : Int := toInt32 (UInt64.ofNat f.num)

/-- The minimal tag varint of a field number and a wire type. -/
def tagBytes (num : Fin (2 ^ 61)) (wireType : Nat) : Bytes := varintBytes (num * 8 + wireType)

/-- The bytes of the field's tag. -/
def WireField.tag : WireField → Bytes
  | .varint _ tag .. => tag.bytes
  | .fixed64 _ tag _ => tag.bytes
  | .bytes _ tag .. => tag.bytes
  | .group _ tag .. => tag.bytes
  | .fixed32 _ tag _ => tag.bytes

mutual
/-- The field front to back: its tag, then its value. -/
def WireField.encode : WireField → Bytes
  | .varint _ tag _ value => tag.bytes ++ value.bytes
  | .fixed64 _ tag v => tag.bytes ++ littleEndian 8 v.toNat
  | .bytes _ tag b length => tag.bytes ++ (length.bytes ++ b)
  | .group _ tag fs endTag => tag.bytes ++ (WireField.encodeAll fs ++ endTag.bytes)
  | .fixed32 _ tag v => tag.bytes ++ littleEndian 4 v.toNat

def WireField.encodeAll : List WireField → Bytes
  | [] => []
  | f :: fs => f.encode ++ WireField.encodeAll fs
end

mutual
/-- The passes the loop of `skipTxResponse` makes over the field: one for each tag. -/
def WireField.passes : WireField → Nat
  | .group _ _ fs _ => WireField.passesAll fs + 2
  | _ => 1

def WireField.passesAll : List WireField → Nat
  | [] => 0
  | f :: fs => f.passes + WireField.passesAll fs
end

@[simp] theorem length_littleEndian (n v : Nat) : (littleEndian n v).length = n := by
  simp [littleEndian]

section Tags
variable {pre post : Bytes}

theorem toNat_tag (num : Fin (2 ^ 61)) {wireType : Nat} (hw : wireType < 8) :
    (UInt64.ofNat (num * 8 + wireType)).toNat = num * 8 + wireType := by
  rw [toNat_uint64OfNat]
  have := num.isLt
  omega

theorem tag_wireType (num : Fin (2 ^ 61)) {wireType : Nat} (hw : wireType < 8) :
    (UInt64.ofNat (num * 8 + wireType) &&& 7).toNat = wireType := by
  rw [toNat_and_seven, toNat_tag num hw]
  omega

theorem tag_fieldNum (num : Fin (2 ^ 61)) {wireType : Nat} (hw : wireType < 8) :
    (UInt64.ofNat (num * 8 + wireType) >>> 3).toNat = num := by
  rw [toNat_shiftRight_three, toNat_tag num hw]
  omega

theorem length_tagBytes_pos (num : Fin (2 ^ 61)) (wireType : Nat) :
    0 < (tagBytes num wireType).length :=
  length_varintBytes_pos _

theorem readVarint_tagBytes (num : Fin (2 ^ 61)) {wireType : Nat} (hw : wireType < 8) :
    readVarint (pre ++ tagBytes num wireType ++ post) pre.length =
      .ok (UInt64.ofNat (num * 8 + wireType), pre.length + (tagBytes num wireType).length) := by
  have h := @readVarint_varintBytes pre post (UInt64.ofNat (num * 8 + wireType))
  rwa [toNat_tag num hw] at h

theorem Varint.readVarint_tag (num : Fin (2 ^ 61)) {wireType : Nat} (hw : wireType < 8)
    (tag : Varint (num * 8 + wireType)) :
    readVarint (pre ++ tag.bytes ++ post) pre.length =
      .ok (UInt64.ofNat (num * 8 + wireType), pre.length + tag.bytes.length) :=
  tag.readVarint_bytes (by have := num.isLt; omega)
end Tags

section Skip
variable {pre post : Bytes} {fuel : Nat}

theorem skipWireType_varint (v : UInt64) (x : Varint v.toNat) (depth : Nat) :
    skipWireType (pre ++ x.bytes ++ post) 0 pre.length depth =
      .ok (pre.length + x.bytes.length, depth) := by
  rw [skipWireType, skipVarintLoop_eq _ 0 _ 0, ← readVarint, x.readVarint_bytes v.toBitVec.isLt]
  rfl

theorem skipWireType_fixed64 {value : Bytes} (hv : value.length = 8) (depth : Nat)
    (hB : (pre ++ value ++ post).length ≤ maxInt) :
    skipWireType (pre ++ value ++ post) 1 pre.length depth =
      .ok (pre.length + value.length, depth) := by
  simp only [List.length_append] at hB
  rw [skipWireType, addInt_of_le (by omega) (by decide) (by omega), hv]
  rfl

theorem skipWireType_fixed32 {value : Bytes} (hv : value.length = 4) (depth : Nat)
    (hB : (pre ++ value ++ post).length ≤ maxInt) :
    skipWireType (pre ++ value ++ post) 5 pre.length depth =
      .ok (pre.length + value.length, depth) := by
  simp only [List.length_append] at hB
  rw [skipWireType, addInt_of_le (by omega) (by decide) (by omega), hv]
  rfl

theorem skipWireType_bytes (b : Bytes) (x : Varint b.length) (depth : Nat)
    (hB : (pre ++ x.bytes ++ b ++ post).length ≤ maxInt) :
    skipWireType (pre ++ x.bytes ++ b ++ post) 2 pre.length depth =
      .ok (pre.length + x.bytes.length + b.length, depth) := by
  obtain ⟨length, hr, hv⟩ := x.readVarint_length hB
  simp only [List.length_append] at hB
  rw [skipWireType, hr, ok_bind]
  dsimp only
  rw [hv, addInt_of_le (by omega) (by omega) (by omega), if_neg (by omega)]
  rfl

/-- A pass of the loop of `skipTxResponse` over a tag whose wire type moves the index to
`k ≥ 0` with `depth'` groups open. -/
theorem skipLoop_tag {B rest : Bytes} (num : Fin (2 ^ 61)) {wireType : Nat} (hw : wireType < 8)
    (tag : Varint (num * 8 + wireType)) (hB : B = pre ++ tag.bytes ++ rest) {depth depth' : Nat}
    {k : Int} (hs : skipWireType B wireType (pre.length + tag.bytes.length) depth = .ok (k, depth'))
    (hk : 0 ≤ k) :
    skipLoop B (fuel + 1) pre.length depth =
      if depth' = 0 then .ok k else skipLoop B fuel k depth' := by
  subst hB
  have hlen : (pre.length : Int) < (pre ++ tag.bytes ++ rest).length := by
    have := tag.length_bytes_pos
    simp only [List.length_append]
    omega
  rw [skipLoop, if_pos hlen, Varint.readVarint_tag num hw tag, ok_bind]
  dsimp only
  rw [tag_wireType num hw, hs, ok_bind]
  dsimp only
  rw [if_neg (not_lt.mpr hk)]
  rfl

/-- A field that is no group takes one pass, which ends after its value with as many groups
open as before. -/
theorem skipLoop_scalar {B : Bytes} (num : Fin (2 ^ 61)) {wireType : Nat} (hw : wireType < 8)
    (tag : Varint (num * 8 + wireType))
    {value : Bytes} (hv : ∀ pre post depth, (pre ++ value ++ post).length ≤ maxInt →
      skipWireType (pre ++ value ++ post) wireType pre.length depth =
        .ok (pre.length + value.length, depth))
    (hB : B = pre ++ (tag.bytes ++ value) ++ post) (hl : B.length ≤ maxInt) (depth : Nat) :
    skipLoop B (fuel + 1) pre.length depth =
      if depth = 0 then .ok (pre.length + (tag.bytes ++ value).length)
      else skipLoop B fuel (pre.length + (tag.bytes ++ value).length) depth := by
  have hB' : B = pre ++ tag.bytes ++ value ++ post := by simp [hB]
  have hs := hv (pre ++ tag.bytes) post depth (hB' ▸ hl)
  rw [← hB', List.length_append, Nat.cast_add] at hs
  rw [skipLoop_tag num hw tag (show B = pre ++ tag.bytes ++ (value ++ post) by simp [hB]) hs
    (by omega)]
  simp only [List.length_append, Nat.cast_add, Int.add_assoc]

/-- A group takes a pass over its start tag, the passes over its fields one group deeper, and a
pass over its end tag, which closes the group again. -/
theorem skipLoop_group {B : Bytes} (num : Fin (2 ^ 61)) (tag : Varint (num * 8 + 3))
    (fs : List WireField) (endTag : Varint (num * 8 + 4))
    (hB : B = pre ++ (WireField.group num tag fs endTag).encode ++ post) {depth : Nat}
    (hfields : ∀ fuel, skipLoop B (fuel + WireField.passesAll fs)
      (pre.length + tag.bytes.length) (depth + 1) =
        skipLoop B fuel (pre.length + tag.bytes.length + (WireField.encodeAll fs).length)
          (depth + 1)) :
    skipLoop B (fuel + (WireField.group num tag fs endTag).passes) pre.length depth =
      if depth = 0 then .ok (pre.length + (WireField.group num tag fs endTag).encode.length)
      else skipLoop B fuel (pre.length + (WireField.group num tag fs endTag).encode.length)
        depth := by
  have hB₁ : B = pre ++ tag.bytes ++ (WireField.encodeAll fs ++ endTag.bytes ++ post) := by
    simp [hB, WireField.encode]
  have hB₂ : B = pre ++ tag.bytes ++ WireField.encodeAll fs ++ endTag.bytes ++ post := by
    simp [hB, WireField.encode]
  have e : ((pre ++ tag.bytes ++ WireField.encodeAll fs).length : Int) =
      pre.length + tag.bytes.length + (WireField.encodeAll fs).length := by
    simp only [List.length_append, Nat.cast_add]
  have hend : skipWireType B 4 ((pre ++ tag.bytes ++ WireField.encodeAll fs).length +
      endTag.bytes.length) (depth + 1) =
        .ok ((pre ++ tag.bytes ++ WireField.encodeAll fs).length + endTag.bytes.length,
          depth) := rfl
  rw [WireField.passes, show fuel + (WireField.passesAll fs + 2) =
      fuel + 1 + WireField.passesAll fs + 1 by omega,
    skipLoop_tag num (by decide) tag hB₁ rfl (by omega), if_neg (Nat.succ_ne_zero _), hfields,
    ← e, skipLoop_tag num (by decide) endTag hB₂ hend (by omega)]
  simp only [WireField.encode, List.length_append, Nat.cast_add, Int.add_assoc]

mutual
/-- The loop of `skipTxResponse` passes over a field exactly, one pass for each of its tags, and
returns after it when no group is open. -/
theorem WireField.skipLoop_encode : ∀ (f : WireField) {B pre post : Bytes},
    B = pre ++ f.encode ++ post → B.length ≤ maxInt → ∀ fuel depth,
    skipLoop B (fuel + f.passes) pre.length depth =
      if depth = 0 then .ok (pre.length + f.encode.length)
      else skipLoop B fuel (pre.length + f.encode.length) depth
  | .varint num tag v value, _, _, _, hB, hl, _, depth =>
    skipLoop_scalar num (by decide) tag (fun _ _ d _ => skipWireType_varint v value d) hB hl depth
  | .fixed64 num tag _, _, _, _, hB, hl, _, depth =>
    skipLoop_scalar num (by decide) tag (fun _ _ d h => skipWireType_fixed64 (by simp) d h) hB hl
      depth
  | .bytes num tag b length, _, _, _, hB, hl, _, depth =>
    skipLoop_scalar num (by decide) tag (fun _ _ d h => by
      simpa [Int.add_assoc] using skipWireType_bytes b length d (by simpa using h)) hB hl depth
  | .group num tag fs endTag, _, pre, post, hB, hl, _, depth =>
    skipLoop_group num tag fs endTag hB fun fuel => by
      have h := WireField.skipLoop_encodeAll fs
        (show _ = pre ++ tag.bytes ++ WireField.encodeAll fs ++ (endTag.bytes ++ post) by
          simp [hB, WireField.encode]) hl fuel depth
      simpa using h
  | .fixed32 num tag _, _, _, _, hB, hl, _, depth =>
    skipLoop_scalar num (by decide) tag (fun _ _ d h => skipWireType_fixed32 (by simp) d h) hB hl
      depth

theorem WireField.skipLoop_encodeAll : ∀ (fs : List WireField) {B pre post : Bytes},
    B = pre ++ WireField.encodeAll fs ++ post → B.length ≤ maxInt → ∀ fuel depth,
    skipLoop B (fuel + WireField.passesAll fs) pre.length (depth + 1) =
      skipLoop B fuel (pre.length + (WireField.encodeAll fs).length) (depth + 1)
  | [], _, _, _, _, _, _, _ => by simp [WireField.passesAll, WireField.encodeAll]
  | f :: fs, _, pre, post, hB, hl, fuel, depth => by
    have h := WireField.skipLoop_encodeAll fs
      (show _ = pre ++ f.encode ++ WireField.encodeAll fs ++ post by simp [hB, WireField.encodeAll])
      hl fuel depth
    rw [WireField.passesAll, show fuel + (f.passes + WireField.passesAll fs) =
        fuel + WireField.passesAll fs + f.passes by omega,
      WireField.skipLoop_encode f (show _ = pre ++ f.encode ++ (WireField.encodeAll fs ++ post) by
        simp [hB, WireField.encodeAll]) hl, if_neg (Nat.succ_ne_zero _)]
    simpa [WireField.encodeAll, Int.add_assoc] using h
end

theorem WireField.wireType_lt (f : WireField) : f.wireType < 8 := by
  cases f <;> simp [WireField.wireType]

theorem WireField.wireType_ne_four (f : WireField) : f.wireType ≠ 4 := by
  cases f <;> simp [WireField.wireType]

theorem WireField.encode_eq_tag (f : WireField) : ∃ value, f.encode = f.tag ++ value := by
  cases f <;> exact ⟨_, rfl⟩

theorem WireField.length_tag_pos (f : WireField) : 0 < f.tag.length := by
  cases f <;> exact Varint.length_bytes_pos _

theorem WireField.length_encode_pos (f : WireField) : 0 < f.encode.length := by
  obtain ⟨value, he⟩ := f.encode_eq_tag
  rw [he, List.length_append]
  exact Nat.lt_add_right _ f.length_tag_pos

mutual
theorem WireField.passes_le_length : ∀ f : WireField, f.passes ≤ f.encode.length
  | .group _ tag fs endTag => by
    have := WireField.passesAll_le_length fs
    have := tag.length_bytes_pos
    have := endTag.length_bytes_pos
    simp only [WireField.passes, WireField.encode, List.length_append]
    omega
  | .varint .. | .fixed64 .. | .bytes .. | .fixed32 .. => WireField.length_encode_pos _

theorem WireField.passesAll_le_length : ∀ fs : List WireField,
    WireField.passesAll fs ≤ (WireField.encodeAll fs).length
  | [] => le_rfl
  | f :: fs => by
    have := WireField.passes_le_length f
    have := WireField.passesAll_le_length fs
    simp only [WireField.passesAll, WireField.encodeAll, List.length_append]
    omega
end

/-- `skipTxResponse` returns the length of the well-formed field its input starts with. -/
theorem WireField.skipTxResponse_encode (f : WireField) (hl : (f.encode ++ post).length ≤ maxInt) :
    skipTxResponse (f.encode ++ post) = .ok f.encode.length := by
  have h := f.skipLoop_encode (show f.encode ++ post = [] ++ f.encode ++ post from rfl) hl
    ((f.encode ++ post).length + 1 - f.passes) 0
  have := f.passes_le_length
  rw [Nat.sub_add_cancel (by simp only [List.length_append]; omega)] at h
  simpa [skipTxResponse] using h

/-- The `default` case of the `Unmarshal`s returns the end that `skipTxResponse` finds for the
field at the start of the rest of the buffer. -/
theorem skipField_of_skipTxResponse {s : Bytes} {n : Nat} (hs : skipTxResponse s = .ok n)
    (hn : n ≤ s.length) (hl : (pre ++ s).length ≤ maxInt) :
    skipField (pre ++ s) pre.length = .ok (pre.length + n) := by
  simp only [List.length_append] at hl
  rw [skipField, sliceFrom_append, liftPanic_ok, ok_bind, hs, ok_bind,
    addInt_of_le (by omega) (by omega) (by omega)]
  simp only [List.length_append, Nat.cast_add]
  rw [if_neg (by omega), if_neg (by omega)]
  rfl

/-- The `default` case of the `Unmarshal`s steps over a well-formed field exactly. -/
theorem WireField.skipField_encode (f : WireField)
    (hl : (pre ++ f.encode ++ post).length ≤ maxInt) :
    skipField (pre ++ f.encode ++ post) pre.length = .ok (pre.length + f.encode.length) := by
  rw [List.append_assoc] at hl ⊢
  exact skipField_of_skipTxResponse (f.skipTxResponse_encode (by simp at hl ⊢; omega))
    (by simp) hl

end Skip

section Dispatch
variable {pre post : Bytes}

theorem WireField.fieldNum_eq (f : WireField) : f.fieldNum = Int.bmod f.num (2 ^ 32) := by
  rw [WireField.fieldNum, toInt32, toNat_uint64OfNat, Nat.mod_eq_of_lt (by omega)]

theorem WireField.fieldNum_of_lt {f : WireField} (h : (f.num : Nat) < 2 ^ 31) :
    f.fieldNum = f.num := by
  rw [WireField.fieldNum_eq, bmod_eq_self (by omega) (by omega)]

/-- A field is dispatched on its own number exactly when that number is below `2^31`. -/
theorem WireField.fieldNum_eq_num_iff (f : WireField) :
    f.fieldNum = f.num ↔ (f.num : Nat) < 2 ^ 31 := by
  refine ⟨fun h => ?_, WireField.fieldNum_of_lt⟩
  have := @Int.bmod_lt (f.num : Nat) (2 ^ 32) (by decide)
  rw [← WireField.fieldNum_eq, h] at this
  norm_num at this
  omega

theorem WireField.readVarint_tag (f : WireField) :
    readVarint (pre ++ f.tag ++ post) pre.length =
      .ok (UInt64.ofNat (f.num * 8 + f.wireType), pre.length + f.tag.length) := by
  cases f <;> exact Varint.readVarint_tag _ (by decide) _

/-- The tag of a field passes the `Unmarshal`s' checks unless `int32(wire >> 3)` is not positive,
and the field is dispatched on that number. -/
theorem WireField.readTag_encode (message : Bytes) (f : WireField) :
    readTag message (pre ++ f.encode ++ post) pre.length =
      if f.fieldNum ≤ 0 then
        .error (.fail (.illegalTag message f.fieldNum (UInt64.ofNat (f.num * 8 + f.wireType))))
      else .ok (f.fieldNum, f.wireType, pre.length + f.tag.length) := by
  obtain ⟨value, he⟩ := f.encode_eq_tag
  have hw := f.wireType_lt
  have hf : toInt32 (UInt64.ofNat (f.num * 8 + f.wireType) >>> 3) = f.fieldNum := by
    rw [toInt32, tag_fieldNum _ hw, WireField.fieldNum_eq]
  rw [he, show pre ++ (f.tag ++ value) ++ post = pre ++ f.tag ++ (value ++ post) by simp,
    readTag, f.readVarint_tag, ok_bind]
  dsimp only
  rw [hf, tag_wireType _ hw, if_neg f.wireType_ne_four]
  rfl

/-- A pass of the `Unmarshal` loop over a field that the message's `switch fieldNum` leaves to
its `default` case: the field is skipped exactly and the message is left as it was. -/
theorem WireField.unmarshalLoop_unknown {σ : Type} {message : Bytes}
    {field : Bytes → Int → Nat → Int → σ → Option (Decode (Int × σ))} {fuel : Nat} {m : σ}
    (f : WireField) (hl : (pre ++ f.encode ++ post).length ≤ maxInt) (h0 : 0 < f.fieldNum)
    (hnone : ∀ dAtA wireType iNdEx, field dAtA f.fieldNum wireType iNdEx m = none) :
    unmarshalLoop message field (pre ++ f.encode ++ post) (fuel + 1) pre.length m =
      unmarshalLoop message field (pre ++ f.encode ++ post) fuel
        (pre.length + f.encode.length) m := by
  have hi : (pre.length : Int) < (pre ++ f.encode ++ post).length := by
    have := f.length_encode_pos
    simp only [List.length_append]
    omega
  rw [unmarshalLoop, if_pos hi, f.readTag_encode, if_neg (not_le.mpr h0), ok_bind]
  dsimp only
  rw [hnone, f.skipField_encode hl]
  rfl

end Dispatch

end InjectiveSdk.Proto
