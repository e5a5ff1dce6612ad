import InjectiveSdk.Go.Runtime

namespace InjectiveSdk.Proto
open InjectiveSdk.Go

/-- The errors the generated decoders return; `ProtoError.text` is each one's `Error()`. -/
inductive ProtoError
  | intOverflow
  | unexpectedEOF
  | invalidLength
  | unexpectedEndOfGroup
  | endGroupForNonGroup (message : Bytes)
  | illegalTag (message : Bytes) (fieldNum : Int) (wire : UInt64)
  | wrongWireType (wireType : Nat) (field : Bytes)
  | illegalWireType (wireType : Nat)
  deriving DecidableEq, Repr

/-- How a decoder's run ends without a value: an error it returns, a run-time panic, or the
loop bound of the model running out. -/
inductive Exit
  | fail (err : ProtoError)
  | panic (p : Panic)
  | outOfFuel
  deriving DecidableEq, Repr

abbrev Decode (α : Type) := Except Exit α

def liftPanic {α : Type} (x : Except Panic α) : Decode α := x.mapError .panic

/-- The run returns a value that satisfies `post`, or an error: it neither panics nor runs out
of the model's loop bound. -/
inductive Returns {α : Type} (post : α → Prop) : Decode α → Prop
  | ok {a : α} : post a → Returns post (.ok a)
  | fail (e : ProtoError) : Returns post (.error (.fail e))

/-- `bits.Len64`: the number of bits of `x`, 0 for 0. -/
def len64 (x : UInt64) : Nat := go 64
where
  /-- The bit length of `x`, when `x < 2^n`. -/
  go : Nat → Nat
    | 0 => 0
    | n + 1 => if x.toNat < 2 ^ n then go n else n + 1

/-- `sovTxResponse`: the length of the varint of `x`. -/
def sovTxResponse (x : UInt64) : Nat := (len64 (x ||| 1) + 6) / 7

/-- The varint of `v` front to back: its 7-bit groups from the lowest, each but the last with
the high bit set. -/
def varintBytes (v : Nat) : Bytes :=
  if v < 128 then [v.toUInt8] else (v % 128 + 128).toUInt8 :: varintBytes (v / 128)
termination_by v
decreasing_by omega

/-- The varint of `v` with `pad` zero groups after its last: the same value written longer, as
an encoder other than gogo's may write it. -/
def paddedVarintBytes (v pad : Nat) : Bytes :=
  if v < 128 ∧ pad = 0 then [v.toUInt8]
  else (v % 128 + 128).toUInt8 :: paddedVarintBytes (v / 128) (if v < 128 then pad - 1 else pad)
termination_by v + pad
decreasing_by split <;> omega

/-- A varint of `value` as the decoders read it: its groups, then `pad` zero groups, ten in all
at most, the most the loop reads before `shift` reaches 64. -/
structure Varint (value : Nat) where
  pad : Nat
  fits : (varintBytes value).length + pad ≤ 10

def Varint.bytes {value : Nat} (x : Varint value) : Bytes := paddedVarintBytes value x.pad

/-- The loop `for shift := uint(0); ; shift += 7` reading `wire |= uint64(b&0x7F) << shift` up to
the first byte below `0x80`; the `int` loops compute the same 64 bits. -/
def varintLoop (dAtA : Bytes) (shift : Nat) (iNdEx : Int) (wire : UInt64) :
    Decode (UInt64 × Int) :=
  if h : 64 ≤ shift then .error (.fail .intOverflow)
  else if dAtA.length ≤ iNdEx then .error (.fail .unexpectedEOF)
  else do
    let b ← liftPanic (index dAtA iNdEx)
    let wire := wire ||| ((b &&& 0x7F).toUInt64 <<< shift.toUInt64)
    if b < 0x80 then pure (wire, iNdEx + 1)
    else varintLoop dAtA (shift + 7) (iNdEx + 1) wire
termination_by 64 - shift

def readVarint (dAtA : Bytes) (iNdEx : Int) : Decode (UInt64 × Int) := varintLoop dAtA 0 iNdEx 0

/-- The loop of `skipTxResponse` for wire type 0, which only steps over the varint:
`iNdEx++`, then `dAtA[iNdEx-1] < 0x80` ends it. -/
def skipVarintLoop (dAtA : Bytes) (shift : Nat) (iNdEx : Int) : Decode Int :=
  if h : 64 ≤ shift then .error (.fail .intOverflow)
  else if dAtA.length ≤ iNdEx then .error (.fail .unexpectedEOF)
  else do
    let iNdEx := iNdEx + 1
    if (← liftPanic (index dAtA (iNdEx - 1))) < 0x80 then pure iNdEx
    else skipVarintLoop dAtA (shift + 7) iNdEx
termination_by 64 - shift

/-- The loop of `encodeVarintTxResponse`: while `v >= 1<<7`, the low group with the high bit
set, then the last group. -/
def encodeVarintLoop (dAtA : Bytes) (offset : Int) (v : UInt64) : Except Panic Bytes :=
  if _h : v ≥ (1 : UInt64) <<< 7 then do
    let dAtA ← setIndex dAtA offset ((v &&& 0x7f) ||| 0x80).toUInt8
    encodeVarintLoop dAtA (offset + 1) (v >>> 7)
  else setIndex dAtA offset v.toUInt8
termination_by v.toNat
decreasing_by
  rw [toNat_shiftRight_seven]
  have : 128 ≤ v.toNat := _h
  omega

/-- `encodeVarintTxResponse`: writes the varint of `v` to end at `offset`, and returns where it
starts. -/
def encodeVarintTxResponse (dAtA : Bytes) (offset : Int) (v : UInt64) :
    Except Panic (Bytes × Int) := do
  let offset := offset - sovTxResponse v
  let base := offset
  let dAtA ← encodeVarintLoop dAtA offset v
  pure (dAtA, base)

section Returns
variable {α β : Type} {P Q : α → Prop} {R : β → Prop}

@[simp] theorem liftPanic_ok (a : α) : liftPanic (.ok a : Except Panic α) = .ok a := rfl

@[simp] theorem liftPanic_error (p : Panic) :
    liftPanic (.error p : Except Panic α) = .error (.panic p) := rfl

theorem Returns.mono {x : Decode α} (h : Returns P x) (hPQ : ∀ a, P a → Q a) : Returns Q x := by
  cases h with
  | ok h => exact .ok (hPQ _ h)
  | fail e => exact .fail e

theorem Returns.bind {x : Decode α} {f : α → Decode β} (hx : Returns P x)
    (hf : ∀ a, P a → Returns R (f a)) : Returns R (x >>= f) := by
  cases hx with
  | ok h => exact hf _ h
  | fail e => exact .fail e

theorem Returns.of_ok {x : Decode α} {a : α} (h : Returns P x) (hx : x = .ok a) : P a := by
  cases h with
  | ok h => cases hx; exact h
  | fail e => cases hx

theorem Returns.map {x : Decode α} {f : α → β} (h : Returns (fun a => R (f a)) x) :
    Returns R (f <$> x) := by
  cases h with
  | ok h => exact .ok h
  | fail e => exact .fail e

end Returns

section Sizes

theorem len64_go_le_iff (x : UInt64) (k : Nat) :
    ∀ n, x.toNat < 2 ^ n → (len64.go x n ≤ k ↔ x.toNat < 2 ^ k) := by
  intro n
  induction n with
  | zero =>
    intro h
    have := Nat.two_pow_pos k
    simp only [len64.go, Nat.zero_le, true_iff]
    omega
  | succ n ih =>
    intro h
    simp only [len64.go]
    split
    · exact ih ‹_›
    · constructor
      · intro hk
        exact lt_of_lt_of_le h (Nat.pow_le_pow_right (by decide) hk)
      · intro hk
        by_contra hc
        have := Nat.pow_le_pow_right (show 0 < 2 by decide) (show k ≤ n by omega)
        omega

theorem len64_le_iff (x : UInt64) (k : Nat) : len64 x ≤ k ↔ x.toNat < 2 ^ k :=
  len64_go_le_iff x k 64 x.toBitVec.isLt

theorem sovTxResponse_le_iff {g : Nat} (hg : 0 < g) (v : UInt64) :
    sovTxResponse v ≤ g ↔ v.toNat < 2 ^ (7 * g) := by
  have h := len64_le_iff (v ||| 1) (7 * g)
  have e : 2 ^ (7 * g) = 2 * 2 ^ (7 * g - 1) := by rw [← Nat.pow_succ']; congr 1; omega
  rw [toNat_or_one] at h
  rw [sovTxResponse, Nat.div_le_iff_le_mul_add_pred (by decide)]
  omega

theorem length_varintBytes_pos (v : Nat) : 0 < (varintBytes v).length := by
  rw [varintBytes]
  split <;> simp

theorem length_varintBytes_le_iff {g : Nat} (hg : 0 < g) (v : Nat) :
    (varintBytes v).length ≤ g ↔ v < 2 ^ (7 * g) := by
  induction v using varintBytes.induct generalizing g with
  | case1 v hv =>
    rw [varintBytes, if_pos hv]
    have : 2 ^ 7 ≤ 2 ^ (7 * g) := Nat.pow_le_pow_right (by decide) (by omega)
    simp only [List.length_singleton]
    omega
  | case2 v hv ih =>
    rw [varintBytes, if_neg hv, List.length_cons]
    rcases Nat.lt_or_ge g 2 with hg2 | hg2
    · have := length_varintBytes_pos (v / 128)
      have : 2 ^ 7 ≤ 2 ^ (7 * g) := Nat.pow_le_pow_right (by decide) (by omega)
      have : 2 ^ (7 * g) = 2 ^ 7 := by congr 1; omega
      omega
    · have e : 2 ^ (7 * g) = 2 ^ (7 * (g - 1)) * 128 := by
        rw [show 7 * g = 7 * (g - 1) + 7 by omega, Nat.pow_add]
      rw [e, ← Nat.div_lt_iff_lt_mul (by decide), ← ih (by omega)]
      omega

theorem varintBytes_of_lt {v : Nat} (h : v < 128) : varintBytes v = [v.toUInt8] := by
  rw [varintBytes, if_pos h]

theorem varintBytes_of_ge {v : Nat} (h : ¬ v < 128) :
    varintBytes v = (v % 128 + 128).toUInt8 :: varintBytes (v / 128) := by
  rw [varintBytes, if_neg h]

theorem paddedVarintBytes_zero (v : Nat) : paddedVarintBytes v 0 = varintBytes v := by
  induction v using varintBytes.induct with
  | case1 v hv => rw [paddedVarintBytes, if_pos ⟨hv, rfl⟩, varintBytes_of_lt hv]
  | case2 v hv ih =>
    rw [paddedVarintBytes, if_neg (hv ·.1), if_neg hv, ih, varintBytes_of_ge hv]

theorem length_paddedVarintBytes (v pad : Nat) :
    (paddedVarintBytes v pad).length = (varintBytes v).length + pad := by
  induction v, pad using paddedVarintBytes.induct with
  | case1 v pad h => rw [paddedVarintBytes, if_pos h, varintBytes_of_lt h.1, h.2]; rfl
  | case2 v pad h ih =>
    simp only [dite_eq_ite] at ih
    rw [paddedVarintBytes, if_neg h, List.length_cons, ih]
    by_cases hv : v < 128
    · rw [if_pos hv, varintBytes_of_lt hv, Nat.div_eq_of_lt hv, varintBytes_of_lt (by decide)]
      simp only [List.length_singleton]
      omega
    · rw [if_neg hv, varintBytes_of_ge hv, List.length_cons]
      omega

theorem Varint.length_bytes {value : Nat} (x : Varint value) :
    x.bytes.length = (varintBytes value).length + x.pad :=
  length_paddedVarintBytes _ _

theorem Varint.length_bytes_le {value : Nat} (x : Varint value) : x.bytes.length ≤ 10 := by
  rw [x.length_bytes]
  exact x.fits

theorem Varint.length_bytes_pos {value : Nat} (x : Varint value) : 0 < x.bytes.length := by
  rw [x.length_bytes]
  exact Nat.lt_add_right _ (length_varintBytes_pos _)

/-- The minimal varint, the one gogo writes. -/
def Varint.minimal {value : Nat} (h : value < 2 ^ 70) : Varint value :=
  ⟨0, (length_varintBytes_le_iff (by decide) value).mpr h⟩

@[simp] theorem Varint.bytes_minimal {value : Nat} (h : value < 2 ^ 70) :
    (Varint.minimal h).bytes = varintBytes value :=
  paddedVarintBytes_zero value

theorem sovTxResponse_eq (v : UInt64) : sovTxResponse v = (varintBytes v.toNat).length := by
  have hs : 0 < sovTxResponse v := by
    have := (len64_le_iff (v ||| 1) 0).not.mpr (by rw [toNat_or_one]; omega)
    unfold sovTxResponse
    omega
  have hl := length_varintBytes_pos v.toNat
  apply Nat.le_antisymm
  · exact (sovTxResponse_le_iff hl v).mpr ((length_varintBytes_le_iff hl _).mp le_rfl)
  · exact (length_varintBytes_le_iff hs _).mpr ((sovTxResponse_le_iff hs v).mp le_rfl)

end Sizes

section Encoder
variable {pre mid post : Bytes}

theorem toUInt8_group (v : UInt64) :
    ((v &&& 0x7f) ||| 0x80).toUInt8 = (v.toNat % 128 + 128).toUInt8 := by
  apply UInt8.toNat.inj
  rw [toNat_toUInt8, toNat_or, toNat_and_low, toNat_natToUInt8]
  have e := @Nat.mul_add_lt_is_or 7 (v.toNat % 128) (by omega) 1
  rw [show (0x80 : UInt64).toNat = 2 ^ 7 * 1 from rfl, Nat.or_comm, ← e]
  omega

theorem encodeVarintLoop_eq (v : UInt64) (h : mid.length = (varintBytes v.toNat).length) :
    encodeVarintLoop (pre ++ mid ++ post) pre.length v =
      .ok (pre ++ varintBytes v.toNat ++ post) := by
  obtain ⟨n, hn⟩ : ∃ n, v.toNat = n := ⟨_, rfl⟩
  induction n using varintBytes.induct generalizing v pre mid with
  | case1 n hlt =>
    rw [encodeVarintLoop, dif_neg (show ¬ v ≥ (1 : UInt64) <<< 7 from by
      show ¬ 128 ≤ v.toNat; omega)]
    rw [hn, varintBytes, if_pos hlt] at h ⊢
    obtain ⟨m0, rfl⟩ : ∃ m0, mid = [m0] := List.length_eq_one.mp h
    have hb : v.toUInt8 = n.toUInt8 := UInt8.toNat.inj (by simp [hn])
    rw [List.append_assoc, List.singleton_append, setIndex_append, hb]
    simp
  | case2 n hge ih =>
    rw [encodeVarintLoop, dif_pos (show v ≥ (1 : UInt64) <<< 7 from by
      show 128 ≤ v.toNat; omega)]
    rw [hn, varintBytes, if_neg hge] at h ⊢
    obtain ⟨m0, mid', rfl⟩ : ∃ m0 mid', mid = m0 :: mid' := by
      cases mid with
      | nil => simp at h
      | cons m0 mid' => exact ⟨m0, mid', rfl⟩
    rw [List.length_cons, List.length_cons, Nat.add_right_cancel_iff] at h
    rw [List.append_assoc, List.cons_append, setIndex_append, ok_bind, toUInt8_group, hn]
    have hs : (v >>> 7).toNat = n / 128 := by rw [toNat_shiftRight_seven, hn]
    have := @ih (pre ++ [(n % 128 + 128).toUInt8]) mid' (v >>> 7) (by rwa [hs]) hs
    rw [hs] at this
    simpa using this

/-- `encodeVarintTxResponse` writes the `sovTxResponse v` bytes that end at `offset`, and
returns where they start. -/
theorem encodeVarintTxResponse_eq (v : UInt64) (h : mid.length = sovTxResponse v) :
    encodeVarintTxResponse (pre ++ mid ++ post) (pre.length + mid.length : Nat) v =
      .ok (pre ++ varintBytes v.toNat ++ post, pre.length) := by
  have e : ((pre.length + mid.length : Nat) : Int) - (sovTxResponse v : Nat) = pre.length := by
    omega
  simp only [encodeVarintTxResponse, e, encodeVarintLoop_eq v (h.trans (sovTxResponse_eq v)),
    ok_bind, pure_eq_ok]

end Encoder

section Decoder
variable {pre post : Bytes}

theorem varintLoop_byte {b : UInt8} {shift : Nat} {wire : UInt64} (hs : shift < 64) :
    varintLoop (pre ++ b :: post) shift pre.length wire =
      let wire := wire ||| ((b &&& 0x7F).toUInt64 <<< shift.toUInt64)
      if b < 0x80 then .ok (wire, pre.length + 1)
      else varintLoop (pre ++ b :: post) (shift + 7) (pre.length + 1) wire := by
  rw [varintLoop, dif_neg (by omega), if_neg (by simp), index_append]
  rfl

theorem toNat_accumulate {wire : UInt64} {b : UInt8} {shift : Nat} (hs : shift < 64)
    (hw : wire.toNat < 2 ^ shift) (hb : wire.toNat + b.toNat % 128 * 2 ^ shift < 2 ^ 64) :
    (wire ||| ((b &&& 0x7F).toUInt64 <<< shift.toUInt64)).toNat =
      wire.toNat + b.toNat % 128 * 2 ^ shift := by
  have hand : (b &&& 0x7F).toUInt64.toNat = b.toNat % 128 := by
    show (b &&& 0x7F).toNat = _
    rw [UInt8.and_toNat]
    exact Nat.and_pow_two_sub_one_eq_mod _ 7
  rw [toNat_or, toNat_shiftLeft_of_lt _ hs, hand, Nat.mod_eq_of_lt (by omega), Nat.or_comm,
    Nat.mul_comm, ← Nat.mul_add_lt_is_or hw]
  omega

/-- The varint loop from `shift` reads the groups of `n`, padded or not, on top of the `wire`
read so far, when they end before `shift` passes 63. -/
theorem varintLoop_paddedVarintBytes (n pad : Nat) {shift : Nat} {wire : UInt64}
    (hs : shift + 7 * (paddedVarintBytes n pad).length ≤ 70) (hw : wire.toNat < 2 ^ shift)
    (hn : wire.toNat + n * 2 ^ shift < 2 ^ 64) :
    ∃ w, varintLoop (pre ++ paddedVarintBytes n pad ++ post) shift pre.length wire =
        .ok (w, pre.length + (paddedVarintBytes n pad).length) ∧
      w.toNat = wire.toNat + n * 2 ^ shift := by
  induction n, pad using paddedVarintBytes.induct generalizing pre shift wire with
  | case1 n pad h =>
    rw [paddedVarintBytes, if_pos h] at hs ⊢
    rw [List.append_assoc, List.singleton_append, varintLoop_byte (by simp at hs; omega)]
    have hb : (n.toUInt8).toNat = n := by simp; omega
    refine ⟨_, if_pos (show n.toUInt8 < 0x80 from by show n.toUInt8.toNat < 128; omega), ?_⟩
    rw [toNat_accumulate (by simp at hs; omega) hw (by rw [hb, Nat.mod_eq_of_lt h.1]; omega), hb,
      Nat.mod_eq_of_lt h.1]
  | case2 n pad h ih =>
    simp only [dite_eq_ite] at ih
    rw [paddedVarintBytes, if_neg h] at hs ⊢
    rw [List.length_cons] at hs
    rw [List.append_assoc, List.cons_append, varintLoop_byte (by omega)]
    have hb : ((n % 128 + 128).toUInt8).toNat = n % 128 + 128 := by simp; omega
    have hP : 2 ^ (shift + 7) = 2 ^ shift * 128 := Nat.pow_add 2 shift 7
    have hsplit : n * 2 ^ shift = n / 128 * 2 ^ (shift + 7) + n % 128 * 2 ^ shift := by
      rw [hP]
      nth_rewrite 1 [← Nat.div_add_mod n 128]
      ring
    have hlow : n % 128 * 2 ^ shift ≤ 127 * 2 ^ shift := Nat.mul_le_mul_right _ (by omega)
    have hmod : (n % 128 + 128) % 128 = n % 128 := by omega
    have hacc := @toNat_accumulate wire (n % 128 + 128).toUInt8 shift (by omega) hw
      (by rw [hb, hmod]; omega)
    rw [hb, hmod] at hacc
    obtain ⟨w, hw', hv⟩ := @ih (pre ++ [(n % 128 + 128).toUInt8]) (shift + 7) _ (by omega)
      (by rw [hacc]; omega) (by rw [hacc]; omega)
    refine ⟨w, ?_, by rw [hv, hacc]; omega⟩
    rw [if_neg (show ¬ (n % 128 + 128).toUInt8 < 0x80 from by
      show ¬ ((n % 128 + 128).toUInt8).toNat < 128; omega)]
    simpa [Int.add_assoc, Int.add_comm 1] using hw'

/-- The decoders read back the value of any varint of a `uint64`, padded or not. -/
theorem Varint.readVarint_bytes {n : Nat} (x : Varint n) (hn : n < 2 ^ 64) :
    readVarint (pre ++ x.bytes ++ post) pre.length =
      .ok (UInt64.ofNat n, pre.length + x.bytes.length) := by
  obtain ⟨w, hw, hv⟩ := @varintLoop_paddedVarintBytes pre post n x.pad 0 0
    (by have := x.fits; rw [length_paddedVarintBytes]; omega) (by decide) (by simpa using hn)
  rw [readVarint, Varint.bytes, hw, UInt64.toNat.inj (show w.toNat = (UInt64.ofNat n).toNat by
    rw [toNat_uint64OfNat]; simp at hv; omega)]

theorem readVarint_varintBytes (v : UInt64) :
    readVarint (pre ++ varintBytes v.toNat ++ post) pre.length =
      .ok (v, pre.length + (varintBytes v.toNat).length) := by
  have hv : v.toNat < 2 ^ 64 := v.toBitVec.isLt
  have hr := @Varint.readVarint_bytes pre post v.toNat (.minimal (by omega)) hv
  rwa [Varint.bytes_minimal, UInt64.toNat.inj (show (UInt64.ofNat v.toNat).toNat = v.toNat by
    rw [toNat_uint64OfNat, Nat.mod_eq_of_lt hv])] at hr

theorem varintLoop_returns (dAtA : Bytes) (shift : Nat) {iNdEx : Int} (wire : UInt64)
    (h0 : 0 ≤ iNdEx) :
    Returns (fun r : UInt64 × Int => iNdEx < r.2 ∧ r.2 ≤ dAtA.length)
      (varintLoop dAtA shift iNdEx wire) := by
  induction shift, iNdEx, wire using varintLoop.induct dAtA with
  | case1 shift iNdEx wire hs => rw [varintLoop, dif_pos hs]; exact .fail _
  | case2 shift iNdEx wire hs hl => rw [varintLoop, dif_neg hs, if_pos hl]; exact .fail _
  | case3 shift iNdEx wire hs hl ih =>
    rw [varintLoop, dif_neg hs, if_neg hl]
    obtain ⟨b, hb⟩ := @index_of_lt dAtA iNdEx h0 (by omega)
    rw [hb, liftPanic_ok, ok_bind]
    split
    · exact .ok ⟨by omega, by omega⟩
    · exact (ih b (by omega)).mono fun r hr => ⟨by omega, hr.2⟩

theorem skipVarintLoop_eq (dAtA : Bytes) (shift : Nat) (iNdEx : Int) (wire : UInt64) :
    skipVarintLoop dAtA shift iNdEx = Prod.snd <$> varintLoop dAtA shift iNdEx wire := by
  induction shift, iNdEx, wire using varintLoop.induct dAtA with
  | case1 shift iNdEx wire hs => rw [skipVarintLoop, varintLoop, dif_pos hs, dif_pos hs]; rfl
  | case2 shift iNdEx wire hs hl =>
    rw [skipVarintLoop, varintLoop, dif_neg hs, dif_neg hs, if_pos hl, if_pos hl]; rfl
  | case3 shift iNdEx wire hs hl ih =>
    rw [skipVarintLoop, varintLoop, dif_neg hs, dif_neg hs, if_neg hl, if_neg hl]
    simp only [Int.add_sub_cancel]
    cases index dAtA iNdEx with
    | error p => rfl
    | ok b =>
      simp only [liftPanic_ok, ok_bind]
      split
      · rfl
      · exact ih b

end Decoder

/-- The encoder writes exactly the `sovTxResponse v` bytes that end at the offset, the decoder
reads `v` back from them, and `sovTxResponse v` is the least `g ≥ 1` with `v < 2^(7g)`. -/
theorem varint_encoder_size_decoder_agree (v : UInt64) (buf : Bytes) {o : Nat}
    (ho : sovTxResponse v ≤ o) (hb : o ≤ buf.length) :
    encodeVarintTxResponse buf o v =
        .ok (buf.take (o - sovTxResponse v) ++ varintBytes v.toNat ++ buf.drop o,
          (o - sovTxResponse v : Nat)) ∧
      readVarint (buf.take (o - sovTxResponse v) ++ varintBytes v.toNat ++ buf.drop o)
          (o - sovTxResponse v : Nat) = .ok (v, o) ∧
      (varintBytes v.toNat).length = sovTxResponse v ∧ 0 < sovTxResponse v ∧
      ∀ g, 0 < g → (sovTxResponse v ≤ g ↔ v.toNat < 2 ^ (7 * g)) := by
  have hs := sovTxResponse_eq v
  obtain ⟨pre, rest, rfl, hpre, -⟩ :=
    @exists_append_of_length buf (o - sovTxResponse v) (buf.length - (o - sovTxResponse v))
      (by omega)
  obtain ⟨mid, post, rfl, hmid, -⟩ :=
    @exists_append_of_length rest (sovTxResponse v) (rest.length - sovTxResponse v)
      (by simp only [List.length_append] at hb; omega)
  have ht : (pre ++ (mid ++ post)).take (o - sovTxResponse v) = pre := List.take_left' hpre
  have hd : (pre ++ (mid ++ post)).drop o = post := by
    rw [← List.append_assoc]; exact List.drop_left' (by simp only [List.length_append]; omega)
  have hpos := length_varintBytes_pos v.toNat
  refine ⟨?_, ?_, hs.symm, by omega, fun g hg => sovTxResponse_le_iff hg v⟩
  · rw [ht, hd, ← List.append_assoc, show (o : Int) = (pre.length + mid.length : Nat) by omega,
      encodeVarintTxResponse_eq v hmid, hpre]
  · rw [ht, hd, ← hpre, readVarint_varintBytes, ← hs]
    congr 2
    omega

theorem varint_of_three_hundred_agree :
    sovTxResponse 300 ≤ 2 ∧ 2 ≤ (List.replicate 3 (0 : UInt8)).length ∧
    (encodeVarintTxResponse (List.replicate 3 0) (2 : Nat) 300 =
        .ok ((List.replicate 3 0).take (2 - sovTxResponse 300) ++
          varintBytes (300 : UInt64).toNat ++ (List.replicate 3 0).drop 2,
          (2 - sovTxResponse 300 : Nat)) ∧
      readVarint ((List.replicate 3 0).take (2 - sovTxResponse 300) ++
          varintBytes (300 : UInt64).toNat ++ (List.replicate 3 0).drop 2)
          (2 - sovTxResponse 300 : Nat) = .ok (300, 2) ∧
      (varintBytes (300 : UInt64).toNat).length = sovTxResponse 300 ∧ 0 < sovTxResponse 300 ∧
      ∀ g, 0 < g → (sovTxResponse 300 ≤ g ↔ (300 : UInt64).toNat < 2 ^ (7 * g))) :=
  ⟨by decide, by decide, varint_encoder_size_decoder_agree 300 _ (by decide) (by decide)⟩

end InjectiveSdk.Proto
