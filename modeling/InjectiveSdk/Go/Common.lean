import InjectiveSdk.Go.Runtime

namespace InjectiveSdk.Go

def hashLength : Nat := 32

def addressLength : Nat := 20

/-- The bytes `b` as a value of `n` bytes: cropped from the left when longer, padded with
zeros on the left when shorter. This is what `SetBytes` of a fixed-size array does. -/
def fitLeft (n : Nat) (b : Bytes) : Bytes := List.replicate (n - b.length) 0 ++ b.drop (b.length - n)

@[simp] theorem length_fitLeft (n : Nat) (b : Bytes) : (fitLeft n b).length = n := by
  simp only [fitLeft, List.length_append, List.length_replicate, List.length_drop]
  omega

theorem fitLeft_of_length {n : Nat} {b : Bytes} (h : b.length = n) : fitLeft n b = b := by
  simp [fitLeft, h]

theorem fitLeft_take (n : Nat) (b : Bytes) :
    fitLeft n (b.take n) = List.replicate (n - b.length) 0 ++ b.take n := by
  simp only [fitLeft, List.length_take]
  rw [show n - min n b.length = n - b.length by omega,
    show min n b.length - n = 0 by omega, List.drop_zero]

/-- `common.Hash`: exactly `HashLength` bytes. -/
structure Hash where
  bytes : Bytes
  length_eq : bytes.length = hashLength
  deriving DecidableEq

/-- `common.Address`: exactly `AddressLength` bytes. -/
structure Address where
  bytes : Bytes
  length_eq : bytes.length = addressLength
  deriving DecidableEq

theorem Hash.ext_bytes {h h' : Hash} (e : h.bytes = h'.bytes) : h = h' := by
  cases h; cases h'; cases e; rfl

theorem Address.ext_bytes {a a' : Address} (e : a.bytes = a'.bytes) : a = a' := by
  cases a; cases a'; cases e; rfl

def Hash.zero : Hash := ⟨List.replicate hashLength 0, List.length_replicate _ _⟩

def bytesToHash (b : Bytes) : Hash := ⟨fitLeft hashLength b, length_fitLeft _ _⟩

def bytesToAddress (b : Bytes) : Address := ⟨fitLeft addressLength b, length_fitLeft _ _⟩

def leftPadBytes (slice : Bytes) (l : Nat) : Bytes :=
  if l ≤ slice.length then slice else List.replicate (l - slice.length) 0 ++ slice

def fromHexChar (c : UInt8) : Option UInt8 :=
  if 0x30 ≤ c ∧ c ≤ 0x39 then some (c - 0x30)
  else if 0x61 ≤ c ∧ c ≤ 0x66 then some (c - 0x61 + 10)
  else if 0x41 ≤ c ∧ c ≤ 0x46 then some (c - 0x41 + 10)
  else none

/-- The bytes `hex.DecodeString` returns: the pairs it decodes before the first bad digit.
`common.Hex2Bytes` drops the error and keeps these bytes. -/
def hex2Bytes : Bytes → Bytes
  | p :: q :: rest =>
    match fromHexChar p, fromHexChar q with
    | some a, some b => (a * 16 + b) :: hex2Bytes rest
    | _, _ => []
  | _ => []

/-- The string `common.FromHex` decodes: an optional `0x` or `0X` is dropped and an odd length
gets a leading `0`. -/
def fromHexInput (s : Bytes) : Bytes :=
  let s := match s with
    | 0x30 :: x :: rest => if x = 0x78 ∨ x = 0x58 then rest else s
    | _ => s
  if s.length % 2 = 1 then 0x30 :: s else s

/-- The bytes of `common.FromHex`, which every caller but `ComputeAndSetOrderType` reads. -/
def fromHex (s : Bytes) : Bytes := hex2Bytes (fromHexInput s)

/-- A Go byte slice: its `len` bytes at the front of `array`, the part of its backing array
that reslicing can reach. -/
structure GoSlice where
  array : Bytes
  len : Nat
  len_le : len ≤ array.length

def GoSlice.cap (s : GoSlice) : Nat := s.array.length

/-- The bytes a slice holds. -/
def GoSlice.bytes (s : GoSlice) : Bytes := s.array.take s.len

/-- `s[:high]`, bounded by the capacity; the panic reports the capacity. -/
def GoSlice.sliceTo (s : GoSlice) (high : Int) : Except Panic GoSlice :=
  if h : 0 ≤ high ∧ high ≤ s.cap then .ok ⟨s.array, high.toNat, by unfold cap at h; omega⟩
  else .error (.sliceBoundsOutOfRange 0 high s.cap)

/-- The sizes of the allocator's small size classes, class 0 being the empty allocation
(runtime/sizeclasses.go). -/
def sizeClasses : List Nat :=
  [0, 8, 16, 24, 32, 48, 64, 80, 96, 112, 128, 144, 160, 176, 192, 208, 224, 240, 256, 288, 320,
    352, 384, 416, 448, 480, 512, 576, 640, 704, 768, 896, 1024, 1152, 1280, 1408, 1536, 1792,
    2048, 2304, 2688, 3072, 3200, 3456, 4096, 4864, 5376, 6144, 6528, 6784, 6912, 8192, 9472,
    9728, 10240, 10880, 12288, 13568, 14336, 16384, 18432, 19072, 20480, 21760, 24576, 27264,
    28672, 32768]

/-- `roundupsize` of memory without pointers: the smallest size class that holds `size` bytes,
and whole pages of 8192 bytes above `maxSmallSize - mallocHeaderSize`. -/
def roundupsize (size : Nat) : Nat :=
  if size ≤ 32768 - 8 then (sizeClasses.find? (size ≤ ·)).getD size
  else (size + 8191) / 8192 * 8192

/-- `hex.DecodeString`, its error dropped. It decodes in place in the array of `[]byte(s)`, which
then holds the rest of `s` and the allocator's zeros past the decoded bytes. -/
def decodeString (s : Bytes) : GoSlice where
  array := hex2Bytes s ++ s.drop (hex2Bytes s).length ++
    List.replicate (roundupsize s.length - s.length) 0
  len := (hex2Bytes s).length
  len_le := by simp only [List.length_append]; omega

/-- `common.FromHex` as Go returns it, with the capacity and backing array of `decodeString`. -/
def fromHexSlice (s : Bytes) : GoSlice := decodeString (fromHexInput s)

def hexToAddress (s : Bytes) : Address := bytesToAddress (fromHex s)

/-- Big-endian value of a byte string: `new(big.Int).SetBytes`. -/
def bytesToNat (b : Bytes) : Nat := b.foldl (fun acc x => acc * 256 + x.toNat) 0

/-- Minimal big-endian bytes of a magnitude: `(*big.Int).Bytes` of a value whose absolute
value is `n`. Zero has no bytes. -/
def natToBytes (n : Nat) : Bytes :=
  if n = 0 then [] else natToBytes (n / 256) ++ [(n % 256).toUInt8]
decreasing_by omega

theorem bytesToNat_append (b c : Bytes) :
    bytesToNat (b ++ c) = bytesToNat b * 256 ^ c.length + bytesToNat c := by
  induction c using List.reverseRecOn with
  | nil => simp [bytesToNat]
  | append_singleton c x ih =>
    simp only [bytesToNat, ← List.append_assoc, List.foldl_append, List.foldl_cons,
      List.foldl_nil, List.length_append, List.length_singleton] at ih ⊢
    rw [ih, pow_succ]
    ring

@[simp] theorem bytesToNat_replicate_zero (k : Nat) : bytesToNat (List.replicate k 0) = 0 := by
  induction k with
  | zero => rfl
  | succ k ih =>
    rw [List.replicate_succ', bytesToNat_append, ih]
    rfl

theorem bytesToNat_natToBytes (n : Nat) : bytesToNat (natToBytes n) = n := by
  induction n using Nat.strongRecOn with
  | ind n ih =>
    rw [natToBytes]
    split
    · simp [bytesToNat, *]
    · rw [bytesToNat_append, ih _ (by omega)]
      simp [bytesToNat]
      omega

theorem bytesToNat_leftPadBytes (b : Bytes) (l : Nat) :
    bytesToNat (leftPadBytes b l) = bytesToNat b := by
  unfold leftPadBytes
  split
  · rfl
  · rw [bytesToNat_append]
    simp

theorem length_hex2Bytes_le (s : Bytes) : 2 * (hex2Bytes s).length ≤ s.length := by
  induction s using hex2Bytes.induct with
  | case1 p q rest a b _ _ ih => simp only [hex2Bytes, *, List.length_cons]; omega
  | case2 | case3 => simp only [hex2Bytes, *, List.length_nil]; omega

theorem le_roundupsize (n : Nat) : n ≤ roundupsize n := by
  unfold roundupsize
  split
  · cases h : sizeClasses.find? (n ≤ ·) with
    | none => exact le_refl n
    | some c => simpa using List.find?_some h
  · omega

/-- `[:HashLength]` fits the capacity of a fresh array exactly from 25 bytes on. -/
theorem hashLength_le_roundupsize_iff (n : Nat) : hashLength ≤ roundupsize n ↔ 25 ≤ n := by
  rcases Nat.lt_or_ge n 33 with h | h
  · revert n
    decide
  · exact iff_of_true ((show hashLength ≤ n by unfold hashLength; omega).trans (le_roundupsize n))
      (by omega)

@[simp] theorem GoSlice.length_bytes (s : GoSlice) : s.bytes.length = s.len := by
  simp [bytes, s.len_le]

theorem GoSlice.sliceTo_of_le {s : GoSlice} {high : Nat} (h : high ≤ s.cap) :
    ∃ t, s.sliceTo high = .ok t ∧ t.bytes = s.array.take high := by
  refine ⟨_, dif_pos ⟨Int.natCast_nonneg _, Int.ofNat_le.mpr h⟩, ?_⟩
  simp [GoSlice.bytes]

theorem GoSlice.sliceTo_of_lt {s : GoSlice} {high : Nat} (h : s.cap < high) :
    s.sliceTo high = .error (.sliceBoundsOutOfRange 0 high s.cap) :=
  dif_neg fun ⟨_, h'⟩ => by omega

theorem cap_decodeString (s : Bytes) : (decodeString s).cap = roundupsize s.length := by
  have := length_hex2Bytes_le s
  have := le_roundupsize s.length
  simp only [decodeString, GoSlice.cap, List.length_append, List.length_drop,
    List.length_replicate]
  omega

@[simp] theorem bytes_decodeString (s : Bytes) : (decodeString s).bytes = hex2Bytes s := by
  simp [decodeString, GoSlice.bytes]

@[simp] theorem bytes_fromHexSlice (s : Bytes) : (fromHexSlice s).bytes = fromHex s :=
  bytes_decodeString _


/-- Where `common.FromHex` decodes at least `n` bytes, its first `n` backing bytes are decoded
ones. -/
theorem fromHexSlice_take {s : Bytes} {n : Nat} (h : n ≤ (fromHex s).length) :
    n ≤ (fromHexSlice s).cap ∧ (fromHexSlice s).array.take n = (fromHex s).take n := by
  rw [← bytes_fromHexSlice, GoSlice.length_bytes] at h
  refine ⟨h.trans (fromHexSlice s).len_le, ?_⟩
  rw [← bytes_fromHexSlice, GoSlice.bytes, List.take_take, min_eq_left h]

/-- `common.FromHex(s)[:HashLength]` is in bounds exactly when the digits, without `0x` and
padded to an even count, number at least 25. -/
theorem hashLength_le_cap_fromHexSlice_iff (s : Bytes) :
    hashLength ≤ (fromHexSlice s).cap ↔ 25 ≤ (fromHexInput s).length := by
  rw [fromHexSlice, cap_decodeString]
  exact hashLength_le_roundupsize_iff _

end InjectiveSdk.Go
