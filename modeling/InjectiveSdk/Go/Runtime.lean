import Mathlib.Algebra.Order.Ring.Int
import Mathlib.Data.List.Basic
import Mathlib.Tactic.Ring

namespace InjectiveSdk.Go

/-- A Go `string` or `[]byte`. A Go string is a read-only sequence of bytes. -/
abbrev Bytes := List UInt8

/-- The bytes of a Go string literal. Every literal of the modelled code is ASCII. -/
def ascii (s : String) : Bytes := s.toList.map (fun c => c.toNat.toUInt8)

/-- `math.MaxInt` on a 64-bit target: no slice is longer than this. -/
def maxInt : Nat := 2 ^ 63 - 1

/-- `int(v)` of a `uint64`: the same 64 bits read in two's complement. -/
def toInt (v : UInt64) : Int := Int.bmod v.toNat (2 ^ 64)

/-- `int32(v)` of a `uint64`: its low 32 bits read in two's complement. -/
def toInt32 (v : UInt64) : Int := Int.bmod v.toNat (2 ^ 32)

/-- `a + b` on `int`, which wraps around on overflow. -/
def addInt (a b : Int) : Int := Int.bmod (a + b) (2 ^ 64)

/-- `uint64(x)` of an `int`. -/
def toUint64 (x : Int) : UInt64 := UInt64.ofNat (x % 2 ^ 64).toNat

/-- The run-time panics the modelled code can raise. -/
inductive Panic
  | indexOutOfRange (index : Int) (length : Nat)
  | sliceBoundsOutOfRange (low high : Int) (length : Nat)
  | divisionByZero
  | nilPointerDereference
  | value (err : Bytes)
  deriving DecidableEq, Repr

/-- Equality of outcomes, so that a run can be checked by `decide`. -/
instance instDecidableEqExcept {ε α : Type} [DecidableEq ε] [DecidableEq α] :
    DecidableEq (Except ε α)
  | .error a, .error b => decidable_of_iff (a = b) ⟨fun h => h ▸ rfl, Except.error.inj⟩
  | .ok a, .ok b => decidable_of_iff (a = b) ⟨fun h => h ▸ rfl, Except.ok.inj⟩
  | .error _, .ok _ => isFalse fun h => Except.noConfusion h
  | .ok _, .error _ => isFalse fun h => Except.noConfusion h

/-- `b[i]`. -/
def index (b : Bytes) (i : Int) : Except Panic UInt8 :=
  match b[i.toNat]? with
  | some x => if 0 ≤ i then .ok x else .error (.indexOutOfRange i b.length)
  | none => .error (.indexOutOfRange i b.length)

/-- `b[i] = x`. -/
def setIndex (b : Bytes) (i : Int) (x : UInt8) : Except Panic Bytes :=
  if 0 ≤ i ∧ i < b.length then .ok (b.set i.toNat x) else .error (.indexOutOfRange i b.length)

/-- `b[low:high]` of a slice whose capacity is its length, as `make([]byte, n)` gives it; Go
bounds `high` by the capacity, which `GoSlice.sliceTo` models for a slice with spare capacity. -/
def slice (b : Bytes) (low high : Int) : Except Panic Bytes :=
  if 0 ≤ low ∧ low ≤ high ∧ high ≤ b.length then .ok ((b.take high.toNat).drop low.toNat)
  else .error (.sliceBoundsOutOfRange low high b.length)

/-- `b[:high]`. -/
def sliceTo (b : Bytes) (high : Int) : Except Panic Bytes := slice b 0 high

/-- `b[low:]`. -/
def sliceFrom (b : Bytes) (low : Int) : Except Panic Bytes := slice b low b.length

/-- `copy(dst[i:], src)`, returning `dst` as the copy leaves it. -/
def copyAt (dst : Bytes) (i : Int) (src : Bytes) : Except Panic Bytes := do
  let tail ← sliceFrom dst i
  let n := min tail.length src.length
  pure (dst.take i.toNat ++ src.take n ++ tail.drop n)

section Monad

variable {ε α β : Type}

@[simp] theorem ok_bind (a : α) (f : α → Except ε β) : (Except.ok a >>= f) = f a := rfl

@[simp] theorem error_bind (e : ε) (f : α → Except ε β) : (Except.error e >>= f) = .error e := rfl

@[simp] theorem pure_eq_ok (a : α) : (pure a : Except ε α) = .ok a := rfl

theorem bind_eq_ok {x : Except ε α} {f : α → Except ε β} {b : β} :
    x >>= f = .ok b ↔ ∃ a, x = .ok a ∧ f a = .ok b := by
  cases x <;> simp

theorem map_eq_error {f : α → β} {x : Except ε α} {e : ε} : f <$> x = .error e ↔ x = .error e := by
  cases x <;> simp [Functor.map, Except.map]

end Monad

section Words

@[simp] theorem toNat_natToUInt8 (n : Nat) : n.toUInt8.toNat = n % 256 := rfl

@[simp] theorem toNat_toUInt8 (v : UInt64) : v.toUInt8.toNat = v.toNat % 256 := rfl

@[simp] theorem toNat_uint64OfNat (n : Nat) : (UInt64.ofNat n).toNat = n % 2 ^ 64 := by
  show (BitVec.ofNat 64 n).toNat = _
  simp

theorem toNat_shiftRight_seven (v : UInt64) : (v >>> 7).toNat = v.toNat / 128 := by
  show (v.toBitVec >>> ((7 : UInt64).toBitVec % 64)).toNat = _
  simp [BitVec.toNat_ushiftRight, Nat.shiftRight_eq_div_pow]
  rfl

theorem toNat_and_low (v : UInt64) : (v &&& 0x7f).toNat = v.toNat % 128 := by
  rw [UInt64.and_toNat]
  exact Nat.and_pow_two_sub_one_eq_mod _ 7

theorem toNat_shiftRight_three (v : UInt64) : (v >>> 3).toNat = v.toNat / 8 := by
  show (v.toBitVec >>> ((3 : UInt64).toBitVec % 64)).toNat = _
  simp [BitVec.toNat_ushiftRight, Nat.shiftRight_eq_div_pow]
  rfl

theorem toNat_and_seven (v : UInt64) : (v &&& 7).toNat = v.toNat % 8 := by
  rw [UInt64.and_toNat]
  exact Nat.and_pow_two_sub_one_eq_mod _ 3

theorem toNat_or (a b : UInt64) : (a ||| b).toNat = a.toNat ||| b.toNat := by
  show (a.toBitVec ||| b.toBitVec).toNat = _
  rw [BitVec.toNat_or]
  rfl

theorem toNat_shiftLeft_of_lt (a : UInt64) {s : Nat} (hs : s < 64) :
    (a <<< s.toUInt64).toNat = a.toNat * 2 ^ s % 2 ^ 64 := by
  show (a.toBitVec <<< (s.toUInt64.toBitVec % 64)).toNat = _
  rw [BitVec.shiftLeft_eq', BitVec.toNat_shiftLeft, BitVec.toNat_umod]
  have : s.toUInt64.toBitVec.toNat = s := by
    show (UInt64.ofNat s).toNat = s
    rw [toNat_uint64OfNat]
    omega
  rw [this, Nat.shiftLeft_eq, show (64 : BitVec 64).toNat = 64 from rfl, Nat.mod_eq_of_lt hs]
  rfl

theorem or_one_eq (x : Nat) : x ||| 1 = 2 * (x / 2) + 1 := by
  have e1 := @Nat.mul_add_lt_is_or 1 (x % 2) (by omega) (x / 2)
  have e2 := @Nat.mul_add_lt_is_or 1 1 (by omega) (x / 2)
  have hm : x % 2 ||| 1 = 1 := by
    rcases Nat.mod_two_eq_zero_or_one x with h | h <;> rw [h] <;> rfl
  rw [Nat.pow_one] at e1 e2
  calc x ||| 1 = (2 * (x / 2) ||| x % 2) ||| 1 := by rw [← e1, Nat.div_add_mod]
    _ = 2 * (x / 2) ||| 1 := by rw [Nat.or_assoc, hm]
    _ = 2 * (x / 2) + 1 := e2.symm

theorem toNat_or_one (v : UInt64) : (v ||| 1).toNat = 2 * (v.toNat / 2) + 1 := by
  rw [toNat_or, show (1 : UInt64).toNat = 1 from rfl, or_one_eq]

end Words

section Wrap

theorem bmod_eq_self {x : Int} {m : Nat} (h0 : -((m : Int) / 2) ≤ x) (h1 : 2 * x < m) :
    Int.bmod x m = x := by
  rw [Int.bmod_def]
  by_cases hx : x < 0
  · have he : x % m = x + m := by
      rw [← Int.add_emod_self]
      exact Int.emod_eq_of_lt (by omega) (by omega)
    rw [he]
    split <;> omega
  · rw [Int.emod_eq_of_lt (by omega) (by omega)]
    split <;> omega

theorem toInt_of_le {v : UInt64} (h : v.toNat ≤ maxInt) : toInt v = v.toNat :=
  bmod_eq_self (by omega) (by simp only [maxInt] at h; omega)

theorem toInt_lt (v : UInt64) : toInt v < 2 ^ 63 :=
  Int.bmod_lt (by decide)

theorem toInt_neg {v : UInt64} (h : maxInt < v.toNat) : toInt v < 0 := by
  have hv : v.toNat < 2 ^ 64 := v.toBitVec.isLt
  simp only [maxInt] at h
  rw [toInt, Int.bmod_def, Int.emod_eq_of_lt (by omega) (by omega)]
  split <;> omega

theorem toInt32_of_lt {v : UInt64} (h : v.toNat < 2 ^ 31) : toInt32 v = v.toNat :=
  bmod_eq_self (by omega) (by omega)

theorem addInt_of_le {a b : Int} (ha : 0 ≤ a) (hb : 0 ≤ b) (h : a + b ≤ maxInt) :
    addInt a b = a + b :=
  bmod_eq_self (by omega) (by simp only [maxInt] at h; omega)

theorem addInt_cases {a b : Int} (ha : 0 ≤ a) (ha' : a ≤ maxInt) (hb : 0 ≤ b)
    (hb' : b ≤ maxInt) : addInt a b < 0 ∨ addInt a b = a + b ∧ a + b ≤ maxInt := by
  simp only [maxInt] at ha' hb' ⊢
  by_cases hs : a + b < 2 ^ 63
  · exact .inr ⟨addInt_of_le ha hb (by simp only [maxInt]; omega), by omega⟩
  · rw [addInt, Int.bmod_def, Int.emod_eq_of_lt (by omega) (by omega)]
    split <;> omega

end Wrap

section Buffers

variable {pre mid post : Bytes}

@[simp] theorem index_append (x : UInt8) :
    index (pre ++ x :: post) pre.length = .ok x := by
  simp [index, List.getElem_append_right]

theorem index_of_lt {b : Bytes} {i : Int} (h0 : 0 ≤ i) (h : i < b.length) :
    ∃ x, index b i = .ok x := by
  obtain ⟨x, hx⟩ : ∃ x, b[i.toNat]? = some x :=
    ⟨_, List.getElem?_eq_getElem (by omega)⟩
  exact ⟨x, by simp [index, hx, h0]⟩

@[simp] theorem setIndex_append (x y : UInt8) :
    setIndex (pre ++ x :: post) pre.length y = .ok (pre ++ y :: post) := by
  simp [setIndex, List.set_append_right]

theorem slice_natCast {b : Bytes} {low high : Nat} (h1 : low ≤ high) (h2 : high ≤ b.length) :
    slice b low high = .ok ((b.take high).drop low) := by
  rw [slice, if_pos (by omega)]
  simp

@[simp] theorem slice_append :
    slice (pre ++ mid ++ post) pre.length (pre.length + mid.length) = .ok mid := by
  have h : slice (pre ++ mid ++ post) pre.length (pre.length + mid.length : Nat) = _ :=
    slice_natCast (by omega) (by simp only [List.length_append]; omega)
  simpa [List.take_append_eq_append_take, List.drop_append_eq_append_drop] using h

theorem slice_of_le {b : Bytes} {low high : Int} (h0 : 0 ≤ low) (h1 : low ≤ high)
    (h2 : high ≤ b.length) : ∃ s, slice b low high = .ok s ∧ s.length ≤ b.length := by
  refine ⟨_, if_pos ⟨h0, h1, h2⟩, ?_⟩
  simp only [List.length_drop, List.length_take]
  omega

theorem sliceTo_append : sliceTo (mid ++ post) mid.length = .ok mid := by
  simpa [sliceTo] using @slice_append [] mid post

theorem sliceFrom_append : sliceFrom (pre ++ post) pre.length = .ok post := by
  simpa [sliceFrom] using @slice_append pre post []

theorem exists_append_of_length {b : Bytes} {m n : Nat} (h : b.length = m + n) :
    ∃ x y, b = x ++ y ∧ x.length = m ∧ y.length = n :=
  ⟨b.take m, b.drop m, (List.take_append_drop m b).symm, by simp; omega, by simp; omega⟩

theorem copyAt_append {src : Bytes} (h : mid.length = src.length) :
    copyAt (pre ++ mid ++ post) pre.length src = .ok (pre ++ src ++ post) := by
  rw [copyAt, List.append_assoc, sliceFrom_append]
  simp [h]

end Buffers

end InjectiveSdk.Go
