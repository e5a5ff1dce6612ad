import InjectiveSdk.Go.Common

namespace InjectiveSdk.Go

/-- The value `math/big` gives a digit character; anything that is not a digit or a letter is
out of range for every base. -/
def digitValue (c : UInt8) : Nat :=
  if 0x30 ≤ c ∧ c ≤ 0x39 then (c - 0x30).toNat
  else if 0x61 ≤ c ∧ c ≤ 0x7a then (c - 0x61).toNat + 10
  else if 0x41 ≤ c ∧ c ≤ 0x5a then (c - 0x41).toNat + 10
  else 36

def digitsValue (base : Nat) : Bytes → Nat → Option Nat
  | [], acc => some acc
  | c :: cs, acc => if digitValue c < base then digitsValue base cs (acc * base + digitValue c) else none

/-- `(*big.Int).SetString(s, base)` for a base other than 0: an optional sign and then at
least one digit, with nothing after them. -/
def setString (s : Bytes) (base : Nat) : Option Int :=
  let digits (ds : Bytes) : Option Nat := if ds = [] then none else digitsValue base ds 0
  match s with
  | 0x2b :: ds => (digits ds).map Int.ofNat
  | 0x2d :: ds => (digits ds).map (fun n => -(n : Int))
  | ds => (digits ds).map Int.ofNat

/-- `math.ParseBig256` of go-ethereum: decimal, or hexadecimal after `0x` or `0X`; the empty
string is zero, and a value of more than 256 bits is refused. -/
def parseBig256 (s : Bytes) : Option Int :=
  if s = [] then some 0 else
  let v := match s with
    | 0x30 :: x :: rest => if x = 0x78 ∨ x = 0x58 then setString rest 16 else setString s 10
    | _ => setString s 10
  v.bind (fun v => if v.natAbs < 2 ^ 256 then some v else none)

/-- `new(big.Int).Div(x, y)`: Euclidean division, so the remainder lies in `[0, |y|)`.
Division by zero is a run-time panic. -/
def bigDiv (x y : Int) : Except Panic Int :=
  if y = 0 then .error .divisionByZero else .ok (x / y)

/-- `(*big.Int).String`: the decimal digits with a leading `-` when negative. -/
def bigIntString (x : Int) : Bytes := ascii (toString x)

/-- `(*big.Int).Int64`: the low 64 bits of `|x|` as an `int64`, negated in `int64` when `x` is
negative. -/
def bigInt64 (x : Int) : Int :=
  let v := Int.bmod (x.natAbs % 2 ^ 64 : Nat) (2 ^ 64)
  if x < 0 then Int.bmod (-v) (2 ^ 64) else v

@[simp] theorem bigDiv_of_ne {x y : Int} (h : y ≠ 0) : bigDiv x y = .ok (x / y) := if_neg h

@[simp] theorem bigDiv_zero (x : Int) : bigDiv x 0 = .error .divisionByZero := rfl

theorem bigDiv_eq_error_iff {x y : Int} {p : Panic} :
    bigDiv x y = .error p ↔ p = .divisionByZero ∧ y = 0 := by
  by_cases hy : y = 0
  · simp [hy, eq_comm]
  · simp [hy]

/-- Euclidean and truncating division agree exactly when the dividend is non-negative or a
multiple of the divisor. -/
theorem ediv_eq_tdiv_iff {n d : Int} (hd : d ≠ 0) : n / d = n.tdiv d ↔ 0 ≤ n ∨ d ∣ n := by
  constructor
  · intro h
    by_contra hc
    push_neg at hc
    obtain ⟨hn, hnd⟩ := hc
    have hr : n % d ≠ 0 := fun h0 => hnd (Int.dvd_of_emod_eq_zero h0)
    have hpos := Int.emod_nonneg n hd
    have hneg := Int.tmod_nonneg d (show 0 ≤ -n by omega)
    rw [Int.tmod_def, Int.neg_tdiv, Int.mul_neg] at hneg
    have e1 := Int.ediv_add_emod n d
    rw [h] at e1
    generalize d * n.tdiv d = k at *
    omega
  · rintro (hn | hnd)
    · rcases lt_or_gt_of_ne hd with hneg | hpos
      · rw [show d = -(-d) by ring, Int.ediv_neg, Int.tdiv_neg, Int.tdiv_eq_ediv hn (by omega)]
      · exact (Int.tdiv_eq_ediv hn hpos.le).symm
    · exact (Int.tdiv_eq_ediv_of_dvd hnd).symm

theorem digitsValue_append (base : Nat) (L rest : Bytes) (acc : Nat) :
    digitsValue base (L ++ rest) acc = (digitsValue base L acc).bind (digitsValue base rest) := by
  induction L generalizing acc with
  | nil => rfl
  | cons c L ih =>
    simp only [List.cons_append, digitsValue]
    split_ifs
    · exact ih _
    · rfl

theorem digitChar_byte : ∀ d < 10, 0x30 ≤ (Nat.digitChar d).toNat.toUInt8 ∧
    (Nat.digitChar d).toNat.toUInt8 ≤ 0x39 ∧ digitValue (Nat.digitChar d).toNat.toUInt8 = d := by
  decide

theorem toDigitsCore_ten (fuel n : Nat) (hn : n < fuel) (ds : List Char) :
    ∃ L : Bytes, (Nat.toDigitsCore 10 fuel n ds).map (fun c => c.toNat.toUInt8) =
        L ++ ds.map (fun c => c.toNat.toUInt8) ∧ L ≠ [] ∧ (∀ b ∈ L, 0x30 ≤ b ∧ b ≤ 0x39) ∧
      ∀ acc, digitsValue 10 L acc = some (acc * 10 ^ L.length + n) := by
  induction fuel generalizing n ds with
  | zero => omega
  | succ fuel ih =>
    obtain ⟨h1, h2, h3⟩ := digitChar_byte (n % 10) (Nat.mod_lt _ (by decide))
    have e : Nat.toDigitsCore 10 (fuel + 1) n ds = if n / 10 = 0 then Nat.digitChar (n % 10) :: ds
        else Nat.toDigitsCore 10 fuel (n / 10) (Nat.digitChar (n % 10) :: ds) := rfl
    rw [e]
    split_ifs with h0
    · refine ⟨[(Nat.digitChar (n % 10)).toNat.toUInt8], rfl, by simp, by simpa using ⟨h1, h2⟩,
        fun acc => ?_⟩
      simp only [digitsValue, h3, if_pos (show n % 10 < 10 by omega), List.length_singleton,
        pow_one]
      congr 1
      omega
    · obtain ⟨L, hL, hne, hdig, hval⟩ := ih (n / 10) (by omega) (Nat.digitChar (n % 10) :: ds)
      refine ⟨L ++ [(Nat.digitChar (n % 10)).toNat.toUInt8], by simp [hL], by simp, ?_,
        fun acc => ?_⟩
      · simp only [List.mem_append, List.mem_singleton]
        rintro b (hb | rfl)
        · exact hdig b hb
        · exact ⟨h1, h2⟩
      · rw [digitsValue_append, hval]
        simp only [Option.some_bind, digitsValue, h3, if_pos (show n % 10 < 10 by omega),
          List.length_append, List.length_singleton, pow_succ, ← Nat.mul_assoc]
        congr 1
        generalize acc * 10 ^ L.length = a
        omega

theorem ascii_repr (n : Nat) : ∃ L : Bytes, ascii (Nat.repr n) = L ∧ L ≠ [] ∧
    (∀ b ∈ L, 0x30 ≤ b ∧ b ≤ 0x39) ∧ digitsValue 10 L 0 = some n := by
  obtain ⟨L, hL, hne, hdig, hval⟩ := toDigitsCore_ten (n + 1) n (by omega) []
  exact ⟨L, by simpa using hL, hne, hdig, by simpa using hval 0⟩

theorem setString_of_digits {L : Bytes} (hne : L ≠ []) (hdig : ∀ b ∈ L, 0x30 ≤ b ∧ b ≤ 0x39) :
    setString L 10 = (digitsValue 10 L 0).map Int.ofNat := by
  unfold setString
  split
  · exact absurd (hdig _ (List.mem_cons_self _ _)).1 (by decide)
  · exact absurd (hdig _ (List.mem_cons_self _ _)).1 (by decide)
  · simp [hne]

theorem setString_bigIntString (x : Int) : setString (bigIntString x) 10 = some x := by
  cases x with
  | ofNat n =>
    obtain ⟨L, hL, hne, hdig, hv⟩ := ascii_repr n
    show setString (ascii (Nat.repr n)) 10 = _
    rw [hL, setString_of_digits hne hdig, hv]
    rfl
  | negSucc n =>
    obtain ⟨L, hL, hne, hdig, hv⟩ := ascii_repr (n + 1)
    show setString (0x2d :: ascii (Nat.repr (n + 1))) 10 = _
    simp only [setString, hL, if_neg hne, hv]
    rfl

theorem parseBig256_of_not_hex {s : Bytes} (hne : s ≠ [])
    (hx : ∀ y rest, s = 0x30 :: y :: rest → y ≠ 0x78 ∧ y ≠ 0x58) :
    parseBig256 s = (setString s 10).bind fun v => if v.natAbs < 2 ^ 256 then some v else none := by
  unfold parseBig256
  rw [if_neg hne]
  split
  · rename_i y rest
    obtain ⟨h1, h2⟩ := hx y rest rfl
    rw [if_neg (by tauto)]
  · rfl

theorem parseBig256_bigIntString (x : Int) :
    parseBig256 (bigIntString x) = if x.natAbs < 2 ^ 256 then some x else none := by
  have hx : ∀ y rest, bigIntString x = 0x30 :: y :: rest → y ≠ 0x78 ∧ y ≠ 0x58 := by
    intro y rest h
    cases x with
    | ofNat n =>
      obtain ⟨L, hL, -, hdig, -⟩ := ascii_repr n
      change ascii (Nat.repr n) = _ at h
      rw [hL] at h
      subst h
      have hy := (hdig y (List.mem_cons_of_mem _ (List.mem_cons_self _ _))).2
      constructor <;> rintro rfl <;> exact absurd hy (by decide)
    | negSucc n => cases h
  have hne : bigIntString x ≠ [] := by
    cases x with
    | ofNat n =>
      obtain ⟨L, hL, hne, -⟩ := ascii_repr n
      change ascii (Nat.repr n) ≠ []
      rwa [hL]
    | negSucc n => exact List.cons_ne_nil _ _
  rw [parseBig256_of_not_hex hne hx, setString_bigIntString]
  rfl

theorem bigInt64_eq_iff (x : Int) : bigInt64 x = x ↔ -2 ^ 63 ≤ x ∧ x < 2 ^ 63 := by
  unfold bigInt64
  simp only [Int.bmod_def]
  split_ifs <;> omega

/-- A string `math.ParseBig256` reads as hexadecimal: `0x` or `0X` and then anything. -/
def hasHexPrefix : Bytes → Bool
  | 0x30 :: x :: _ => x = 0x78 || x = 0x58
  | _ => false

theorem setString_ten_of_hexPrefix {s : Bytes} (h : hasHexPrefix s) : setString s 10 = none := by
  unfold hasHexPrefix at h
  split at h
  · obtain rfl | rfl : _ ∨ _ := by simpa using h
    · rfl
    · rfl
  · cases h

/-- Where `math.ParseBig256` reads a value, `SetString(s, 10)` reads the same one, but for the
empty string and hexadecimal, which it refuses. -/
theorem setString_of_parseBig256 {s : Bytes} {v : Int} (h : parseBig256 s = some v) :
    setString s 10 = if s = [] ∨ hasHexPrefix s then none else some v := by
  by_cases hs : s = []
  · subst hs
    rfl
  by_cases hx : hasHexPrefix s
  · rw [if_pos (.inr hx), setString_ten_of_hexPrefix hx]
  rw [if_neg (by tauto)]
  have hnx : ∀ y rest, s = 0x30 :: y :: rest → y ≠ 0x78 ∧ y ≠ 0x58 := by
    rintro y rest rfl
    simpa [hasHexPrefix, not_or] using hx
  rw [parseBig256_of_not_hex hs hnx] at h
  cases hq : setString s 10 with
  | none => simp [hq] at h
  | some q =>
    rw [hq, Option.some_bind] at h
    split_ifs at h
    exact h

end InjectiveSdk.Go
