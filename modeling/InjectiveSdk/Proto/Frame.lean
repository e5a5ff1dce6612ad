import InjectiveSdk.Proto.Fields
import InjectiveSdk.Proto.Totality

namespace InjectiveSdk.Proto
open InjectiveSdk.Go

section Windows
variable {pre w post : Bytes} (pre' post' : Bytes)

/-- The varint loop reads only the bytes of the varint: started at a window that holds one
exactly, it reads the same value in any other buffer. -/
theorem varintLoop_window {shift : Nat} {wire v : UInt64}
    (h : varintLoop (pre ++ w ++ post) shift pre.length wire = .ok (v, pre.length + w.length)) :
    varintLoop (pre' ++ w ++ post') shift pre'.length wire = .ok (v, pre'.length + w.length) := by
  induction w generalizing pre pre' shift wire with
  | nil =>
    have := (varintLoop_returns _ shift wire (Int.natCast_nonneg _)).of_ok h
    simp at this
  | cons b w ih =>
    have hs : shift < 64 := by
      by_contra hs
      rw [varintLoop, dif_pos (by omega)] at h
      cases h
    rw [List.append_assoc, List.cons_append, varintLoop_byte hs] at h ⊢
    dsimp only at h ⊢
    split_ifs at h ⊢ with hb
    · simp only [Except.ok.injEq, Prod.mk.injEq, List.length_cons] at h ⊢
      exact ⟨h.1, by omega⟩
    · have h' := @ih (pre ++ [b]) (pre' ++ [b]) (shift + 7) _
        (by simpa [Int.add_assoc, Int.add_comm 1] using h)
      simpa [Int.add_assoc, Int.add_comm 1] using h'

end Windows

section Frames
variable {B B' pre w post pre' post' : Bytes}

theorem exists_split_window {i : Int} (h0 : pre.length ≤ i) (h1 : i ≤ pre.length + w.length) :
    ∃ u r, w = u ++ r ∧ i = pre.length + u.length := by
  obtain ⟨u, r, rfl, hu, -⟩ := @exists_append_of_length w (i - pre.length).toNat
    (w.length - (i - pre.length).toNat) (by omega)
  exact ⟨u, r, rfl, by omega⟩

theorem readVarint_window (hB : B = pre ++ w ++ post) (hB' : B' = pre' ++ w ++ post')
    {v : UInt64} (h : readVarint B pre.length = .ok (v, pre.length + w.length)) :
    readVarint B' pre'.length = .ok (v, pre'.length + w.length) := by
  subst hB hB'
  exact varintLoop_window pre' post' h

theorem readTag_window (message : Bytes) (hB : B = pre ++ w ++ post)
    (hB' : B' = pre' ++ w ++ post') {fieldNum : Int} {wireType : Nat}
    (h : readTag message B pre.length = .ok (fieldNum, wireType, pre.length + w.length)) :
    readTag message B' pre'.length = .ok (fieldNum, wireType, pre'.length + w.length) := by
  rw [readTag] at h ⊢
  obtain ⟨⟨wire, j⟩, hr, hc⟩ := bind_eq_ok.mp h
  dsimp only at hc
  generalize hfn : toInt32 (wire >>> 3) = fn at hc
  split_ifs at hc with h1 h2
  obtain ⟨rfl, rfl, rfl⟩ : fn = fieldNum ∧ (wire &&& 7).toNat = wireType ∧
      j = pre.length + w.length := by simpa using hc
  rw [readVarint_window hB hB' hr, ok_bind]
  dsimp only
  rw [hfn, if_neg h1, if_neg h2]
  rfl

theorem length_append_cast (p u r : Bytes) :
    (p.length : Int) + (u ++ r).length = p.length + u.length + r.length := by
  simp [Int.add_assoc]

theorem readLength_window {u r : Bytes} (hB : B = pre ++ u ++ r ++ post)
    (hB' : B' = pre' ++ u ++ r ++ post') (hl : B.length ≤ maxInt) (hl' : B'.length ≤ maxInt)
    (h : readLength B pre.length =
      .ok (pre.length + u.length, pre.length + u.length + r.length)) :
    readLength B' pre'.length =
      .ok (pre'.length + u.length, pre'.length + u.length + r.length) := by
  rw [readLength] at h ⊢
  obtain ⟨⟨len, j⟩, hr, hc⟩ := bind_eq_ok.mp h
  dsimp only at hc
  have hlt := toInt_lt len
  generalize hL : toInt len = L at hc hlt
  split_ifs at hc with h1 h2 h3
  obtain ⟨hj, hp⟩ : j = pre.length + u.length ∧
      addInt j L = pre.length + u.length + r.length := by simpa using hc
  subst hj hB hB'
  simp only [List.length_append] at hl hl'
  have hr' := readVarint_window (List.append_assoc _ _ _) (List.append_assoc (pre' ++ u) r post') hr
  have := @addInt_cases (pre.length + u.length) L (by omega) (by omega) (by omega)
    (by simp only [maxInt] at hl ⊢; omega)
  rw [hr', ok_bind]
  dsimp only
  rw [hL, if_neg h1, addInt_of_le (by omega) (by omega) (by omega)]
  simp only [List.length_append, Nat.cast_add]
  rw [if_neg (by omega), if_neg (by omega)]
  simp only [pure_eq_ok, Except.ok.injEq, Prod.mk.injEq, true_and]
  omega

theorem readBytesField_window (name : Bytes) (hB : B = pre ++ w ++ post)
    (hB' : B' = pre' ++ w ++ post') (hl : B.length ≤ maxInt) (hl' : B'.length ≤ maxInt)
    {wireType : Nat} {value : Bytes}
    (h : readBytesField name B wireType pre.length = .ok (pre.length + w.length, value)) :
    readBytesField name B' wireType pre'.length = .ok (pre'.length + w.length, value) := by
  rw [readBytesField] at h ⊢
  split_ifs at h ⊢ with hw
  obtain ⟨⟨i, p⟩, hr, hc⟩ := bind_eq_ok.mp h
  obtain ⟨v, hs, hc⟩ := bind_eq_ok.mp hc
  obtain ⟨rfl, rfl⟩ : p = pre.length + w.length ∧ v = value := by simpa using hc
  have hi := (readLength_returns hl (Int.natCast_nonneg _)).of_ok hr
  obtain ⟨u, r, rfl, rfl⟩ := exists_split_window hi.1.le hi.2.1
  have hB₁ : B = pre ++ u ++ r ++ post := by simp [hB]
  have hB₁' : B' = pre' ++ u ++ r ++ post' := by simp [hB']
  have hsl : ∀ {D p q : Bytes}, D = p ++ (u ++ r) ++ q →
      liftPanic (slice D (p.length + u.length) (p.length + u.length + r.length)) = .ok r := by
    rintro D p q rfl
    simpa [Int.add_assoc] using congrArg liftPanic (@slice_append (p ++ u) r q)
  rw [length_append_cast] at hr hs ⊢
  rw [hsl hB] at hs
  rw [readLength_window hB₁ hB₁' hl hl' hr, ok_bind]
  dsimp only
  rw [hsl hB', hs]
  rfl

/-- An `int` sum that ends a window moves by the window's length, from any start where that
still fits an `int`. -/
theorem addInt_window {a a' n : Int} {len : Nat} (ha : 0 ≤ a) (ha' : a ≤ maxInt) (hn : 0 ≤ n)
    (hn' : n ≤ maxInt) (h : addInt a n = a + len) (h0 : 0 ≤ a') (hl : a' + len ≤ maxInt) :
    addInt a' n = a' + len := by
  have := addInt_cases ha ha' hn hn'
  rw [addInt_of_le h0 hn (by omega)]
  omega

theorem skipWireType_window (hB : B = pre ++ w ++ post) (hB' : B' = pre' ++ w ++ post')
    (hl : B.length ≤ maxInt) (hl' : B'.length ≤ maxInt) {wireType depth depth' : Nat}
    (h : skipWireType B wireType pre.length depth = .ok (pre.length + w.length, depth')) :
    skipWireType B' wireType pre'.length depth = .ok (pre'.length + w.length, depth') := by
  have hp : (pre.length : Int) ≤ maxInt := by subst hB; simp only [List.length_append] at hl; omega
  have hp' : (pre'.length : Int) + w.length ≤ maxInt := by
    subst hB'; simp only [List.length_append] at hl'; omega
  unfold skipWireType at h ⊢
  split at h
  · obtain ⟨j, hj, hc⟩ := bind_eq_ok.mp h
    obtain ⟨rfl, rfl⟩ : j = pre.length + w.length ∧ depth = depth' := by simpa using hc
    rw [skipVarintLoop_eq _ 0 _ 0] at hj ⊢
    rcases hv : varintLoop B 0 pre.length 0 with _ | ⟨v, j⟩ <;> rw [hv] at hj
    · cases hj
    · obtain rfl : j = pre.length + w.length := by simpa using hj
      rw [← readVarint, readVarint_window hB hB' hv]
      rfl
  · obtain ⟨hs, rfl⟩ : addInt pre.length 8 = pre.length + w.length ∧ depth = depth' := by
      simpa using h
    rw [addInt_window (by omega) hp (by decide) (by decide) hs (by omega) hp']
    rfl
  · obtain ⟨⟨len, j⟩, hr, hc⟩ := bind_eq_ok.mp h
    dsimp only at hc
    have hlt := toInt_lt len
    generalize hL : toInt len = L at hc hlt
    split_ifs at hc with h1
    obtain ⟨hs, rfl⟩ : addInt j L = pre.length + w.length ∧ depth = depth' := by simpa using hc
    have hj := (readVarint_returns (Int.natCast_nonneg _)).of_ok hr
    have hm : j ≤ maxInt := by subst hB; simp only [List.length_append] at hl hj; omega
    have hLm : L ≤ maxInt := by simp only [maxInt]; omega
    have := addInt_cases (by omega) hm (by omega) hLm
    obtain ⟨u, r, rfl, rfl⟩ := exists_split_window hj.1.le (show j ≤ pre.length + w.length by omega)
    rw [length_append_cast] at hs ⊢
    rw [readVarint_window (show B = pre ++ u ++ (r ++ post) by simp [hB])
      (show B' = pre' ++ u ++ (r ++ post') by simp [hB']) hr, ok_bind]
    dsimp only
    rw [hL, if_neg h1, addInt_window (by omega) hm (by omega) hLm hs (by omega)
      (by simpa [Int.add_assoc] using hp')]
    rfl
  · obtain ⟨rfl, rfl⟩ : w = [] ∧ depth + 1 = depth' := by simpa using h
    simp
  · by_cases hd : depth = 0
    · rw [if_pos hd] at h
      cases h
    · rw [if_neg hd] at h ⊢
      obtain ⟨rfl, rfl⟩ : w = [] ∧ depth - 1 = depth' := by simpa using h
      simp
  · obtain ⟨hs, rfl⟩ : addInt pre.length 4 = pre.length + w.length ∧ depth = depth' := by
      simpa using h
    rw [addInt_window (by omega) hp (by decide) (by decide) hs (by omega) hp']
    rfl
  · cases h

theorem skipLoop_lt_of_ok (hl : B.length ≤ maxInt) {fuel depth : Nat} {i r : Int} (h0 : 0 ≤ i)
    (h : skipLoop B fuel i depth = .ok r) : i < r := by
  induction fuel generalizing i depth with
  | zero => cases h
  | succ fuel ih =>
    rw [skipLoop] at h
    split_ifs at h with hi
    · obtain ⟨⟨wire, j⟩, hr, hc⟩ := bind_eq_ok.mp h
      obtain ⟨⟨k, d⟩, hs, hc⟩ := bind_eq_ok.mp hc
      have hj := (readVarint_returns h0).of_ok hr
      have hk := (skipWireType_returns hl _ depth (by omega) hj.2).of_ok hs
      dsimp only at hc hj hk
      split_ifs at hc with h1 h2
      · cases hc
        omega
      · exact lt_trans (by omega) (ih (by omega) hc)

theorem skipLoop_window (hB : B = pre ++ w ++ post) (hB' : B' = pre' ++ w ++ post')
    (hl : B.length ≤ maxInt) (hl' : B'.length ≤ maxInt) {fuel fuel' depth : Nat}
    (hfuel : w.length < fuel')
    (h : skipLoop B fuel pre.length depth = .ok (pre.length + w.length)) :
    skipLoop B' fuel' pre'.length depth = .ok (pre'.length + w.length) := by
  induction fuel generalizing pre w pre' fuel' depth with
  | zero => cases h
  | succ fuel ih =>
    rw [skipLoop] at h
    split_ifs at h with hi
    · obtain ⟨⟨wire, j⟩, hr, hc⟩ := bind_eq_ok.mp h
      obtain ⟨⟨k, d⟩, hs, hc⟩ := bind_eq_ok.mp hc
      have hj := (readVarint_returns (Int.natCast_nonneg _)).of_ok hr
      have hk := (skipWireType_returns hl _ depth (by omega) hj.2).of_ok hs
      dsimp only at hc hj hk
      have hk0 : 0 ≤ k := by
        by_contra hneg
        rw [if_pos (by omega)] at hc
        cases hc
      rw [if_neg (by omega)] at hc
      have hkw : k ≤ pre.length + w.length := by
        split_ifs at hc with hd
        · cases hc
          exact le_rfl
        · exact (skipLoop_lt_of_ok hl hk0 hc).le
      obtain ⟨u, r, rfl, rfl⟩ :=
        exists_split_window hj.1.le (show j ≤ pre.length + w.length by omega)
      obtain ⟨v, s, rfl, rfl⟩ := @exists_split_window (pre ++ u) r k (by simp; omega)
        (by simp only [List.length_append, Nat.cast_add] at hkw ⊢; omega)
      have hu : 0 < u.length := by omega
      obtain ⟨G, rfl⟩ : ∃ G, fuel' = G + 1 := ⟨fuel' - 1, by simp at hfuel; omega⟩
      have hB₁ : B = pre ++ u ++ (v ++ s ++ post) := by simp [hB]
      have hB₁' : B' = pre' ++ u ++ (v ++ s ++ post') := by simp [hB']
      have hB₂ : B = pre ++ u ++ v ++ (s ++ post) := by simp [hB]
      have hB₂' : B' = pre' ++ u ++ v ++ (s ++ post') := by simp [hB']
      have hs' := skipWireType_window hB₂ hB₂' hl hl'
        (by simpa only [List.length_append, Nat.cast_add] using hs)
      rw [skipLoop, if_pos (by subst hB'; simp; omega), readVarint_window hB₁ hB₁' hr, ok_bind]
      dsimp only
      rw [show (pre'.length : Int) + u.length = (pre' ++ u).length by simp, hs', ok_bind]
      dsimp only
      rw [if_neg (by simp at hk0 ⊢; omega)]
      split_ifs at hc ⊢ with hd
      · obtain rfl : s = [] := by simpa [Int.add_assoc] using hc
        simp [Int.add_assoc]
      · have := @ih (pre ++ u ++ v) s (pre' ++ u ++ v) (by simp [hB]) (by simp [hB']) G d
          (by simp at hfuel; omega) (by simpa [Int.add_assoc] using hc)
        simpa [Int.add_assoc] using this

/-- The `default` case returns where `skipTxResponse` of the rest of the buffer says the field
ends. -/
theorem skipTxResponse_of_skipField {s : Bytes} {n : Nat} (hl : (pre ++ s).length ≤ maxInt)
    (h : skipField (pre ++ s) pre.length = .ok (pre.length + n)) : skipTxResponse s = .ok n := by
  simp only [List.length_append] at hl
  rw [skipField, sliceFrom_append, liftPanic_ok, ok_bind] at h
  obtain ⟨skippy, hk, hc⟩ := bind_eq_ok.mp h
  have hkm := (skipTxResponse_returns (show s.length ≤ maxInt by omega)).of_ok hk
  split_ifs at hc with h1 h2
  have := addInt_cases (Int.natCast_nonneg pre.length) (by omega) hkm.1.le hkm.2
  obtain rfl : skippy = n := by simp at hc; omega
  exact hk

theorem skipField_window (hB : B = pre ++ w ++ post) (hB' : B' = pre' ++ w ++ post')
    (hl : B.length ≤ maxInt) (hl' : B'.length ≤ maxInt)
    (h : skipField B pre.length = .ok (pre.length + w.length)) :
    skipField B' pre'.length = .ok (pre'.length + w.length) := by
  subst hB hB'
  rw [List.append_assoc] at hl hl' h ⊢
  have hk : skipLoop ([] ++ w ++ post) ((w ++ post).length + 1) ([] : Bytes).length 0 =
      .ok (([] : Bytes).length + w.length) := by
    simpa [skipTxResponse] using skipTxResponse_of_skipField hl h
  have hk' := skipLoop_window rfl (show w ++ post' = [] ++ w ++ post' from rfl)
    (by simp at hl ⊢; omega) (by simp at hl' ⊢; omega)
    (show w.length < (w ++ post').length + 1 by simp; omega) hk
  exact skipField_of_skipTxResponse (by simpa [skipTxResponse] using hk') (by simp) hl'

theorem skipLoop_readVarint_le (hl : B.length ≤ maxInt) {fuel depth : Nat} {i r : Int}
    (h0 : 0 ≤ i) (h : skipLoop B fuel i depth = .ok r) :
    ∃ wire j, readVarint B i = .ok (wire, j) ∧ j ≤ r := by
  cases fuel with
  | zero => cases h
  | succ fuel =>
    rw [skipLoop] at h
    split_ifs at h with hi
    obtain ⟨⟨wire, j⟩, hr, hc⟩ := bind_eq_ok.mp h
    obtain ⟨⟨k, d⟩, hs, hc⟩ := bind_eq_ok.mp hc
    have hj := (readVarint_returns h0).of_ok hr
    have hk := (skipWireType_returns hl _ depth (by omega) hj.2).of_ok hs
    refine ⟨wire, j, hr, ?_⟩
    dsimp only at hc hj hk
    split_ifs at hc with h1 h2
    · cases hc
      omega
    · exact le_trans (by omega) (skipLoop_lt_of_ok hl (by omega) hc).le

theorem skipField_readVarint_le (hB : B = pre ++ w ++ post) (hl : B.length ≤ maxInt)
    (h : skipField B pre.length = .ok (pre.length + w.length)) :
    ∃ wire j, readVarint B pre.length = .ok (wire, j) ∧ j ≤ pre.length + w.length := by
  subst hB
  rw [List.append_assoc] at hl h
  have hl₁ : (w ++ post).length ≤ maxInt := by simp at hl ⊢; omega
  obtain ⟨wire, j, hr, hj⟩ := skipLoop_readVarint_le hl₁ le_rfl (skipTxResponse_of_skipField hl h)
  have hj' := (readVarint_returns le_rfl).of_ok hr
  obtain ⟨u, r, rfl, rfl⟩ := @exists_split_window [] w j (by simp; omega) (by simpa using hj)
  refine ⟨wire, pre.length + u.length, readVarint_window
    (show u ++ r ++ post = [] ++ u ++ (r ++ post) by simp)
    (show pre ++ (u ++ r) ++ post = pre ++ u ++ (r ++ post) by simp) (by simpa using hr), ?_⟩
  simp

end Frames

section Passes
variable {σ : Type} {message : Bytes}
  {field : Bytes → Int → Nat → Int → σ → Option (Decode (Int × σ))}

/-- The body of the loop of the `Unmarshal`s: the tag at `iNdEx`, then the `case` of its number,
or the `default` case that skips the field. -/
def unmarshalPass (message : Bytes)
    (field : Bytes → Int → Nat → Int → σ → Option (Decode (Int × σ))) (dAtA : Bytes)
    (iNdEx : Int) (m : σ) : Decode (Int × σ) := do
  let preIndex := iNdEx
  let (fieldNum, wireType, iNdEx) ← readTag message dAtA iNdEx
  match field dAtA fieldNum wireType iNdEx m with
  | some read => read
  | none => do pure (← skipField dAtA preIndex, m)

theorem unmarshalLoop_succ {dAtA : Bytes} {fuel : Nat} {iNdEx : Int} {m : σ} :
    unmarshalLoop message field dAtA (fuel + 1) iNdEx m =
      if iNdEx < dAtA.length then
        unmarshalPass message field dAtA iNdEx m >>= fun r =>
          unmarshalLoop message field dAtA fuel r.1 r.2
      else if dAtA.length < iNdEx then .error (.fail .unexpectedEOF) else .ok m := by
  rw [unmarshalLoop, unmarshalPass]
  split_ifs
  · rcases readTag message dAtA iNdEx with _ | ⟨fieldNum, wireType, j⟩
    · rfl
    · dsimp only [ok_bind]
      rcases field dAtA fieldNum wireType j m with _ | read
      · rcases skipField dAtA iNdEx with _ | k <;> rfl
      · rcases read with _ | r <;> rfl
  · rfl
  · rfl

variable {B B' pre w post pre' post' : Bytes}

theorem readTag_readVarint (message : Bytes) {dAtA : Bytes} {i fieldNum j : Int} {wireType : Nat}
    (h : readTag message dAtA i = .ok (fieldNum, wireType, j)) :
    ∃ wire, readVarint dAtA i = .ok (wire, j) := by
  rw [readTag] at h
  obtain ⟨⟨wire, j'⟩, hr, hc⟩ := bind_eq_ok.mp h
  dsimp only at hc
  generalize toInt32 (wire >>> 3) = fn at hc
  split_ifs at hc
  obtain rfl : j' = j := by simp at hc; exact hc.2.2
  exact ⟨wire, hr⟩

/-- What the loop needs of a message's `switch fieldNum`: a `case` moves forward within the buffer,
reads only its field, and exists or not whatever the field's position. -/
structure FieldSwitch (field : Bytes → Int → Nat → Int → σ → Option (Decode (Int × σ))) :
    Prop where
  returns : ∀ {B : Bytes} {fieldNum : Int} {wireType : Nat} {iNdEx : Int} {m : σ} {read},
    B.length ≤ maxInt → field B fieldNum wireType iNdEx m = some read → 0 ≤ iNdEx →
      Returns (fun r : Int × σ => iNdEx ≤ r.1 ∧ r.1 ≤ B.length) read
  window : ∀ {B B' pre w post pre' post' : Bytes} {fieldNum : Int} {wireType : Nat} {m m' : σ},
    B = pre ++ w ++ post → B' = pre' ++ w ++ post' → B.length ≤ maxInt → B'.length ≤ maxInt →
    field B fieldNum wireType pre.length m = some (.ok (pre.length + w.length, m')) →
    field B' fieldNum wireType pre'.length m = some (.ok (pre'.length + w.length, m'))
  none : ∀ {B B' : Bytes} {fieldNum : Int} {wireType : Nat} {i i' : Int} {m : σ},
    field B fieldNum wireType i m = none → field B' fieldNum wireType i' m = none

section Cases
variable (hs : FieldSwitch field)
include hs

theorem unmarshalPass_returns (hl : B.length ≤ maxInt) {i : Int} (h0 : 0 ≤ i) (m : σ) :
    Returns (fun r : Int × σ => i < r.1 ∧ r.1 ≤ B.length) (unmarshalPass message field B i m) := by
  rw [unmarshalPass]
  refine (readTag_returns message h0).bind fun ⟨fieldNum, wireType, j⟩ hj => ?_
  dsimp only at hj ⊢
  split
  · exact (hs.returns hl ‹_› (by omega)).mono fun r hr => ⟨by omega, hr.2⟩
  · exact (skipField_returns hl h0 (by omega)).bind fun k hk => .ok hk

/-- A pass reads only the field it passes over. -/
theorem unmarshalPass_window (hB : B = pre ++ w ++ post) (hB' : B' = pre' ++ w ++ post')
    (hl : B.length ≤ maxInt) (hl' : B'.length ≤ maxInt) {m m' : σ}
    (h : unmarshalPass message field B pre.length m = .ok (pre.length + w.length, m')) :
    unmarshalPass message field B' pre'.length m = .ok (pre'.length + w.length, m') := by
  rw [unmarshalPass] at h ⊢
  obtain ⟨⟨fieldNum, wireType, j⟩, ht, hc⟩ := bind_eq_ok.mp h
  have hj := (readTag_returns message (Int.natCast_nonneg _)).of_ok ht
  dsimp only at hc hj
  have hjw : j ≤ pre.length + w.length := by
    revert hc
    split
    · exact fun hc => ((hs.returns hl ‹_› (by omega)).of_ok hc).1
    · intro hc
      obtain ⟨k, hk, hc⟩ := bind_eq_ok.mp hc
      obtain rfl : k = pre.length + w.length := by simp at hc; exact hc.1
      obtain ⟨wire, j', hr, hj'⟩ := skipField_readVarint_le hB hl hk
      obtain ⟨wire', hr'⟩ := readTag_readVarint message ht
      rw [hr] at hr'
      cases hr'
      exact hj'
  obtain ⟨u, r, rfl, rfl⟩ := exists_split_window hj.1.le hjw
  rw [readTag_window message (show B = pre ++ u ++ (r ++ post) by simp [hB])
    (show B' = pre' ++ u ++ (r ++ post') by simp [hB']) ht, ok_bind]
  dsimp only
  revert hc
  split
  · rename_i read hf
    intro hc
    subst hc
    have hf' := hs.window (show B = (pre ++ u) ++ r ++ post by simp [hB])
      (show B' = (pre' ++ u) ++ r ++ post' by simp [hB']) hl hl'
      (by simpa [Int.add_assoc] using hf)
    simp only [List.length_append, Nat.cast_add] at hf'
    rw [hf']
    simp [Int.add_assoc]
  · rename_i hf
    intro hc
    obtain ⟨k, hk, hc⟩ := bind_eq_ok.mp hc
    obtain ⟨rfl, rfl⟩ : k = pre.length + (u ++ r).length ∧ m = m' := by simpa using hc
    rw [hs.none hf]
    dsimp only
    rw [skipField_window hB hB' hl hl' hk]
    rfl

/-- A run of the loop over a prefix `x` that returns is the start of the run over `x ++ z`: the
same passes bring that run to the end of `x` with the same message. -/
theorem unmarshalLoop_prefix {x z : Bytes} (hl : (x ++ z).length ≤ maxInt) {fuel : Nat}
    {i : Int} {m m₁ : σ} (h0 : 0 ≤ i) (h : unmarshalLoop message field x fuel i m = .ok m₁)
    {G : Nat} (hG : ((x ++ z).length - i).toNat < G) :
    ∃ G', z.length < G' ∧ unmarshalLoop message field (x ++ z) G i m =
      unmarshalLoop message field (x ++ z) G' x.length m₁ := by
  have hxz : (x ++ z).length = x.length + z.length := List.length_append x z
  have hx : x.length ≤ maxInt := by omega
  induction fuel generalizing i m G with
  | zero => cases h
  | succ fuel ih =>
    rw [unmarshalLoop_succ] at h
    split_ifs at h with h1 h2
    · obtain ⟨⟨j, m'⟩, hp, hc⟩ := bind_eq_ok.mp h
      have hj := (unmarshalPass_returns hs hx h0 m).of_ok hp
      dsimp only at hj hc
      obtain ⟨pre, rest, hpr, hpre, hrest⟩ :=
        @exists_append_of_length x i.toNat (x.length - i.toNat) (by omega)
      obtain rfl : i = pre.length := by omega
      obtain ⟨w, post, rfl, rfl⟩ := @exists_split_window pre rest j (by omega) (by omega)
      obtain ⟨G, rfl⟩ : ∃ G', G = G' + 1 := ⟨G - 1, by omega⟩
      have hp' := unmarshalPass_window hs (show x = pre ++ w ++ post by simp [hpr])
        (show x ++ z = pre ++ w ++ (post ++ z) by simp [hpr]) hx hl hp
      rw [unmarshalLoop_succ, if_pos (by omega), hp', ok_bind]
      exact ih (by omega) hc (by omega)
    · obtain rfl : m = m₁ := by simpa using h
      exact ⟨G, by omega, by rw [show i = x.length by omega]⟩

/-- Once the loop has decoded `x` alone into `m₁`, its run over `x ++ w` ends as every run over
`x ++ w` from the end of `x` with `m₁` does. -/
theorem unmarshalLoop_after {x w : Bytes} {m₀ m₁ : σ} {r : Decode σ}
    (hl : (x ++ w).length ≤ maxInt)
    (hx : unmarshalLoop message field x (x.length + 1) 0 m₀ = .ok m₁)
    (hw : ∀ fuel, unmarshalLoop message field (x ++ w) (fuel + 1) x.length m₁ = r) :
    unmarshalLoop message field (x ++ w) ((x ++ w).length + 1) 0 m₀ = r := by
  obtain ⟨G, hG, e⟩ := unmarshalLoop_prefix hs hl le_rfl hx
    (show ((x ++ w).length - (0 : Int)).toNat < (x ++ w).length + 1 by omega)
  obtain ⟨G, rfl⟩ : ∃ G', G = G' + 1 := ⟨G - 1, by omega⟩
  rw [e, hw]

/-- A run of the loop over the part `s` after `pre` is the same after any other prefix: its
passes read only `s`. -/
theorem unmarshalLoop_shift {s : Bytes} (hl : (pre ++ s).length ≤ maxInt)
    (hl' : (pre' ++ s).length ≤ maxInt) {fuel G k : Nat} {m M : σ}
    (h : unmarshalLoop message field (pre ++ s) fuel (pre.length + k) m = .ok M)
    (hG : s.length - k < G) :
    unmarshalLoop message field (pre' ++ s) G (pre'.length + k) m = .ok M := by
  induction fuel generalizing k m G with
  | zero => cases h
  | succ fuel ih =>
    rw [unmarshalLoop_succ] at h
    split_ifs at h with h1 h2
    · obtain ⟨⟨j, m'⟩, hp, hc⟩ := bind_eq_ok.mp h
      have hj := (unmarshalPass_returns hs hl (by omega) m).of_ok hp
      dsimp only at hj hc
      obtain ⟨u, rest, rfl, hu, -⟩ := @exists_append_of_length s k (s.length - k)
        (by simp only [List.length_append, Nat.cast_add] at h1; omega)
      simp only [List.length_append, Nat.cast_add] at hj hG
      obtain ⟨w, v, rfl, rfl⟩ := @exists_split_window (pre ++ u) rest j
        (by simp only [List.length_append, Nat.cast_add]; omega)
        (by simp only [List.length_append, Nat.cast_add] at hj ⊢; omega)
      have hw : 0 < w.length := by simp only [List.length_append, Nat.cast_add] at hj; omega
      obtain ⟨G, rfl⟩ : ∃ G', G = G' + 1 := ⟨G - 1, by simp only [List.length_append] at hG; omega⟩
      have hp' := unmarshalPass_window hs
        (show pre ++ (u ++ (w ++ v)) = pre ++ u ++ w ++ v by simp)
        (show pre' ++ (u ++ (w ++ v)) = pre' ++ u ++ w ++ v by simp) hl hl'
        (by simpa [hu] using hp)
      rw [unmarshalLoop_succ, if_pos (by simp only [List.length_append, Nat.cast_add]; omega),
        show (pre'.length : Int) + k = (pre' ++ u).length by simp [hu], hp', ok_bind]
      have := @ih G (k + w.length) m' (by simpa [hu, Int.add_assoc] using hc)
        (by simp only [List.length_append] at hG ⊢; omega)
      simpa [hu, Int.add_assoc] using this
    · obtain rfl : m = M := by simpa using h
      obtain ⟨G, rfl⟩ : ∃ G', G = G' + 1 := ⟨G - 1, by omega⟩
      rw [show (pre'.length : Int) + k = (pre' ++ s).length by
        simp only [List.length_append, Nat.cast_add] at h1 h2 ⊢; omega]
      exact unmarshalLoop_end

/-- Inserting a field that the message's `switch` leaves to its `default` case at a field
boundary leaves what the loop decodes unchanged. -/
theorem unmarshalLoop_insert (f : WireField) (hf : 0 < f.fieldNum)
    (hdefault : ∀ dAtA wireType iNdEx m, field dAtA f.fieldNum wireType iNdEx m = none)
    {x z : Bytes} {m₀ m m₁ : σ} (hl : (x ++ f.encode ++ z).length ≤ maxInt)
    (hxz : unmarshalLoop message field (x ++ z) ((x ++ z).length + 1) 0 m₀ = .ok m)
    (hx : unmarshalLoop message field x (x.length + 1) 0 m₀ = .ok m₁) :
    unmarshalLoop message field (x ++ f.encode ++ z) ((x ++ f.encode ++ z).length + 1) 0 m₀ =
      .ok m := by
  have he := f.length_encode_pos
  simp only [List.length_append] at hl
  obtain ⟨G₁, -, e₁⟩ := unmarshalLoop_prefix hs
    (show (x ++ z).length ≤ maxInt by simp; omega) le_rfl hx
    (show ((x ++ z).length - (0 : Int)).toNat < (x ++ z).length + 1 by omega)
  obtain ⟨G₂, hG₂, e₂⟩ := unmarshalLoop_prefix hs
    (show (x ++ (f.encode ++ z)).length ≤ maxInt by simp; omega) le_rfl hx
    (show ((x ++ (f.encode ++ z)).length - (0 : Int)).toNat < (x ++ (f.encode ++ z)).length + 1 by
      omega)
  obtain ⟨G₃, rfl⟩ : ∃ G, G₂ = G + 1 := ⟨G₂ - 1, by omega⟩
  rw [e₁] at hxz
  rw [List.append_assoc x, e₂, ← List.append_assoc,
    f.unmarshalLoop_unknown (by simp; omega) hf (hdefault · · · m₁)]
  have := unmarshalLoop_shift hs (show (x ++ z).length ≤ maxInt by simp; omega)
    (show (x ++ f.encode ++ z).length ≤ maxInt by simp; omega)
    (show unmarshalLoop message field (x ++ z) G₁ (x.length + (0 : Nat)) m₁ = .ok m by
      simpa using hxz)
    (show z.length - 0 < G₃ by simp at hG₂; omega)
  simpa using this

end Cases

end Passes

end InjectiveSdk.Proto
