import InjectiveSdk.Go.Runtime
import Mathlib.Tactic.FinCases
import Mathlib.Tactic.IntervalCases

namespace InjectiveSdk.Go

/-- `strings.Split(s, sep)` for a separator of one byte: the pieces of `s` between its
occurrences, one more than there are occurrences. -/
def split (s : Bytes) (sep : UInt8) : List Bytes := s.splitOn sep

/-- `len(strings.TrimSpace(s)) == 0`: every rune decoded from the left is one `unicode.IsSpace`
accepts; a byte that starts no valid encoding decodes as `RuneError`, no space. -/
def trimSpaceEmpty : Bytes → Bool
  | [] => true
  | c :: s =>
    if c = 0x09 ∨ c = 0x0a ∨ c = 0x0b ∨ c = 0x0c ∨ c = 0x0d ∨ c = 0x20 then trimSpaceEmpty s
    else match s with
      | c₁ :: s =>
        if c = 0xc2 ∧ (c₁ = 0x85 ∨ c₁ = 0xa0) then trimSpaceEmpty s
        else match s with
          | c₂ :: s =>
            if c = 0xe1 ∧ c₁ = 0x9a ∧ c₂ = 0x80 ∨
                c = 0xe2 ∧ c₁ = 0x80 ∧ (0x80 ≤ c₂ ∧ c₂ ≤ 0x8a ∨ c₂ = 0xa8 ∨ c₂ = 0xa9 ∨ c₂ = 0xaf) ∨
                c = 0xe2 ∧ c₁ = 0x81 ∧ c₂ = 0x9f ∨ c = 0xe3 ∧ c₁ = 0x80 ∧ c₂ = 0x80 then
              trimSpaceEmpty s
            else false
          | [] => false
      | [] => false

example : trimSpaceEmpty [0x20, 0xe3, 0x80, 0x80, 0x09] = true := by decide

example : trimSpaceEmpty [0x20, 0xe3, 0x80] = false := by decide

/-- The code points of Unicode's White_Space property: the runes `unicode.IsSpace` accepts. -/
def spaceRunes : List Nat :=
  [0x09, 0x0a, 0x0b, 0x0c, 0x0d, 0x20, 0x85, 0xa0, 0x1680, 0x2000, 0x2001, 0x2002, 0x2003,
    0x2004, 0x2005, 0x2006, 0x2007, 0x2008, 0x2009, 0x200a, 0x2028, 0x2029, 0x202f, 0x205f,
    0x3000]

/-- Bytes made of white space alone: the UTF-8 encoding of a string of space runes. -/
def IsBlank (s : Bytes) : Prop :=
  ∃ cs : List Char, (∀ c ∈ cs, c.toNat ∈ spaceRunes) ∧ cs.flatMap String.utf8EncodeChar = s

section Blank
variable {s : Bytes}

theorem trimSpaceEmpty_space_append {c : Char} (hc : c.toNat ∈ spaceRunes) (rest : Bytes) :
    trimSpaceEmpty (String.utf8EncodeChar c ++ rest) = trimSpaceEmpty rest := by
  rw [← Char.ofNat_toNat c]
  generalize c.toNat = n at hc
  fin_cases hc <;> rw [trimSpaceEmpty.eq_def] <;> rfl

theorem IsBlank.space_append {n : Nat} (hn : n ∈ spaceRunes) (h : IsBlank s) :
    IsBlank (String.utf8EncodeChar (Char.ofNat n) ++ s) := by
  obtain ⟨cs, hcs, rfl⟩ := h
  refine ⟨Char.ofNat n :: cs, List.forall_mem_cons.mpr ⟨?_, hcs⟩, rfl⟩
  fin_cases hn <;> decide

/-- The third bytes the decoder accepts after `E2 80` are those of U+2000 to U+200A, U+2028,
U+2029 and U+202F. -/
theorem e2_80_spaceRune {c₂ : UInt8}
    (h : 0x80 ≤ c₂ ∧ c₂ ≤ 0x8a ∨ c₂ = 0xa8 ∨ c₂ = 0xa9 ∨ c₂ = 0xaf) :
    ∃ n ∈ spaceRunes, String.utf8EncodeChar (Char.ofNat n) = [0xe2, 0x80, c₂] := by
  rcases h with ⟨h1, h2⟩ | rfl | rfl | rfl
  · obtain ⟨⟨⟨k, hk⟩⟩⟩ := c₂
    change 128 ≤ k at h1
    change k ≤ 138 at h2
    refine ⟨0x2000 + (k - 128), ?_, ?_⟩
    · interval_cases k <;> decide
    · interval_cases k <;> rfl
  · exact ⟨0x2028, by decide, rfl⟩
  · exact ⟨0x2029, by decide, rfl⟩
  · exact ⟨0x202f, by decide, rfl⟩

/-- One step of the decoder: bytes it accepts start with the encoding of a space rune, and it
accepts what follows. -/
theorem trimSpaceEmpty_cons {c : UInt8} (h : trimSpaceEmpty (c :: s) = true) :
    ∃ n ∈ spaceRunes, ∃ rest, c :: s = String.utf8EncodeChar (Char.ofNat n) ++ rest ∧
      trimSpaceEmpty rest = true := by
  unfold trimSpaceEmpty at h
  split_ifs at h with h1
  · have e : c.toNat ∈ spaceRunes ∧ String.utf8EncodeChar (Char.ofNat c.toNat) = [c] := by
      rcases h1 with rfl | rfl | rfl | rfl | rfl | rfl <;> decide
    exact ⟨c.toNat, e.1, s, by rw [e.2]; rfl, h⟩
  split at h
  · split_ifs at h with h2
    · obtain ⟨rfl, rfl | rfl⟩ := h2
      · exact ⟨0x85, by decide, _, rfl, h⟩
      · exact ⟨0xa0, by decide, _, rfl, h⟩
    split at h
    · split_ifs at h with h3
      rcases h3 with ⟨rfl, rfl, rfl⟩ | ⟨rfl, rfl, h3⟩ | ⟨rfl, rfl, rfl⟩ | ⟨rfl, rfl, rfl⟩
      · exact ⟨0x1680, by decide, _, rfl, h⟩
      · obtain ⟨n, hn, he⟩ := e2_80_spaceRune h3
        exact ⟨n, hn, _, by rw [he]; rfl, h⟩
      · exact ⟨0x205f, by decide, _, rfl, h⟩
      · exact ⟨0x3000, by decide, _, rfl, h⟩
    · cases h
  · cases h

theorem isBlank_of_trimSpaceEmpty : ∀ s : Bytes, trimSpaceEmpty s = true → IsBlank s
  | [], _ => ⟨[], nofun, rfl⟩
  | c :: s, h =>
    have ⟨n, hn, rest, he, hr⟩ := trimSpaceEmpty_cons h
    have : rest.length < (c :: s).length := by
      rw [he, List.length_append, String.length_utf8EncodeChar]
      have := (Char.ofNat n).utf8Size_pos
      omega
    he ▸ (isBlank_of_trimSpaceEmpty rest hr).space_append hn
termination_by s => s.length

theorem trimSpaceEmpty_flatMap (cs : List Char) (h : ∀ c ∈ cs, c.toNat ∈ spaceRunes) :
    trimSpaceEmpty (cs.flatMap String.utf8EncodeChar) = true := by
  induction cs with
  | nil => rfl
  | cons c cs ih =>
    rw [List.flatMap_cons, trimSpaceEmpty_space_append (h c (List.mem_cons_self _ _))]
    exact ih fun c hc => h c (List.mem_cons_of_mem _ hc)

/-- The byte-level decoder is the spec: `len(strings.TrimSpace(s)) == 0` exactly when `s` is the
UTF-8 encoding of a string of space runes. -/
theorem trimSpaceEmpty_iff_isBlank : trimSpaceEmpty s = true ↔ IsBlank s :=
  ⟨isBlank_of_trimSpaceEmpty s, fun ⟨cs, hcs, he⟩ => he ▸ trimSpaceEmpty_flatMap cs hcs⟩

end Blank

section Split
variable {sep : UInt8} {s l a b : Bytes}

theorem split_ne_nil (s : Bytes) (sep : UInt8) : split s sep ≠ [] := List.splitOnP_ne_nil _ _

theorem not_mem_of_mem_split (hl : l ∈ split s sep) : sep ∉ l := by
  induction s generalizing l with
  | nil =>
    obtain rfl : l = [] := by simpa [split] using hl
    exact List.not_mem_nil _
  | cons c s ih =>
    obtain ⟨p, ps, hps⟩ := List.exists_cons_of_ne_nil (split_ne_nil s sep)
    have hmem : ∀ x, x ∈ p :: ps → sep ∉ x := fun x hx => ih (hps ▸ hx)
    unfold split List.splitOn at hl
    rw [List.splitOnP_cons] at hl
    split_ifs at hl with hc
    · rcases List.mem_cons.mp hl with rfl | hl
      · exact List.not_mem_nil _
      · exact ih hl
    · rw [show s.splitOnP (· == sep) = p :: ps from hps] at hl
      rcases List.mem_cons.mp hl with rfl | hl
      · rintro (_ | ⟨_, h⟩)
        · exact hc (beq_self_eq_true _)
        · exact hmem p (List.mem_cons_self _ _) h
      · exact hmem l (List.mem_cons_of_mem _ hl)

theorem split_eq_pair_iff : split s sep = [a, b] ↔ s = a ++ sep :: b ∧ sep ∉ a ∧ sep ∉ b := by
  constructor
  · intro h
    refine ⟨?_, not_mem_of_mem_split (h ▸ List.mem_cons_self _ _),
      not_mem_of_mem_split (h ▸ List.mem_cons_of_mem _ (List.mem_cons_self _ _))⟩
    have : [sep].intercalate (s.splitOn sep) = s := List.intercalate_splitOn s sep
    rw [show s.splitOn sep = [a, b] from h] at this
    simpa [List.intercalate] using this.symm
  · rintro ⟨rfl, ha, hb⟩
    have : ([sep].intercalate [a, b]).splitOn sep = [a, b] :=
      List.splitOn_intercalate [a, b] sep (by simp [ha, hb]) (by simp)
    simpa [List.intercalate] using this

end Split

end InjectiveSdk.Go
