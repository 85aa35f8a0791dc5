import Mathlib
import RepoAtlas.Palette

/-! # The hash of a cluster

A text stands for a number with its characters as digits to the base 31. The hash agrees with that
number up to multiples of 2^32: read as a word of 32 bits it is what arithmetic of such words makes of
the text. It is the number itself as long as nothing leaves the range of words on the way, and as it
is never cut it may leave that range, but not by more than the range once for every character.
-/

namespace RepoAtlas.Palette

/-- The code points of a text. -/
def codes (text : String) : List Nat := text.toList.map Char.toNat

/-- The number that has these digits to the base 31. -/
def polynomial (codes : List Nat) : Nat :=
  ∑ i ∈ Finset.range codes.length, codes.getD i 0 * 31 ^ (codes.length - 1 - i)

/-- The same number computed in signed words of 32 bits. -/
def wordHash (codes : List Nat) : Int32 := codes.foldl (fun h code => 31 * h + Int32.ofNat code) 0

/-- The hash of code points. -/
def hashOf (codes : List Nat) : Int :=
  codes.foldl (fun (h : Int) (code : Nat) => code + (signedWord (signedWord h * 32) - h)) 0

/-- How a hash belongs to the code points of a text. -/
structure Hashes (codes : List Nat) (h : Int) : Prop where
  congruent : h ≡ polynomial codes [ZMOD 2 ^ 32]
  word : signedWord h = (wordHash codes).toInt
  uncut : (∀ start, start <+: codes → start ≠ codes → 32 * polynomial start < 2 ^ 31) →
    h = polynomial codes
  bounded : |h| ≤ codes.length * (2 ^ 31 + 0x10FFFF)

theorem hash_eq_hashOf (cluster : String) : hash cluster = hashOf (codes cluster) := by
  rw [hashOf, codes, List.foldl_map]
  rfl

/-! ## One more character -/

section Step

variable {codes : List Nat} {code : Nat}

theorem polynomial_concat :
    polynomial (codes ++ [code]) = 31 * polynomial codes + code := by
  have last : (codes ++ [code]).getD codes.length 0 = code := by simp
  rw [polynomial, List.length_append, List.length_singleton, Finset.sum_range_succ, last,
    Nat.add_sub_cancel, Nat.sub_self, pow_zero, mul_one, polynomial, Finset.mul_sum]
  refine congrArg (· + code) (Finset.sum_congr rfl fun i inside => ?_)
  rw [Finset.mem_range] at inside
  have behind : codes.length - i = codes.length - 1 - i + 1 := by omega
  rw [List.getD_append _ _ _ _ inside, behind, pow_succ]
  ring

theorem hashOf_concat :
    hashOf (codes ++ [code]) =
      code + (signedWord (signedWord (hashOf codes) * 32) - hashOf codes) := by
  rw [hashOf, List.foldl_append]
  rfl

theorem wordHash_concat : wordHash (codes ++ [code]) = 31 * wordHash codes + Int32.ofNat code := by
  rw [wordHash, List.foldl_append]
  rfl

end Step

/-! ## Words -/

theorem signedWord_modEq (n : Int) : signedWord n ≡ n [ZMOD 2 ^ 32] := Int.bmod_emod

theorem signedWord_eq_iff {m n : Int} : signedWord m = signedWord n ↔ m ≡ n [ZMOD 2 ^ 32] := by
  constructor
  · intro same
    exact (signedWord_modEq m).symm.trans (same ▸ signedWord_modEq n)
  · intro same
    rw [signedWord, signedWord, ← Int.emod_bmod m, ← Int.emod_bmod n]
    exact congrArg (Int.bmod · _) same

theorem signedWord_of_small {n : Int} (nonneg : 0 ≤ n) (small : n < 2 ^ 31) : signedWord n = n :=
  Int.bmod_eq_of_le (by omega) (by omega)

theorem abs_signedWord_le (n : Int) : |signedWord n| ≤ 2 ^ 31 := by
  have low : -(4294967296 / 2) ≤ signedWord n := Int.le_bmod (by decide)
  have high : signedWord n < (4294967296 + 1) / 2 := Int.bmod_lt (by decide)
  rw [abs_le]
  omega

/-! ## The hash -/

section Hash

variable (codes : List Nat)

/-- What is cut off is a multiple of 2^32 in every step. -/
theorem hashOf_modEq : hashOf codes ≡ polynomial codes [ZMOD 2 ^ 32] := by
  induction codes using List.reverseRecOn with
  | nil => rfl
  | append_singleton codes code before =>
      have shifted : signedWord (signedWord (hashOf codes) * 32) ≡ hashOf codes * 32 [ZMOD 2 ^ 32] :=
        (signedWord_modEq _).trans ((signedWord_modEq _).mul_right 32)
      rw [hashOf_concat, polynomial_concat]
      calc (code : Int) + (signedWord (signedWord (hashOf codes) * 32) - hashOf codes)
          ≡ code + (hashOf codes * 32 - hashOf codes) [ZMOD 2 ^ 32] :=
            (shifted.sub_right _).add_left _
        _ = 31 * hashOf codes + code := by ring
        _ ≡ 31 * polynomial codes + code [ZMOD 2 ^ 32] := (before.mul_left 31).add_right _
        _ = ((31 * polynomial codes + code : Nat) : Int) := by push_cast; rfl

theorem toInt_wordHash : (wordHash codes).toInt = signedWord (polynomial codes) := by
  induction codes using List.reverseRecOn with
  | nil => simp [wordHash, polynomial, signedWord]
  | append_singleton codes code before =>
      have step : (wordHash (codes ++ [code])).toInt =
          signedWord (signedWord (31 * (wordHash codes).toInt) + signedWord code) := by
        rw [wordHash_concat, Int32.toInt_add, Int32.toInt_mul, Int32.toInt_ofNat']
        rfl
      rw [step, before, polynomial_concat, signedWord_eq_iff]
      push_cast
      exact ((signedWord_modEq _).trans ((signedWord_modEq _).mul_left 31)).add (signedWord_modEq _)

/-- As long as the number before the last character leaves room for five more bits, nothing is cut. -/
theorem hashOf_eq_polynomial
    (room : ∀ start, start <+: codes → start ≠ codes → 32 * polynomial start < 2 ^ 31) :
    hashOf codes = polynomial codes := by
  induction codes using List.reverseRecOn with
  | nil => rfl
  | append_singleton codes code before =>
      have shorter : ∀ start, start <+: codes → start ≠ codes ++ [code] := by
        intro start within same
        have length := within.length_le
        rw [same, List.length_append, List.length_singleton] at length
        omega
      have own := room codes (List.prefix_append _ _) (shorter codes List.prefix_rfl)
      have known := before fun start within _ =>
        room start (within.trans (List.prefix_append _ _)) (shorter start within)
      have small : signedWord (polynomial codes) = polynomial codes :=
        signedWord_of_small (by omega) (by omega)
      rw [hashOf_concat, polynomial_concat, known, small,
        signedWord_of_small (by omega) (by omega)]
      push_cast
      ring

theorem abs_hashOf_le (valid : ∀ code ∈ codes, code ≤ 0x10FFFF) :
    |hashOf codes| ≤ codes.length * (2 ^ 31 + 0x10FFFF) := by
  induction codes using List.reverseRecOn with
  | nil => simp [hashOf]
  | append_singleton codes code before =>
      have known := before fun other member => valid other (List.mem_append_left _ member)
      have last : (code : Int) ≤ 0x10FFFF := by exact_mod_cast valid code (by simp)
      have cut := abs_signedWord_le (signedWord (hashOf codes) * 32)
      rw [hashOf_concat, List.length_append, List.length_singleton]
      rw [abs_le] at known cut ⊢
      push_cast
      constructor <;> linarith

end Hash

/-- The hash of a cluster is the number that its characters write to the base 31, as far as words of
    32 bits tell numbers apart, and exactly so while words can hold it. -/
theorem hash_hashes (cluster : String) : Hashes (codes cluster) (hash cluster) := by
  have valid : ∀ code ∈ codes cluster, code ≤ 0x10FFFF := by
    intro code member
    obtain ⟨c, -, rfl⟩ := List.mem_map.mp member
    have scalar := c.valid
    simp only [UInt32.isValidChar, Nat.isValidChar] at scalar
    change c.val.toNat ≤ _
    omega
  rw [hash_eq_hashOf]
  exact {
    congruent := hashOf_modEq _
    word := by rw [toInt_wordHash, signedWord_eq_iff]; exact hashOf_modEq _
    uncut := hashOf_eq_polynomial _
    bounded := abs_hashOf_le _ valid }

example : polynomial (codes "src") = 114148 ∧ hash "src" = 114148 := by
  decide +kernel

end RepoAtlas.Palette
