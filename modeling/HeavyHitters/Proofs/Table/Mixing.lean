import HeavyHitters.Argument
import HeavyHitters.Table.Mixing
import Mathlib.Data.Int.ModEq
import Mathlib.Data.Set.Function
import Mathlib.Data.UInt

/-!
# Mixing loses nothing

The mixture of a word is made in five steps, and each of them can be undone. Where the upper bits of a word
are added to its lower bits, the upper ones stay as they are, and there are fewer of them than there are
lower ones, so that adding them once more takes them away again. A product with an odd number is undone by
the product with its inverse modulo `2 ^ 64`.

A key need not be a word. It is reduced to its lower 64 bits first, and this is all that is lost of it. So
different items of a sketch, which are all words with a sign, have different mixtures, and it is only because
a table has fewer slots than there are words that they may have the same home.

## What is proved

* `foldUpper_involutive`, `bijective_mul`: each step can be undone.
* `mixWord_bijective`: and so can all five.
* `ofInt_eq_ofInt_iff`, `ofInt_toNat`: what keys are reduced to.
* `mix_separates`: which keys have the same mixture, and that every word is the mixture of one.
-/

namespace HeavyHitters

/-! ### Words -/

/-- The upper bits are shifted out of the word when they are shifted once more. -/
private theorem shiftRight_shiftRight_upper (w : UInt64) : w >>> 33 >>> 33 = 0 := by
  have hlt : w.toNat < 2 ^ 64 := w.toNat_lt
  rw [← UInt64.toNat_inj]
  simp only [UInt64.toNat_shiftRight, UInt64.reduceToNat, Nat.shiftRight_eq_div_pow, Nat.reduceMod,
    Nat.reducePow]
  omega

/-- Adding the upper bits twice changes nothing. -/
theorem foldUpper_involutive : Function.Involutive foldUpper := by
  intro w
  calc foldUpper (foldUpper w)
      = w ^^^ w >>> 33 ^^^ (w >>> 33 ^^^ w >>> 33 >>> 33) := by
        rw [foldUpper, foldUpper, UInt64.shiftRight_xor]
    _ = w ^^^ (w >>> 33 ^^^ w >>> 33) := by
        rw [shiftRight_shiftRight_upper, UInt64.xor_zero, UInt64.xor_assoc]
    _ = w := by rw [UInt64.xor_self, UInt64.xor_zero]

/-- A product with a word that has an inverse can be undone. -/
theorem bijective_mul {c d : UInt64} (h : c * d = 1) : Function.Bijective fun w : UInt64 => w * c :=
  (Units.mkOfMulEqOne c d h).mulRight_bijective

/-- **Mixing a word can be undone.** -/
theorem mixWord_bijective : Function.Bijective mixWord := by
  have hfold : Function.Bijective foldUpper := foldUpper_involutive.bijective
  have hfirst : (0xFF51AFD7ED558CCD : UInt64) * 0x4F74430C22A54005 = 1 := by decide
  have hsecond : (0xC4CEB9FE1A85EC53 : UInt64) * 0x9CB4B2F8129337DB = 1 := by decide
  exact hfold.comp <| (bijective_mul hsecond).comp <| hfold.comp <| (bijective_mul hfirst).comp hfold

/-! ### Keys -/

/-- Keys are reduced to the same word exactly if they agree in their lower 64 bits. -/
theorem ofInt_eq_ofInt_iff {a b : ℤ} : UInt64.ofInt a = UInt64.ofInt b ↔ a ≡ b [ZMOD 2 ^ 64] := by
  rw [UInt64.ofInt, UInt64.ofInt, UInt64.ofNat_eq_iff_mod_eq_toNat, UInt64.toNat_ofNat', Int.ModEq]
  omega

/-- A word is what it is reduced to itself. -/
theorem ofInt_toNat (w : UInt64) : UInt64.ofInt w.toNat = w := by
  have hlt : w.toNat < 2 ^ 64 := w.toNat_lt
  rw [UInt64.ofInt, UInt64.ofNat_eq_iff_mod_eq_toNat]
  omega

theorem mix_eq_iff {a b : ℤ} : mix a = mix b ↔ a ≡ b [ZMOD 2 ^ 64] := by
  rw [mix_eq, mix_eq, mixWord_bijective.injective.eq_iff, ofInt_eq_ofInt_iff]

theorem mix_surjective : Function.Surjective mix := by
  intro w
  obtain ⟨v, rfl⟩ := mixWord_bijective.surjective w
  exact ⟨v.toNat, by rw [mix_eq, ofInt_toNat]⟩

/-- **Mixing is a bijection of words, and keeps apart all keys that differ in their lower 64 bits**, whatever
their sign and size. Every word is a mixture, and no two items of a sketch have the same. -/
theorem mix_separates :
    Function.Bijective mixWord ∧ (∀ a b : ℤ, mix a = mix b ↔ a ≡ b [ZMOD 2 ^ 64]) ∧
      Function.Surjective mix ∧ Set.InjOn mix {item | IsWord item} := by
  refine ⟨mixWord_bijective, fun a b => mix_eq_iff, mix_surjective, fun a ha b hb hsame => ?_⟩
  have hmod : a % 2 ^ 64 = b % 2 ^ 64 := mix_eq_iff.mp hsame
  simp only [Set.mem_ofPred_eq, IsWord, minWord, maxWord] at ha hb
  omega

/-- The least key below zero and the greatest word have the same mixture. -/
example : mix (-1) = mix (2 ^ 64 - 1) := by decide +kernel

end HeavyHitters
