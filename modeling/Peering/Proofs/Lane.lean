import Mathlib.Data.FinEnum
import Mathlib.Data.Int.CardIntervalMod
import Mathlib.Data.Set.Card
import Peering.Lane

/-!
# Balance of the lanes

Each round of the mixing is injective on the 32-bit words, so all of it is a
permutation of them. Keys therefore fall on the lanes just as the numbers below the
number of words do, by their remainders.

Main statement: over all keys, each lane is chosen equally often, give or take one.
-/

namespace Peering

namespace Lane

/-! ## The rounds of the mixing -/

/-- A word that is xored with itself, shifted to the right. -/
def xorShift (shift word : UInt32) : UInt32 :=
  word ^^^ (word >>> shift)

/-- The mixing is three xor-shifts with two multiplications in between. -/
theorem mix_eq (key : UInt32) :
    mix key = xorShift 16 (xorShift 13 (xorShift 16 key * 0x85ebca6b) * 0xc2b2ae35) :=
  rfl

/-- Only zero stays as it is when it is shifted. -/
theorem eq_zero_of_shiftRight {shift word : UInt32} (hshift : 0 < shift.toNat % 32)
    (hfixed : word >>> shift = word) : word = 0 := by
  have hdiv : word.toNat / 2 ^ (shift.toNat % 32) = word.toNat := by
    rw [← Nat.shiftRight_eq_div_pow, ← UInt32.toNat_shiftRight, hfixed]
  have hpow : 1 < 2 ^ (shift.toNat % 32) := Nat.one_lt_two_pow (by omega)
  have hzero : word.toNat = 0 := by
    by_contra hpos
    have hless := Nat.div_lt_self (Nat.pos_of_ne_zero hpos) hpow
    omega
  exact UInt32.toNat_inj.mp hzero

/--
Two words with the same xor-shift differ in a word that is its own shift. So the
shift may be any but none at all.
-/
theorem xorShift_injective {shift : UInt32} (hshift : 0 < shift.toNat % 32) :
    Function.Injective (xorShift shift) := by
  intro first second heq
  have hmixed : first ^^^ (first >>> shift) = second ^^^ (second >>> shift) := heq
  have hfixed : (first ^^^ second) >>> shift = first ^^^ second := by
    rw [UInt32.shiftRight_xor]
    calc (first >>> shift) ^^^ (second >>> shift)
        = (first ^^^ (first ^^^ (first >>> shift))) ^^^ (second >>> shift) := by
          rw [← UInt32.xor_assoc first, UInt32.xor_self, UInt32.zero_xor]
      _ = first ^^^ second := by
          rw [hmixed, ← UInt32.xor_assoc, UInt32.xor_assoc, UInt32.xor_self, UInt32.xor_zero]
  exact UInt32.xor_eq_zero_iff.mp (eq_zero_of_shiftRight hshift hfixed)

/-- A factor with an inverse can be divided out. -/
theorem mul_injective (factor inverse : UInt32) (hinverse : factor * inverse = 1) :
    Function.Injective fun word : UInt32 => word * factor := by
  refine Function.LeftInverse.injective (g := fun word => word * inverse) fun word => ?_
  calc word * factor * inverse
      = word * (factor * inverse) := UInt32.mul_assoc _ _ _
    _ = word := by rw [hinverse, UInt32.mul_one]

theorem mix_injective : Function.Injective mix := by
  have hfirst := mul_injective 0x85ebca6b 0xa5cb9243 (by decide)
  have hsecond := mul_injective 0xc2b2ae35 0x7ed1b41d (by decide)
  have h16 : Function.Injective (xorShift 16) := xorShift_injective (by decide)
  have h13 : Function.Injective (xorShift 13) := xorShift_injective (by decide)
  intro first second heq
  rw [mix_eq, mix_eq] at heq
  exact h16 (hfirst (h13 (hsecond (h16 heq))))

theorem mix_bijective : Function.Bijective mix :=
  Finite.injective_iff_bijective.mp mix_injective

/-! ## Keys on a lane -/

theorem forKey_lt {lanes : Nat} (hlanes : 0 < lanes) (key : UInt32) :
    forKey key lanes < lanes := by
  rw [forKey, Nat.max_eq_left hlanes]
  exact Nat.mod_lt _ hlanes

theorem forKey_eq_iff {lanes lane : Nat} (hlane : lane < lanes) (key : UInt32) :
    forKey key lanes = lane ↔ (mix key).toNat ≡ lane [MOD lanes] := by
  rw [forKey, Nat.max_eq_left (by omega), Nat.ModEq, Nat.mod_eq_of_lt hlane]

/-- The mixed keys of a lane are the numbers of words with one remainder. -/
theorem image_forKey {lanes lane : Nat} (hlane : lane < lanes) :
    (fun key => (mix key).toNat) '' {key | forKey key lanes = lane} =
      ((Finset.range UInt32.size).filter (· ≡ lane [MOD lanes]) : Finset Nat) := by
  ext number
  simp only [Set.mem_image, Set.mem_ofPred_eq, forKey_eq_iff hlane, Finset.coe_filter,
    Finset.mem_range]
  constructor
  · rintro ⟨key, hkey, rfl⟩
    exact ⟨(mix key).toNat_lt, hkey⟩
  · rintro ⟨hbound, hkey⟩
    obtain ⟨key, hmixed⟩ := mix_bijective.surjective (UInt32.ofNat number)
    have htoNat : (mix key).toNat = number := by
      rw [hmixed]
      exact UInt32.toNat_ofNat_of_lt' hbound
    exact ⟨key, htoNat ▸ hkey, htoNat⟩

/-- What does not come out even goes to the first lanes, one key each. -/
theorem ncard_forKey {lanes lane : Nat} (hlane : lane < lanes) :
    {key | forKey key lanes = lane}.ncard =
      UInt32.size / lanes + if lane < UInt32.size % lanes then 1 else 0 := by
  have hinjective : Function.Injective fun key => (mix key).toNat :=
    fun _ _ heq => mix_injective (UInt32.toNat_inj.mp heq)
  rw [← Set.ncard_image_of_injective _ hinjective, image_forKey hlane, Set.ncard_coe_finset,
    ← Nat.count_eq_card_filter_range, Nat.count_modEq_card _ (by omega), Nat.mod_eq_of_lt hlane]

/-- If something is left over, rounding up gives one more than rounding down. -/
theorem div_add_one_eq {total parts : Nat} (hparts : 0 < parts) (hrest : 0 < total % parts) :
    total / parts + 1 = (total + (parts - 1)) / parts := by
  have hsplit : parts * (total / parts) + total % parts = total := Nat.div_add_mod total parts
  have hless : total % parts < parts := Nat.mod_lt _ hparts
  have hmul : (total / parts + 1) * parts = parts * (total / parts) + parts := by
    rw [Nat.mul_comm, Nat.mul_succ]
  refine ((Nat.div_eq_iff hparts).mpr ⟨?_, ?_⟩).symm
  · omega
  · omega

/--
For every number of lanes the mixing is a permutation of the words, and every key
has a lane. Over all keys each lane is chosen by as many as there are words to a
lane, rounded up for the first lanes and rounded down for the others.
-/
theorem forKey_balanced (lanes : Nat) (hlanes : 1 ≤ lanes) :
    Function.Bijective mix ∧ (∀ key, forKey key lanes < lanes) ∧
    ∀ lane < lanes, {key | forKey key lanes = lane}.ncard =
      if lane < UInt32.size % lanes then (UInt32.size + (lanes - 1)) / lanes
      else UInt32.size / lanes := by
  refine ⟨mix_bijective, forKey_lt hlanes, fun lane hlane => ?_⟩
  rw [ncard_forKey hlane]
  split
  · exact div_add_one_eq hlanes (by omega)
  · rfl

/-- Seven lanes do not share the words evenly: four of them have one key more. -/
theorem forKey_balanced_of_seven :
    1 ≤ 7 ∧ UInt32.size % 7 = 4 ∧ {key | forKey key 7 = 3}.ncard = 613566757 ∧
      {key | forKey key 7 = 4}.ncard = 613566756 := by
  obtain ⟨_, _, hshare⟩ := forKey_balanced 7 (by decide)
  have hthird := hshare 3 (by decide)
  have hfourth := hshare 4 (by decide)
  rw [if_pos (by decide)] at hthird
  rw [if_neg (by decide)] at hfourth
  exact ⟨by decide, by decide, hthird, hfourth⟩

end Lane

end Peering
