import Mathlib
import CacheModel.Proofs.Draws

/-!
# The period of the shift register

Read a word of 32 bits as a polynomial over the field of two elements, the highest bit first: bit
`31 - i` is the coefficient of `x ^ i`.  Then a step of the register multiplies by `x`, and where
the coefficient of `x ^ 31` falls out the taps are what is left of `x ^ 32`.  So the register that
starts with the polynomial `1` runs through the powers of `x`, and from any other word `u` it runs
through the products of `u` with these.

Products make the powers quick to compute by repeated squaring.  The power `2 ^ 32 - 1` is `1` again,
and for no prime divisor `p` of this number is the power `(2 ^ 32 - 1) / p` one.  Hence the powers
come round after exactly `2 ^ 32 - 1` steps.  There are as many words other than zero, so that every
one of them is a power of `x` and the register comes round after as many steps from any of them.
That the taps form a primitive polynomial is not assumed anywhere.
-/

namespace CacheModel

open Function

namespace Lfsr

/-! ## Words as polynomials -/

/-- The coefficient of `x ^ i` in a word. -/
def coeff (u : UInt32) (i : ℕ) : Bool :=
  u.toBitVec.getMsbD i

theorem eq_of_coeff {u v : UInt32} (h : ∀ i < 32, coeff u i = coeff v i) : u = v :=
  UInt32.toBitVec_inj.mp (BitVec.eq_of_getMsbD_eq h)

theorem coeff_of_le (u : UInt32) {i : ℕ} (h : 32 ≤ i) : coeff u i = false :=
  BitVec.getMsbD_of_ge _ _ h

@[simp] theorem coeff_zero (i : ℕ) : coeff 0 i = false := by
  simp [coeff]

@[simp] theorem coeff_xor (u v : UInt32) (i : ℕ) :
    coeff (u ^^^ v) i = (coeff u i ^^ coeff v i) := by
  simp [coeff]

/-- The polynomial `1`. -/
def unit : UInt32 := 0x80000000

/-- The coefficient of the highest power is the bit that falls out. -/
theorem coeff_last (u : UInt32) : coeff u 31 = decide (u.toNat % 2 = 1) := by
  simp [coeff, BitVec.getMsbD, BitVec.getLsbD, Nat.testBit_zero]

theorem coeff_unit (i : ℕ) : coeff unit i = decide (i = 0) := by
  by_cases h : i < 32
  · revert i
    decide
  · rw [coeff_of_le _ (by omega), eq_comm, decide_eq_false (by omega)]

/-! ## One step -/

/-- The word that a register holds one step after it held `u`. -/
def turn (u : UInt32) : UInt32 :=
  (advance ⟨u⟩).reg

theorem turn_eq (u : UInt32) : turn u = (u >>> 1) ^^^ if coeff u 31 then taps else 0 := by
  have hlow : u &&& 1 = if coeff u 31 then 1 else 0 := by
    apply UInt32.toNat_inj.mp
    rw [UInt32.toNat_and, UInt32.toNat_one, Nat.and_one_is_mod, coeff_last]
    rcases Nat.mod_two_eq_zero_or_one u.toNat with h | h <;> simp [h]
  rw [turn, advance, hlow]
  split <;> simp

theorem coeff_turn_zero (u : UInt32) : coeff (turn u) 0 = coeff u 31 := by
  have hshift : coeff (u >>> 1) 0 = false := by simp [coeff, BitVec.getMsbD_ushiftRight]
  have htaps : coeff taps 0 = true := by decide
  rw [turn_eq, coeff_xor, hshift, Bool.false_xor]
  cases coeff u 31 <;> simp [htaps]

theorem coeff_turn_succ (u : UInt32) {i : ℕ} (h : i + 1 < 32) :
    coeff (turn u) (i + 1) = (coeff u i ^^ (coeff u 31 && coeff taps (i + 1))) := by
  have hshift : coeff (u >>> 1) (i + 1) = coeff u i := by
    simp [coeff, BitVec.getMsbD_ushiftRight, h]
  rw [turn_eq, coeff_xor, hshift]
  cases coeff u 31 <;> simp

@[simp] theorem turn_zero : turn 0 = 0 := rfl

/-- Steps are linear. -/
theorem turn_xor (u v : UInt32) : turn (u ^^^ v) = turn u ^^^ turn v := by
  refine eq_of_coeff fun i hi => ?_
  cases i with
  | zero => simp only [coeff_turn_zero, coeff_xor]
  | succ i =>
    simp only [coeff_turn_succ _ hi, coeff_xor, Bool.and_xor_distrib_right]
    grind

/-! ## Products -/

/-- The product of `u` and `v` by Horner's rule, after the `n` highest powers in `u`. -/
def times (u v : UInt32) : ℕ → UInt32
  | 0 => 0
  | n + 1 => (if coeff u (31 - n) then v else 0) ^^^ turn (times u v n)

/-- The powers in `u` that have been read stand at the front. -/
theorem coeff_times_unit (u : UInt32) {n : ℕ} (hn : n ≤ 32) {i : ℕ} (hi : i < 32) :
    coeff (times u unit n) i = coeff u (32 - n + i) := by
  induction n generalizing i with
  | zero => rw [times, coeff_zero, coeff_of_le u (by omega)]
  | succ n ih =>
    -- Nothing has come as far as the highest power before the last step is taken.
    have htop : coeff (times u unit n) 31 = false := by
      rw [ih (by omega) (by omega), coeff_of_le u (by omega)]
    have hlead : coeff (if coeff u (31 - n) then unit else 0) i =
        (coeff u (31 - n) && decide (i = 0)) := by
      cases coeff u (31 - n) <;> simp [coeff_unit]
    have hindex : 32 - (n + 1) = 31 - n := by omega
    rw [times, coeff_xor, hlead, hindex]
    cases i with
    | zero => simp [coeff_turn_zero, htop]
    | succ i =>
      have hnext : 32 - n + i = 31 - n + (i + 1) := by omega
      simp [coeff_turn_succ _ hi, htop, ih (show n ≤ 32 by omega) (show i < 32 by omega), hnext]

theorem times_unit (u : UInt32) : times u unit 32 = u := by
  refine eq_of_coeff fun i hi => ?_
  rw [coeff_times_unit u le_rfl hi, Nat.sub_self, Nat.zero_add]

theorem times_turn (u v : UInt32) (n : ℕ) : times u (turn v) n = turn (times u v n) := by
  induction n with
  | zero => rw [times, times, turn_zero]
  | succ n ih => rw [times, times, ih, turn_xor, apply_ite turn, turn_zero]

/-- As many steps from `u` as lead from one to a power of `x` multiply `u` by this power. -/
theorem times_iterate (u : UInt32) (n : ℕ) : times u (turn^[n] unit) 32 = turn^[n] u := by
  induction n with
  | zero => exact times_unit u
  | succ n ih => rw [iterate_succ_apply', iterate_succ_apply', times_turn, ih]

/-! ## Powers -/

/-- The power of `x` with an exponent of at most `k` bits, by repeated squaring. -/
def power : ℕ → ℕ → UInt32
  | 0, _ => unit
  | k + 1, n =>
    let half := power k (n / 2)
    let square := times half half 32
    if n % 2 = 1 then turn square else square

theorem power_eq_iterate {k n : ℕ} (h : n < 2 ^ k) : power k n = turn^[n] unit := by
  induction k generalizing n with
  | zero =>
    obtain rfl : n = 0 := by omega
    rfl
  | succ k ih =>
    have hsquare : times (power k (n / 2)) (power k (n / 2)) 32 = turn^[n / 2 + n / 2] unit := by
      rw [ih (by omega), times_iterate, ← iterate_add_apply]
    rw [power, hsquare]
    split
    · next hodd =>
      have hsum : (n / 2 + n / 2).succ = n := by omega
      rw [← iterate_succ_apply' turn, hsum]
    · next heven =>
      have hsum : n / 2 + n / 2 = n := by omega
      rw [hsum]

/-! ## The period of the powers -/

/-- A period that no prime divisor can be taken from is the least one. -/
theorem minimalPeriod_eq_of_prime {α : Type*} {f : α → α} {a : α} {n : ℕ}
    (hperiod : IsPeriodicPt f n a)
    (hprime : ∀ p, p.Prime → p ∣ n → ¬ IsPeriodicPt f (n / p) a) : minimalPeriod f a = n := by
  obtain ⟨m, hm⟩ := hperiod.minimalPeriod_dvd
  by_contra hne
  have hone : m ≠ 1 := by
    rintro rfl
    exact hne (by rw [hm, Nat.mul_one])
  obtain ⟨p, hp, k, rfl⟩ := Nat.exists_prime_and_dvd hone
  have hdvd : p ∣ n := ⟨minimalPeriod f a * k, by rw [hm]; ring⟩
  have hquot : n / p = minimalPeriod f a * k :=
    Nat.div_eq_of_eq_mul_right hp.pos (by rw [hm]; ring)
  exact hprime p hp hdvd (hquot ▸ (isPeriodicPt_minimalPeriod f a).mul_const k)

theorem mem_of_prime_of_dvd {p : ℕ} (hp : p.Prime) (h : p ∣ 2 ^ 32 - 1) :
    p ∈ [3, 5, 17, 257, 65537] := by
  have hfactors : 2 ^ 32 - 1 = [3, 5, 17, 257, 65537].prod := by norm_num
  have hprimes : ∀ q ∈ [3, 5, 17, 257, 65537], Nat.Prime q := by norm_num
  exact mem_list_primes_of_dvd_prod hp.prime (fun q hq => (hprimes q hq).prime) (hfactors ▸ h)

theorem minimalPeriod_unit : minimalPeriod turn unit = 2 ^ 32 - 1 := by
  have hiff : ∀ n < 2 ^ 32, (IsPeriodicPt turn n unit ↔ power 32 n = unit) := by
    intro n hn
    rw [power_eq_iterate hn, IsPeriodicPt, IsFixedPt]
  -- Each of these powers takes thirty-two squarings.
  have hcycle : power 32 (2 ^ 32 - 1) = unit := by decide +kernel
  have hless : ∀ p ∈ [3, 5, 17, 257, 65537], power 32 ((2 ^ 32 - 1) / p) ≠ unit := by
    decide +kernel
  refine minimalPeriod_eq_of_prime ((hiff _ (by norm_num)).mpr hcycle) fun p hp hdvd => ?_
  have hquot := Nat.div_le_self (2 ^ 32 - 1) p
  rw [hiff _ (by omega)]
  exact hless p (mem_of_prime_of_dvd hp hdvd)

theorem unit_mem_periodicPts : unit ∈ periodicPts turn := by
  rw [← minimalPeriod_pos_iff_mem_periodicPts, minimalPeriod_unit]
  norm_num

theorem iterate_unit_ne_zero (n : ℕ) : turn^[n] unit ≠ 0 := by
  intro hzero
  have hperiod := minimalPeriod_apply_iterate unit_mem_periodicPts n
  rw [hzero, minimalPeriod_unit, minimalPeriod_eq_one_iff_isFixedPt.mpr turn_zero] at hperiod
  norm_num at hperiod

/-- The powers are as many as the words other than zero, so that they are all of these. -/
theorem exists_iterate_unit_eq {u : UInt32} (hu : u ≠ 0) : ∃ n, turn^[n] unit = u := by
  have hpos : ∀ v : UInt32, v ≠ 0 → v.toNat ∈ Finset.Ioo 0 (2 ^ 32) := by
    intro v hv
    rw [Ne, ← UInt32.toNat_inj, UInt32.toNat_zero] at hv
    exact Finset.mem_Ioo.mpr ⟨Nat.pos_of_ne_zero hv, v.toNat_lt⟩
  have hall : Set.SurjOn (fun n => (turn^[n] unit).toNat) (Finset.range (2 ^ 32 - 1))
      (Finset.Ioo 0 (2 ^ 32)) := by
    refine Finset.surjOn_of_injOn_of_card_le _ (fun n _ => ?_) (fun m hm n hn heq => ?_) ?_
    · exact hpos _ (iterate_unit_ne_zero n)
    · rw [Finset.coe_range, ← minimalPeriod_unit] at hm hn
      exact iterate_injOn_Iio_minimalPeriod hm hn (UInt32.toNat_inj.mp heq)
    · rw [Nat.card_Ioo, Finset.card_range, Nat.sub_zero]
  obtain ⟨n, -, heq⟩ := hall (hpos u hu)
  exact ⟨n, UInt32.toNat_inj.mp heq⟩

/-! ## The period of every register -/

section

variable {u : UInt32} (hu : u ≠ 0)
include hu

theorem minimalPeriod_turn : minimalPeriod turn u = 2 ^ 32 - 1 := by
  obtain ⟨n, rfl⟩ := exists_iterate_unit_eq hu
  rw [minimalPeriod_apply_iterate unit_mem_periodicPts, minimalPeriod_unit]

theorem iterate_turn_ne_zero (n : ℕ) : turn^[n] u ≠ 0 := by
  obtain ⟨m, rfl⟩ := exists_iterate_unit_eq hu
  rw [← iterate_add_apply]
  exact iterate_unit_ne_zero (n + m)

theorem mem_periodicOrbit_turn {v : UInt32} : v ∈ periodicOrbit turn u ↔ v ≠ 0 := by
  obtain ⟨n, rfl⟩ := exists_iterate_unit_eq hu
  rw [periodicOrbit_apply_iterate_eq unit_mem_periodicPts, mem_periodicOrbit_iff unit_mem_periodicPts]
  refine ⟨?_, exists_iterate_unit_eq⟩
  rintro ⟨m, rfl⟩
  exact iterate_unit_ne_zero m

end

/-! ## Draws -/

theorem reg_iterate_advance (g : Lfsr) (n : ℕ) : (advance^[n] g).reg = turn^[n] g.reg := by
  have hstep : Semiconj reg advance turn := fun _ => rfl
  exact (hstep.iterate_right n).eq g

theorem draws_eq_map (n : ℕ) (g : Lfsr) :
    draws n g = (List.range n).map fun k => turn^[k] (turn g.reg) := by
  induction n generalizing g with
  | zero => rfl
  | succ n ih => rw [draws, ih, List.range_succ_eq_map, List.map_cons, List.map_map]; rfl

theorem draws_add (m n : ℕ) (g : Lfsr) : draws (m + n) g = draws m g ++ draws n (advance^[m] g) := by
  induction m generalizing g with
  | zero => rw [Nat.zero_add]; rfl
  | succ m ih => rw [Nat.succ_add, draws, ih, draws, List.cons_append, iterate_succ_apply]

theorem drop_draws_add (m n : ℕ) (g : Lfsr) :
    (draws (m + n) g).drop m = draws n (advance^[m] g) := by
  rw [draws_add, List.drop_left' (length_draws m g)]

theorem reg_ofSeed_ne_zero (seed : UInt32) : (ofSeed seed).reg ≠ 0 := by
  rw [ofSeed]
  split
  · decide
  · assumption

/-- In as many draws as the period is long every word other than zero is there once. -/
theorem count_draws {g : Lfsr} (hg : g.reg ≠ 0) (value : UInt32) :
    (draws (2 ^ 32 - 1) g).count value = if value = 0 then 0 else 1 := by
  have hnext : turn g.reg ≠ 0 := iterate_turn_ne_zero hg 1
  have horbit : (draws (2 ^ 32 - 1) g : Cycle UInt32) = periodicOrbit turn (turn g.reg) := by
    rw [draws_eq_map, periodicOrbit, minimalPeriod_turn hnext]
  have hnodup : (draws (2 ^ 32 - 1) g).Nodup := by
    rw [← Cycle.nodup_coe_iff, horbit]
    exact nodup_periodicOrbit
  have hmem : value ∈ draws (2 ^ 32 - 1) g ↔ value ≠ 0 := by
    rw [← Cycle.mem_coe_iff, horbit, mem_periodicOrbit_turn hnext]
  rw [hnodup.count, if_congr hmem rfl rfl, ite_not]

end Lfsr

namespace Source

theorem skip_register (g : Lfsr) (n : ℕ) : (register g).skip n = register (Lfsr.advance^[n] g) := by
  induction n with
  | zero => rfl
  | succ n ih => rw [skip, ih, next, iterate_succ_apply']

theorem draw_register (g : Lfsr) (k : ℕ) :
    (register g).draw k = Lfsr.turn^[k] (Lfsr.turn g.reg) := by
  rw [draw, skip_register, next, ← iterate_succ_apply' Lfsr.advance,
    Lfsr.reg_iterate_advance, iterate_succ_apply]

end Source

namespace Lfsr

/-- **The register takes every word but zero before it comes round.**  Let a register start with any
seed.

* Its draws are those that a cache with it as its source is given one after another.
* None of them is zero.
* They repeat after `2 ^ 32 - 1` draws, and after no fewer.
* Among any `2 ^ 32 - 1` draws in a row every word other than zero is there exactly once.
* Zero as a seed is the same as one. -/
theorem full_period (seed : UInt32) :
    (∀ n, (ofSeed seed).draws n = (List.range n).map (Source.register (ofSeed seed)).draw) ∧
      (∀ k, (Source.register (ofSeed seed)).draw k ≠ 0) ∧
      IsLeast {p | 0 < p ∧ ∀ k, (Source.register (ofSeed seed)).draw (k + p) =
        (Source.register (ofSeed seed)).draw k} (2 ^ 32 - 1) ∧
      (∀ start value, (((ofSeed seed).draws (start + (2 ^ 32 - 1))).drop start).count value =
        if value = 0 then 0 else 1) ∧
      ofSeed 0 = ofSeed 1 := by
  have hseed := reg_ofSeed_ne_zero seed
  have hnext : turn (ofSeed seed).reg ≠ 0 := iterate_turn_ne_zero hseed 1
  have hperiod := minimalPeriod_turn hnext
  have hdraw : (Source.register (ofSeed seed)).draw = fun k => turn^[k] (turn (ofSeed seed).reg) :=
    funext (Source.draw_register _)
  rw [hdraw]
  refine ⟨fun n => draws_eq_map n _, iterate_turn_ne_zero hnext, ⟨⟨by norm_num, fun k => ?_⟩, ?_⟩,
    fun start value => ?_, rfl⟩
  · exact hperiod ▸ iterate_add_minimalPeriod_eq
  · rintro p ⟨hpos, hrepeat⟩
    have hfirst : turn^[p] (turn (ofSeed seed).reg) = turn (ofSeed seed).reg := by
      simpa using hrepeat 0
    exact hperiod ▸ IsPeriodicPt.minimalPeriod_le hpos hfirst
  · rw [drop_draws_add]
    exact count_draws (by rw [reg_iterate_advance]; exact iterate_turn_ne_zero hseed start) value

/-- The first draws of the usual register. -/
example : (ofSeed 1).draws 4 = [0xd0000001, 0xb8000001, 0x8c000001, 0x96000001] := by
  decide

end Lfsr

end CacheModel
