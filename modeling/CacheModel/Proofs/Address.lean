import Mathlib
import CacheModel.Geometry

/-!
# Addresses in possible shapes

Shifts, masks and complements stand for division when line size and number of sets are powers of
two.  For a shape that a cache can have, the tag of an address is its quotient by the line size,
the set of a tag is its remainder by the number of sets, and the base of a line is the tag times
the line size.  Everything later only needs what follows from this on tags and bases: a base and
a tag determine each other, and bases split into the same tags again, also in a cache with
longer lines.  The lines are the intervals between one base and the next, and together they make
up the address space.
-/

namespace CacheModel

/-- Clearing the low `k` bits of a word rounds down to a multiple of `2 ^ k`. -/
theorem and_complement_eq {n k : ℕ} (hn : n < 2 ^ 64) (hk : k < 64) :
    n &&& (2 ^ 64 - 1 - (2 ^ k - 1)) = n / 2 ^ k * 2 ^ k := by
  have hlow : 2 ^ k - 1 < 2 ^ 64 := by
    have : 2 ^ k < 2 ^ 64 := Nat.pow_lt_pow_right (by norm_num) hk
    omega
  have hmask : 2 ^ 64 - 1 - (2 ^ k - 1) = 2 ^ 64 - ((2 ^ k - 1) + 1) := by omega
  apply Nat.eq_of_testBit_eq
  intro i
  rw [hmask, Nat.testBit_and, Nat.testBit_two_pow_sub_succ hlow, Nat.testBit_two_pow_sub_one,
    Nat.testBit_mul_two_pow, Nat.testBit_div_two_pow]
  by_cases hi : k ≤ i
  · have hhigh : 64 ≤ i → n.testBit i = false := fun h64 =>
      Nat.testBit_lt_two_pow (hn.trans_le (Nat.pow_le_pow_right (by norm_num) h64))
    by_cases h64 : 64 ≤ i
    · simp [hhigh h64, Nat.sub_add_cancel hi]
    · simp [hi, not_lt.mpr hi, not_le.mp h64, Nat.sub_add_cancel hi]
  · simp [hi, not_le.mp hi]

namespace Geometry

/-- A cache can have this shape. -/
def Valid (g : Geometry) : Prop := g.fault? = none

theorem valid_of_check {g g' : Geometry} (h : g.check = .ok g') : g' = g ∧ g.Valid := by
  unfold check at h
  split at h
  · cases h
  · next hnone =>
    cases h
    exact ⟨rfl, hnone⟩

theorem check_of_valid {g : Geometry} (h : g.Valid) : g.check = .ok g := by
  simp only [check, show g.fault? = none from h]

section

variable {g g' : Geometry} (h : g.lineBytes = g'.lineBytes)
include h

/-- Lines of equal length have equal numbers. -/
theorem tag_eq_of_lineBytes_eq (a : UInt64) : g.addresses.tag a = g'.addresses.tag a := by
  simp only [addresses, AddressMap.ofSizes, AddressMap.tag, h]

/-- Lines of equal length start at equal addresses. -/
theorem lineBase_eq_of_lineBytes_eq (a : UInt64) :
    g.addresses.lineBase a = g'.addresses.lineBase a := by
  simp only [addresses, AddressMap.ofSizes, AddressMap.lineBase, h]

theorem lineAddress_eq_of_lineBytes_eq (t : UInt64) :
    g.addresses.lineAddress t = g'.addresses.lineAddress t := by
  simp only [addresses, AddressMap.ofSizes, AddressMap.lineAddress, h]

end

namespace Valid

variable {g : Geometry} (h : g.Valid)
include h

theorem ways_pos : 0 < g.ways :=
  Nat.pos_of_ne_zero (fault?_eq_none_iff.mp h).2.1

theorem exists_sets_eq : ∃ m, g.sets = 2 ^ m := by
  obtain ⟨m, hm⟩ := isPowerOfTwo_iff.mp (fault?_eq_none_iff.mp h).1
  exact ⟨m, hm.trans (by simp)⟩

theorem exists_lineBytes_eq : ∃ k, g.lineBytes = 2 ^ k := by
  obtain ⟨k, hk⟩ := isPowerOfTwo_iff.mp (fault?_eq_none_iff.mp h).2.2.2.1
  exact ⟨k, hk.trans (by simp)⟩

theorem sets_pos : 0 < g.sets := by
  obtain ⟨m, hm⟩ := h.exists_sets_eq
  rw [hm]
  positivity

theorem lineBytes_pos : 0 < g.lineBytes := by
  obtain ⟨k, hk⟩ := h.exists_lineBytes_eq
  rw [hk]
  positivity

theorem capacity_lt : g.sets * g.ways * g.lineBytes < 2 ^ 64 := by
  have hcapacity := (fault?_eq_none_iff.mp h).2.2.2.2
  simpa [capacity, Text.wordLimit] using hcapacity

theorem sets_lt : g.sets < 2 ^ 64 := by
  have hle : g.sets * 1 * 1 ≤ g.sets * g.ways * g.lineBytes :=
    Nat.mul_le_mul (Nat.mul_le_mul le_rfl h.ways_pos) h.lineBytes_pos
  have := h.capacity_lt
  omega

theorem ways_lt : g.ways < 2 ^ 64 := by
  have hle : 1 * g.ways * 1 ≤ g.sets * g.ways * g.lineBytes :=
    Nat.mul_le_mul (Nat.mul_le_mul h.sets_pos le_rfl) h.lineBytes_pos
  have := h.capacity_lt
  omega

theorem lineBytes_lt : g.lineBytes < 2 ^ 64 := by
  have hle : 1 * 1 * g.lineBytes ≤ g.sets * g.ways * g.lineBytes :=
    Nat.mul_le_mul (Nat.mul_le_mul h.sets_pos h.ways_pos) le_rfl
  have := h.capacity_lt
  omega

/-- A single set of a possible shape is a possible shape. -/
theorem oneSet : { g with sets := 1 }.Valid := by
  obtain ⟨-, hways, hmin, hline, -⟩ := fault?_eq_none_iff.mp h
  refine fault?_eq_none_iff.mpr ⟨isPowerOfTwo_two_pow 0, hways, hmin, hline, ?_⟩
  have hle : 1 * g.ways * g.lineBytes ≤ g.sets * g.ways * g.lineBytes :=
    Nat.mul_le_mul_right _ (Nat.mul_le_mul_right _ h.sets_pos)
  have := h.capacity_lt
  simp only [capacity, Text.wordLimit]
  omega

/-- Whether a cache can have a shape does not depend on the policy. -/
theorem withPolicy (policy : Policy) : { g with policy := policy }.Valid := h

/-! ## Words as numbers -/

theorem toNat_lineBytes : g.lineBytes.toUInt64.toNat = g.lineBytes := by
  rw [Nat.toUInt64, UInt64.toNat_ofNat', Nat.mod_eq_of_lt h.lineBytes_lt]

theorem exists_shift : ∃ k < 64, g.lineBytes = 2 ^ k ∧ g.addresses.shift = k := by
  obtain ⟨k, hk⟩ := h.exists_lineBytes_eq
  have hlt : k < 64 := by
    have := h.lineBytes_lt
    rw [hk] at this
    exact (Nat.pow_lt_pow_iff_right (by norm_num)).mp this
  refine ⟨k, hlt, hk, ?_⟩
  have hshift := trailingZeros_two_pow hlt
  simpa [addresses, AddressMap.ofSizes, hk] using hshift

theorem toNat_tag (a : UInt64) : (g.addresses.tag a).toNat = a.toNat / g.lineBytes := by
  obtain ⟨k, hlt, hk, hshift⟩ := h.exists_shift
  have hword : k.toUInt64.toNat % 64 = k := by
    rw [Nat.toUInt64, UInt64.toNat_ofNat', Nat.mod_eq_of_lt (by omega : k < 2 ^ 64),
      Nat.mod_eq_of_lt hlt]
  rw [AddressMap.tag, hshift, UInt64.toNat_shiftRight, hword, Nat.shiftRight_eq_div_pow, hk]

theorem setOfTag_eq (t : UInt64) : g.addresses.setOfTag t = t.toNat % g.sets := by
  obtain ⟨m, hm⟩ := h.exists_sets_eq
  have hsets : g.sets.toUInt64.toNat = g.sets := by
    rw [Nat.toUInt64, UInt64.toNat_ofNat', Nat.mod_eq_of_lt h.sets_lt]
  have hone : (1 : UInt64) ≤ g.sets.toUInt64 := by
    rw [UInt64.le_iff_toNat_le, hsets]
    exact h.sets_pos
  have hmask : g.addresses.setMask.toNat = 2 ^ m - 1 := by
    show (g.sets.toUInt64 - 1).toNat = _
    rw [UInt64.toNat_sub_of_le _ _ hone, hsets, hm]
    rfl
  rw [AddressMap.setOfTag, UInt64.toNat_and, hmask, Nat.and_two_pow_sub_one_eq_mod, hm]

theorem toNat_lineBase (a : UInt64) :
    (g.addresses.lineBase a).toNat = a.toNat / g.lineBytes * g.lineBytes := by
  obtain ⟨k, hlt, hk, -⟩ := h.exists_shift
  have hline := h.toNat_lineBytes
  have hone : (1 : UInt64) ≤ g.lineBytes.toUInt64 := by
    rw [UInt64.le_iff_toNat_le, hline]
    exact h.lineBytes_pos
  have hoffset : (g.lineBytes.toUInt64 - 1).toNat = 2 ^ k - 1 := by
    rw [UInt64.toNat_sub_of_le _ _ hone, hline, hk]
    rfl
  have hmask : (~~~(g.lineBytes.toUInt64 - 1)).toNat = 2 ^ 64 - 1 - (2 ^ k - 1) := by
    rw [UInt64.toNat_not, hoffset]
    rfl
  show (a &&& ~~~(g.lineBytes.toUInt64 - 1)).toNat = _
  rw [UInt64.toNat_and, hmask, and_complement_eq a.toNat_lt hlt, hk]

theorem toNat_lineAddress {t : UInt64} (ht : t.toNat * g.lineBytes < 2 ^ 64) :
    (g.addresses.lineAddress t).toNat = t.toNat * g.lineBytes := by
  obtain ⟨k, hlt, hk, hshift⟩ := h.exists_shift
  have hword : k.toUInt64.toNat % 64 = k := by
    rw [Nat.toUInt64, UInt64.toNat_ofNat', Nat.mod_eq_of_lt (by omega : k < 2 ^ 64),
      Nat.mod_eq_of_lt hlt]
  rw [AddressMap.lineAddress, hshift, UInt64.toNat_shiftLeft, hword, Nat.shiftLeft_eq, ← hk,
    Nat.mod_eq_of_lt ht]

/-! ## Tags and bases -/

theorem setOfTag_lt (t : UInt64) : g.addresses.setOfTag t < g.sets := by
  rw [h.setOfTag_eq]
  exact Nat.mod_lt _ h.sets_pos

theorem toNat_tag_lt (a : UInt64) : (g.addresses.tag a).toNat < 2 ^ 64 / g.lineBytes := by
  obtain ⟨k, hlt, hk, -⟩ := h.exists_shift
  have hdvd : g.lineBytes ∣ 2 ^ 64 := hk ▸ pow_dvd_pow 2 hlt.le
  rw [h.toNat_tag]
  exact Nat.div_lt_div_of_lt_of_dvd hdvd a.toNat_lt

/-- The base of a line is rebuilt from its tag. -/
theorem lineAddress_tag (a : UInt64) :
    g.addresses.lineAddress (g.addresses.tag a) = g.addresses.lineBase a := by
  have hfits : (g.addresses.tag a).toNat * g.lineBytes < 2 ^ 64 := by
    rw [h.toNat_tag]
    exact (Nat.div_mul_le_self _ _).trans_lt a.toNat_lt
  apply UInt64.toNat_inj.mp
  rw [h.toNat_lineAddress hfits, h.toNat_tag, h.toNat_lineBase]

/-- The base of a line splits like every other address of the line, also where lines are as long
or longer. -/
theorem tag_lineBase_of_le {g' : Geometry} (h' : g'.Valid) (hle : g.lineBytes ≤ g'.lineBytes)
    (a : UInt64) : g'.addresses.tag (g.addresses.lineBase a) = g'.addresses.tag a := by
  obtain ⟨k, hk⟩ := h.exists_lineBytes_eq
  obtain ⟨k', hk'⟩ := h'.exists_lineBytes_eq
  have hexp : k ≤ k' := (Nat.pow_le_pow_iff_right (by norm_num)).mp (hk ▸ hk' ▸ hle)
  have hfactor : g'.lineBytes = 2 ^ (k' - k) * g.lineBytes := by
    rw [hk, hk', ← pow_add, Nat.sub_add_cancel hexp]
  apply UInt64.toNat_inj.mp
  rw [h'.toNat_tag, h'.toNat_tag, h.toNat_lineBase, hfactor,
    Nat.mul_div_mul_right _ _ h.lineBytes_pos, Nat.div_div_eq_div_mul, Nat.mul_comm g.lineBytes]

@[simp] theorem tag_lineBase (a : UInt64) :
    g.addresses.tag (g.addresses.lineBase a) = g.addresses.tag a :=
  h.tag_lineBase_of_le h le_rfl a

/-- Addresses of one line, and only these, have the same base. -/
theorem lineBase_inj {a b : UInt64} :
    g.addresses.lineBase a = g.addresses.lineBase b ↔ g.addresses.tag a = g.addresses.tag b := by
  constructor
  · intro hbase
    rw [← h.tag_lineBase a, hbase, h.tag_lineBase]
  · intro htag
    rw [← h.lineAddress_tag, htag, h.lineAddress_tag]

/-! ## Lines as intervals -/

theorem lineBytes_dvd_lineBase (a : UInt64) : g.lineBytes ∣ (g.addresses.lineBase a).toNat := by
  rw [h.toNat_lineBase]
  exact Nat.dvd_mul_left _ _

theorem lineBase_le (a : UInt64) : (g.addresses.lineBase a).toNat ≤ a.toNat := by
  rw [h.toNat_lineBase]
  exact Nat.div_mul_le_self _ _

theorem lt_lineBase_add (a : UInt64) :
    a.toNat < (g.addresses.lineBase a).toNat + g.lineBytes := by
  rw [h.toNat_lineBase]
  exact Nat.lt_div_mul_add h.lineBytes_pos

/-- The base of a line splits like every other address of the line. -/
theorem decode_lineBase (a : UInt64) :
    g.addresses.decode (g.addresses.lineBase a) = g.addresses.decode a := by
  rw [AddressMap.decode, AddressMap.decode, h.tag_lineBase]

/-- A number below the number of lines is found again at the address that is rebuilt from it, and
no other number is the tag of any address. -/
theorem tag_lineAddress_iff {t : UInt64} :
    g.addresses.tag (g.addresses.lineAddress t) = t ↔ t.toNat < 2 ^ 64 / g.lineBytes := by
  constructor
  · intro htag
    have hlt := h.toNat_tag_lt (g.addresses.lineAddress t)
    rwa [htag] at hlt
  · intro hlt
    have hfits : t.toNat * g.lineBytes < 2 ^ 64 :=
      calc t.toNat * g.lineBytes < 2 ^ 64 / g.lineBytes * g.lineBytes :=
            Nat.mul_lt_mul_of_pos_right hlt h.lineBytes_pos
        _ ≤ 2 ^ 64 := Nat.div_mul_le_self _ _
    apply UInt64.toNat_inj.mp
    rw [h.toNat_tag, h.toNat_lineAddress hfits, Nat.mul_div_cancel _ h.lineBytes_pos]

end Valid

/-- **Lines partition the address space.**  Let a cache have a possible shape.  The tag of an
address is its quotient by the line size, and the set is the remainder of the tag by the number of
sets.  The tag gives the base of the line back: a multiple of the line size, at which the line of
the address starts, and which splits like the address itself.  Two addresses have one tag exactly
if their lines have one base, and then they have one set.  The numbers that are tags are those
below the number of lines, so that no bit is lost at the top of the address space. -/
theorem lines_partition_addresses {g : Geometry} (hcheck : g.check = .ok g) (a b : UInt64) :
    let m := g.addresses
    let set := (m.decode a).1
    let tag := (m.decode a).2
    let base := m.lineBase a
    tag.toNat = a.toNat / g.lineBytes ∧ set = tag.toNat % g.sets ∧ set < g.sets ∧
      m.lineAddress tag = base ∧ g.lineBytes ∣ base.toNat ∧
      base.toNat ≤ a.toNat ∧ a.toNat < base.toNat + g.lineBytes ∧
      m.decode base = m.decode a ∧
      (tag = (m.decode b).2 ↔ base = m.lineBase b) ∧
      (tag = (m.decode b).2 → set = (m.decode b).1) ∧
      ∀ t : UInt64, t.toNat < 2 ^ 64 / g.lineBytes ↔ (m.decode (m.lineAddress t)).2 = t := by
  have h : g.Valid := (valid_of_check hcheck).2
  refine ⟨h.toNat_tag a, h.setOfTag_eq _, h.setOfTag_lt _, h.lineAddress_tag a,
    h.lineBytes_dvd_lineBase a, h.lineBase_le a, h.lt_lineBase_add a, h.decode_lineBase a,
    h.lineBase_inj.symm, ?_, fun t => h.tag_lineAddress_iff.symm⟩
  intro htag
  exact congrArg g.addresses.setOfTag htag

/-- The last byte of the address space lies in the last of very long lines. -/
theorem lines_partition_addresses_last_byte :
    let g : Geometry := ⟨2 ^ 20, 3, 2 ^ 40, .fifo⟩
    let m := g.addresses
    let last : UInt64 := 0xffffffffffffffff
    let start : UInt64 := 0xffffff0000000000
    g.check = .ok g ∧ (m.decode last).2 = 0xffffff ∧ (m.decode last).1 = 0xfffff ∧
      m.lineAddress (m.decode last).2 = start ∧ m.decode start = m.decode last ∧
      (m.decode (m.lineAddress 0xffffff)).2 = 0xffffff ∧
      (m.decode (m.lineAddress 0x1000000)).2 ≠ 0x1000000 := by
  intro g m last start
  have hcheck : g.check = .ok g := by decide
  have hstart : m.lineBase last = start := by decide
  have htag : (m.decode last).2 = 0xffffff := by decide
  obtain ⟨-, hset, -, hrebuilt, -, -, -, hsplit, -, -, htags⟩ :=
    lines_partition_addresses hcheck last start
  rw [htag] at hset
  exact ⟨hcheck, htag, hset.trans (by decide), hrebuilt.trans hstart, hstart ▸ hsplit,
    (htags _).mp (by decide), mt (htags _).mpr (by decide)⟩

end Geometry

end CacheModel
