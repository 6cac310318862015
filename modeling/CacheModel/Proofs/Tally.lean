import Mathlib
import CacheModel.Proofs.Visible

/-!
# What a run adds to the counters

A request adds to each counter what it is worth in the cache that serves it: its bytes, or one for
an access, a miss or a writeback.  A counter after a run is the tally of what the requests were
worth, modulo the size of a word, and the tally itself as long as the run can be counted.

Writebacks are no sum over requests alone, since whether a line is dirty depends on the run before.
But they balance with the dirty lines: a line that becomes dirty is sent back once, unless it is
still dirty at the end.
-/

namespace CacheModel

/-- The seven counters of a cache. -/
inductive Counter where
  | bytesRead
  | bytesWritten
  | readAccesses
  | writeAccesses
  | readMisses
  | writeMisses
  | writebacks
  deriving DecidableEq

/-- The value of a counter. -/
def Counters.get (c : Counters) : Counter → UInt64
  | .bytesRead => c.bytesRead
  | .bytesWritten => c.bytesWritten
  | .readAccesses => c.readAccesses
  | .writeAccesses => c.writeAccesses
  | .readMisses => c.readMisses
  | .writeMisses => c.writeMisses
  | .writebacks => c.writebacks

namespace Cache

/-- Sums up what the requests of a run are worth, each in the cache that serves it. -/
def tally (worth : Cache → Request → ℕ) (c : Cache) : List Request → ℕ
  | [] => 0
  | r :: rs => worth c r + tally worth (c.access r).cache rs

/-- A request makes the cache send a line back. -/
def writesBack (c : Cache) (r : Request) : Bool :=
  !c.contains r.address && (c.writeback? (c.lineFor r.address)).isSome

/-- What a request adds to a counter. -/
def charge : Counter → Cache → Request → ℕ
  | .bytesRead, _, r => if r.isWrite then 0 else r.bytes.toNat
  | .bytesWritten, _, r => if r.isWrite then r.bytes.toNat else 0
  | .readAccesses, _, r => if r.isWrite then 0 else 1
  | .writeAccesses, _, r => if r.isWrite then 1 else 0
  | .readMisses, c, r => if !r.isWrite && !c.contains r.address then 1 else 0
  | .writeMisses, c, r => if r.isWrite && !c.contains r.address then 1 else 0
  | .writebacks, c, r => if c.writesBack r then 1 else 0

/-- A request adds its charge to a counter, modulo the size of a word. -/
theorem toNat_get_access (c : Cache) (r : Request) (q : Counter) :
    ((c.access r).cache.counters.get q).toNat =
      ((c.counters.get q).toNat + charge q c r) % 2 ^ 64 := by
  rw [counters_access]
  cases hfind : c.find r.address with
  | some way =>
    cases q <;> cases hw : r.isWrite <;>
      simp [Counters.get, Counters.recordAccess, charge, writesBack, contains, hfind, hw]
  | none =>
    cases hback : c.writeback? (c.lineFor r.address) <;> cases q <;> cases hw : r.isWrite <;>
      simp [Counters.get, Counters.recordAccess, Counters.recordMiss, Counters.recordWriteback,
        charge, writesBack, contains, hfind, hw, hback]

/-! ## Sums over a run -/

section

variable {worth worth' : Cache → Request → ℕ} {c d : Cache}

@[simp] theorem tally_nil (worth : Cache → Request → ℕ) (c : Cache) : tally worth c [] = 0 := rfl

theorem tally_append (worth : Cache → Request → ℕ) (c : Cache) (rs rs' : List Request) :
    tally worth c (rs ++ rs') = tally worth c rs + tally worth (c.after rs) rs' := by
  induction rs generalizing c with
  | nil => simp
  | cons r rs ih => rw [List.cons_append, tally, tally, ih, after_cons, Nat.add_assoc]

theorem tally_concat (worth : Cache → Request → ℕ) (c : Cache) (rs : List Request) (r : Request) :
    tally worth c (rs ++ [r]) = tally worth c rs + worth (c.after rs) r := by
  rw [tally_append, tally, tally_nil, Nat.add_zero]

theorem tally_add (worth worth' : Cache → Request → ℕ) (c : Cache) (rs : List Request) :
    tally (fun c r => worth c r + worth' c r) c rs = tally worth c rs + tally worth' c rs := by
  induction rs generalizing c with
  | nil => rfl
  | cons r rs ih =>
    rw [tally, tally, tally, ih]
    omega

/-- What is worth no more at every step is worth no more in a run. -/
theorem tally_le_tally {rs : List Request}
    (h : ∀ past r, past.length < rs.length →
      worth (c.after past) r ≤ worth' (d.after past) r) :
    tally worth c rs ≤ tally worth' d rs := by
  induction rs using List.reverseRecOn with
  | nil => exact le_rfl
  | append_singleton rs r ih =>
    rw [tally_concat, tally_concat]
    refine Nat.add_le_add (ih fun past r' hpast => h past r' ?_) (h rs r (by simp))
    exact hpast.trans_le (by simp)

theorem tally_eq_zero {rs : List Request} (h : ∀ c, ∀ r ∈ rs, worth c r = 0) :
    tally worth c rs = 0 := by
  induction rs generalizing c with
  | nil => rfl
  | cons r rs ih =>
    rw [tally, h c r List.mem_cons_self, ih fun c r' hr => h c r' (List.mem_cons_of_mem r hr)]

theorem tally_le_length (h : ∀ c r, worth c r ≤ 1) (c : Cache) (rs : List Request) :
    tally worth c rs ≤ rs.length := by
  induction rs generalizing c with
  | nil => exact le_rfl
  | cons r rs ih =>
    have hfirst := h c r
    have hrest := ih (c.access r).cache
    rw [tally, List.length_cons]
    omega

end

/-! ## What became of a run -/

/-- The requests of a run with what became of them, in order. -/
def outcomes (c : Cache) : List Request → List (Request × Outcome)
  | [] => []
  | r :: rs => (r, (c.access r).outcome) :: outcomes (c.access r).cache rs

theorem outcomes_concat (c : Cache) (rs : List Request) (r : Request) :
    c.outcomes (rs ++ [r]) = c.outcomes rs ++ [(r, ((c.after rs).access r).outcome)] := by
  induction rs generalizing c with
  | nil => rfl
  | cons q rs ih => rw [List.cons_append, outcomes, outcomes, ih, after_cons, List.cons_append]

/-- Nothing but the requests of the run has an outcome. -/
@[simp] theorem map_fst_outcomes (c : Cache) (rs : List Request) :
    (c.outcomes rs).map Prod.fst = rs := by
  induction rs generalizing c with
  | nil => rfl
  | cons r rs ih => rw [outcomes, List.map_cons, ih]

@[simp] theorem length_outcomes (c : Cache) (rs : List Request) :
    (c.outcomes rs).length = rs.length := by
  rw [← List.length_map Prod.fst, map_fst_outcomes]

/-- What is worth one for some requests and nothing for the others counts how often it came up. -/
theorem tally_eq_countP {worth : Cache → Request → ℕ} {p : Request × Outcome → Bool}
    (h : ∀ c r, worth c r = if p (r, (c.access r).outcome) then 1 else 0) (c : Cache)
    (rs : List Request) : tally worth c rs = (c.outcomes rs).countP p := by
  induction rs generalizing c with
  | nil => rfl
  | cons r rs ih => rw [tally, outcomes, List.countP_cons, h, ih, Nat.add_comm]

/-- A counter after a run has grown by what the requests add to it, modulo the size of a word. -/
theorem toNat_get_after (c : Cache) (rs : List Request) (q : Counter) :
    ((c.after rs).counters.get q).toNat ≡
      (c.counters.get q).toNat + tally (charge q) c rs [MOD 2 ^ 64] := by
  induction rs using List.reverseRecOn with
  | nil => rfl
  | append_singleton rs r ih =>
    rw [after_append, after_cons, after_nil, toNat_get_access, tally_concat, ← Nat.add_assoc]
    exact (Nat.mod_modEq _ _).trans (ih.add_right _)

theorem Built.counters_eq {c : Cache} (h : c.Built) : c.counters = .zero := by
  obtain ⟨kind, g, name, source, -, -, rfl⟩ := h.exists_eq_fresh
  rfl

theorem Built.get_counters_eq {c : Cache} (h : c.Built) (q : Counter) : c.counters.get q = 0 := by
  rw [h.counters_eq]
  cases q <;> rfl

/-- What a request adds to a counter that does not count bytes is at most one. -/
theorem charge_le_one {q : Counter} (hread : q ≠ .bytesRead) (hwritten : q ≠ .bytesWritten)
    (c : Cache) (r : Request) : charge q c r ≤ 1 := by
  cases q <;> simp only [charge, ne_eq, not_true_eq_false] at * <;> split <;> omega

/-- A counter of a new cache tells what was added to it, modulo the size of a word. -/
theorem Built.toNat_get_after_modEq {c : Cache} (h : c.Built) (rs : List Request) (q : Counter) :
    ((c.after rs).counters.get q).toNat ≡ tally (charge q) c rs [MOD 2 ^ 64] := by
  have hmod := Cache.toNat_get_after c rs q
  rwa [h.get_counters_eq, UInt64.toNat_zero, Nat.zero_add] at hmod

/-- As long as a run can be counted, a counter of a new cache tells how often it was advanced. -/
theorem Built.toNat_get_after {c : Cache} (h : c.Built) {rs : List Request}
    (hcount : rs.length < 2 ^ 64) {q : Counter} (hread : q ≠ .bytesRead)
    (hwritten : q ≠ .bytesWritten) :
    ((c.after rs).counters.get q).toNat = tally (charge q) c rs := by
  have hle := tally_le_length (charge_le_one hread hwritten) c rs
  exact Nat.ModEq.eq_of_lt_of_lt (h.toNat_get_after_modEq rs q) (UInt64.toNat_lt _) (by omega)

/-! ## Dirty lines -/

/-- The tags of the lines that are dirty. -/
noncomputable def dirtyTags (c : Cache) : Finset UInt64 :=
  (Set.toFinite {t | ∃ a, c.tagOf a = t ∧ c.isDirty a = some true}).toFinset

theorem tagOf_mem_dirtyTags {c : Cache} {a : UInt64} :
    c.tagOf a ∈ c.dirtyTags ↔ c.isDirty a = some true := by
  rw [dirtyTags, Set.Finite.mem_toFinset]
  constructor
  · rintro ⟨b, htag, hdirty⟩
    rwa [← isDirty_eq_of_tagOf_eq htag]
  · exact fun hdirty => ⟨a, rfl, hdirty⟩

theorem exists_of_mem_dirtyTags {c : Cache} {t : UInt64} (h : t ∈ c.dirtyTags) :
    ∃ a, c.tagOf a = t ∧ c.isDirty a = some true := by
  rwa [dirtyTags, Set.Finite.mem_toFinset] at h

/-- One for a request that makes a line dirty that was not dirty before. -/
def soils (c : Cache) (r : Request) : ℕ :=
  if r.isWrite = true ∧ c.isDirty r.address ≠ some true then 1 else 0

theorem writesBack_eq_true_iff {c : Cache} {r : Request} :
    c.writesBack r = true ↔ c.find r.address = none ∧
      (c.lineFor r.address).valid = true ∧ (c.lineFor r.address).dirty = true := by
  rw [writesBack, contains, writeback?]
  cases c.find r.address <;> cases (c.lineFor r.address).valid <;>
    cases (c.lineFor r.address).dirty <;> simp

/-- The dirty lines that a request does not send back. -/
noncomputable def keptTags (c : Cache) (r : Request) : Finset UInt64 :=
  if c.writesBack r then c.dirtyTags.erase (c.lineFor r.address).tag else c.dirtyTags

section

variable {c : Cache} (h : c.Sound)
include h

/-- What is sent back is the line that is evicted, if it is dirty. -/
theorem Sound.writesBack_iff {r : Request} {a : UInt64} :
    c.writesBack r = true ∧ (c.lineFor r.address).tag = c.tagOf a ↔
      c.Evicts r a ∧ c.isDirty a = some true := by
  rw [writesBack_eq_true_iff]
  constructor
  · rintro ⟨⟨hmiss, hvalid, hdirty⟩, htag⟩
    have hevicts : c.Evicts r a := ⟨hmiss, Line.holds_iff.mpr ⟨hvalid, htag⟩⟩
    exact ⟨hevicts, by rw [h.isDirty_of_evicts hevicts, hdirty]⟩
  · rintro ⟨hevicts, hdirty⟩
    obtain ⟨hvalid, htag⟩ := Line.holds_iff.mp hevicts.2
    rw [h.isDirty_of_evicts hevicts] at hdirty
    exact ⟨⟨hevicts.1, hvalid, Option.some.inj hdirty⟩, htag⟩

theorem Sound.tagOf_mem_keptTags {r : Request} {a : UInt64} :
    c.tagOf a ∈ c.keptTags r ↔ c.isDirty a = some true ∧ ¬ c.Evicts r a := by
  have hiff := h.writesBack_iff (r := r) (a := a)
  rw [keptTags]
  split
  · rw [Finset.mem_erase, tagOf_mem_dirtyTags, ne_comm]
    tauto
  · rw [tagOf_mem_dirtyTags]
    tauto

theorem Sound.card_keptTags (r : Request) :
    (c.keptTags r).card + charge .writebacks c r = c.dirtyTags.card := by
  rw [keptTags, charge]
  split
  · next hback =>
    have hvalid := (writesBack_eq_true_iff.mp hback).2.1
    obtain ⟨a, -, htag⟩ := h.home (h.setOf_lt r.address) (h.offers_wayFor r.address).lt hvalid
    have htag' : c.tagOf a = (c.lineFor r.address).tag := htag
    have hdirty := (h.writesBack_iff.mp ⟨hback, htag'.symm⟩).2
    exact Finset.card_erase_add_one (htag' ▸ tagOf_mem_dirtyTags.mpr hdirty)
  · exact Nat.add_zero _

omit h in
theorem keptTags_subset (c : Cache) (r : Request) : c.keptTags r ⊆ c.dirtyTags := by
  rw [keptTags]
  split
  · exact Finset.erase_subset _ _
  · exact Finset.Subset.refl _

omit h in
/-- Sets of tags are equal if they have the same addresses and no tags without one. -/
theorem eq_of_forall_tagOf {tags tags' : Finset UInt64} (h : ∀ t ∈ tags, ∃ a, c.tagOf a = t)
    (h' : ∀ t ∈ tags', ∃ a, c.tagOf a = t) (hiff : ∀ a, c.tagOf a ∈ tags ↔ c.tagOf a ∈ tags') :
    tags = tags' := by
  ext t
  constructor
  · intro ht
    obtain ⟨a, rfl⟩ := h t ht
    exact (hiff a).mp ht
  · intro ht
    obtain ⟨a, rfl⟩ := h' t ht
    exact (hiff a).mpr ht

/-- The dirty lines after a request are the ones that it did not send back and the one that it
wrote to. -/
theorem Sound.dirtyTags_access (r : Request) :
    (c.access r).cache.dirtyTags =
      if r.isWrite then insert (c.tagOf r.address) (c.keptTags r) else c.keptTags r := by
  have hkept : ∀ t ∈ c.keptTags r, ∃ a, c.tagOf a = t := fun t ht =>
    (exists_of_mem_dirtyTags (keptTags_subset c r ht)).imp fun _ ha => ha.1
  refine eq_of_forall_tagOf (c := c) ?_ ?_ ?_
  · intro t ht
    obtain ⟨a, htag, -⟩ := exists_of_mem_dirtyTags ht
    exact ⟨a, (tagOf_access c r a).symm.trans htag⟩
  · split
    · exact (Finset.forall_mem_insert _ _ _).mpr ⟨⟨r.address, rfl⟩, hkept⟩
    · exact hkept
  · intro a
    have hwrites : r.WritesTo c.geometry.addresses a ↔
        r.isWrite = true ∧ c.tagOf a = c.tagOf r.address := and_congr_right fun _ => eq_comm
    rw [← tagOf_access c r, tagOf_mem_dirtyTags, h.isDirty_access_iff_not_evicts, hwrites,
      tagOf_access, ← h.tagOf_mem_keptTags]
    split
    · next hwrite => simp [hwrite]
    · next hwrite => simp [hwrite]

/-- Every line that is sent back leaves the dirty lines, and every line that is written to while
it is clean joins them. -/
theorem Sound.card_dirtyTags_access (r : Request) :
    (c.access r).cache.dirtyTags.card + charge .writebacks c r =
      c.dirtyTags.card + c.soils r := by
  have hkept := h.card_keptTags r
  have hself : c.tagOf r.address ∈ c.keptTags r ↔ c.isDirty r.address = some true := by
    rw [h.tagOf_mem_keptTags]
    exact and_iff_left fun hevicts => h.tag_ne_of_evicts hevicts rfl
  rw [h.dirtyTags_access, soils]
  by_cases hwrite : r.isWrite = true
  · by_cases hdirty : c.isDirty r.address = some true
    · rw [if_pos hwrite, Finset.insert_eq_self.mpr (hself.mpr hdirty), if_neg (by simp [hdirty])]
      omega
    · rw [if_pos hwrite, Finset.card_insert_of_notMem (mt hself.mp hdirty), if_pos ⟨hwrite, hdirty⟩]
      omega
  · rw [if_neg hwrite, if_neg fun hsoils => hwrite hsoils.1]
    omega

/-- **Writebacks balance.**  In a run the writebacks and the lines that are dirty at the end make
up for the lines that became dirty and those that were dirty at the start. -/
theorem Sound.tally_writebacks_add_card (rs : List Request) :
    tally (charge .writebacks) c rs + (c.after rs).dirtyTags.card =
      tally soils c rs + c.dirtyTags.card := by
  induction rs using List.reverseRecOn with
  | nil => rfl
  | append_singleton rs r ih =>
    have hlast := (h.after rs).card_dirtyTags_access r
    rw [tally_concat, tally_concat, after_append, after_cons, after_nil]
    omega

end

theorem Built.dirtyTags_eq_empty {c : Cache} (h : c.Built) : c.dirtyTags = ∅ := by
  rw [Finset.eq_empty_iff_forall_notMem]
  intro t ht
  obtain ⟨a, -, hdirty⟩ := exists_of_mem_dirtyTags ht
  rw [h.isDirty_eq_none] at hdirty
  cases hdirty

end Cache

end CacheModel
