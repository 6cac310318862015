import Mathlib
import CacheModel.Proofs.Footprint
import CacheModel.Proofs.Tally

/-!
# How a cache fills up

What a cache holds was asked for at some time, so that a set never holds more lines than the run
has used of it, nor more than it has ways.  Under the ordered policies, and on a map under any
policy, a missing line takes the place of another one only when its set is full.  Then nothing is
given up before it has to be: a line that was used and is no longer held belongs to a full set.

So the number of lines in a set is told by the history alone.  It is the number of lines of the set
that were used, as long as they fit, and the number of ways from then on.  A set that was never
asked for more lines than it has ways still holds all of them: each of them missed once, when it
was first used, and none was ever sent back.
-/

namespace CacheModel

namespace Cache

/-! ## Lines that were used -/

/-- The lines of a set that a run asks for, each told by its tag. -/
def linesUsed (c : Cache) (set : ℕ) (rs : List Request) : Finset UInt64 :=
  ((rs.filter fun r => c.setOf r.address = set).map fun r => c.tagOf r.address).toFinset

theorem mem_linesUsed {c : Cache} {set : ℕ} {rs : List Request} {tag : UInt64} :
    tag ∈ c.linesUsed set rs ↔ ∃ r ∈ rs, c.setOf r.address = set ∧ c.tagOf r.address = tag := by
  simp [linesUsed, and_assoc]

/-- A line was used if some request asked for one of its addresses. -/
theorem tagOf_mem_linesUsed {c : Cache} {rs : List Request} {a : UInt64} :
    c.tagOf a ∈ c.linesUsed (c.setOf a) rs ↔ ∃ r ∈ rs, c.tagOf r.address = c.tagOf a := by
  rw [mem_linesUsed]
  refine exists_congr fun r => and_congr_right fun _ => and_iff_right_of_imp ?_
  exact setOf_eq_of_tagOf_eq

theorem linesUsed_subset_append (c : Cache) (set : ℕ) (rs later : List Request) :
    c.linesUsed set rs ⊆ c.linesUsed set (rs ++ later) := by
  intro tag htag
  obtain ⟨r, hr, huse⟩ := mem_linesUsed.mp htag
  exact mem_linesUsed.mpr ⟨r, List.mem_append_left _ hr, huse⟩

/-! ## Lines that are held -/

/-- The lines that a set holds, each told by its tag. -/
def tagsIn (c : Cache) (set : ℕ) : Finset UInt64 :=
  ((c.store.linesIn c.geometry.ways set).map Line.tag).toFinset

/-- A missing line takes the place of another one only when its set is full. -/
def FillsFirst (c : Cache) : Prop :=
  ∀ a, (c.lineFor a).valid = true →
    (c.store.linesIn c.geometry.ways (c.setOf a)).length = c.geometry.ways

section

variable {c : Cache} (h : c.Sound)
include h

theorem Sound.card_tagsIn {set : ℕ} (hset : set < c.geometry.sets) :
    (c.tagsIn set).card = (c.store.linesIn c.geometry.ways set).length := by
  rw [tagsIn, List.toFinset_card_of_nodup (h.store.nodup_map_tag_linesIn hset), List.length_map]

theorem Sound.tagOf_mem_tagsIn {a : UInt64} :
    c.tagOf a ∈ c.tagsIn (c.setOf a) ↔ c.contains a = true := by
  rw [tagsIn, List.mem_toFinset, TagStore.mem_map_tag_linesIn, h.contains_iff]

/-- Every line of a set is the line of some address of the set. -/
theorem Sound.exists_of_mem_tagsIn {set : ℕ} (hset : set < c.geometry.sets) {tag : UInt64}
    (htag : tag ∈ c.tagsIn set) : ∃ a, c.setOf a = set ∧ c.tagOf a = tag := by
  rw [tagsIn, List.mem_toFinset, TagStore.mem_map_tag_linesIn] at htag
  obtain ⟨way, hway, hholds⟩ := htag
  obtain ⟨hvalid, rfl⟩ := Line.holds_iff.mp hholds
  exact h.home hset hway hvalid

theorem Sound.residentLines_eq_sum :
    c.residentLines = ∑ set ∈ Finset.range c.geometry.sets, (c.tagsIn set).card := by
  rw [residentLines, h.store.resident_eq]
  refine Finset.sum_congr rfl fun set hset => ?_
  rw [h.card_tagsIn (Finset.mem_range.mp hset)]

omit h in
theorem length_linesIn_le (c : Cache) (set : ℕ) :
    (c.store.linesIn c.geometry.ways set).length ≤ c.geometry.ways :=
  (List.length_filter_le _ _).trans_eq (TagStore.length_places _ _ _)

/-- A full set stays full. -/
theorem Sound.full_access {set : ℕ} (hset : set < c.geometry.sets)
    (hfull : (c.store.linesIn c.geometry.ways set).length = c.geometry.ways) (r : Request) :
    ((c.access r).cache.store.linesIn c.geometry.ways set).length = c.geometry.ways := by
  have hlines := (length_linesIn_eq_iff c set).mp hfull
  rw [← geometry_access c r, length_linesIn_eq_iff, geometry_access]
  intro way hway
  rw [h.line_access r hset hway]
  split
  · rfl
  · exact hlines way hway

/-- A line leaves a full set only. -/
theorem Sound.full_of_leaves (hfills : c.FillsFirst) {r : Request} {a : UInt64}
    (hleaves : c.Leaves r a) :
    (c.store.linesIn c.geometry.ways (c.setOf a)).length = c.geometry.ways := by
  have hvalid := (h.exists_leaves_iff.mp ⟨a, hleaves⟩).2
  rw [(h.setOf_eq_of_leaves hleaves).2]
  exact hfills r.address hvalid

theorem Sound.fillsFirst_of_stamps {s : Stamps} (hstamps : c.replacement.stamps? = some s) :
    c.FillsFirst := by
  intro a hvalid
  rw [length_linesIn_eq_iff]
  exact (h.lineFor_of_stamps hstamps a).1.resolve_left (by simp [hvalid])

/-- A map has an empty place until all of its ways are taken. -/
theorem Sound.fillsFirst_of_map (hkind : c.store.kind = .map) : c.FillsFirst := by
  intro a hvalid
  obtain ⟨s, hstore⟩ := exists_map_of_kind hkind
  have hfull := (h.valid_lineFor_iff_full hstore a).mp hvalid
  have hcount := h.store.resident_eq
  rw [h.sets_eq_one hstore, Finset.sum_range_one] at hcount
  rw [h.setOf_eq_zero (h.sets_eq_one hstore), ← hcount]
  exact hfull

end

section

variable {c : Cache} (h : c.Built)
include h

/-- An ordered policy fills its sets first, and so does any policy on a map. -/
theorem Built.fillsFirst_after
    (hfills : c.geometry.policy.isStamped = true ∨ c.store.kind = .map) (rs : List Request) :
    (c.after rs).FillsFirst := by
  have hsound := h.sound.after rs
  rcases hfills with hstamped | hkind
  · rw [← h.policy_after rs] at hstamped
    obtain ⟨s, hstamps⟩ := Replacement.exists_stamps?_of_isStamped hstamped
    exact hsound.fillsFirst_of_stamps hstamps
  · exact hsound.fillsFirst_of_map (by rw [kind_after, hkind])

/-! ## What is held was used -/

/-- Only lines that were used are held. -/
theorem Built.used_of_contains {rs : List Request} {a : UInt64}
    (hheld : (c.after rs).contains a = true) : ∃ r ∈ rs, c.tagOf r.address = c.tagOf a := by
  induction rs using List.reverseRecOn with
  | nil =>
    rw [after_nil, contains, h.find_eq_none] at hheld
    cases hheld
  | append_singleton rs r ih =>
    have hsound := h.sound.after rs
    by_cases htag : c.tagOf r.address = c.tagOf a
    · exact ⟨r, by simp, htag⟩
    · -- Another line is held after the request only if it was held before.
      have hne : (c.after rs).tagOf a ≠ (c.after rs).tagOf r.address := by
        simpa using Ne.symm htag
      rw [after_append, after_cons, after_nil] at hheld
      have hstays : ¬ (c.after rs).Leaves r a := fun hleaves => by
        rw [hleaves.2] at hheld
        cases hheld
      rw [hsound.contains_access_of_stays hne hstays] at hheld
      obtain ⟨q, hq, hused⟩ := ih hheld
      exact ⟨q, List.mem_append_left _ hq, hused⟩

theorem Built.tagsIn_after_subset (rs : List Request) {set : ℕ} (hset : set < c.geometry.sets) :
    (c.after rs).tagsIn set ⊆ c.linesUsed set rs := by
  have hsound := h.sound.after rs
  intro tag htag
  obtain ⟨a, hhome, hline⟩ := hsound.exists_of_mem_tagsIn (by rwa [geometry_after]) htag
  rw [← hhome, ← hline, hsound.tagOf_mem_tagsIn] at htag
  rw [setOf_after] at hhome
  rw [tagOf_after] at hline
  rw [← hhome, ← hline]
  exact tagOf_mem_linesUsed.mpr (h.used_of_contains htag)

/-- A set holds no more lines than it has ways, and no more than were used. -/
theorem Built.card_tagsIn_after_le (rs : List Request) {set : ℕ} (hset : set < c.geometry.sets) :
    ((c.after rs).tagsIn set).card ≤ min c.geometry.ways (c.linesUsed set rs).card := by
  apply le_min _ (Finset.card_le_card (h.tagsIn_after_subset rs hset))
  rw [(h.sound.after rs).card_tagsIn (by rwa [geometry_after]), ← geometry_after c rs]
  exact length_linesIn_le (c.after rs) set

/-! ## What was used is held, or its set is full -/

section

variable (hfills : ∀ past, (c.after past).FillsFirst)
include hfills

/-- A line that was used and is no longer held belongs to a full set. -/
theorem Built.full_of_gone {rs : List Request} {a : UInt64}
    (hused : ∃ r ∈ rs, c.tagOf r.address = c.tagOf a) (hgone : (c.after rs).contains a = false) :
    ((c.after rs).store.linesIn c.geometry.ways (c.setOf a)).length = c.geometry.ways := by
  induction rs using List.reverseRecOn with
  | nil =>
    obtain ⟨r, hr, -⟩ := hused
    cases hr
  | append_singleton rs r ih =>
    have hsound := h.sound.after rs
    have hset : c.setOf a < (c.after rs).geometry.sets := by
      rw [geometry_after]
      exact h.sound.setOf_lt a
    rw [after_append, after_cons, after_nil] at hgone ⊢
    have hother : c.tagOf r.address ≠ c.tagOf a := by
      intro htag
      rw [hsound.contains_access_self (by simpa using htag.symm)] at hgone
      cases hgone
    rw [← geometry_after c rs] at ih ⊢
    apply hsound.full_access hset
    by_cases hbefore : (c.after rs).contains a = true
    · have hfull := hsound.full_of_leaves (hfills rs) ⟨hbefore, hgone⟩
      rwa [setOf_after] at hfull
    · obtain ⟨q, hq, hline⟩ := hused
      have hq : q ∈ rs := by
        rcases List.mem_append.mp hq with hq | hq
        · exact hq
        · exact absurd (List.mem_singleton.mp hq ▸ hline) hother
      exact ih ⟨q, hq, hline⟩ (by simpa using hbefore)

/-- **The number of lines in a set** is told by the lines of the set that were used. -/
theorem Built.card_tagsIn_after (rs : List Request) {set : ℕ} (hset : set < c.geometry.sets) :
    ((c.after rs).tagsIn set).card = min c.geometry.ways (c.linesUsed set rs).card := by
  apply le_antisymm (h.card_tagsIn_after_le rs hset)
  have hsound := h.sound.after rs
  by_cases hall : c.linesUsed set rs ⊆ (c.after rs).tagsIn set
  · exact (min_le_right _ _).trans (Finset.card_le_card hall)
  · obtain ⟨tag, hused, hgone⟩ := Finset.not_subset.mp hall
    obtain ⟨r, hr, rfl, rfl⟩ := mem_linesUsed.mp hused
    have hmissing : (c.after rs).contains r.address = false := by
      rw [← Bool.not_eq_true, ← hsound.tagOf_mem_tagsIn, tagOf_after, setOf_after]
      exact hgone
    have hfull := h.full_of_gone hfills ⟨r, hr, rfl⟩ hmissing
    apply (min_le_left _ _).trans
    rw [hsound.card_tagsIn (by rwa [geometry_after]), geometry_after, hfull]

/-! ## Sets that had room for everything -/

/-- As long as the lines that were used of a set fit into it, it holds all of them. -/
theorem Built.contains_after_iff_of_card_le {rs : List Request} {a : UInt64}
    (hfits : (c.linesUsed (c.setOf a) rs).card ≤ c.geometry.ways) :
    (c.after rs).contains a = true ↔ ∃ r ∈ rs, c.tagOf r.address = c.tagOf a := by
  have hset := h.sound.setOf_lt a
  have hcard := h.card_tagsIn_after hfills rs hset
  rw [min_eq_right hfits] at hcard
  have hsame := Finset.eq_of_subset_of_card_le (h.tagsIn_after_subset rs hset) hcard.ge
  rw [← (h.sound.after rs).tagOf_mem_tagsIn, tagOf_after, setOf_after, hsame, tagOf_mem_linesUsed]

/-- A missing line goes to an empty place if it still fits into its set. -/
theorem Built.lineFor_after_of_card_le {rs : List Request} {r : Request}
    (hfits : (c.linesUsed (c.setOf r.address) (rs ++ [r])).card ≤ c.geometry.ways)
    (hmiss : (c.after rs).contains r.address = false) :
    ((c.after rs).lineFor r.address).valid = false := by
  rw [Bool.eq_false_iff]
  intro hvalid
  have hset := h.sound.setOf_lt r.address
  have hsound := h.sound.after rs
  have hfull := hfills rs r.address hvalid
  have hset' : c.setOf r.address < (c.after rs).geometry.sets := by rwa [geometry_after]
  have hcard := hsound.card_tagsIn hset'
  rw [setOf_after, geometry_after] at hfull
  rw [geometry_after, hfull] at hcard
  have hnew : c.tagOf r.address ∉ (c.after rs).tagsIn (c.setOf r.address) := by
    rw [← setOf_after c rs, ← tagOf_after c rs, hsound.tagOf_mem_tagsIn, hmiss]
    exact Bool.false_ne_true
  -- The line of the request is one more than the ways of its set.
  have hsub : insert (c.tagOf r.address) ((c.after rs).tagsIn (c.setOf r.address)) ⊆
      c.linesUsed (c.setOf r.address) (rs ++ [r]) := by
    apply Finset.insert_subset (tagOf_mem_linesUsed.mpr ⟨r, by simp, rfl⟩)
    exact (h.tagsIn_after_subset rs hset).trans (linesUsed_subset_append c _ rs [r])
  have hle := Finset.card_le_card hsub
  rw [Finset.card_insert_of_notMem hnew, hcard] at hle
  omega

/-- A request whose line still fits into its set sends nothing back. -/
theorem Built.writesBack_after_of_card_le {rs : List Request} {r : Request}
    (hfits : (c.linesUsed (c.setOf r.address) (rs ++ [r])).card ≤ c.geometry.ways) :
    (c.after rs).writesBack r = false := by
  rw [Bool.eq_false_iff]
  intro hback
  obtain ⟨hmiss, hvalid, -⟩ := writesBack_eq_true_iff.mp hback
  rw [h.lineFor_after_of_card_le hfills hfits (contains_eq_false_iff.mpr hmiss)] at hvalid
  cases hvalid

end

end

/-! ## Runs that fit -/

/-- No set is asked for more lines than it has ways. -/
def HasRoom (c : Cache) (rs : List Request) : Prop :=
  ∀ set < c.geometry.sets, (c.linesUsed set rs).card ≤ c.geometry.ways

theorem HasRoom.of_append {c : Cache} {rs later : List Request} (h : c.HasRoom (rs ++ later)) :
    c.HasRoom rs := fun set hset =>
  (Finset.card_le_card (linesUsed_subset_append c set rs later)).trans (h set hset)

/-- How often a request for the line of `a` missed in a run. -/
def missesOf (c : Cache) (rs : List Request) (a : UInt64) : ℕ :=
  (c.outcomes rs).countP fun served => c.tagOf served.1.address == c.tagOf a && !served.2.isHit

theorem missesOf_concat (c : Cache) (rs : List Request) (r : Request) (a : UInt64) :
    c.missesOf (rs ++ [r]) a = c.missesOf rs a +
      if c.tagOf r.address = c.tagOf a ∧ (c.after rs).contains a = false then 1 else 0 := by
  rw [missesOf, outcomes_concat, List.countP_append, List.countP_singleton, isHit_outcome, missesOf]
  by_cases htag : c.tagOf r.address = c.tagOf a
  · have hsame : (c.after rs).contains r.address = (c.after rs).contains a := by
      rw [contains, find_eq_of_tagOf_eq (by simpa using htag), contains]
    simp [htag, hsame]
  · simp [htag]

section

variable {c : Cache} (h : c.Built) (hfills : ∀ past, (c.after past).FillsFirst)
include h hfills

/-- In a run that fits, a line misses when it is used for the first time, and never again. -/
theorem Built.missesOf_of_hasRoom {rs : List Request} (hroom : c.HasRoom rs) (a : UInt64) :
    c.missesOf rs a = if ∃ r ∈ rs, c.tagOf r.address = c.tagOf a then 1 else 0 := by
  induction rs using List.reverseRecOn with
  | nil => simp [missesOf, outcomes]
  | append_singleton rs r ih =>
    have hfits := hroom.of_append _ (h.sound.setOf_lt a)
    have hheld := h.contains_after_iff_of_card_le hfills hfits
    rw [missesOf_concat, ih hroom.of_append]
    simp only [← Bool.not_eq_true, hheld, List.mem_append, List.mem_singleton, or_and_right,
      exists_or, exists_eq_left]
    by_cases hbefore : ∃ q ∈ rs, c.tagOf q.address = c.tagOf a
    · simp only [hbefore, not_true, and_false, true_or, if_true, if_false]
    · simp only [hbefore, not_false_iff, and_true, false_or, if_false, Nat.zero_add]

/-- In a run that fits, no line is sent back. -/
theorem Built.writesBack_of_hasRoom {rs : List Request} (hroom : c.HasRoom rs)
    {past : List Request} {r : Request} (hpast : past ++ [r] <+: rs) :
    (c.after past).writesBack r = false := by
  obtain ⟨later, rfl⟩ := hpast
  exact h.writesBack_after_of_card_le hfills (hroom.of_append _ (h.sound.setOf_lt r.address))

theorem Built.tally_writebacks_of_hasRoom {rs : List Request} (hroom : c.HasRoom rs) :
    tally (charge .writebacks) c rs = 0 := by
  induction rs using List.reverseRecOn with
  | nil => exact tally_nil _ _
  | append_singleton rs r ih =>
    have hback := h.writesBack_of_hasRoom hfills hroom (List.prefix_refl _)
    rw [tally_concat, ih hroom.of_append, charge, hback]
    rfl

end

/-- **How many lines a cache holds.**  Let a new cache serve a run of any length.

* Under an ordered policy, or on a map under any policy, it holds as many lines as the sets were
  asked for, where a set counts for no more than its ways.  A line leaves only when its set is full.
  If no set is asked for more lines than it has ways, every line that is used misses once, nothing
  is sent down to be written, and no writeback is counted.
* Under any policy it holds no more lines than that, and their number never falls.
* Under any policy only lines are held that were used. -/
theorem occupancy_after {c : Cache} (h : c.Built) (rs : List Request) :
    ((c.geometry.policy.isStamped = true ∨ c.store.kind = .map) →
      (c.after rs).residentLines =
          ∑ set ∈ Finset.range c.geometry.sets, min c.geometry.ways (c.linesUsed set rs).card ∧
        (∀ past r a, (c.after past).Leaves r a →
          ((c.after past).store.linesIn c.geometry.ways (c.setOf a)).length =
            c.geometry.ways) ∧
        (c.HasRoom rs →
          (∀ r ∈ rs, c.missesOf rs r.address = 1) ∧
          (∀ past r, past ++ [r] <+: rs → ∀ q ∈ ((c.after past).access r).forwards,
            q.isWrite = false) ∧
          (c.after rs).counters.writebacks = 0)) ∧
    (c.after rs).residentLines ≤
        ∑ set ∈ Finset.range c.geometry.sets, min c.geometry.ways (c.linesUsed set rs).card ∧
    (∀ later, (c.after rs).residentLines ≤ (c.after (rs ++ later)).residentLines) ∧
    ∀ a, (c.after rs).contains a = true → ∃ r ∈ rs, c.tagOf r.address = c.tagOf a := by
  have hsound := h.sound.after rs
  have hcount := hsound.residentLines_eq_sum
  rw [geometry_after] at hcount
  refine ⟨fun hpolicy => ?_, ?_, fun later => ?_, fun a => h.used_of_contains⟩
  · have hfills := h.fillsFirst_after hpolicy
    refine ⟨?_, fun past r a hleaves => ?_, fun hroom => ⟨fun r hr => ?_, ?_, ?_⟩⟩
    · rw [hcount]
      refine Finset.sum_congr rfl fun set hset => ?_
      exact h.card_tagsIn_after hfills rs (Finset.mem_range.mp hset)
    · have hfull := (h.sound.after past).full_of_leaves (hfills past) hleaves
      rwa [geometry_after, setOf_after] at hfull
    · rw [h.missesOf_of_hasRoom hfills hroom, if_pos ⟨r, hr, rfl⟩]
    · intro past r hpast q hq
      have hback := h.writesBack_of_hasRoom hfills hroom hpast
      rw [← Bool.not_eq_true]
      intro hwrite
      obtain ⟨hmiss, hsent⟩ := mem_forwards_write_iff.mp ⟨hq, hwrite⟩
      rw [writesBack, contains, hmiss, hsent] at hback
      cases hback
    · have hzero := h.toNat_get_after_modEq rs .writebacks
      rw [h.tally_writebacks_of_hasRoom hfills hroom] at hzero
      exact UInt64.toNat_inj.mp (hzero.eq_of_lt_of_lt (UInt64.toNat_lt _) (by decide))
  · rw [hcount]
    refine Finset.sum_le_sum fun set hset => ?_
    exact h.card_tagsIn_after_le rs (Finset.mem_range.mp hset)
  · rw [after_append]
    exact hsound.residentLines_le_after later

/-- Two sets of two ways: the first run fits and leaves one place empty; behind it a third line of
the first set drives out the line that came first. -/
theorem occupancy_after_two_sets :
    let c := fresh .array ⟨2, 2, 8, .fifo⟩ "L1$" default
    let rs : List Request := [⟨0, 8, true⟩, ⟨16, 8, true⟩, ⟨8, 8, false⟩, ⟨4, 4, false⟩]
    buildWith .array ⟨2, 2, 8, .fifo⟩ "L1$" default = .ok c ∧ c.geometry.policy.isStamped = true ∧
      c.HasRoom rs ∧ (c.after rs).residentLines = 3 ∧ c.missesOf rs 4 = 1 ∧
      (c.after rs).counters.writebacks = 0 ∧ (c.after rs).Leaves ⟨32, 8, false⟩ 0 ∧
      ((c.after rs).store.linesIn 2 (c.setOf 0)).length = 2 ∧
      (c.after rs).contains 20 = true ∧ ∃ r ∈ rs, c.tagOf r.address = c.tagOf 20 := by
  intro c rs
  have hbuild : buildWith .array ⟨2, 2, 8, .fifo⟩ "L1$" default = .ok c := rfl
  have hstamped : c.geometry.policy.isStamped = true := rfl
  have hroom : c.HasRoom rs := by
    intro set hset
    have hset : set < 2 := hset
    interval_cases set <;> decide
  have hleaves : (c.after rs).Leaves ⟨32, 8, false⟩ 0 := ⟨by decide, by decide⟩
  have hheld : (c.after rs).contains 20 = true := by decide
  obtain ⟨hfills, -, -, hused⟩ := occupancy_after (.setAssociative hbuild) rs
  obtain ⟨hcount, hfull, hfits⟩ := hfills (.inl hstamped)
  obtain ⟨honce, -, hclean⟩ := hfits hroom
  refine ⟨hbuild, hstamped, hroom, hcount.trans ?_, honce ⟨4, 4, false⟩ (by simp [rs]), hclean,
    hleaves, hfull rs _ 0 hleaves, hheld, hused 20 hheld⟩
  decide

end Cache

end CacheModel
