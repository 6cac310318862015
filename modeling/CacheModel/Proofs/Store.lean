import Mathlib
import CacheModel.TagStore

/-!
# Stores seen through their places

The two kinds of stores keep lines in different ways: one scans a fixed array, the other adds
places on demand and looks tags up in a map.  A store is *sound* if it keeps its own promises: the
array has a place for every way of every set and no set holds a tag twice; the places of a map
store all hold lines, and its map sends a tag to the place of the line with that tag.

A sound store of either kind is described by the line at each way of each set, where the places
that a map store has not added yet count as empty.  The statements below say what every operation
does to these lines, and that look-ups are exact.  Later modules use nothing else about stores.
-/

namespace CacheModel

/-! ## Places in one array -/

theorem slot_lt {sets ways set way : ℕ} (hset : set < sets) (hway : way < ways) :
    set * ways + way < sets * ways := by
  have hle : (set + 1) * ways ≤ sets * ways := Nat.mul_le_mul_right _ hset
  rw [Nat.add_mul, Nat.one_mul] at hle
  omega

/-- Different ways, and ways of different sets, lie at different places. -/
theorem slot_inj {ways set way set' way' : ℕ} (hway : way < ways) (hway' : way' < ways) :
    set * ways + way = set' * ways + way' ↔ set = set' ∧ way = way' := by
  constructor
  · intro heq
    have hset : set = set' := by
      have hquot := congrArg (· / ways) heq
      simpa [Nat.add_div_of_dvd_right (Nat.dvd_mul_left ways _), Nat.div_eq_of_lt hway,
        Nat.div_eq_of_lt hway', Nat.mul_div_cancel _ (Nat.zero_lt_of_lt hway)] using hquot
    subst hset
    exact ⟨rfl, by omega⟩
  · rintro ⟨rfl, rfl⟩
    rfl

/-- Counting over one array is counting set by set. -/
theorem countP_range_mul (p : ℕ → Bool) (sets ways : ℕ) :
    (List.range (sets * ways)).countP p =
      ∑ set ∈ Finset.range sets, (List.range ways).countP fun way => p (set * ways + way) := by
  induction sets with
  | zero => simp
  | succ sets ih =>
    rw [Nat.succ_mul, List.range_add, List.countP_append, ih, Finset.sum_range_succ,
      List.countP_map]
    rfl

theorem Line.holds_iff {line : Line} {tag : UInt64} :
    line.holds tag = true ↔ line.valid = true ∧ line.tag = tag := by
  simp [Line.holds]

theorem Line.eq_mk_of_holds {line : Line} {tag : UInt64} (h : line.holds tag = true) :
    line = { tag, valid := true, dirty := line.dirty } := by
  obtain ⟨hvalid, htag⟩ := holds_iff.mp h
  rw [← hvalid, ← htag]

/-! ## The array store -/

namespace ArrayStore

/-- The array has a place for every way of every set, and no set holds a tag twice. -/
structure Sound (s : ArrayStore) (sets ways : ℕ) : Prop where
  ways_eq : s.ways = ways
  size_eq : s.lines.size = sets * ways
  unique : ∀ {set tag way way'}, set < sets → way < ways → way' < ways →
    (s.line set way).holds tag = true → (s.line set way').holds tag = true → way = way'

@[simp] theorem line_fresh (sets ways set way : ℕ) :
    (fresh sets ways).line set way = Line.empty := by
  simp only [line, fresh, slot, Array.getD_eq_getD_getElem?, Array.getElem?_replicate]
  split <;> rfl

theorem sound_fresh (sets ways : ℕ) : (fresh sets ways).Sound sets ways where
  ways_eq := rfl
  size_eq := by simp [fresh]
  unique := by simp

variable {s : ArrayStore} {sets ways : ℕ} (h : s.Sound sets ways)
include h

/-- Looking a tag up finds the way that holds it. -/
theorem Sound.find_iff {set way : ℕ} {tag : UInt64} (hset : set < sets) :
    s.find set tag = some way ↔ way < ways ∧ (s.line set way).holds tag = true := by
  have hways := h.ways_eq
  rw [find, setLines, List.findIdx?_eq_some_iff_getElem]
  simp only [List.length_map, List.length_range, List.getElem_map, List.getElem_range, hways]
  constructor
  · rintro ⟨hlt, hholds, -⟩
    exact ⟨hlt, hholds⟩
  · rintro ⟨hlt, hholds⟩
    refine ⟨hlt, hholds, ?_⟩
    intro other hother hholds'
    exact absurd (h.unique hset (hother.trans hlt) hlt hholds' hholds) hother.ne

theorem Sound.line_put {set way set' way' : ℕ} (line : Line) (hset : set < sets)
    (hway : way < ways) (hway' : way' < ways) :
    (s.put set way line).line set' way' =
      if set' = set ∧ way' = way then line else s.line set' way' := by
  have hways := h.ways_eq
  split
  · next heq =>
    obtain ⟨rfl, rfl⟩ := heq
    refine line_put_self s line ?_
    rw [slot, hways, h.size_eq]
    exact slot_lt hset hway
  · next hne =>
    refine line_put_of_ne s line ?_
    rw [slot, slot, hways, Ne, slot_inj hway' hway]
    exact hne

/-- A line may be put where it stands already, or into a set that does not hold its tag. -/
theorem Sound.put {set way : ℕ} {line : Line} (hset : set < sets) (hway : way < ways)
    (hnew : ∀ way' < ways, way' ≠ way → (s.line set way').holds line.tag = false) :
    (s.put set way line).Sound sets ways where
  ways_eq := h.ways_eq
  size_eq := by rw [size_put, h.size_eq]
  unique {set₁ tag way₁ way₂} hset₁ hway₁ hway₂ := by
    rw [h.line_put line hset hway hway₁, h.line_put line hset hway hway₂]
    -- Only the case with one new and one old line needs the assumption on the tag.
    split <;> split
    · next heq₁ heq₂ => exact fun _ _ => heq₁.2.trans heq₂.2.symm
    · next heq₁ hne₂ =>
      obtain ⟨rfl, rfl⟩ := heq₁
      intro hholds₁ hholds₂
      have hne : way₂ ≠ way₁ := fun heq => hne₂ ⟨rfl, heq⟩
      rw [← (Line.holds_iff.mp hholds₁).2, hnew way₂ hway₂ hne] at hholds₂
      cases hholds₂
    · next hne₁ heq₂ =>
      obtain ⟨rfl, rfl⟩ := heq₂
      intro hholds₁ hholds₂
      have hne : way₁ ≠ way₂ := fun heq => hne₁ ⟨rfl, heq⟩
      rw [← (Line.holds_iff.mp hholds₂).2, hnew way₁ hway₁ hne] at hholds₁
      cases hholds₁
    · exact h.unique hset₁ hway₁ hway₂

/-- The places that hold a line, counted set by set. -/
theorem Sound.resident_eq :
    s.resident = ∑ set ∈ Finset.range sets, (List.range ways).countP fun way =>
      (s.line set way).valid := by
  have hlines : s.lines.toList =
      (List.range (sets * ways)).map fun place => s.lines.getD place Line.empty := by
    rw [← h.size_eq]
    apply List.ext_getElem (by simp)
    intro place hplace _
    have hlt : place < s.lines.size := by simpa using hplace
    simp [hlt]
  rw [resident, ← Array.countP_toList, hlines, List.countP_map, countP_range_mul]
  apply Finset.sum_congr rfl
  intro set _
  simp only [line, slot, h.ways_eq]
  rfl

end ArrayStore

/-! ## The map store -/

/-- Among entries that have every key once, a look-up finds the entries. -/
theorem mem_iff_lookup {κ α : Type} [BEq κ] [LawfulBEq κ] {entries : List (κ × α)} {key : κ} {a : α}
    (h : (entries.map Prod.fst).Nodup) : (key, a) ∈ entries ↔ entries.lookup key = some a := by
  induction entries with
  | nil => simp
  | cons entry rest ih =>
    obtain ⟨first, value⟩ := entry
    rw [List.map_cons, List.nodup_cons] at h
    by_cases hkey : key = first
    · subst hkey
      have hother : (key, a) ∉ rest := fun hmem => h.1 (List.mem_map.mpr ⟨_, hmem, rfl⟩)
      simp [hother, eq_comm]
    · have hne : (key == first) = false := beq_eq_false_iff_ne.mpr hkey
      simpa [List.lookup_cons, hkey, hne] using ih h.2

namespace TagIndex

theorem nodup_erase {index : TagIndex} (tag : UInt64) (h : (index.map Prod.fst).Nodup) :
    ((index.erase tag).map Prod.fst).Nodup :=
  h.sublist (List.filter_sublist.map Prod.fst)

theorem nodup_insert {index : TagIndex} (tag : UInt64) (place : ℕ)
    (h : (index.map Prod.fst).Nodup) : ((index.insert tag place).map Prod.fst).Nodup := by
  rw [insert, List.map_cons, List.nodup_cons]
  refine ⟨?_, nodup_erase tag h⟩
  intro hmem
  obtain ⟨entry, hentry, heq⟩ := List.mem_map.mp hmem
  have hne := (List.mem_filter.mp hentry).2
  simp [heq] at hne

theorem mem_iff_find {index : TagIndex} {tag : UInt64} {place : ℕ}
    (h : (index.map Prod.fst).Nodup) : (tag, place) ∈ index ↔ index.find tag = some place :=
  mem_iff_lookup h

end TagIndex

namespace MapStore

/-- Every place holds a line, and the map sends a tag to the place of the line with that tag. -/
structure Sound (s : MapStore) (ways : ℕ) : Prop where
  ways_eq : s.ways = ways
  size_le : s.lines.size ≤ ways
  valid : ∀ {way}, way < s.lines.size → (s.line way).valid = true
  find_iff : ∀ {tag way}, s.find tag = some way ↔ way < s.lines.size ∧ (s.line way).tag = tag
  keys_nodup : (s.index.map Prod.fst).Nodup

theorem line_of_size_le {s : MapStore} {way : ℕ} (h : s.lines.size ≤ way) :
    s.line way = Line.empty := by
  simp [line, h]

/-- A line stands at a place that was added. -/
theorem lt_size_of_valid {s : MapStore} {way : ℕ} (h : (s.line way).valid = true) :
    way < s.lines.size := by
  by_contra hge
  rw [line_of_size_le (not_lt.mp hge)] at h
  cases h

theorem sound_fresh (ways : ℕ) : (fresh ways).Sound ways where
  ways_eq := rfl
  size_le := Nat.zero_le ways
  valid := by simp [fresh]
  find_iff := by simp [fresh, find, TagIndex.find]
  keys_nodup := by simp [fresh]

@[simp] theorem line_fresh (ways way : ℕ) : (fresh ways).line way = Line.empty :=
  line_of_size_le (Nat.zero_le way)

theorem install_fst (s : MapStore) (way : ℕ) (tag : UInt64) :
    (s.install way tag).1 = s.line way := by
  unfold install
  split
  · next heq => exact (line_of_size_le heq.ge).symm
  · rfl

/-- Installing a line changes one place, which may be the next one to be added. -/
theorem line_install {s : MapStore} {way : ℕ} (h : way ≤ s.lines.size) (tag : UInt64)
    (way' : ℕ) :
    (s.install way tag).2.line way' = if way' = way then Line.fresh tag else s.line way' := by
  unfold install
  split
  · next heq =>
    subst heq
    simp only [line, Array.getD_eq_getD_getElem?, Array.getElem?_push]
    split <;> rfl
  · next hne =>
    split
    · next heq =>
      subst heq
      exact line_put_self s _ (by omega)
    · next hother => exact line_put_of_ne s _ hother

theorem size_install {s : MapStore} {way : ℕ} (h : way ≤ s.lines.size) (tag : UInt64) :
    (s.install way tag).2.lines.size = max s.lines.size (way + 1) := by
  unfold install
  split
  · next heq => simp [heq]
  · next hne =>
    simp only [put, Array.size_setIfInBounds]
    omega

variable {s : MapStore} {ways : ℕ} (h : s.Sound ways)
include h

theorem Sound.size_eq_of_isFull (hfull : s.isFull = true) : s.lines.size = ways := by
  have hle : ways ≤ s.lines.size := by simpa [isFull, h.ways_eq] using hfull
  exact le_antisymm h.size_le hle

/-- Looking a tag up finds the way that holds it. -/
theorem Sound.find_iff_holds {tag : UInt64} {way : ℕ} :
    s.find tag = some way ↔ way < ways ∧ (s.line way).holds tag = true := by
  rw [h.find_iff, Line.holds_iff]
  constructor
  · rintro ⟨hlt, htag⟩
    exact ⟨hlt.trans_le h.size_le, h.valid hlt, htag⟩
  · rintro ⟨-, hvalid, htag⟩
    exact ⟨lt_size_of_valid hvalid, htag⟩

/-- The map after an installation: the new tag is found at its place, the tag of a replaced line
is gone, and other tags are found where they were. -/
theorem Sound.find_install_iff {way : ℕ} {tag : UInt64} (hway : way ≤ s.lines.size)
    (hnew : s.find tag = none) (tag' : UInt64) (way' : ℕ) :
    (s.install way tag).2.find tag' = some way' ↔
      if tag' = tag then way' = way else s.find tag' = some way' ∧ way' ≠ way := by
  by_cases htag : tag' = tag
  · subst htag
    simp [eq_comm]
  · rw [if_neg htag]
    unfold install
    split
    · next heq =>
      have hfind : (s.index.insert tag way).find tag' = s.find tag' :=
        TagIndex.find_insert_of_ne _ _ htag
      show (s.index.insert tag way).find tag' = some way' ↔ _
      rw [hfind]
      refine ⟨fun hsome => ⟨hsome, ?_⟩, And.left⟩
      have := (h.find_iff.mp hsome).1
      omega
    · next hne =>
      have hlt : way < s.lines.size := by omega
      have hold : s.find (s.line way).tag = some way := h.find_iff.mpr ⟨hlt, rfl⟩
      show ((if (s.line way).valid then s.index.erase (s.line way).tag else s.index).insert
        tag way).find tag' = some way' ↔ _
      rw [if_pos (h.valid hlt), TagIndex.find_insert_of_ne _ _ htag]
      by_cases hleft : tag' = (s.line way).tag
      · subst hleft
        rw [TagIndex.find_erase_self, hold]
        simp [eq_comm]
      · rw [TagIndex.find_erase_of_ne _ hleft]
        refine ⟨fun hsome => ⟨hsome, ?_⟩, And.left⟩
        rintro rfl
        exact hleft (h.find_iff.mp hsome).2.symm

theorem Sound.install {way : ℕ} {tag : UInt64} (hway : way ≤ s.lines.size) (hlt : way < ways)
    (hnew : s.find tag = none) : (s.install way tag).2.Sound ways where
  ways_eq := by
    rw [← h.ways_eq, MapStore.install]
    split <;> rfl
  size_le := by
    rw [size_install hway]
    have := h.size_le
    omega
  valid {way'} hway' := by
    rw [line_install hway]
    split
    · rfl
    · rw [size_install hway] at hway'
      exact h.valid (by omega)
  find_iff {tag' way'} := by
    rw [h.find_install_iff hway hnew, line_install hway, size_install hway]
    have habsent : ∀ way' < s.lines.size, (s.line way').tag ≠ tag := fun way' hway' heq => by
      rw [h.find_iff.mpr ⟨hway', heq⟩] at hnew
      cases hnew
    by_cases htag : tag' = tag
    · rw [if_pos htag, htag]
      by_cases heq : way' = way
      · simp [heq, Line.fresh]
      · rw [if_neg heq]
        apply iff_of_false heq
        intro hother
        exact habsent way' (by omega) hother.2
    · rw [if_neg htag, h.find_iff]
      by_cases heq : way' = way
      · simp [heq, Line.fresh, Ne.symm htag]
      · rw [if_neg heq]
        constructor
        · rintro ⟨⟨hsize, hother⟩, -⟩
          exact ⟨by omega, hother⟩
        · rintro ⟨hsize, hother⟩
          exact ⟨⟨by omega, hother⟩, heq⟩
  keys_nodup := by
    unfold MapStore.install
    split
    · exact TagIndex.nodup_insert _ _ h.keys_nodup
    · refine TagIndex.nodup_insert _ _ ?_
      split
      · exact TagIndex.nodup_erase _ h.keys_nodup
      · exact h.keys_nodup

/-- A line may be replaced by a valid one with the same tag. -/
theorem Sound.put {way : ℕ} {line : Line} (hway : way < s.lines.size)
    (htag : line.tag = (s.line way).tag) (hvalid : line.valid = true) :
    (s.put way line).Sound ways := by
  have hline : ∀ way', (s.put way line).line way' = if way' = way then line else s.line way' := by
    intro way'
    split
    · next heq => rw [heq, line_put_self s line hway]
    · next hne => exact line_put_of_ne s line hne
  have hsize : (s.put way line).lines.size = s.lines.size := by simp [MapStore.put]
  refine ⟨h.ways_eq, hsize ▸ h.size_le, fun {way'} hway' => ?_, fun {tag way'} => ?_, h.keys_nodup⟩
  · rw [hline]
    split
    · exact hvalid
    · exact h.valid (hsize ▸ hway')
  · rw [hline, hsize]
    refine h.find_iff.trans ?_
    split
    · next heq => rw [heq, htag]
    · rfl

/-- The map has one entry for every line: its tag and its place. -/
theorem Sound.index_perm : s.index.Perm (s.lines.toList.map Line.tag).zipIdx := by
  have hindex : s.index.Nodup := h.keys_nodup.of_map Prod.fst
  have hplaces : (s.lines.toList.map Line.tag).zipIdx.Nodup := by
    refine List.Nodup.of_map Prod.snd ?_
    rw [List.zipIdx_map_snd]
    exact List.nodup_range'
  rw [List.perm_ext_iff_of_nodup hindex hplaces]
  rintro ⟨tag, way⟩
  rw [TagIndex.mem_iff_find h.keys_nodup, List.mk_mem_zipIdx_iff_getElem?, List.getElem?_map,
    Option.map_eq_some_iff]
  refine h.find_iff.trans ?_
  by_cases hway : way < s.lines.size <;> simp [line, hway]

/-- No two lines have the same tag. -/
theorem Sound.nodup_map_tag : (s.lines.toList.map Line.tag).Nodup := by
  have hkeys := (h.index_perm.map Prod.fst).nodup_iff.mp h.keys_nodup
  rwa [List.zipIdx_map_fst] at hkeys

theorem Sound.resident_eq : s.resident = s.lines.size := by
  simpa [resident] using h.index_perm.length_eq

/-- The places that hold a line are the ones that were added. -/
theorem Sound.countP_valid :
    (List.range ways).countP (fun way => (s.line way).valid) = s.lines.size := by
  obtain ⟨room, hroom⟩ := Nat.exists_eq_add_of_le h.size_le
  rw [hroom, List.range_add, List.countP_append]
  have hheld : (List.range s.lines.size).countP (fun way => (s.line way).valid) =
      s.lines.size := by
    rw [List.countP_eq_length.mpr fun way hway => h.valid (List.mem_range.mp hway),
      List.length_range]
  have hfree : ((List.range room).map (s.lines.size + ·)).countP
      (fun way => (s.line way).valid) = 0 := by
    rw [List.countP_eq_zero]
    intro way hway
    obtain ⟨extra, -, rfl⟩ := List.mem_map.mp hway
    rw [line_of_size_le (Nat.le_add_right _ _)]
    exact Bool.false_ne_true
  rw [hheld, hfree, Nat.add_zero]

end MapStore

/-! ## Both kinds of stores -/

namespace TagStore

/-- The store keeps the promises of its kind.  A map store has a single set. -/
def Sound (sets ways : ℕ) : TagStore → Prop
  | array s => s.Sound sets ways
  | map s => sets = 1 ∧ s.Sound ways

/-- The ways that a line may be installed at: a map store has no place beyond the next one. -/
def Offers (ways way : ℕ) : TagStore → Prop
  | array _ => way < ways
  | map s => way < ways ∧ way ≤ s.lines.size

/-- The places of a set, in order. -/
def places (ways set : ℕ) (s : TagStore) : List Line :=
  (List.range ways).map (s.line set)

/-- The lines that a set holds. -/
def linesIn (ways set : ℕ) (s : TagStore) : List Line :=
  (s.places ways set).filter Line.valid

@[simp] theorem length_places (ways set : ℕ) (s : TagStore) :
    (s.places ways set).length = ways := by
  simp [places]

theorem mem_places {ways set : ℕ} {s : TagStore} {line : Line} :
    line ∈ s.places ways set ↔ ∃ way < ways, s.line set way = line := by
  simp [places]

theorem mem_map_tag_linesIn {ways set : ℕ} {s : TagStore} {tag : UInt64} :
    tag ∈ (s.linesIn ways set).map Line.tag ↔
      ∃ way < ways, (s.line set way).holds tag = true := by
  simp only [linesIn, List.mem_map, List.mem_filter, mem_places, Line.holds_iff]
  constructor
  · rintro ⟨_, ⟨⟨way, hway, rfl⟩, hvalid⟩, htag⟩
    exact ⟨way, hway, hvalid, htag⟩
  · rintro ⟨way, hway, hvalid, htag⟩
    exact ⟨_, ⟨⟨way, hway, rfl⟩, hvalid⟩, htag⟩

theorem sound_fresh {kind : StoreKind} {sets : ℕ} (ways : ℕ) (h : kind = .map → sets = 1) :
    (fresh kind sets ways).Sound sets ways := by
  cases kind with
  | array => exact ArrayStore.sound_fresh sets ways
  | map => exact ⟨h rfl, MapStore.sound_fresh ways⟩

@[simp] theorem line_fresh (kind : StoreKind) (sets ways set way : ℕ) :
    (fresh kind sets ways).line set way = Line.empty := by
  cases kind with
  | array => exact ArrayStore.line_fresh sets ways set way
  | map => exact MapStore.line_fresh ways way

@[simp] theorem install_fst (s : TagStore) (set way : ℕ) (tag : UInt64) :
    (s.install set way tag).1 = s.line set way := by
  cases s with
  | array s => rfl
  | map s => exact s.install_fst way tag

theorem Offers.lt {s : TagStore} {ways way : ℕ} (h : s.Offers ways way) : way < ways := by
  cases s with
  | array s => exact h
  | map s => exact h.1

variable {s : TagStore} {sets ways : ℕ} (h : s.Sound sets ways)
include h

/-- Looking a tag up finds the way that holds it. -/
theorem Sound.find_iff {set way : ℕ} {tag : UInt64} (hset : set < sets) :
    s.find set tag = some way ↔ way < ways ∧ (s.line set way).holds tag = true := by
  cases s with
  | array s => exact ArrayStore.Sound.find_iff h hset
  | map s => exact h.2.find_iff_holds

/-- A tag that is not found is held nowhere in its set. -/
theorem Sound.find_eq_none_iff {set : ℕ} {tag : UInt64} (hset : set < sets) :
    s.find set tag = none ↔ ∀ way < ways, (s.line set way).holds tag = false := by
  simp only [Option.eq_none_iff_forall_ne_some, Ne, h.find_iff hset, not_and, Bool.not_eq_true]

theorem Sound.holds_unique {set way way' : ℕ} {tag : UInt64} (hset : set < sets)
    (hway : way < ways) (hway' : way' < ways) (hholds : (s.line set way).holds tag = true)
    (hholds' : (s.line set way').holds tag = true) : way = way' := by
  have hfind := (h.find_iff hset).mpr ⟨hway, hholds⟩
  rw [(h.find_iff hset).mpr ⟨hway', hholds'⟩] at hfind
  exact (Option.some.inj hfind).symm

/-- No set holds a line twice. -/
theorem Sound.nodup_map_tag_linesIn {set : ℕ} (hset : set < sets) :
    ((s.linesIn ways set).map Line.tag).Nodup := by
  rw [linesIn, places, List.filter_map, List.map_map]
  refine List.Nodup.map_on (fun way hway way' hway' htag => ?_) (List.nodup_range.filter _)
  obtain ⟨hlt, hvalid⟩ := List.mem_filter.mp hway
  obtain ⟨hlt', hvalid'⟩ := List.mem_filter.mp hway'
  exact h.holds_unique hset (List.mem_range.mp hlt) (List.mem_range.mp hlt')
    (Line.holds_iff.mpr ⟨hvalid, rfl⟩) (Line.holds_iff.mpr ⟨hvalid', htag.symm⟩)

theorem Sound.install {set way : ℕ} {tag : UInt64} (hset : set < sets)
    (hway : s.Offers ways way) (hnew : s.find set tag = none) :
    (s.install set way tag).2.Sound sets ways := by
  have hfree := (h.find_eq_none_iff hset).mp hnew
  cases s with
  | array s => exact ArrayStore.Sound.put h hset hway fun way' hway' _ => hfree way' hway'
  | map s => exact ⟨h.1, h.2.install hway.2 hway.1 hnew⟩

/-- Installing a line changes one place. -/
theorem Sound.line_install {set way set' way' : ℕ} (tag : UInt64) (hset : set < sets)
    (hway : s.Offers ways way) (hset' : set' < sets) (hway' : way' < ways) :
    (s.install set way tag).2.line set' way' =
      if set' = set ∧ way' = way then Line.fresh tag else s.line set' way' := by
  cases s with
  | array s => exact ArrayStore.Sound.line_put h _ hset hway hway'
  | map s =>
    obtain ⟨rfl, -⟩ := h
    have hsame : set' = set := by omega
    simp only [hsame, true_and]
    exact MapStore.line_install hway.2 tag way'

/-- What is installed stands at its way. -/
theorem Sound.valid_line_install {set way : ℕ} (tag : UInt64) (hset : set < sets)
    (hway : s.Offers ways way) : ((s.install set way tag).2.line set way).valid = true := by
  rw [h.line_install tag hset hway hset hway.lt, if_pos ⟨rfl, rfl⟩]
  rfl

/-- Setting the dirty bit of a line changes its place only. -/
theorem Sound.line_setDirty {set way set' way' : ℕ} (dirty : Bool) (hset : set < sets)
    (hway : way < ways) (hvalid : (s.line set way).valid = true) (hset' : set' < sets)
    (hway' : way' < ways) :
    (s.setDirty set way dirty).line set' way' =
      if set' = set ∧ way' = way then { s.line set way with dirty } else s.line set' way' := by
  cases s with
  | array s => exact ArrayStore.Sound.line_put h _ hset hway hway'
  | map s =>
    obtain ⟨rfl, h⟩ := h
    have hsame : set' = set := by omega
    have hlt : way < s.lines.size := MapStore.lt_size_of_valid hvalid
    simp only [hsame, true_and]
    split
    · next heq =>
      subst heq
      exact MapStore.line_put_self s _ hlt
    · next hne => exact MapStore.line_put_of_ne s _ hne

theorem Sound.setDirty {set way : ℕ} (dirty : Bool) (hset : set < sets) (hway : way < ways)
    (hvalid : (s.line set way).valid = true) : (s.setDirty set way dirty).Sound sets ways := by
  cases s with
  | array s =>
    apply ArrayStore.Sound.put h hset hway
    intro way' hway' hne
    rw [Bool.eq_false_iff]
    intro hholds
    have hself : (s.line set way).holds (s.line set way).tag = true :=
      Line.holds_iff.mpr ⟨hvalid, rfl⟩
    exact hne (ArrayStore.Sound.unique h hset hway' hway hholds hself)
  | map s =>
    exact ⟨h.1, h.2.put (MapStore.lt_size_of_valid hvalid) rfl hvalid⟩

/-- The number of lines is counted set by set. -/
theorem Sound.resident_eq :
    s.resident = ∑ set ∈ Finset.range sets, (s.linesIn ways set).length := by
  have hcount : ∀ set, (s.linesIn ways set).length =
      (List.range ways).countP fun way => (s.line set way).valid := by
    intro set
    rw [linesIn, places, ← List.countP_eq_length_filter, List.countP_map]
    rfl
  simp only [hcount]
  cases s with
  | array s => exact ArrayStore.Sound.resident_eq h
  | map s =>
    obtain ⟨rfl, h⟩ := h
    rw [Finset.sum_range_one]
    exact h.resident_eq.trans h.countP_valid.symm

end TagStore

end CacheModel
