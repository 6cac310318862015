import Mathlib
import CacheModel.Proofs.Store

/-!
# Where a missing line goes

The ordered policies take the first way without a line and otherwise the first one with the least
stamp, so that their choice depends on the places of the set alone.  A map store asks for no
choice while it has room, but the place it adds is then the first one without a line.  Under an
ordered policy the two kinds of stores therefore choose alike.  The random policy does not look at
the places, and all that holds in general is that a chosen way is one that the store offers.
-/

namespace CacheModel

namespace Stamps

/-- The stamps of a cache with this many sets and ways. -/
structure Fits (s : Stamps) (sets ways : ℕ) : Prop where
  ways_eq : s.ways = ways
  size_eq : s.stamps.size = sets * ways

theorem fits_fresh (sets ways : ℕ) : (fresh sets ways).Fits sets ways where
  ways_eq := rfl
  size_eq := by simp [fresh]

@[simp] theorem stamp_fresh (sets ways set way : ℕ) : (fresh sets ways).stamp set way = 0 := by
  simp only [stamp, fresh, slot, Array.getD_eq_getD_getElem?, Array.getElem?_replicate]
  split <;> rfl

/-- The clock counts accesses until it comes round. -/
theorem toNat_clock_tick {s : Stamps} (h : s.clock.toNat + 1 < 2 ^ 64) :
    s.tick.clock.toNat = s.clock.toNat + 1 := by
  rw [tick, UInt64.toNat_add]
  exact Nat.mod_eq_of_lt h

section

variable {s : Stamps} {sets ways : ℕ} (h : s.Fits sets ways)
include h

theorem Fits.tick : s.tick.Fits sets ways := ⟨h.ways_eq, h.size_eq⟩

theorem Fits.mark (set way : ℕ) : (s.mark set way).Fits sets ways where
  ways_eq := h.ways_eq
  size_eq := by simp [Stamps.mark, h.size_eq]

/-- Marking a way gives it the present time and leaves the other stamps alone. -/
theorem Fits.stamp_mark {set way set' way' : ℕ} (hset : set < sets) (hway : way < ways)
    (hway' : way' < ways) :
    (s.mark set way).stamp set' way' =
      if set' = set ∧ way' = way then s.clock else s.stamp set' way' := by
  split
  · next heq =>
    obtain ⟨rfl, rfl⟩ := heq
    refine stamp_mark_self s ?_
    rw [slot, h.ways_eq, h.size_eq]
    exact slot_lt hset hway
  · next hne =>
    refine stamp_mark_of_ne s ?_
    rw [slot, slot, h.ways_eq, Ne, slot_inj hway' hway]
    exact hne

end

/-! ## The choice of the ordered policies -/

/-- The place of the least number is a place of the list, and no number is below it. -/
theorem firstLeast_spec {ns : List ℕ} (h : ns ≠ []) :
    ∃ hlt : firstLeast ns < ns.length, ∀ n ∈ ns, ns[firstLeast ns] ≤ n := by
  obtain ⟨least, hleast⟩ := Option.isSome_iff_exists.mp (List.isSome_min?_of_ne_nil h)
  obtain ⟨hmem, hle⟩ := List.min?_eq_some_iff.mp hleast
  have hplace : firstLeast ns = ns.idxOf least := by rw [firstLeast, hleast]
  refine ⟨hplace ▸ List.idxOf_lt_length_of_mem hmem, ?_⟩
  intro n hn
  simp only [hplace, List.getElem_idxOf]
  exact hle n hn

/-- No earlier place than the chosen one holds the least number. -/
theorem firstLeast_le {ns : List ℕ} {k : ℕ} (hk : k < ns.length) (hleast : ∀ n ∈ ns, ns[k] ≤ n) :
    firstLeast ns ≤ k := by
  obtain ⟨least, hmin⟩ := Option.isSome_iff_exists.mp
    (List.isSome_min?_of_ne_nil (List.ne_nil_of_length_pos (Nat.zero_lt_of_lt hk)))
  obtain ⟨hmem, hle⟩ := List.min?_eq_some_iff.mp hmin
  have heq : ns[k] = least := le_antisymm (hleast least hmem) (hle _ (List.getElem_mem hk))
  rw [firstLeast, hmin]
  by_contra hlt
  have hbefore := List.not_of_lt_findIdx (not_le.mp hlt)
  simp [heq] at hbefore

/-- The place of the least number depends on the order of the numbers only. -/
theorem firstLeast_congr {ns ms : List ℕ} (hlength : ns.length = ms.length)
    (horder : ∀ (k l : ℕ) (hk : k < ns.length) (hl : l < ns.length),
      ns[k] ≤ ns[l] ↔ ms[k] ≤ ms[l]) : firstLeast ns = firstLeast ms := by
  by_cases hempty : ns = []
  · have hempty' : ms = [] := by simpa [hempty] using hlength.symm
    rw [hempty, hempty']
  · have hempty' : ms ≠ [] := by
      rw [← List.length_pos_iff, ← hlength, List.length_pos_iff]
      exact hempty
    obtain ⟨hlt, hleast⟩ := firstLeast_spec hempty
    obtain ⟨hlt', hleast'⟩ := firstLeast_spec hempty'
    apply le_antisymm
    · refine firstLeast_le (hlength ▸ hlt') fun n hn => ?_
      obtain ⟨k, hk, rfl⟩ := List.getElem_of_mem hn
      exact (horder _ k _ hk).mpr (hleast' _ (List.getElem_mem _))
    · refine firstLeast_le (hlength ▸ hlt) fun m hm => ?_
      obtain ⟨k, hk, rfl⟩ := List.getElem_of_mem hm
      exact (horder _ k hlt (hlength ▸ hk)).mp (hleast _ (List.getElem_mem _))

/-- If there are empty places, the first of them is chosen. -/
theorem isLeast_victim_of_empty (s : Stamps) (set : ℕ) {lines : List Line}
    (h : ∃ line ∈ lines, line.valid = false) :
    IsLeast {way | ∃ line, lines[way]? = some line ∧ line.valid = false} (s.victim set lines) := by
  cases hfind : lines.findIdx? (fun line => !line.valid) with
  | none =>
    obtain ⟨line, hmem, hempty⟩ := h
    have hvalid := List.findIdx?_eq_none_iff.mp hfind line hmem
    simp [hempty] at hvalid
  | some way =>
    obtain ⟨hlt, hempty, hbefore⟩ := List.findIdx?_eq_some_iff_getElem.mp hfind
    rw [victim, hfind]
    refine ⟨⟨lines[way], List.getElem?_eq_getElem hlt, by simpa using hempty⟩, ?_⟩
    rintro way' ⟨line, hline, hempty'⟩
    obtain ⟨_, rfl⟩ := List.getElem?_eq_some_iff.mp hline
    exact not_lt.mp fun hlt' => hbefore way' hlt' (by rw [hempty']; rfl)

/-- If there are none, the first of the ways with the least stamp is chosen. -/
theorem isLeast_victim_of_full (s : Stamps) (set : ℕ) {lines : List Line} (hne : lines ≠ [])
    (h : ∀ line ∈ lines, line.valid = true) :
    IsLeast {way | way < lines.length ∧
      ∀ other < lines.length, (s.stamp set way).toNat ≤ (s.stamp set other).toNat}
      (s.victim set lines) := by
  have hfind : lines.findIdx? (fun line => !line.valid) = none :=
    List.findIdx?_eq_none_iff.mpr fun line hmem => by rw [h line hmem]; rfl
  have hvictim : s.victim set lines =
      firstLeast ((s.ofSet set lines.length).map UInt64.toNat) := by rw [victim, hfind]
  have hstamp : ∀ {n}, n ∈ (s.ofSet set lines.length).map UInt64.toNat ↔
      ∃ way < lines.length, (s.stamp set way).toNat = n := by simp [ofSet]
  have hsome : (s.ofSet set lines.length).map UInt64.toNat ≠ [] := by simpa [ofSet] using hne
  obtain ⟨hlt, hleast⟩ := firstLeast_spec hsome
  rw [hvictim]
  refine ⟨⟨by simpa [ofSet] using hlt, fun way hway => ?_⟩, ?_⟩
  · simpa [ofSet] using hleast _ (hstamp.mpr ⟨way, hway, rfl⟩)
  · rintro way ⟨hway, hleast'⟩
    refine firstLeast_le (by simpa [ofSet] using hway) fun n hn => ?_
    obtain ⟨other, hother, rfl⟩ := hstamp.mp hn
    simpa [ofSet] using hleast' other hother

/-- The chosen way is one of the set.  It is empty if any is, and else its stamp is least. -/
theorem victim_spec (s : Stamps) (set : ℕ) {lines : List Line} (h : lines ≠ []) :
    ∃ hlt : s.victim set lines < lines.length,
      (lines[s.victim set lines].valid = false ∨ ∀ line ∈ lines, line.valid = true) ∧
      (lines[s.victim set lines].valid = true → ∀ way < lines.length,
        (s.stamp set (s.victim set lines)).toNat ≤ (s.stamp set way).toNat) := by
  by_cases hfull : ∀ line ∈ lines, line.valid = true
  · obtain ⟨⟨hlt, hleast⟩, -⟩ := s.isLeast_victim_of_full set h hfull
    exact ⟨hlt, Or.inr hfull, fun _ => hleast⟩
  · have hempty : ∃ line ∈ lines, line.valid = false := by simpa using hfull
    obtain ⟨⟨line, hline, hinvalid⟩, -⟩ := s.isLeast_victim_of_empty set hempty
    obtain ⟨hlt, rfl⟩ := List.getElem?_eq_some_iff.mp hline
    exact ⟨hlt, Or.inl hinvalid, fun hvalid => by simp [hinvalid] at hvalid⟩

/-- As long as there are empty ways, the first of them is chosen. -/
theorem victim_of_empty (s : Stamps) (set : ℕ) {lines : List Line} {way : ℕ}
    (hway : way < lines.length) (hempty : lines[way].valid = false)
    (hbefore : ∀ (way' : ℕ) (h : way' < way), lines[way'].valid = true) :
    s.victim set lines = way := by
  have hleast := s.isLeast_victim_of_empty set ⟨_, List.getElem_mem hway, hempty⟩
  refine hleast.unique ⟨⟨_, List.getElem?_eq_getElem hway, hempty⟩, ?_⟩
  rintro way' ⟨line, hline, hinvalid⟩
  obtain ⟨_, rfl⟩ := List.getElem?_eq_some_iff.mp hline
  by_contra hlt
  rw [hbefore way' (not_le.mp hlt)] at hinvalid
  cases hinvalid

/-- The choice depends on the lines of the set and on the order of its stamps only. -/
theorem victim_congr {s t : Stamps} {i j : ℕ} {lines : List Line}
    (horder : ∀ way < lines.length, ∀ way' < lines.length,
      ((s.stamp i way).toNat ≤ (s.stamp i way').toNat ↔
        (t.stamp j way).toNat ≤ (t.stamp j way').toNat)) :
    s.victim i lines = t.victim j lines := by
  cases hfind : lines.findIdx? (fun line => !line.valid) with
  | some way => rw [victim, victim, hfind]
  | none =>
    rw [victim, victim, hfind]
    refine firstLeast_congr (by simp [ofSet]) fun k l hk hl => ?_
    simp only [ofSet, List.length_map, List.length_range] at hk hl
    simpa [ofSet] using horder k hk l hl

end Stamps

/-! ## The choice of a cache -/

namespace Replacement

/-- A state with stamps is known from its policy and its stamps. -/
theorem eq_of_stamps? {r r' : Replacement} {s : Stamps} (hpolicy : r.policy = r'.policy)
    (h : r.stamps? = some s) (h' : r'.stamps? = some s) : r = r' := by
  cases r <;> cases r' <;> cases hpolicy <;> cases h <;> cases h' <;> rfl

section

variable {r : Replacement} {s : Stamps} (h : r.stamps? = some s)
include h

theorem isStamped_of_stamps? : r.policy.isStamped = true := by
  cases r <;> cases h <;> rfl

theorem stamps?_tick : r.tick.stamps? = some s.tick := by
  cases r <;> cases h <;> rfl

theorem stamps?_touch (set way : ℕ) :
    (r.touch set way).stamps? = some (if r.policy = .lru then s.mark set way else s) := by
  cases r <;> cases h <;> rfl

theorem stamps?_install (set way : ℕ) :
    (r.install set way).stamps? = some (s.mark set way) := by
  cases r <;> cases h <;> rfl

/-- The choice of an ordered policy leaves no trace. -/
theorem victim_of_stamps? (set : ℕ) (lines : List Line) :
    r.victim set lines = (s.victim set lines, r) := by
  cases r <;> cases h <;> rfl

end

/-- The ordered policies start without stamps. -/
theorem stamps?_fresh {policy : Policy} (h : policy.isStamped = true) (sets ways : ℕ)
    (source : Source) : (fresh policy sets ways source).stamps? = some (.fresh sets ways) := by
  cases policy with
  | random => cases h
  | lru => rfl
  | fifo => rfl

/-- The ordered policies keep stamps. -/
theorem exists_stamps?_of_isStamped {r : Replacement} (h : r.policy.isStamped = true) :
    ∃ s, r.stamps? = some s := by
  cases r with
  | random => cases h
  | lru s => exact ⟨s, rfl⟩
  | fifo s => exact ⟨s, rfl⟩

/-- The replacement state of a cache with this many sets and ways. -/
def Fits (sets ways : ℕ) : Replacement → Prop
  | random ways' _ => ways' = ways
  | lru s => s.Fits sets ways
  | fifo s => s.Fits sets ways

theorem fits_fresh (policy : Policy) (sets ways : ℕ) (source : Source) :
    (fresh policy sets ways source).Fits sets ways := by
  cases policy with
  | random => rfl
  | lru => exact Stamps.fits_fresh sets ways
  | fifo => exact Stamps.fits_fresh sets ways

section

variable {r : Replacement} {sets ways : ℕ} (h : r.Fits sets ways)
include h

theorem Fits.tick : r.tick.Fits sets ways := by
  cases r with
  | random => exact h
  | lru => exact Stamps.Fits.tick h
  | fifo => exact Stamps.Fits.tick h

theorem Fits.touch (set way : ℕ) : (r.touch set way).Fits sets ways := by
  cases r with
  | random => exact h
  | lru => exact Stamps.Fits.mark h set way
  | fifo => exact h

theorem Fits.install (set way : ℕ) : (r.install set way).Fits sets ways := by
  cases r with
  | random => exact h
  | lru => exact Stamps.Fits.mark h set way
  | fifo => exact Stamps.Fits.mark h set way

theorem Fits.victim (set : ℕ) (lines : List Line) : (r.victim set lines).2.Fits sets ways := by
  cases r <;> exact h

/-- Every policy chooses one of the ways that it is shown. -/
theorem Fits.victim_lt (set : ℕ) {lines : List Line} (hlines : lines.length = ways)
    (hways : 0 < ways) : (r.victim set lines).1 < ways := by
  have hne : lines ≠ [] := List.ne_nil_of_length_pos (hlines ▸ hways)
  cases r with
  | random ways' source =>
    have hsame : ways' = ways := h
    subst hsame
    exact Nat.mod_lt _ hways
  | lru s => exact hlines ▸ (s.victim_spec set hne).1
  | fifo s => exact hlines ▸ (s.victim_spec set hne).1

end

/-- Of the lines that it is shown a policy only asks which places are empty. -/
theorem victim_congr (r : Replacement) (set : ℕ) {lines lines' : List Line}
    (hvalid : lines.map Line.valid = lines'.map Line.valid) :
    r.victim set lines = r.victim set lines' := by
  have hlength : lines.length = lines'.length := by simpa using congrArg List.length hvalid
  have hempty : lines.findIdx? (fun line => !line.valid) =
      lines'.findIdx? (fun line => !line.valid) := by
    have hmapped := congrArg (List.findIdx? Bool.not) hvalid
    simpa [List.findIdx?_map, Function.comp_def] using hmapped
  have hstamps : ∀ s : Stamps, s.victim set lines = s.victim set lines' := by
    intro s
    rw [Stamps.victim, Stamps.victim, hempty, hlength]
  cases r with
  | random ways source => rfl
  | lru s => rw [victim, victim, hstamps]
  | fifo s => rw [victim, victim, hstamps]

end Replacement

namespace TagStore

variable {s : TagStore} {sets ways set : ℕ} {r : Replacement}

theorem array_places (s : ArrayStore) (ways set : ℕ) (h : s.ways = ways) :
    s.setLines set = (array s).places ways set := by
  subst h
  rfl

/-- The places of a map store without room are all there is. -/
theorem map_places {s : MapStore} (h : s.lines.size = ways) (set : ℕ) :
    s.lines.toList = (map s).places ways set := by
  subst h
  apply List.ext_getElem (by simp)
  intro way hway _
  have hlt : way < s.lines.size := by simpa using hway
  simp [places, line, MapStore.line, hlt]

/-- A map store with room has its first empty place after the lines it holds. -/
theorem findIdx?_map_places {s : MapStore} (h : s.Sound ways) (hroom : s.lines.size < ways)
    (set : ℕ) :
    ((map s).places ways set).findIdx? (fun line => !line.valid) = some s.lines.size := by
  rw [List.findIdx?_eq_some_iff_getElem]
  refine ⟨by simpa using hroom, ?_, fun way hway => ?_⟩
  · simp [places, line, MapStore.line_of_size_le (le_refl s.lines.size), Line.empty]
  · simpa [places, line] using h.valid hway

/-- Under an ordered policy a store of either kind chooses by the places of the set. -/
theorem Sound.victimize_of_stamped (h : s.Sound sets ways) (hset : set < sets)
    (hstamped : r.policy.isStamped = true) :
    s.victimize set r = r.victim set (s.places ways set) := by
  cases s with
  | array s =>
    rw [victimize, array_places s ways set (ArrayStore.Sound.ways_eq h)]
  | map s =>
    obtain ⟨rfl, h⟩ := h
    obtain rfl : set = 0 := by omega
    by_cases hroom : s.lines.size < ways
    · have hfull : s.isFull = false := by simp [MapStore.isFull, h.ways_eq, hroom]
      have hempty := findIdx?_map_places h hroom 0
      rw [victimize, hfull]
      cases r with
      | random => cases hstamped
      | lru stamps => simp [Replacement.victim, Stamps.victim, hempty]
      | fifo stamps => simp [Replacement.victim, Stamps.victim, hempty]
    · have hfull : s.isFull = true := by
        simpa [MapStore.isFull, h.ways_eq] using hroom
      have hsize : s.lines.size = ways := le_antisymm h.size_le (not_lt.mp hroom)
      rw [victimize, if_pos hfull, map_places hsize 0]

/-- Stores of one kind with the same empty places make the same choice, whatever the policy. -/
theorem Sound.victimize_congr {s' : TagStore} (h : s.Sound sets ways) (h' : s'.Sound sets ways)
    (hkind : s.kind = s'.kind) (hvalid : (s.places ways set).map Line.valid =
      (s'.places ways set).map Line.valid) (r : Replacement) :
    s.victimize set r = s'.victimize set r := by
  cases s with
  | array s =>
    cases s' with
    | map s' => cases hkind
    | array s' =>
      rw [victimize, victimize, array_places s ways set (ArrayStore.Sound.ways_eq h),
        array_places s' ways set (ArrayStore.Sound.ways_eq h')]
      exact r.victim_congr set hvalid
  | map s =>
    cases s' with
    | array s' => cases hkind
    | map s' =>
      have hsize : s.lines.size = s'.lines.size := by
        have hcount := congrArg (List.countP id) hvalid
        simp only [places, List.countP_map, Function.comp_def] at hcount
        exact h.2.countP_valid.symm.trans (hcount.trans h'.2.countP_valid)
      have hfull : s.isFull = s'.isFull := by
        rw [MapStore.isFull, MapStore.isFull, hsize, h.2.ways_eq, h'.2.ways_eq]
      rw [victimize, victimize, ← hfull, ← hsize]
      split
      · next hroom =>
        have hfilled := h.2.size_eq_of_isFull hroom
        rw [map_places hfilled set, map_places (hsize ▸ hfilled) set]
        exact r.victim_congr 0 hvalid
      · rfl

/-- Every store offers the way that is chosen. -/
theorem Sound.offers_victimize (h : s.Sound sets ways) (hr : r.Fits sets ways)
    (hways : 0 < ways) : s.Offers ways (s.victimize set r).1 := by
  cases s with
  | array s =>
    refine hr.victim_lt set ?_ hways
    rw [ArrayStore.length_setLines, ArrayStore.Sound.ways_eq h]
  | map s =>
    obtain ⟨-, h⟩ := h
    rw [victimize]
    split
    · next hfull =>
      have hsize : s.lines.size = ways := h.size_eq_of_isFull hfull
      have hlength : s.lines.toList.length = ways := by simpa using hsize
      have hlt := hr.victim_lt 0 hlength hways
      exact ⟨hlt, hsize ▸ hlt.le⟩
    · next hroom =>
      have hlt : s.lines.size < ways := by simpa [MapStore.isFull, h.ways_eq] using hroom
      exact ⟨hlt, le_rfl⟩

/-- A choice keeps to the policy. -/
theorem policy_victimize (s : TagStore) (set : ℕ) (r : Replacement) :
    (s.victimize set r).2.policy = r.policy := by
  cases s with
  | array s => exact Replacement.policy_victim _ _ _
  | map s =>
    rw [victimize]
    split
    · exact Replacement.policy_victim _ _ _
    · rfl

/-- A choice leaves the replacement state in shape. -/
theorem fits_victimize (hr : r.Fits sets ways) (s : TagStore) (set : ℕ) :
    (s.victimize set r).2.Fits sets ways := by
  cases s with
  | array s => exact hr.victim set _
  | map s =>
    rw [victimize]
    split
    · exact hr.victim 0 _
    · exact hr

end TagStore

end CacheModel
