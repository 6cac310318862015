import Mathlib
import CacheModel.Cache
import CacheModel.Proofs.Address
import CacheModel.Proofs.Victim

/-!
# Sound caches

A cache is *sound* if its shape is possible, its store is sound, its replacement state has the
right sizes, and every line lies in the set that its tag belongs to.  A cache that has just been
built is sound and stays so under every request, whatever its policy and wherever its draws come
from.

In a sound cache a request changes one place: the way at which the line was found, or the one
that was chosen for it, now holds the line of the address.  Everything that can be seen from
outside follows from this.
-/

namespace CacheModel

namespace Cache

/-! ## Caches that have just been built -/

/-- A cache that has just been built, in one of the ways there are: with the store that its shape
asks for, with an array whatever its shape, or with a map for a single set. -/
inductive Built : Cache → Prop
  | standard {g : Geometry} {name : String} {source : Source} {c : Cache}
      (h : Cache.build g name source = .ok c) : Built c
  | setAssociative {g : Geometry} {name : String} {source : Source} {c : Cache}
      (h : buildWith .array g name source = .ok c) : Built c
  | fullyAssociative {g : Geometry} {name : String} {source : Source} {c : Cache}
      (hsets : g.sets = 1) (h : buildWith .map g name source = .ok c) : Built c

/-- A map is for a single set. -/
theorem Built.of_buildWith {kind : StoreKind} {g : Geometry} {name : String} {source : Source}
    {c : Cache} (hkind : kind = .map → g.sets = 1) (h : buildWith kind g name source = .ok c) :
    c.Built := by
  cases kind with
  | array => exact .setAssociative h
  | map => exact .fullyAssociative (hkind rfl) h

theorem eq_fresh_of_buildWith {kind : StoreKind} {g : Geometry} {name : String} {source : Source}
    {c : Cache} (h : buildWith kind g name source = .ok c) :
    g.Valid ∧ c = fresh kind g name source := by
  unfold buildWith at h
  cases hcheck : g.check with
  | error e =>
    rw [hcheck] at h
    cases h
  | ok g' =>
    obtain ⟨rfl, hvalid⟩ := Geometry.valid_of_check hcheck
    rw [hcheck] at h
    cases h
    exact ⟨hvalid, rfl⟩

theorem buildWith_of_valid (kind : StoreKind) {g : Geometry} (name : String) (source : Source)
    (h : g.Valid) : buildWith kind g name source = .ok (fresh kind g name source) := by
  rw [buildWith, Geometry.check_of_valid h]
  rfl

theorem Built.exists_eq_fresh {c : Cache} (h : c.Built) :
    ∃ kind g name source, g.Valid ∧ (kind = .map → g.sets = 1) ∧
      c = fresh kind g name source := by
  cases h with
  | @standard g name source c h =>
    obtain ⟨hvalid, rfl⟩ := eq_fresh_of_buildWith h
    refine ⟨_, g, name, source, hvalid, ?_, rfl⟩
    intro hkind
    rw [Geometry.storeKind, Geometry.isFullyAssociative] at hkind
    simp at hkind
    exact hkind.1
  | @setAssociative g name source c h =>
    obtain ⟨hvalid, rfl⟩ := eq_fresh_of_buildWith h
    exact ⟨.array, g, name, source, hvalid, nofun, rfl⟩
  | @fullyAssociative g name source c hsets h =>
    obtain ⟨hvalid, rfl⟩ := eq_fresh_of_buildWith h
    exact ⟨.map, g, name, source, hvalid, fun _ => hsets, rfl⟩

/-! ## Soundness -/

/-- The cache can exist, and each part of it is in order: every line that it holds lies in the set
of the addresses with its tag. -/
structure Sound (c : Cache) : Prop where
  valid : c.geometry.Valid
  store : c.store.Sound c.geometry.sets c.geometry.ways
  replacement : c.replacement.Fits c.geometry.sets c.geometry.ways
  home : ∀ {set way}, set < c.geometry.sets → way < c.geometry.ways →
    (c.store.line set way).valid = true →
    ∃ a, c.setOf a = set ∧ c.tagOf a = (c.store.line set way).tag

theorem sound_fresh {kind : StoreKind} {g : Geometry} (name : String) (source : Source)
    (hvalid : g.Valid) (hkind : kind = .map → g.sets = 1) : (fresh kind g name source).Sound where
  valid := hvalid
  store := TagStore.sound_fresh g.ways hkind
  replacement := Replacement.fits_fresh g.policy g.sets g.ways source
  home {set way} _ _ hheld := by
    have hempty : ((fresh kind g name source).store.line set way) = Line.empty :=
      TagStore.line_fresh kind g.sets g.ways set way
    rw [hempty] at hheld
    cases hheld

theorem Built.sound {c : Cache} (h : c.Built) : c.Sound := by
  obtain ⟨kind, g, name, source, hvalid, hkind, rfl⟩ := h.exists_eq_fresh
  exact sound_fresh name source hvalid hkind

/-- A new cache holds no line. -/
theorem Built.line_eq {c : Cache} (h : c.Built) (set way : ℕ) :
    c.store.line set way = Line.empty := by
  obtain ⟨kind, g, name, source, -, -, rfl⟩ := h.exists_eq_fresh
  exact TagStore.line_fresh kind g.sets g.ways set way

/-! ## Addresses -/

theorem setOf_eq_of_geometry_eq {c d : Cache} (h : c.geometry = d.geometry) (a : UInt64) :
    c.setOf a = d.setOf a := by
  rw [setOf, h, setOf]

theorem tagOf_eq_of_geometry_eq {c d : Cache} (h : c.geometry = d.geometry) (a : UInt64) :
    c.tagOf a = d.tagOf a := by
  rw [tagOf, h, tagOf]

theorem setOf_eq_of_tagOf_eq {c : Cache} {a b : UInt64} (h : c.tagOf a = c.tagOf b) :
    c.setOf a = c.setOf b := by
  simp only [setOf, tagOf, AddressMap.decode_fst, AddressMap.decode_snd] at h ⊢
  rw [h]

theorem find_eq_of_tagOf_eq {c : Cache} {a b : UInt64} (h : c.tagOf a = c.tagOf b) :
    c.find a = c.find b := by
  rw [find, find, h, setOf_eq_of_tagOf_eq h]

theorem isDirty_eq_of_tagOf_eq {c : Cache} {a b : UInt64} (h : c.tagOf a = c.tagOf b) :
    c.isDirty a = c.isDirty b := by
  rw [isDirty, isDirty, find_eq_of_tagOf_eq h, setOf_eq_of_tagOf_eq h]

@[simp] theorem setOf_access (c : Cache) (r : Request) (a : UInt64) :
    (c.access r).cache.setOf a = c.setOf a :=
  setOf_eq_of_geometry_eq (geometry_access c r) a

@[simp] theorem tagOf_access (c : Cache) (r : Request) (a : UInt64) :
    (c.access r).cache.tagOf a = c.tagOf a :=
  tagOf_eq_of_geometry_eq (geometry_access c r) a

@[simp] theorem geometry_after (c : Cache) (rs : List Request) :
    (c.after rs).geometry = c.geometry := by
  induction rs generalizing c with
  | nil => rfl
  | cons r rs ih => rw [after_cons, ih, geometry_access]

@[simp] theorem name_after (c : Cache) (rs : List Request) : (c.after rs).name = c.name := by
  induction rs generalizing c with
  | nil => rfl
  | cons r rs ih => rw [after_cons, ih, name_access]

@[simp] theorem logsMisses_after (c : Cache) (rs : List Request) :
    (c.after rs).logsMisses = c.logsMisses := by
  induction rs generalizing c with
  | nil => rfl
  | cons r rs ih => rw [after_cons, ih, logsMisses_access]

@[simp] theorem setOf_after (c : Cache) (rs : List Request) (a : UInt64) :
    (c.after rs).setOf a = c.setOf a :=
  setOf_eq_of_geometry_eq (geometry_after c rs) a

@[simp] theorem tagOf_after (c : Cache) (rs : List Request) (a : UInt64) :
    (c.after rs).tagOf a = c.tagOf a :=
  tagOf_eq_of_geometry_eq (geometry_after c rs) a

theorem Sound.setOf_lt {c : Cache} (h : c.Sound) (a : UInt64) : c.setOf a < c.geometry.sets :=
  h.valid.setOfTag_lt _

theorem Sound.setOf_eq_zero {c : Cache} (h : c.Sound) (hsets : c.geometry.sets = 1)
    (a : UInt64) : c.setOf a = 0 :=
  Nat.lt_one_iff.mp (hsets ▸ h.setOf_lt a)

/-! ## The parts of one request -/

/-- The way that the line of `a` would go to if it were missing. -/
def wayFor (c : Cache) (a : UInt64) : ℕ :=
  (c.store.victimize (c.setOf a) c.replacement.tick).1

/-- What stands where the line of `a` would go to if it were missing. -/
def lineFor (c : Cache) (a : UInt64) : Line :=
  c.store.line (c.setOf a) (c.wayFor a)

/-- A miss, told through the choice of the way. -/
theorem access_of_miss {c : Cache} {r : Request} (h : c.find r.address = none) :
    c.access r =
      { cache := ((c.arrive r).fill (c.setOf r.address) (c.tagOf r.address) r.isWrite).2.2
        outcome := .miss (c.wayFor r.address) (c.lineFor r.address)
        effects := c.missEffects r (c.lineFor r.address) } := by
  simp only [access, h, fill]
  have hreplaced := TagStore.install_fst c.store (c.setOf r.address) (c.wayFor r.address)
    (c.tagOf r.address)
  simp only [lineFor, ← hreplaced]
  rfl

theorem outcome_eq_hit_iff {c : Cache} {r : Request} {way : ℕ} :
    (c.access r).outcome = .hit way ↔ c.find r.address = some way := by
  cases hfind : c.find r.address with
  | some found => simp [access_of_hit hfind]
  | none => simp [access_of_miss hfind]

theorem isHit_outcome (c : Cache) (r : Request) :
    (c.access r).outcome.isHit = c.contains r.address := by
  rw [contains]
  cases hfind : c.find r.address with
  | some found => simp [access_of_hit hfind, Outcome.isHit]
  | none => simp [access_of_miss hfind, Outcome.isHit]

theorem outcome_eq_miss_iff {c : Cache} {r : Request} {way : ℕ} {replaced : Line} :
    (c.access r).outcome = .miss way replaced ↔
      c.find r.address = none ∧ c.wayFor r.address = way ∧ c.lineFor r.address = replaced := by
  cases hfind : c.find r.address with
  | some found => simp [access_of_hit hfind]
  | none => simp [access_of_miss hfind]

/-- The stamps or draws after a request: renewed at the way of a hit, or asked for a way that is
then filled. -/
theorem replacement_access (c : Cache) (r : Request) :
    (c.access r).cache.replacement =
      match c.find r.address with
      | some way => c.replacement.tick.touch (c.setOf r.address) way
      | none => (c.store.victimize (c.setOf r.address) c.replacement.tick).2.install
          (c.setOf r.address) (c.wayFor r.address) := by
  cases hfind : c.find r.address with
  | some way => rw [access_of_hit hfind]; rfl
  | none => rw [access_of_miss hfind]; rfl

/-- A cache keeps its policy. -/
@[simp] theorem policy_replacement_access (c : Cache) (r : Request) :
    (c.access r).cache.replacement.policy = c.replacement.policy := by
  rw [replacement_access]
  cases c.find r.address <;> simp [TagStore.policy_victimize]

/-- A new cache remembers nothing. -/
theorem Built.exists_replacement_eq {c : Cache} (h : c.Built) : ∃ source, c.replacement =
    .fresh c.geometry.policy c.geometry.sets c.geometry.ways source := by
  obtain ⟨kind, g, name, source, -, -, rfl⟩ := h.exists_eq_fresh
  exact ⟨source, rfl⟩

theorem Built.policy_replacement {c : Cache} (h : c.Built) :
    c.replacement.policy = c.geometry.policy := by
  obtain ⟨source, hreplacement⟩ := h.exists_replacement_eq
  rw [hreplacement, Replacement.policy_fresh]

theorem Built.stamps?_eq {c : Cache} (h : c.Built)
    (hstamped : c.geometry.policy.isStamped = true) :
    c.replacement.stamps? = some (.fresh c.geometry.sets c.geometry.ways) := by
  obtain ⟨source, hreplacement⟩ := h.exists_replacement_eq
  rw [hreplacement, Replacement.stamps?_fresh hstamped]

theorem Built.policy_after {c : Cache} (h : c.Built) (rs : List Request) :
    (c.after rs).replacement.policy = c.geometry.policy := by
  induction rs using List.reverseRecOn with
  | nil => exact h.policy_replacement
  | append_singleton rs r ih =>
    rw [after_append, after_cons, after_nil, policy_replacement_access, ih]

/-- The counters after a request: a miss is counted, and so is a writeback if there is one. -/
theorem counters_access (c : Cache) (r : Request) :
    (c.access r).cache.counters =
      match c.find r.address with
      | some _ => c.counters.recordAccess r
      | none =>
        if (c.writeback? (c.lineFor r.address)).isSome then
          ((c.counters.recordAccess r).recordMiss r.isWrite).recordWriteback
        else (c.counters.recordAccess r).recordMiss r.isWrite := by
  cases hfind : c.find r.address with
  | some way => rw [access_of_hit hfind]; rfl
  | none =>
    rw [access_of_miss hfind]
    simp only [lineFor, ← TagStore.install_fst c.store (c.setOf r.address)
      (c.wayFor r.address) (c.tagOf r.address)]
    rfl

theorem store_access_of_hit {c : Cache} {r : Request} {way : ℕ}
    (h : c.find r.address = some way) :
    (c.access r).cache.store =
      if r.isWrite then c.store.setDirty (c.setOf r.address) way true else c.store := by
  rw [access_of_hit h]
  rfl

theorem store_access_of_miss {c : Cache} {r : Request} (h : c.find r.address = none) :
    (c.access r).cache.store =
      if r.isWrite then
        (c.store.install (c.setOf r.address) (c.wayFor r.address) (c.tagOf r.address)).2.setDirty
          (c.setOf r.address) (c.wayFor r.address) true
      else (c.store.install (c.setOf r.address) (c.wayFor r.address) (c.tagOf r.address)).2 := by
  rw [access_of_miss h]
  rfl

/-! ## One request in a sound cache -/

/-- The line of the request as it stands after it. -/
def lineAfter (c : Cache) (r : Request) : Line :=
  { tag := c.tagOf r.address
    valid := true
    dirty := r.isWrite || c.isDirty r.address == some true }

section

variable {c : Cache} (h : c.Sound)
include h

theorem Sound.find_iff {a : UInt64} {way : ℕ} :
    c.find a = some way ↔
      way < c.geometry.ways ∧ (c.store.line (c.setOf a) way).holds (c.tagOf a) = true :=
  h.store.find_iff (h.setOf_lt a)

theorem Sound.find_eq_none_iff {a : UInt64} :
    c.find a = none ↔
      ∀ way < c.geometry.ways, (c.store.line (c.setOf a) way).holds (c.tagOf a) = false :=
  h.store.find_eq_none_iff (h.setOf_lt a)

theorem Sound.offers_wayFor (a : UInt64) : c.store.Offers c.geometry.ways (c.wayFor a) :=
  h.store.offers_victimize h.replacement.tick h.valid.ways_pos

theorem Sound.way_outcome_lt (r : Request) :
    (c.access r).outcome.way < c.geometry.ways := by
  cases hfind : c.find r.address with
  | some way =>
    rw [access_of_hit hfind]
    exact (h.find_iff.mp hfind).1
  | none =>
    rw [access_of_miss hfind]
    exact (h.offers_wayFor r.address).lt

/-- A request changes one place, which afterwards holds the line of its address. -/
theorem Sound.line_access (r : Request) {set way : ℕ} (hset : set < c.geometry.sets)
    (hway : way < c.geometry.ways) :
    (c.access r).cache.store.line set way =
      if set = c.setOf r.address ∧ way = (c.access r).outcome.way then c.lineAfter r
      else c.store.line set way := by
  have hhome := h.setOf_lt r.address
  cases hfind : c.find r.address with
  | some found =>
    obtain ⟨hfound, hholds⟩ := h.find_iff.mp hfind
    obtain ⟨hvalid, htag⟩ := Line.holds_iff.mp hholds
    have hdirty : c.isDirty r.address =
        some (c.store.line (c.setOf r.address) found).dirty := by rw [isDirty, hfind]; rfl
    rw [store_access_of_hit hfind, access_of_hit hfind]
    by_cases hwrite : r.isWrite = true
    · rw [if_pos hwrite, h.store.line_setDirty true hhome hfound hvalid hset hway]
      simp [lineAfter, hwrite, hvalid, htag, Outcome.way]
    · rw [if_neg hwrite]
      split
      · next heq =>
        obtain ⟨rfl, rfl⟩ := heq
        refine (Line.eq_mk_of_holds hholds).trans ?_
        simp [lineAfter, hwrite, hdirty]
      · rfl
  | none =>
    have hoffers := h.offers_wayFor r.address
    have hdirty : c.isDirty r.address = none := by rw [isDirty, hfind]; rfl
    have hinstalled := h.store.install hhome hoffers hfind
    rw [store_access_of_miss hfind, access_of_miss hfind]
    by_cases hwrite : r.isWrite = true
    · have hline := h.store.line_install (c.tagOf r.address) hhome hoffers hhome hoffers.lt
      rw [if_pos ⟨rfl, rfl⟩] at hline
      rw [if_pos hwrite, hinstalled.line_setDirty true hhome hoffers.lt (by rw [hline]; rfl)
        hset hway, h.store.line_install _ hhome hoffers hset hway, hline]
      by_cases hplace : set = c.setOf r.address ∧ way = c.wayFor r.address
      · simp [hplace, lineAfter, hwrite, Line.fresh, Outcome.way]
      · simp [hplace, Outcome.way]
    · rw [if_neg hwrite, h.store.line_install _ hhome hoffers hset hway]
      simp [lineAfter, hwrite, hdirty, Line.fresh, Outcome.way]

/-- A request keeps a cache sound. -/
theorem Sound.access (r : Request) : (c.access r).cache.Sound where
  valid := by
    rw [geometry_access]
    exact h.valid
  store := by
    have hhome := h.setOf_lt r.address
    rw [geometry_access]
    cases hfind : c.find r.address with
    | some found =>
      obtain ⟨hfound, hholds⟩ := h.find_iff.mp hfind
      rw [store_access_of_hit hfind]
      split
      · exact h.store.setDirty true hhome hfound (Line.holds_iff.mp hholds).1
      · exact h.store
    | none =>
      have hoffers := h.offers_wayFor r.address
      have hinstalled := h.store.install hhome hoffers hfind
      rw [store_access_of_miss hfind]
      split
      · exact hinstalled.setDirty true hhome hoffers.lt (h.store.valid_line_install _ hhome hoffers)
      · exact hinstalled
  replacement := by
    rw [geometry_access, replacement_access]
    cases c.find r.address with
    | some way => exact h.replacement.tick.touch _ way
    | none => exact (TagStore.fits_victimize h.replacement.tick _ _).install _ _
  home {set way} := by
    simp only [geometry_access, setOf_access, tagOf_access]
    intro hset hway
    rw [h.line_access r hset hway]
    split
    · next heq => exact fun _ => ⟨r.address, heq.1.symm, rfl⟩
    · exact h.home hset hway

theorem Sound.after (rs : List Request) : (c.after rs).Sound := by
  induction rs generalizing c with
  | nil => exact h
  | cons r rs ih => exact ih (h.access r)

end

/-! ## The choice of the ordered policies -/

/-- A request stamps the way of its line: under LRU always, under FIFO when the line comes in. -/
def restamps (c : Cache) (r : Request) : Bool :=
  c.replacement.policy == .lru || !c.contains r.address

/-- A request stamps this way of this set. -/
def Marks (c : Cache) (r : Request) (set way : ℕ) : Prop :=
  c.restamps r = true ∧ set = c.setOf r.address ∧ way = (c.access r).outcome.way

instance (c : Cache) (r : Request) (set way : ℕ) : Decidable (c.Marks r set way) :=
  inferInstanceAs (Decidable (_ ∧ _))

section

variable {c : Cache} (h : c.Sound) {s : Stamps} (hstamps : c.replacement.stamps? = some s)
include h hstamps

theorem Sound.fits_of_stamps : s.Fits c.geometry.sets c.geometry.ways := by
  have hfits := h.replacement
  cases hr : c.replacement <;> rw [hr] at hstamps hfits <;> cases hstamps <;> exact hfits

/-- An ordered policy looks at the set and at its stamps, and the choice itself leaves no trace. -/
theorem Sound.victimize_of_stamps (a : UInt64) :
    c.store.victimize (c.setOf a) c.replacement.tick =
      (s.victim (c.setOf a) (c.store.places c.geometry.ways (c.setOf a)), c.replacement.tick) := by
  have htick := Replacement.stamps?_tick hstamps
  rw [h.store.victimize_of_stamped (h.setOf_lt a) (Replacement.isStamped_of_stamps? htick),
    Replacement.victim_of_stamps? htick]
  rfl

/-- A request ticks the clock and may stamp the way at which its line is found afterwards. -/
theorem Sound.stamps?_access (r : Request) :
    (c.access r).cache.replacement.policy = c.replacement.policy ∧
      (c.access r).cache.replacement.stamps? = some (if c.restamps r then
        s.tick.mark (c.setOf r.address) (c.access r).outcome.way else s.tick) := by
  have htick := Replacement.stamps?_tick hstamps
  refine ⟨policy_replacement_access c r, ?_⟩
  rw [replacement_access, restamps, contains]
  cases hfind : c.find r.address with
  | some way =>
    simp only [outcome_eq_hit_iff.mpr hfind, Outcome.way]
    rw [Replacement.stamps?_touch htick]
    simp
  | none =>
    simp only [outcome_eq_miss_iff.mpr ⟨hfind, rfl, rfl⟩, Outcome.way,
      h.victimize_of_stamps hstamps]
    rw [Replacement.stamps?_install htick]
    simp

/-- A way that is stamped gets the time of the request, and all others keep their stamps. -/
theorem Sound.exists_stamps?_access (hclock : s.clock.toNat + 1 < 2 ^ 64) (r : Request) :
    ∃ s', (c.access r).cache.replacement.policy = c.replacement.policy ∧
      (c.access r).cache.replacement.stamps? = some s' ∧
      s'.clock.toNat = s.clock.toNat + 1 ∧
      ∀ {set way}, way < c.geometry.ways → s'.stamp set way =
        if c.Marks r set way then s'.clock else s.stamp set way := by
  have htick := Stamps.toNat_clock_tick hclock
  have hfits := (h.fits_of_stamps hstamps).tick
  obtain ⟨hpolicy, hafter⟩ := h.stamps?_access hstamps r
  by_cases hmark : c.restamps r = true
  · rw [if_pos hmark] at hafter
    refine ⟨_, hpolicy, hafter, htick, fun hway => ?_⟩
    rw [hfits.stamp_mark (h.setOf_lt _) (h.way_outcome_lt r) hway]
    simp [Marks, hmark]
  · rw [if_neg hmark] at hafter
    refine ⟨_, hpolicy, hafter, htick, fun _ => ?_⟩
    simp [Marks, hmark]

theorem Sound.wayFor_of_stamps (a : UInt64) :
    c.wayFor a = s.victim (c.setOf a) (c.store.places c.geometry.ways (c.setOf a)) := by
  rw [wayFor, h.victimize_of_stamps hstamps]

/-- A missing line goes to an empty place if its set has one.  Otherwise the set is full, and the
line goes to the place with the least stamp. -/
theorem Sound.lineFor_of_stamps (a : UInt64) :
    ((c.lineFor a).valid = false ∨
        ∀ way < c.geometry.ways, (c.store.line (c.setOf a) way).valid = true) ∧
      ((c.lineFor a).valid = true → ∀ way < c.geometry.ways,
        (s.stamp (c.setOf a) (c.wayFor a)).toNat ≤ (s.stamp (c.setOf a) way).toNat) := by
  have hne : c.store.places c.geometry.ways (c.setOf a) ≠ [] :=
    List.ne_nil_of_length_pos (by simpa using h.valid.ways_pos)
  obtain ⟨hlt, hempty, hleast⟩ := s.victim_spec (c.setOf a) hne
  simp only [← h.wayFor_of_stamps hstamps] at hlt hempty hleast
  have hline : (c.store.places c.geometry.ways (c.setOf a))[c.wayFor a] = c.lineFor a := by
    simp [TagStore.places, lineFor]
  rw [hline] at hempty hleast
  refine ⟨hempty.imp_right ?_, ?_⟩
  · intro hall way hway
    exact hall _ (TagStore.mem_places.mpr ⟨way, hway, rfl⟩)
  · intro hvalid way hway
    exact hleast hvalid way (by simpa using hway)

/-- The first empty place of a set is taken. -/
theorem Sound.wayFor_of_empty {a : UInt64} {way : ℕ} (hway : way < c.geometry.ways)
    (hempty : (c.store.line (c.setOf a) way).valid = false)
    (hbefore : ∀ way' < way, (c.store.line (c.setOf a) way').valid = true) :
    c.wayFor a = way := by
  rw [h.wayFor_of_stamps hstamps]
  refine s.victim_of_empty _ (by simpa using hway) (by simpa [TagStore.places] using hempty) ?_
  intro way' hlt
  simpa [TagStore.places] using hbefore way' hlt

end

end Cache

end CacheModel
