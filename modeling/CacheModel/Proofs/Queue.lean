import Mathlib
import CacheModel.Proofs.Visible

/-!
# First in, first out

Under FIFO a cache stamps a way when a line comes in and takes the way with the least stamp when
one has to leave.  There is no queue, and the clock goes on at hits and at requests to other sets
too.  Still every set works as a ring: its misses fill the ways one after another and start over
after the last way.

The record of the misses of a set says which line came in, where it was put and what it replaced.
As long as the clock has not come round, the last of these lines, as many as the set has ways, are
still held, each at the place of its number in the ring, and among them the stamps grow.  So the
least stamp belongs to the line that the ring has to replace next.
-/

namespace CacheModel

/-- One miss: the line that came in, the way that it was installed at, and what stood there. -/
structure Arrival where
  tag : UInt64
  way : ℕ
  replaced : Line
  deriving DecidableEq

namespace Cache

/-- The misses of a set in a run, in their order. -/
def arrivals (set : ℕ) (c : Cache) : List Request → List Arrival
  | [] => []
  | r :: rs =>
    match (c.access r).outcome with
    | .hit _ => arrivals set (c.access r).cache rs
    | .miss way replaced =>
      if c.setOf r.address = set then
        ⟨c.tagOf r.address, way, replaced⟩ :: arrivals set (c.access r).cache rs
      else arrivals set (c.access r).cache rs

@[simp] theorem arrivals_nil (set : ℕ) (c : Cache) : c.arrivals set [] = [] := rfl

theorem arrivals_append (set : ℕ) (c : Cache) (rs rs' : List Request) :
    c.arrivals set (rs ++ rs') = c.arrivals set rs ++ (c.after rs).arrivals set rs' := by
  induction rs generalizing c with
  | nil => rfl
  | cons r rs ih =>
    rw [List.cons_append, arrivals, arrivals, after_cons]
    cases (c.access r).outcome with
    | hit way => exact ih _
    | miss way replaced =>
      by_cases hset : c.setOf r.address = set
      · simp only [if_pos hset, ih, List.cons_append]
      · simp only [if_neg hset, ih]

/-- A request to another set is no miss of this one, and neither is a hit. -/
theorem arrivals_singleton_eq_nil {set : ℕ} {c : Cache} {r : Request}
    (h : c.find r.address ≠ none ∨ c.setOf r.address ≠ set) : c.arrivals set [r] = [] := by
  cases hfind : c.find r.address with
  | some way => rw [arrivals, outcome_eq_hit_iff.mpr hfind, arrivals_nil]
  | none =>
    have hset : c.setOf r.address ≠ set := h.resolve_left (by simp [hfind])
    rw [arrivals, outcome_eq_miss_iff.mpr ⟨hfind, rfl, rfl⟩]
    exact if_neg hset

theorem arrivals_singleton_of_miss {c : Cache} {r : Request} (h : c.find r.address = none) :
    c.arrivals (c.setOf r.address) [r] =
      [⟨c.tagOf r.address, c.wayFor r.address, c.lineFor r.address⟩] := by
  rw [arrivals, outcome_eq_miss_iff.mpr ⟨h, rfl, rfl⟩]
  exact if_pos rfl

theorem length_arrivals_le (set : ℕ) (c : Cache) (rs : List Request) :
    (c.arrivals set rs).length ≤ rs.length := by
  induction rs generalizing c with
  | nil => exact le_rfl
  | cons r rs ih =>
    have hrest := ih (c.access r).cache
    rw [arrivals, List.length_cons]
    split
    · exact hrest.trans (Nat.le_succ _)
    · split
      · exact Nat.succ_le_succ hrest
      · exact hrest.trans (Nat.le_succ _)

/-! ## Places in the ring -/

/-- Every way that was reached is the place of one of the last numbers. -/
theorem exists_mod_eq {n ways way : ℕ} (hway : way < ways) (hreached : way < n) :
    ∃ i < n, n ≤ i + ways ∧ i % ways = way := by
  have hdiv := Nat.div_add_mod (n - 1 - way) ways
  have hmod := Nat.mod_lt (n - 1 - way) (Nat.zero_lt_of_lt hway)
  refine ⟨way + ways * ((n - 1 - way) / ways), by omega, by omega, ?_⟩
  rw [Nat.add_mul_mod_self_left, Nat.mod_eq_of_lt hway]

/-- Numbers that are less than a round apart have different places. -/
theorem mod_ne_mod {i j ways : ℕ} (hlt : i < j) (hround : j < i + ways) :
    i % ways ≠ j % ways := by
  intro heq
  have hdvd : ways ∣ j - i := (Nat.modEq_iff_dvd' hlt.le).mp heq
  have := Nat.le_of_dvd (by omega) hdvd
  omega

/-- The stamps and the lines of a set are those of a ring that the given lines went through. -/
structure Queued (c : Cache) (set : ℕ) (s : Stamps) (arrived : List UInt64) : Prop where
  replacement_eq : c.replacement = .fifo s
  /-- Ways that were not reached are empty. -/
  unused : ∀ way < c.geometry.ways, arrived.length ≤ way →
    (c.store.line set way).valid = false
  /-- The last lines that came in are held at their places. -/
  held : ∀ {i t}, arrived[i]? = some t → arrived.length ≤ i + c.geometry.ways →
    (c.store.line set (i % c.geometry.ways)).holds t = true
  /-- No stamp is ahead of the clock. -/
  stamp_le : ∀ way < c.geometry.ways, (s.stamp set way).toNat ≤ s.clock.toNat
  /-- Among the last lines the stamps grow. -/
  ordered : ∀ {i j}, arrived.length ≤ i + c.geometry.ways → i < j → j < arrived.length →
    (s.stamp set (i % c.geometry.ways)).toNat < (s.stamp set (j % c.geometry.ways)).toNat

theorem Queued.stamps?_eq {c : Cache} {set : ℕ} {s : Stamps} {arrived : List UInt64}
    (h : c.Queued set s arrived) : c.replacement.stamps? = some s := by
  rw [h.replacement_eq]
  rfl

theorem Built.queued {c : Cache} (h : c.Built) (hfifo : c.geometry.policy = .fifo) (set : ℕ) :
    c.Queued set (.fresh c.geometry.sets c.geometry.ways) [] where
  replacement_eq := by
    obtain ⟨source, hreplacement⟩ := h.exists_replacement_eq
    rw [hreplacement, hfifo]
    rfl
  unused way _ _ := by
    rw [h.line_eq set way]
    rfl
  held hnone := by cases hnone
  stamp_le way _ := by
    rw [Stamps.stamp_fresh]
    exact Nat.zero_le _
  ordered _ _ hlt := absurd hlt (Nat.not_lt_zero _)

/-- The ring moves on when the next place gets a new line and a stamp that is ahead of all others,
and nothing else in the set changes. -/
theorem Queued.concat {c d : Cache} {set : ℕ} {s s' : Stamps} {arrived : List UInt64}
    (h : c.Queued set s arrived) (hpos : 0 < c.geometry.ways) (hgeometry : d.geometry = c.geometry)
    (hreplacement : d.replacement = .fifo s') (hclock : s.clock.toNat < s'.clock.toNat) {t : UInt64}
    {line : Line} (hnew : line.holds t = true)
    (hline : ∀ way < c.geometry.ways, d.store.line set way =
      if way = arrived.length % c.geometry.ways then line else c.store.line set way)
    (hstamp : ∀ way < c.geometry.ways, s'.stamp set way =
      if way = arrived.length % c.geometry.ways then s'.clock else s.stamp set way) :
    d.Queued set s' (arrived ++ [t]) := by
  refine ⟨hreplacement, ?_, ?_, ?_, ?_⟩
  all_goals simp only [hgeometry, List.length_append, List.length_singleton]
  · intro way hlt hle
    have := Nat.mod_le arrived.length c.geometry.ways
    rw [hline way hlt, if_neg (by omega)]
    exact h.unused way hlt (by omega)
  · intro i u hu hround
    rw [hline _ (Nat.mod_lt i hpos)]
    rcases Nat.lt_or_ge i arrived.length with hbefore | hlast
    · rw [List.getElem?_append_left hbefore] at hu
      rw [if_neg (mod_ne_mod hbefore (by omega))]
      exact h.held hu (by omega)
    · rw [List.getElem?_append_right hlast, List.getElem?_singleton] at hu
      obtain ⟨hzero, htag⟩ := Option.ite_none_right_eq_some.mp hu
      obtain rfl := Option.some.inj htag
      obtain rfl : i = arrived.length := by omega
      rwa [if_pos rfl]
  · intro way hlt
    have hle := h.stamp_le way hlt
    rw [hstamp way hlt]
    split <;> omega
  · intro i j hround hlt hj
    have hle := h.stamp_le _ (Nat.mod_lt i hpos)
    rw [hstamp _ (Nat.mod_lt i hpos), hstamp _ (Nat.mod_lt j hpos),
      if_neg (mod_ne_mod (by omega : i < arrived.length) (by omega))]
    rcases Nat.lt_or_ge j arrived.length with hbefore | hlast
    · rw [if_neg (mod_ne_mod hbefore (by omega))]
      exact h.ordered (by omega) hlt hbefore
    · obtain rfl : j = arrived.length := by omega
      rw [if_pos rfl]
      omega

/-! ## The next place -/

section

variable {c : Cache} (h : c.Sound) {s : Stamps} {arrived : List UInt64} {a : UInt64}
  (hqueued : c.Queued (c.setOf a) s arrived)
include h hqueued

/-- As long as there are ways left, they are taken in order. -/
theorem Queued.wayFor_of_lt (hlt : arrived.length < c.geometry.ways) :
    c.wayFor a = arrived.length ∧ (c.lineFor a).valid = false := by
  have hempty := hqueued.unused _ hlt le_rfl
  have hway : c.wayFor a = arrived.length := by
    refine h.wayFor_of_empty hqueued.stamps?_eq hlt hempty fun way hway => ?_
    have hheld := hqueued.held (List.getElem?_eq_getElem hway) (by omega)
    rw [Nat.mod_eq_of_lt (hway.trans hlt)] at hheld
    exact (Line.holds_iff.mp hheld).1
  exact ⟨hway, by rw [lineFor, hway, hempty]⟩

/-- Once all ways are taken, the line that has been there for a whole round makes room. -/
theorem Queued.wayFor_of_le (hle : c.geometry.ways ≤ arrived.length) :
    c.wayFor a = (arrived.length - c.geometry.ways) % c.geometry.ways := by
  have hpos := h.valid.ways_pos
  have hchosen := (h.offers_wayFor a).lt
  obtain ⟨i, hi, hround, hplace⟩ := exists_mod_eq hchosen (hchosen.trans_le hle)
  have hvalid : (c.lineFor a).valid = true := by
    have hheld := hqueued.held (List.getElem?_eq_getElem hi) hround
    rw [hplace] at hheld
    exact (Line.holds_iff.mp hheld).1
  have hleast := (h.lineFor_of_stamps hqueued.stamps?_eq a).2 hvalid _
    (Nat.mod_lt (arrived.length - c.geometry.ways) hpos)
  rcases Nat.lt_or_ge (arrived.length - c.geometry.ways) i with hlater | hfirst
  · -- A line that came in later has a later stamp, so it would not have been chosen.
    have hstamp := hqueued.ordered (by omega) hlater hi
    rw [hplace] at hstamp
    omega
  · rw [← hplace]
    congr 1
    omega

/-- The place of the next line is the one of its number. -/
theorem Queued.wayFor_eq : c.wayFor a = arrived.length % c.geometry.ways := by
  rcases Nat.lt_or_ge arrived.length c.geometry.ways with hlt | hle
  · rw [(hqueued.wayFor_of_lt h hlt).1, Nat.mod_eq_of_lt hlt]
  · rw [hqueued.wayFor_of_le h hle, ← Nat.mod_eq_sub_mod hle]

theorem Queued.lineFor_of_le (hle : c.geometry.ways ≤ arrived.length) {t : UInt64}
    (ht : arrived[arrived.length - c.geometry.ways]? = some t) : (c.lineFor a).holds t = true := by
  rw [lineFor, hqueued.wayFor_of_le h hle]
  exact hqueued.held ht (by omega)

end

/-! ## One request -/

/-- Under FIFO only a line that comes in is stamped. -/
theorem Sound.exists_stamps_access {c : Cache} (h : c.Sound) {s : Stamps}
    (hfifo : c.replacement = .fifo s) (hclock : s.clock.toNat + 1 < 2 ^ 64) (r : Request) :
    ∃ s', (c.access r).cache.replacement = .fifo s' ∧ s'.clock.toNat = s.clock.toNat + 1 ∧
      ∀ {set way}, way < c.geometry.ways → s'.stamp set way =
        if c.find r.address = none ∧ set = c.setOf r.address ∧ way = c.wayFor r.address
          then s'.clock else s.stamp set way := by
  have hmarks : ∀ set way, c.Marks r set way ↔
      c.find r.address = none ∧ set = c.setOf r.address ∧ way = c.wayFor r.address := by
    intro set way
    rw [Marks, restamps, contains, hfifo]
    cases hfind : c.find r.address with
    | some found => simp [Replacement.policy]
    | none => simp [outcome_eq_miss_iff.mpr ⟨hfind, rfl, rfl⟩, Outcome.way]
  obtain ⟨s', hpolicy, hafter, hclock', hstamp⟩ :=
    h.exists_stamps?_access (by rw [hfifo]; rfl) hclock r
  refine ⟨s', Replacement.eq_of_stamps? (hpolicy.trans (by rw [hfifo]; rfl)) hafter rfl, hclock',
    fun hway => ?_⟩
  rw [hstamp hway]
  simp only [hmarks]

/-- A set keeps its lines under hits and under requests to other sets. -/
theorem Sound.line_access_of_stays {c : Cache} (h : c.Sound) {r : Request} {set way : ℕ}
    (hset : set < c.geometry.sets) (hway : way < c.geometry.ways)
    (hstays : c.find r.address ≠ none ∨ c.setOf r.address ≠ set) :
    ((c.access r).cache.store.line set way).valid = (c.store.line set way).valid ∧
      ((c.access r).cache.store.line set way).tag = (c.store.line set way).tag := by
  rw [h.line_access r hset hway]
  split
  · next hplace =>
    obtain ⟨rfl, rfl⟩ := hplace
    obtain ⟨found, hfind⟩ := Option.ne_none_iff_exists'.mp (hstays.resolve_right (· rfl))
    obtain ⟨hvalid, htag⟩ := Line.holds_iff.mp (h.find_iff.mp hfind).2
    rw [outcome_eq_hit_iff.mpr hfind, Outcome.way, hvalid, htag]
    exact ⟨rfl, rfl⟩
  · exact ⟨rfl, rfl⟩

section

variable {c : Cache} (h : c.Sound) {s : Stamps} {arrived : List UInt64}
include h

/-- The ring stands still under hits and under requests to other sets. -/
theorem Queued.access_of_stays {set : ℕ} (hqueued : c.Queued set s arrived)
    (hset : set < c.geometry.sets) (hclock : s.clock.toNat + 1 < 2 ^ 64) {r : Request}
    (hstays : c.find r.address ≠ none ∨ c.setOf r.address ≠ set) :
    ∃ s', s'.clock.toNat = s.clock.toNat + 1 ∧ (c.access r).cache.Queued set s' arrived := by
  have hpos := h.valid.ways_pos
  obtain ⟨s', hreplacement, hclock', hstamps⟩ :=
    h.exists_stamps_access hqueued.replacement_eq hclock r
  have hstamp : ∀ way < c.geometry.ways, s'.stamp set way = s.stamp set way := by
    intro way hway
    rw [hstamps hway, if_neg]
    rintro ⟨hmiss, rfl, -⟩
    exact hstays.elim (· hmiss) (· rfl)
  refine ⟨s', hclock', hreplacement, ?_, ?_, ?_, ?_⟩
  all_goals simp only [geometry_access]
  · intro way hway hle
    rw [(h.line_access_of_stays hset hway hstays).1]
    exact hqueued.unused way hway hle
  · intro i t ht hround
    have hkept := h.line_access_of_stays hset (Nat.mod_lt i hpos) hstays
    rw [Line.holds, hkept.1, hkept.2]
    exact hqueued.held ht hround
  · intro way hway
    have hle := hqueued.stamp_le way hway
    rw [hstamp way hway]
    omega
  · intro i j hround hlt hj
    rw [hstamp _ (Nat.mod_lt i hpos), hstamp _ (Nat.mod_lt j hpos)]
    exact hqueued.ordered hround hlt hj

/-- A miss puts the next line into the ring. -/
theorem Queued.access_of_miss {r : Request} (hqueued : c.Queued (c.setOf r.address) s arrived)
    (hclock : s.clock.toNat + 1 < 2 ^ 64) (hmiss : c.find r.address = none) :
    ∃ s', s'.clock.toNat = s.clock.toNat + 1 ∧
      (c.access r).cache.Queued (c.setOf r.address) s' (arrived ++ [c.tagOf r.address]) := by
  have hway := hqueued.wayFor_eq h
  obtain ⟨s', hreplacement, hclock', hstamps⟩ :=
    h.exists_stamps_access hqueued.replacement_eq hclock r
  have hnew : (c.lineAfter r).holds (c.tagOf r.address) = true := Line.holds_iff.mpr ⟨rfl, rfl⟩
  refine ⟨s', hclock', hqueued.concat h.valid.ways_pos (geometry_access c r) hreplacement
    (by omega) hnew ?_ ?_⟩
  · intro way hlt
    rw [h.line_access r (h.setOf_lt _) hlt, Cache.access_of_miss hmiss, Outcome.way, hway]
    simp only [true_and]
  · intro way hlt
    rw [hstamps hlt, hway]
    simp only [hmiss, true_and]

/-- A request moves the ring on if it is a miss of its set. -/
theorem Queued.access {set : ℕ} (hqueued : c.Queued set s arrived) (hset : set < c.geometry.sets)
    (hclock : s.clock.toNat + 1 < 2 ^ 64) (r : Request) :
    ∃ s', s'.clock.toNat = s.clock.toNat + 1 ∧
      (c.access r).cache.Queued set s' (arrived ++ (c.arrivals set [r]).map Arrival.tag) := by
  by_cases hmiss : c.find r.address = none ∧ c.setOf r.address = set
  · obtain ⟨hmiss, rfl⟩ := hmiss
    rw [arrivals_singleton_of_miss hmiss]
    exact hqueued.access_of_miss h hclock hmiss
  · have hstays := not_and_or.mp hmiss
    rw [arrivals_singleton_eq_nil hstays, List.map_nil, List.append_nil]
    exact hqueued.access_of_stays h hset hclock hstays

/-- What a miss does when the ring has been through the given misses. -/
theorem Queued.arrival_spec {set : ℕ} {misses : List Arrival}
    (hqueued : c.Queued set s (misses.map Arrival.tag)) {r : Request} {m : Arrival}
    (hm : m ∈ c.arrivals set [r]) :
    m.way = misses.length % c.geometry.ways ∧
      (misses.length < c.geometry.ways → m.replaced.valid = false) ∧
      (c.geometry.ways ≤ misses.length →
        ∃ earlier, misses[misses.length - c.geometry.ways]? = some earlier ∧
          m.replaced.holds earlier.tag = true) := by
  by_cases hmiss : c.find r.address = none ∧ c.setOf r.address = set
  · obtain ⟨hmiss, rfl⟩ := hmiss
    rw [arrivals_singleton_of_miss hmiss, List.mem_singleton] at hm
    subst hm
    have hway := hqueued.wayFor_eq h
    rw [List.length_map] at hway
    refine ⟨hway, fun hlt => ?_, fun hle => ?_⟩
    · exact (hqueued.wayFor_of_lt h (by simpa using hlt)).2
    · have hearlier : misses.length - c.geometry.ways < misses.length := by
        have := h.valid.ways_pos
        omega
      refine ⟨_, List.getElem?_eq_getElem hearlier, ?_⟩
      exact hqueued.lineFor_of_le h (by simpa using hle) (by simp [hearlier])
  · rw [arrivals_singleton_eq_nil (not_and_or.mp hmiss)] at hm
    cases hm

/-- The lines that a set holds are the last ones that came in. -/
theorem Queued.mem_linesIn_iff {set : ℕ} (hqueued : c.Queued set s arrived) {t : UInt64} :
    t ∈ (c.store.linesIn c.geometry.ways set).map Line.tag ↔
      t ∈ arrived.drop (arrived.length - c.geometry.ways) := by
  rw [TagStore.mem_map_tag_linesIn, List.mem_iff_getElem?]
  simp only [List.getElem?_drop]
  constructor
  · rintro ⟨way, hway, hholds⟩
    obtain ⟨hvalid, htag⟩ := Line.holds_iff.mp hholds
    have hreached : way < arrived.length := by
      by_contra hnot
      rw [hqueued.unused way hway (not_lt.mp hnot)] at hvalid
      cases hvalid
    obtain ⟨i, hi, hround, rfl⟩ := exists_mod_eq hway hreached
    have hheld := hqueued.held (List.getElem?_eq_getElem hi) hround
    refine ⟨i - (arrived.length - c.geometry.ways), ?_⟩
    rw [Nat.add_sub_of_le (by omega), List.getElem?_eq_getElem hi,
      ← (Line.holds_iff.mp hheld).2, htag]
  · rintro ⟨i, ht⟩
    exact ⟨_, Nat.mod_lt _ h.valid.ways_pos, hqueued.held ht (by omega)⟩

/-- The last lines that came in are all different. -/
theorem Queued.nodup_drop {set : ℕ} (hqueued : c.Queued set s arrived)
    (hset : set < c.geometry.sets) :
    (arrived.drop (arrived.length - c.geometry.ways)).Nodup := by
  have hpos := h.valid.ways_pos
  rw [List.nodup_iff_getElem?_ne_getElem?]
  intro i j hlt hj heq
  rw [List.length_drop] at hj
  rw [List.getElem?_drop, List.getElem?_drop] at heq
  have ht : arrived[arrived.length - c.geometry.ways + j]? =
      some arrived[arrived.length - c.geometry.ways + j] := List.getElem?_eq_getElem (by omega)
  have hheld := hqueued.held (heq.trans ht) (by omega)
  have hheld' := hqueued.held ht (by omega)
  exact mod_ne_mod (by omega) (by omega) (h.store.holds_unique hset (Nat.mod_lt _ hpos)
    (Nat.mod_lt _ hpos) hheld hheld')

end

/-! ## A whole run -/

section

variable {c : Cache} (h : c.Built) (hfifo : c.geometry.policy = .fifo) {set : ℕ}
  (hset : set < c.geometry.sets)
include h hfifo hset

/-- A new cache under FIFO works as a ring in every run that its clock can count. -/
theorem Built.exists_queued_after (rs : List Request) (hcount : rs.length < 2 ^ 64) :
    ∃ s, s.clock.toNat = rs.length ∧
      (c.after rs).Queued set s ((c.arrivals set rs).map Arrival.tag) := by
  induction rs using List.reverseRecOn with
  | nil => exact ⟨_, rfl, h.queued hfifo set⟩
  | append_singleton rs r ih =>
    rw [List.length_append, List.length_singleton] at hcount ⊢
    obtain ⟨s, hclock, hqueued⟩ := ih (by omega)
    obtain ⟨s', hclock', hqueued'⟩ :=
      hqueued.access (h.sound.after rs) (by simpa using hset) (by omega) r
    refine ⟨s', by omega, ?_⟩
    rw [arrivals_append, List.map_append, after_append]
    exact hqueued'

/-- Misses take the ways of their set in turn, and from the second round on each one replaces the
line of the miss one round before. -/
theorem Built.arrivals_spec (rs : List Request) (hcount : rs.length < 2 ^ 64) {n : ℕ} {m : Arrival}
    (hm : (c.arrivals set rs)[n]? = some m) :
    m.way = n % c.geometry.ways ∧ (n < c.geometry.ways → m.replaced.valid = false) ∧
      (c.geometry.ways ≤ n → ∃ earlier, (c.arrivals set rs)[n - c.geometry.ways]? = some earlier ∧
        m.replaced.holds earlier.tag = true) := by
  induction rs using List.reverseRecOn with
  | nil => cases hm
  | append_singleton rs r ih =>
    have hbefore : rs.length < 2 ^ 64 := lt_of_le_of_lt (by simp) hcount
    rw [arrivals_append] at hm ⊢
    rcases Nat.lt_or_ge n (c.arrivals set rs).length with hlt | hge
    · rw [List.getElem?_append_left hlt] at hm
      rw [List.getElem?_append_left (by omega)]
      exact ih hbefore hm
    · obtain ⟨s, -, hqueued⟩ := h.exists_queued_after hfifo hset rs hbefore
      rw [List.getElem?_append_right hge] at hm
      have hlast : n = (c.arrivals set rs).length := by
        have hlt := (List.getElem?_eq_some_iff.mp hm).1
        have hle := (c.after rs).length_arrivals_le set [r]
        rw [List.length_singleton] at hle
        omega
      have hspec := hqueued.arrival_spec (h.sound.after rs) (List.mem_of_getElem? hm)
      rw [geometry_after, ← hlast] at hspec
      obtain ⟨hway, hempty, hearlier⟩ := hspec
      refine ⟨hway, hempty, fun hle => ?_⟩
      obtain ⟨earlier, hfound, hholds⟩ := hearlier hle
      have hlt := (List.getElem?_eq_some_iff.mp hfound).1
      exact ⟨earlier, (List.getElem?_append_left hlt).trans hfound, hholds⟩

end

/-- **FIFO is a round-robin queue per set.**  In every run that the clock of the cache can count,
and whatever hits it has, the misses of a set take its ways in turn: the miss with the number `n`
is put at the way `n % ways`.  In the first round it finds the way empty, and later it replaces the
line of the miss exactly one round before.  A set holds the lines of its last misses, as many as
it has ways; each of them is still at its way, and they are all different. -/
theorem fifo_round_robin {c : Cache} (hbuilt : c.Built) (hfifo : c.geometry.policy = .fifo)
    (rs : List Request) (hcount : rs.length < 2 ^ 64) {set : ℕ} (hset : set < c.geometry.sets) :
    let ways := c.geometry.ways
    let now := c.after rs
    let misses := c.arrivals set rs
    let last := (misses.map Arrival.tag).drop (misses.length - ways)
    (∀ n m, misses[n]? = some m →
      m.way = n % ways ∧ (n < ways → m.replaced.valid = false) ∧
        (ways ≤ n → ∃ earlier, misses[n - ways]? = some earlier ∧
          m.replaced.holds earlier.tag = true) ∧
        (misses.length ≤ n + ways → (now.store.line set m.way).holds m.tag = true)) ∧
      ((now.store.linesIn ways set).map Line.tag).Perm last ∧ last.Nodup := by
  intro ways now misses last
  obtain ⟨s, -, hqueued⟩ := hbuilt.exists_queued_after hfifo hset rs hcount
  have hsound := hbuilt.sound.after rs
  have hnodup := hqueued.nodup_drop hsound (by simpa using hset)
  have hmem := fun t => hqueued.mem_linesIn_iff hsound (t := t)
  have hlines := hsound.store.nodup_map_tag_linesIn (show set < now.geometry.sets by simpa [now])
  simp only [geometry_after, List.length_map] at hnodup hmem hlines
  refine ⟨?_, (List.perm_ext_iff_of_nodup hlines hnodup).mpr hmem, hnodup⟩
  intro n m hm
  obtain ⟨hway, hempty, hearlier⟩ := hbuilt.arrivals_spec hfifo hset rs hcount hm
  refine ⟨hway, hempty, hearlier, fun hround => ?_⟩
  have htag : (misses.map Arrival.tag)[n]? = some m.tag := by rw [List.getElem?_map, hm]; rfl
  have hheld := hqueued.held htag (by simpa using hround)
  rw [geometry_after] at hheld
  rw [hway]
  exact hheld

/-- Two sets of two ways: a hit and a request to the other set do not delay the line that came in
first, and the third miss replaces it. -/
theorem fifo_round_robin_two_ways :
    let c := fresh .array ⟨2, 2, 8, .fifo⟩ "L1$" default
    let rs : List Request :=
      [⟨0, 8, true⟩, ⟨16, 8, false⟩, ⟨0, 8, false⟩, ⟨8, 8, false⟩, ⟨32, 8, false⟩]
    Cache.build ⟨2, 2, 8, .fifo⟩ "L1$" default = .ok c ∧ c.geometry.policy = .fifo ∧
      rs.length < 2 ^ 64 ∧ 0 < c.geometry.sets ∧
      (c.arrivals 0 rs)[2]? = some ⟨4, 0, { tag := 0, valid := true, dirty := true }⟩ ∧
      ((c.after rs).store.line 0 0).holds 4 = true ∧
      (((c.after rs).store.linesIn 2 0).map Line.tag).Perm [2, 4] := by
  intro c rs
  have hbuild : Cache.build ⟨2, 2, 8, .fifo⟩ "L1$" default = .ok c := rfl
  have hcount : rs.length < 2 ^ 64 := by decide
  have hset : 0 < c.geometry.sets := by decide
  have hthird : (c.arrivals 0 rs)[2]? =
      some ⟨4, 0, { tag := 0, valid := true, dirty := true }⟩ := by decide
  have hlast : ((c.arrivals 0 rs).map Arrival.tag).drop
      ((c.arrivals 0 rs).length - c.geometry.ways) = [2, 4] := by decide
  obtain ⟨hrounds, hlines, -⟩ := fifo_round_robin (.standard hbuild) rfl rs hcount hset
  obtain ⟨-, -, -, hheld⟩ := hrounds 2 _ hthird
  exact ⟨hbuild, rfl, hcount, hset, hthird, hheld (by decide), hlast ▸ hlines⟩

end Cache

end CacheModel
