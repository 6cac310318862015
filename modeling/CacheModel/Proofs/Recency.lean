import Mathlib
import CacheModel.Proofs.Occupancy
import CacheModel.Proofs.Visible

/-!
# Least recently used

The cache does not keep the history of its requests.  It keeps one stamp per way, from a clock
that all sets share.  As long as the clock has not come round, the stamp of a line that is held is
the place of its last use in the history, and a line that was used but is no longer held lies
further back than every line that now fills its set.  These two facts survive every request, and
from them the distance law of LRU can be read off: a line is held as long as fewer other lines of
its set than there are ways were used since.
-/

namespace CacheModel

/-! ## Last uses in a history -/

section

variable {α : Type} [DecidableEq α]

/-- What was used after the last use of `t`, the latest first; everything if `t` was never used. -/
def since (history : List α) (t : α) : List α :=
  history.reverse.takeWhile fun u => u ≠ t

/-- How long the history was at the last use of `t`; zero if `t` was never used. -/
def lastUse (history : List α) (t : α) : ℕ :=
  history.length - (since history t).length

@[simp] theorem since_nil (t : α) : since [] t = [] := rfl

@[simp] theorem lastUse_nil (t : α) : lastUse [] t = 0 := rfl

theorem since_concat (history : List α) (u t : α) :
    since (history ++ [u]) t = if u = t then [] else u :: since history t := by
  by_cases h : u = t
  · simp [since, h]
  · simp [since, h]

theorem length_since_le (history : List α) (t : α) :
    (since history t).length ≤ history.length := by
  rw [since, ← history.length_reverse]
  exact (List.takeWhile_sublist _).length_le

theorem mem_of_mem_since {history : List α} {t u : α} (h : u ∈ since history t) : u ∈ history :=
  List.mem_reverse.mp ((List.takeWhile_sublist _).subset h)

theorem lastUse_le (history : List α) (t : α) : lastUse history t ≤ history.length :=
  Nat.sub_le _ _

theorem lastUse_concat (history : List α) (u t : α) :
    lastUse (history ++ [u]) t = if u = t then history.length + 1 else lastUse history t := by
  have hle := length_since_le history t
  rw [lastUse, since_concat]
  split
  · simp
  · simp only [List.length_append, List.length_cons, List.length_nil, lastUse]
    omega

/-- Something was used since the last use of `t` if its own last use is later. -/
theorem mem_since_iff (history : List α) (u t : α) :
    u ∈ since history t ↔ lastUse history t < lastUse history u := by
  induction history using List.reverseRecOn with
  | nil => simp
  | append_singleton history v ih =>
    have hle := lastUse_le history t
    have hle' := lastUse_le history u
    rw [since_concat, lastUse_concat, lastUse_concat]
    by_cases ht : v = t
    · simp only [if_pos ht, List.not_mem_nil, false_iff, not_lt]
      split <;> omega
    · by_cases hu : v = u
      · subst hu
        rw [if_neg ht, if_neg ht, if_pos rfl]
        exact iff_of_true List.mem_cons_self (Nat.lt_succ_of_le hle)
      · simp only [if_neg ht, if_neg hu, List.mem_cons, ih, or_iff_right_iff_imp]
        exact fun heq => absurd heq.symm hu

/-- No two things that were used have the same last use. -/
theorem lastUse_inj {history : List α} {t u : α} (ht : t ∈ history)
    (h : lastUse history t = lastUse history u) : t = u := by
  induction history using List.reverseRecOn with
  | nil => cases ht
  | append_singleton history v ih =>
    have hle := lastUse_le history t
    have hle' := lastUse_le history u
    rw [lastUse_concat, lastUse_concat] at h
    by_cases hvt : v = t
    · by_cases hvu : v = u
      · exact hvt.symm.trans hvu
      · rw [if_pos hvt, if_neg hvu] at h
        omega
    · have hmem : t ∈ history := by simpa [Ne.symm hvt] using ht
      by_cases hvu : v = u
      · rw [if_neg hvt, if_pos hvu] at h
        omega
      · rw [if_neg hvt, if_neg hvu] at h
        exact ih hmem h

end

namespace Cache

/-! ## What LRU remembers -/

/-- The stamps and the clock tell the history of the requests by their tags, as far as the lines
of today need it. -/
structure Recent (c : Cache) (s : Stamps) (history : List UInt64) : Prop where
  replacement_eq : c.replacement = .lru s
  clock_eq : s.clock.toNat = history.length
  /-- A line that is held was used, and its stamp is its last use. -/
  held : ∀ {set way}, set < c.geometry.sets → way < c.geometry.ways →
    (c.store.line set way).valid = true → (c.store.line set way).tag ∈ history ∧
      (s.stamp set way).toNat = lastUse history (c.store.line set way).tag
  /-- A line that was used and is not held lies behind every line of a full set. -/
  gone : ∀ {a}, c.tagOf a ∈ history → c.find a = none → ∀ way < c.geometry.ways,
    (c.store.line (c.setOf a) way).valid = true ∧
      lastUse history (c.tagOf a) < lastUse history (c.store.line (c.setOf a) way).tag

theorem Recent.stamps?_eq {c : Cache} {s : Stamps} {history : List UInt64}
    (h : c.Recent s history) : c.replacement.stamps? = some s := by
  rw [h.replacement_eq]
  rfl

theorem Built.recent {c : Cache} (h : c.Built) (hlru : c.geometry.policy = .lru) :
    c.Recent (.fresh c.geometry.sets c.geometry.ways) [] where
  replacement_eq := by
    obtain ⟨source, hreplacement⟩ := h.exists_replacement_eq
    rw [hreplacement, hlru]
    rfl
  clock_eq := rfl
  held {set way} _ _ hvalid := by
    rw [h.line_eq set way] at hvalid
    cases hvalid
  gone hmem := by cases hmem

section

variable {c : Cache} (h : c.Sound) {s : Stamps} (hlru : c.replacement = .lru s)
include h hlru

/-- Under LRU hits and misses alike stamp the way that the line is found at afterwards. -/
theorem Sound.replacement_access_of_lru (r : Request) :
    (c.access r).cache.replacement =
      .lru (s.tick.mark (c.setOf r.address) (c.access r).outcome.way) := by
  have hmarked : c.restamps r = true := by
    rw [restamps, hlru]
    rfl
  obtain ⟨hpolicy, hafter⟩ := h.stamps?_access (by rw [hlru]; rfl) r
  rw [if_pos hmarked] at hafter
  exact Replacement.eq_of_stamps? (hpolicy.trans (by rw [hlru]; rfl)) hafter rfl

end

section

variable {c : Cache} (h : c.Sound) {s : Stamps} {history : List UInt64}
  (hrecent : c.Recent s history)
include h hrecent

/-- The line that has to leave a full set was used before every other line of the set. -/
theorem Recent.lastUse_lineFor_lt {a : UInt64} (hvalid : (c.lineFor a).valid = true) {way : ℕ}
    (hway : way < c.geometry.ways) (hne : way ≠ c.wayFor a) :
    (c.store.line (c.setOf a) way).valid = true ∧
      lastUse history (c.lineFor a).tag <
        lastUse history (c.store.line (c.setOf a) way).tag := by
  have hset := h.setOf_lt a
  have hchosen := (h.offers_wayFor a).lt
  obtain ⟨hempty, hleast⟩ := h.lineFor_of_stamps hrecent.stamps?_eq a
  have hfull := hempty.resolve_left (by simp [hvalid])
  obtain ⟨hmem, hstamp⟩ := hrecent.held hset hchosen hvalid
  obtain ⟨-, hstamp'⟩ := hrecent.held hset hway (hfull way hway)
  have hle := hleast hvalid way hway
  rw [hstamp, hstamp'] at hle
  refine ⟨hfull way hway, lt_of_le_of_ne hle fun heq => hne ?_⟩
  exact (h.place_unique hset hway hset hchosen (hfull way hway) hvalid
    (lastUse_inj hmem heq).symm).2

/-- After a request a line that was used and is not held lies behind all other lines of its set,
the line of the request apart. -/
theorem Recent.lastUse_lt_of_gone {r : Request} {a : UInt64}
    (hmem : c.tagOf a ∈ history) (hgone : (c.access r).cache.find a = none) {way : ℕ}
    (hway : way < c.geometry.ways)
    (hne : ¬ (c.setOf a = c.setOf r.address ∧ way = (c.access r).outcome.way)) :
    (c.store.line (c.setOf a) way).valid = true ∧
      lastUse history (c.tagOf a) < lastUse history (c.store.line (c.setOf a) way).tag := by
  rcases h.find_eq_none_or_evicts hgone with hbefore | hevicts
  · exact hrecent.gone hmem hbefore way hway
  · have hset := (h.find_of_evicts hevicts).2
    obtain ⟨hmiss, hholds⟩ := hevicts
    obtain ⟨hvalid, htag⟩ := Line.holds_iff.mp hholds
    have hplace : way ≠ c.wayFor r.address := by
      rintro rfl
      refine hne ⟨hset, ?_⟩
      rw [access_of_miss hmiss, Outcome.way]
    rw [hset, ← htag]
    exact hrecent.lastUse_lineFor_lt h hvalid hway hplace

/-- Every request is remembered. -/
theorem Recent.access (r : Request) (hclock : history.length + 1 < 2 ^ 64) :
    (c.access r).cache.Recent (s.tick.mark (c.setOf r.address) (c.access r).outcome.way)
      (history ++ [c.tagOf r.address]) where
  replacement_eq := h.replacement_access_of_lru hrecent.replacement_eq r
  clock_eq := by
    rw [Stamps.clock_mark, Stamps.toNat_clock_tick (hrecent.clock_eq ▸ hclock), hrecent.clock_eq,
      List.length_append, List.length_singleton]
  held {set way} := by
    have hfits := h.fits_of_stamps hrecent.stamps?_eq
    rw [geometry_access]
    intro hset hway
    rw [h.line_access r hset hway,
      hfits.tick.stamp_mark (h.setOf_lt _) (h.way_outcome_lt r) hway, Stamps.stamp_tick]
    split
    · intro _
      refine ⟨List.mem_append_right _ (List.mem_singleton_self _), ?_⟩
      rw [lineAfter, lastUse_concat, if_pos rfl,
        Stamps.toNat_clock_tick (hrecent.clock_eq ▸ hclock), hrecent.clock_eq]
    · next hne =>
      intro hvalid
      obtain ⟨hmem, hstamp⟩ := hrecent.held hset hway hvalid
      refine ⟨List.mem_append_left _ hmem, ?_⟩
      rw [lastUse_concat, if_neg (h.tag_ne_of_place_ne r hset hway hne hvalid).symm, hstamp]
  gone {a} := by
    simp only [geometry_access, setOf_access, tagOf_access]
    intro hmem hgone way hway
    have hne : c.tagOf r.address ≠ c.tagOf a := by
      intro heq
      have hfound := h.find_access_self r
      rw [find_eq_of_tagOf_eq (by simpa using heq), hgone] at hfound
      cases hfound
    have hmem' : c.tagOf a ∈ history := by simpa [hne.symm] using hmem
    rw [h.line_access r (h.setOf_lt a) hway, lastUse_concat, if_neg hne]
    split
    · refine ⟨rfl, ?_⟩
      rw [lineAfter, lastUse_concat, if_pos rfl]
      exact Nat.lt_succ_of_le (lastUse_le history _)
    · next hplace =>
      obtain ⟨hvalid, hlt⟩ := hrecent.lastUse_lt_of_gone h hmem' hgone hway hplace
      refine ⟨hvalid, ?_⟩
      rwa [lastUse_concat, if_neg (h.tag_ne_of_place_ne r (h.setOf_lt a) hway hplace hvalid).symm]

end

/-- A cache under LRU remembers every run that its clock can count. -/
theorem Recent.after {c : Cache} (h : c.Sound) {s : Stamps} {history : List UInt64}
    (hrecent : c.Recent s history) (rs : List Request)
    (hclock : history.length + rs.length < 2 ^ 64) :
    ∃ s', (c.after rs).Recent s' (history ++ rs.map fun r => c.tagOf r.address) := by
  induction rs generalizing c s history with
  | nil => exact ⟨s, by simpa using hrecent⟩
  | cons r rs ih =>
    rw [List.length_cons] at hclock
    have hnext := hrecent.access h r (by omega)
    obtain ⟨s', hlast⟩ := ih (h.access r) hnext (by simp; omega)
    exact ⟨s', by simpa using hlast⟩

/-! ## The distance law -/

/-- How many other lines of its set were used since the last use of the line of `a`. -/
def stackDistance (c : Cache) (history : List UInt64) (a : UInt64) : ℕ :=
  ((since history (c.tagOf a)).toFinset.filter fun t =>
    c.geometry.addresses.setOfTag t = c.setOf a).card

section

variable {c : Cache} (h : c.Sound) {s : Stamps} {history : List UInt64}
  (hrecent : c.Recent s history)
include h hrecent

/-- What a set has seen since the last use of a line that it still holds is held too, so that it
all fits into the set together with this line. -/
theorem Recent.stackDistance_lt (hhistory : ∀ t ∈ history, ∃ b, c.tagOf b = t) {a : UInt64}
    (hheld : c.contains a = true) : c.stackDistance history a < c.geometry.ways := by
  obtain ⟨way, hfind⟩ := Option.isSome_iff_exists.mp hheld
  obtain ⟨hway, hholds⟩ := h.find_iff.mp hfind
  have htag := (Line.holds_iff.mp hholds).2
  have hnew : c.tagOf a ∉ (since history (c.tagOf a)).toFinset.filter fun t =>
      c.geometry.addresses.setOfTag t = c.setOf a := by
    simp [mem_since_iff]
  have hsub : insert (c.tagOf a) ((since history (c.tagOf a)).toFinset.filter fun t =>
      c.geometry.addresses.setOfTag t = c.setOf a) ⊆
      (Finset.range c.geometry.ways).image fun way => (c.store.line (c.setOf a) way).tag := by
    intro t ht
    rw [Finset.mem_image]
    rcases Finset.mem_insert.mp ht with rfl | ht
    · exact ⟨way, Finset.mem_range.mpr hway, htag⟩
    · obtain ⟨hsince, hset⟩ := Finset.mem_filter.mp ht
      have hsince := List.mem_toFinset.mp hsince
      have hused := mem_of_mem_since hsince
      obtain ⟨b, rfl⟩ := hhistory t hused
      have hsame : c.setOf b = c.setOf a := hset
      cases hfound : c.find b with
      | some way' =>
        obtain ⟨hway', hholds'⟩ := h.find_iff.mp hfound
        exact ⟨way', Finset.mem_range.mpr hway', hsame ▸ (Line.holds_iff.mp hholds').2⟩
      | none =>
        -- A line of the set that is gone lies behind the line of `a`, which is still here.
        have hbehind := (hrecent.gone hused hfound way hway).2
        rw [hsame, htag] at hbehind
        exact absurd ((mem_since_iff _ _ _).mp hsince) hbehind.not_gt
  calc c.stackDistance history a + 1
      = (insert (c.tagOf a) ((since history (c.tagOf a)).toFinset.filter fun t =>
          c.geometry.addresses.setOfTag t = c.setOf a)).card :=
        (Finset.card_insert_of_notMem hnew).symm
    _ ≤ ((Finset.range c.geometry.ways).image fun way =>
          (c.store.line (c.setOf a) way).tag).card := Finset.card_le_card hsub
    _ ≤ c.geometry.ways := Finset.card_image_le.trans_eq (Finset.card_range _)

/-- When a line that was used is gone, its set is full of lines that were used since. -/
theorem Recent.le_stackDistance {a : UInt64} (hused : c.tagOf a ∈ history)
    (hgone : c.find a = none) : c.geometry.ways ≤ c.stackDistance history a := by
  have hset := h.setOf_lt a
  have hinj : Set.InjOn (fun way => (c.store.line (c.setOf a) way).tag)
      (Finset.range c.geometry.ways) := by
    intro way hway way' hway' htag
    have hway := Finset.mem_range.mp hway
    have hway' := Finset.mem_range.mp hway'
    exact (h.place_unique hset hway hset hway' (hrecent.gone hused hgone way hway).1
      (hrecent.gone hused hgone way' hway').1 htag).2
  have hsub : ((Finset.range c.geometry.ways).image fun way =>
      (c.store.line (c.setOf a) way).tag) ⊆ (since history (c.tagOf a)).toFinset.filter fun t =>
        c.geometry.addresses.setOfTag t = c.setOf a := by
    intro t ht
    obtain ⟨way, hway, rfl⟩ := Finset.mem_image.mp ht
    have hway := Finset.mem_range.mp hway
    obtain ⟨hvalid, hlater⟩ := hrecent.gone hused hgone way hway
    obtain ⟨b, hhome, htag⟩ := h.home hset hway hvalid
    refine Finset.mem_filter.mpr ⟨List.mem_toFinset.mpr ((mem_since_iff _ _ _).mpr hlater), ?_⟩
    rw [← htag, ← hhome]
    rfl
  rw [← Finset.card_range c.geometry.ways, ← Finset.card_image_of_injOn hinj]
  exact Finset.card_le_card hsub

/-- A line is held if it was used and its distance does not exceed the set. -/
theorem Recent.contains_iff (hhistory : ∀ t ∈ history, ∃ b, c.tagOf b = t) {a : UInt64} :
    c.contains a = true ↔
      c.tagOf a ∈ history ∧ c.stackDistance history a < c.geometry.ways := by
  constructor
  · intro hheld
    refine ⟨?_, hrecent.stackDistance_lt h hhistory hheld⟩
    obtain ⟨way, hway, hholds⟩ := h.contains_iff.mp hheld
    obtain ⟨hvalid, htag⟩ := Line.holds_iff.mp hholds
    exact htag ▸ (hrecent.held (h.setOf_lt a) hway hvalid).1
  · rintro ⟨hused, hlt⟩
    by_contra hnot
    have hgone : c.find a = none := by simpa [contains] using hnot
    exact absurd (hrecent.le_stackDistance h hused hgone) hlt.not_ge

end

/-- After a run a cache under LRU holds the lines that were used and whose distance does not exceed
their set. -/
theorem Built.contains_after_iff {c : Cache} (h : c.Built) (hlru : c.geometry.policy = .lru)
    {rs : List Request} (hcount : rs.length < 2 ^ 64) {a : UInt64} :
    (c.after rs).contains a = true ↔
      c.tagOf a ∈ (rs.map fun r => c.tagOf r.address) ∧
        c.stackDistance (rs.map fun r => c.tagOf r.address) a < c.geometry.ways := by
  obtain ⟨s, hrecent⟩ := (h.recent hlru).after h.sound rs (by simpa using hcount)
  have hhistory : ∀ t ∈ [] ++ rs.map fun r => c.tagOf r.address,
      ∃ b, (c.after rs).tagOf b = t := by
    intro t ht
    obtain ⟨r, -, rfl⟩ := List.mem_map.mp ht
    exact ⟨r.address, tagOf_after c rs _⟩
  rw [hrecent.contains_iff (h.sound.after rs) hhistory, stackDistance, tagOf_after, setOf_after,
    geometry_after, List.nil_append, stackDistance]

section

variable {c : Cache} (h : c.Sound)
include h

/-- Under LRU a missing line takes the place of another one if its set is full. -/
theorem Sound.valid_lineFor_iff {s : Stamps} (hlru : c.replacement = .lru s) (a : UInt64) :
    (c.lineFor a).valid = true ↔
      (c.store.linesIn c.geometry.ways (c.setOf a)).length = c.geometry.ways := by
  rw [length_linesIn_eq_iff]
  constructor
  · intro hvalid
    exact (h.lineFor_of_stamps (by rw [hlru]; rfl) a).1.resolve_left (by simp [hvalid])
  · exact fun hfull => hfull _ (h.offers_wayFor a).lt

/-- The line that has to leave is the line of the set whose last use is the earliest. -/
theorem Recent.lineFor_earliest {s : Stamps} {history : List UInt64}
    (hrecent : c.Recent s history) {a : UInt64} (hvalid : (c.lineFor a).valid = true) :
    c.lineFor a ∈ c.store.linesIn c.geometry.ways (c.setOf a) ∧ (c.lineFor a).tag ∈ history ∧
      ∀ line ∈ c.store.linesIn c.geometry.ways (c.setOf a), line ≠ c.lineFor a →
        line.tag ∈ since history (c.lineFor a).tag := by
  have hchosen := (h.offers_wayFor a).lt
  refine ⟨?_, (hrecent.held (h.setOf_lt a) hchosen hvalid).1, ?_⟩
  · exact List.mem_filter.mpr ⟨TagStore.mem_places.mpr ⟨_, hchosen, rfl⟩, hvalid⟩
  · intro line hline hne
    obtain ⟨way, hway, rfl⟩ := TagStore.mem_places.mp (List.mem_filter.mp hline).1
    have hother : way ≠ c.wayFor a := by
      rintro rfl
      exact hne rfl
    exact (mem_since_iff _ _ _).mpr (hrecent.lastUse_lineFor_lt h hvalid hway hother).2

end

/-- **LRU is the least recently used.**  In every run that the clock of the cache can count, a
request hits exactly if its line was used before in the run and fewer other lines of its set than
there are ways were used since.  On a miss a line is replaced exactly if the set is full.  It is
then the line of the set whose last use is the earliest: every other line that the set holds was
used since. -/
theorem lru_distance_law {c : Cache} (hbuilt : c.Built) (hlru : c.geometry.policy = .lru)
    (past : List Request) (hcount : past.length < 2 ^ 64) (r : Request) :
    let history := past.map fun q => c.tagOf q.address
    let now := c.after past
    let lines := now.store.linesIn c.geometry.ways (c.setOf r.address)
    ((now.access r).outcome.isHit = true ↔
        c.tagOf r.address ∈ history ∧ c.stackDistance history r.address < c.geometry.ways) ∧
      ∀ way replaced, (now.access r).outcome = .miss way replaced →
        (replaced.valid = true ↔ lines.length = c.geometry.ways) ∧
        (replaced.valid = true →
          replaced ∈ lines ∧ replaced.tag ∈ history ∧
            (∀ line ∈ lines, line ≠ replaced → line.tag ∈ since history replaced.tag) ∧
            ∀ b, c.tagOf b = replaced.tag →
              now.contains b = true ∧ (now.access r).cache.contains b = false) := by
  intro history now lines
  obtain ⟨s, hrecent⟩ := (hbuilt.recent hlru).after hbuilt.sound past (by simpa using hcount)
  have hsound : now.Sound := hbuilt.sound.after past
  have hgeometry : now.geometry = c.geometry := geometry_after c past
  have hset : now.setOf = c.setOf := funext (setOf_after c past)
  have htag : now.tagOf = c.tagOf := funext (tagOf_after c past)
  have hhistory : ∀ t ∈ history, ∃ b, now.tagOf b = t := by
    intro t ht
    obtain ⟨q, -, rfl⟩ := List.mem_map.mp ht
    exact ⟨q.address, congrFun htag _⟩
  constructor
  · rw [isHit_outcome, hrecent.contains_iff hsound hhistory, stackDistance, hgeometry, htag, hset]
    rfl
  · intro way replaced houtcome
    obtain ⟨hmiss, -, rfl⟩ := outcome_eq_miss_iff.mp houtcome
    have hfull := hsound.valid_lineFor_iff hrecent.replacement_eq r.address
    rw [hgeometry, hset] at hfull
    refine ⟨hfull, ?_⟩
    intro hvalid
    have hearliest := hrecent.lineFor_earliest hsound hvalid
    rw [hgeometry, hset] at hearliest
    obtain ⟨hmem, hused, hsince⟩ := hearliest
    refine ⟨hmem, hused, hsince, ?_⟩
    intro b hb
    have hevicts : now.Evicts r b := ⟨hmiss, Line.holds_iff.mpr ⟨hvalid, by rw [htag, hb]⟩⟩
    rw [contains, contains, (hsound.find_of_evicts hevicts).1, hsound.find_access_of_evicts hevicts]
    exact ⟨rfl, rfl⟩

/-- Two ways: the line that was fetched first is read again, so the other one has to leave. -/
theorem lru_distance_law_two_ways :
    let c := fresh .array ⟨2, 2, 8, .lru⟩ "L1$" default
    let past : List Request := [⟨0, 8, true⟩, ⟨16, 8, true⟩, ⟨8, 8, false⟩, ⟨4, 4, false⟩]
    let history := past.map fun q => c.tagOf q.address
    let r : Request := ⟨32, 8, false⟩
    let lines := (c.after past).store.linesIn c.geometry.ways (c.setOf r.address)
    let replaced : Line := { tag := 2, valid := true, dirty := true }
    Cache.build ⟨2, 2, 8, .lru⟩ "L1$" default = .ok c ∧ c.geometry.policy = .lru ∧
      past.length < 2 ^ 64 ∧ ((c.after past).access r).outcome = .miss 1 replaced ∧
      lines.length = c.geometry.ways ∧
      (∀ line ∈ lines, line ≠ replaced → line.tag ∈ since history replaced.tag) ∧
      (c.after past).contains 16 = true ∧
      ((c.after past).access r).cache.contains 16 = false := by
  intro c past history r lines replaced
  have hbuild : Cache.build ⟨2, 2, 8, .lru⟩ "L1$" default = .ok c := rfl
  have hcount : past.length < 2 ^ 64 := by decide
  have hmiss : ((c.after past).access r).outcome = .miss 1 replaced := by decide
  obtain ⟨-, hlaw⟩ := lru_distance_law (.standard hbuild) rfl past hcount r
  obtain ⟨hfull, hearliest⟩ := hlaw 1 replaced hmiss
  obtain ⟨-, -, hsince, hgone⟩ := hearliest rfl
  exact ⟨hbuild, rfl, hcount, hmiss, hfull.mp rfl, hsince, hgone 16 (by decide)⟩

end Cache

end CacheModel
