import Mathlib
import CacheModel.Proofs.Alike
import CacheModel.Proofs.Interchange
import CacheModel.Proofs.Occupancy

/-!
# Draws under random replacement

Random replacement spends one draw each time that its cache asks it for a way.  A cache with an
array asks at every miss, so the draws that are spent are as many as the misses, and every missing
line goes to the way that its own draw names.  A cache with a map asks only once it is full: until
then the missing lines take its ways one after another.

So the way that a missing line goes to is told by the number of misses before it, and the two kinds
of stores differ in the draws of the warm-up only.  If an array is first given the draws that name
its ways one after another, it fills up as a map does, and from then on both spend the same draws.
-/

namespace CacheModel

/-! ## Sources -/

namespace Source

/-- The source after `n` more draws. -/
def skip : ℕ → Source → Source
  | 0, source => source
  | n + 1, source => (source.skip n).next.2

/-- The draw that comes after `k` others. -/
def draw (source : Source) (k : ℕ) : UInt32 :=
  (source.skip k).next.1

@[simp] theorem skip_stream (draw : ℕ → UInt32) (taken n : ℕ) :
    (stream draw taken).skip n = stream draw (taken + n) := by
  induction n with
  | zero => rfl
  | succ n ih => rw [skip, ih, next, Nat.add_assoc]

@[simp] theorem draw_stream (draw : ℕ → UInt32) (taken k : ℕ) :
    (stream draw taken).draw k = draw (taken + k) := by
  rw [Source.draw, skip_stream, next]

end Source

/-- The draws that name the ways of a set one after another, followed by others. -/
def warmed (ways : ℕ) (draw : ℕ → UInt32) (k : ℕ) : UInt32 :=
  if k < ways then UInt32.ofNat k else draw (k - ways)

/-- As long as a way can be told by a draw, the first draws name the ways in order. -/
theorem warmed_mod {ways : ℕ} (hways : ways ≤ 2 ^ 32) (draw : ℕ → UInt32) (k : ℕ) :
    (warmed ways draw k).toNat % ways = if k < ways then k else (draw (k - ways)).toNat % ways := by
  rw [warmed]
  split
  · next hlt =>
    have hfits : k < UInt32.size := hlt.trans_le hways
    rw [UInt32.toNat_ofNat_of_lt' hfits, Nat.mod_eq_of_lt hlt]
  · rfl

namespace Cache

/-! ## The misses of a run -/

/-- The ways that the missing lines of a run went to, in order. -/
def filled (c : Cache) : List Request → List ℕ
  | [] => []
  | r :: rs =>
    (if c.contains r.address then [] else [(c.access r).outcome.way]) ++
      (c.access r).cache.filled rs

theorem filled_concat (c : Cache) (rs : List Request) (r : Request) :
    c.filled (rs ++ [r]) =
      c.filled rs ++ if (c.after rs).contains r.address then [] else
        [((c.after rs).access r).outcome.way] := by
  induction rs generalizing c with
  | nil => rw [List.nil_append, filled, filled, filled, List.append_nil]; rfl
  | cons s rs ih => rw [List.cons_append, filled, filled, ih, after_cons, List.append_assoc]

/-- One entry for every miss that the counters count. -/
theorem length_filled (c : Cache) (rs : List Request) :
    (c.filled rs).length = tally (charge .readMisses) c rs + tally (charge .writeMisses) c rs := by
  rw [← tally_add]
  induction rs generalizing c with
  | nil => rfl
  | cons r rs ih =>
    rw [filled, tally, List.length_append, ih]
    simp only [charge]
    cases c.contains r.address <;> cases r.isWrite <;> rfl

/-- The counters of a new cache tell how many ways were given out, modulo the size of a word. -/
theorem Built.toNat_misses_eq_length_filled {c : Cache} (h : c.Built) (rs : List Request) :
    (c.after rs).counters.misses.toNat = (c.filled rs).length % 2 ^ 64 := by
  rw [Counters.misses, UInt64.toNat_add, length_filled]
  exact (h.toNat_get_after_modEq rs .readMisses).add (h.toNat_get_after_modEq rs .writeMisses)

/-! ## One request -/

/-- A missing line goes to a way that replacement is asked for: with a map only if it is full. -/
def asks (c : Cache) : Bool :=
  match c.store with
  | .array _ => true
  | .map s => s.isFull

theorem asks_of_array {c : Cache} (h : c.store.kind = .array) : c.asks = true := by
  obtain ⟨s, hstore⟩ := exists_array_of_kind h
  rw [asks, hstore]

theorem Sound.asks_iff_of_map {c : Cache} (h : c.Sound) (hkind : c.store.kind = .map) :
    c.asks = true ↔ c.residentLines = c.geometry.ways := by
  obtain ⟨s, hstore⟩ := exists_map_of_kind hkind
  rw [asks, hstore, h.isFull_iff hstore]

section

variable {c : Cache} {ways : ℕ} {source : Source} (hr : c.replacement = .random ways source)
include hr

theorem wayFor_of_asks (hasks : c.asks = true) (a : UInt64) :
    c.wayFor a = source.next.1.toNat % ways := by
  rw [wayFor, hr]
  cases hstore : c.store with
  | array s => rfl
  | map s =>
    rw [asks, hstore] at hasks
    rw [TagStore.victimize, if_pos hasks]
    rfl

/-- A draw is spent by a miss that asks for a way, and by nothing else. -/
theorem replacement_access_of_random (r : Request) :
    (c.access r).cache.replacement =
      .random ways (if !c.contains r.address && c.asks then source.next.2 else source) := by
  rw [replacement_access, contains, hr]
  cases hfind : c.find r.address with
  | some way => rfl
  | none =>
    cases hstore : c.store with
    | array s => rw [asks, hstore]; rfl
    | map s =>
      rw [asks, hstore]
      cases hfull : s.isFull <;> simp [TagStore.victimize, hfull] <;> rfl

end

/-! ## Runs -/

/-- A new cache under random replacement that takes its draws from the given source. -/
structure DrawsFrom (c : Cache) (source : Source) : Prop where
  built : c.Built
  replacement_eq : c.replacement = .random c.geometry.ways source

theorem drawsFrom_of_buildWith {kind : StoreKind} {g : Geometry} {name : String} {source : Source}
    {c : Cache} (hpolicy : g.policy = .random) (hbuild : buildWith kind g name source = .ok c)
    (hkind : kind = .map → g.sets = 1) :
    c.geometry = g ∧ c.store.kind = kind ∧ c.DrawsFrom source := by
  obtain ⟨-, heq⟩ := eq_fresh_of_buildWith hbuild
  refine ⟨by rw [heq]; rfl, by rw [heq]; exact TagStore.kind_fresh _ _ _, .of_buildWith hkind hbuild,
    ?_⟩
  rw [heq, fresh, hpolicy]
  rfl

/-- If the number of misses before a miss tells its way, then the misses of a run go to the ways of
the first numbers. -/
theorem filled_eq_map {c : Cache} {place : ℕ → ℕ}
    (hplace : ∀ past a, (c.after past).wayFor a = place (c.filled past).length)
    (rs : List Request) : c.filled rs = (List.range (c.filled rs).length).map place := by
  induction rs using List.reverseRecOn with
  | nil => rfl
  | append_singleton rs r ih =>
    rw [filled_concat, contains]
    cases hfind : (c.after rs).find r.address with
    | some way => simpa using ih
    | none =>
      have houtcome := outcome_eq_miss_iff.mpr ⟨hfind, rfl, rfl⟩
      simp [houtcome, Outcome.way, hplace, List.range_succ, ← ih]

namespace DrawsFrom

variable {c : Cache} {source : Source} (h : c.DrawsFrom source)
include h

theorem exists_replacement_after (rs : List Request) :
    ∃ source', (c.after rs).replacement = .random c.geometry.ways source' := by
  induction rs using List.reverseRecOn with
  | nil => exact ⟨source, h.replacement_eq⟩
  | append_singleton rs r ih =>
    obtain ⟨source', hafter⟩ := ih
    rw [after_append, after_cons, after_nil]
    exact ⟨_, replacement_access_of_random hafter r⟩

section

variable (hkind : c.store.kind = .array)
include hkind

/-- With an array, the draws that are spent are as many as the misses. -/
theorem replacement_after_of_array (rs : List Request) :
    (c.after rs).replacement = .random c.geometry.ways (source.skip (c.filled rs).length) := by
  induction rs using List.reverseRecOn with
  | nil => exact h.replacement_eq
  | append_singleton rs r ih =>
    rw [after_append, after_cons, after_nil, replacement_access_of_random ih,
      asks_of_array (by rw [kind_after, hkind]), filled_concat]
    cases (c.after rs).contains r.address with
    | true => simp
    | false => simp [Source.skip]

theorem wayFor_of_array (rs : List Request) (a : UInt64) :
    (c.after rs).wayFor a = (source.draw (c.filled rs).length).toNat % c.geometry.ways :=
  wayFor_of_asks (h.replacement_after_of_array hkind rs) (asks_of_array (by rw [kind_after, hkind]))
    a

end

section

variable (hkind : c.store.kind = .map)
include hkind

/-- A map takes a line at every miss until it is full. -/
theorem residentLines_after_of_map (rs : List Request) :
    (c.after rs).residentLines = min (c.filled rs).length c.geometry.ways := by
  induction rs using List.reverseRecOn with
  | nil => rw [after_nil, h.built.residentLines_eq_zero, filled, List.length_nil, Nat.zero_min]
  | append_singleton rs r ih =>
    have hsound := h.built.sound.after rs
    obtain ⟨s, hstore⟩ := exists_map_of_kind (c := c.after rs) (by rw [kind_after, hkind])
    have hvalid := hsound.valid_lineFor_iff_full hstore r.address
    rw [ih, geometry_after] at hvalid
    rw [after_append, after_cons, after_nil, hsound.residentLines_access, ih, filled_concat,
      occupies]
    cases (c.after rs).contains r.address with
    | true => simp
    | false =>
      cases hline : ((c.after rs).lineFor r.address).valid with
      | true =>
        have hfull := hvalid.mp hline
        simp
        omega
      | false =>
        have hroom := mt hvalid.mpr (by simp [hline])
        simp
        omega

theorem asks_after_iff (rs : List Request) :
    (c.after rs).asks = true ↔ c.geometry.ways ≤ (c.filled rs).length := by
  have hsound := h.built.sound.after rs
  rw [hsound.asks_iff_of_map (by rw [kind_after, hkind]), h.residentLines_after_of_map hkind,
    geometry_after, min_eq_right_iff]

/-- With a map, the draws that are spent are as many as the misses after the warm-up. -/
theorem replacement_after_of_map (rs : List Request) :
    (c.after rs).replacement =
      .random c.geometry.ways (source.skip ((c.filled rs).length - c.geometry.ways)) := by
  induction rs using List.reverseRecOn with
  | nil => rw [after_nil, h.replacement_eq, filled, List.length_nil, Nat.zero_sub, Source.skip]
  | append_singleton rs r ih =>
    have hasks := h.asks_after_iff hkind rs
    rw [after_append, after_cons, after_nil, replacement_access_of_random ih, filled_concat]
    cases (c.after rs).contains r.address with
    | true => simp
    | false =>
      by_cases hfull : c.geometry.ways ≤ (c.filled rs).length
      · simp [hasks.mpr hfull, Nat.sub_add_comm hfull, Source.skip]
      · have hroom := Bool.eq_false_iff.mpr (mt hasks.mp hfull)
        have hwarm : (c.filled rs).length + 1 - c.geometry.ways =
            (c.filled rs).length - c.geometry.ways := by omega
        simp [hroom, hwarm]

theorem wayFor_of_map (rs : List Request) (a : UInt64) :
    (c.after rs).wayFor a =
      if (c.filled rs).length < c.geometry.ways then (c.filled rs).length
      else (source.draw ((c.filled rs).length - c.geometry.ways)).toNat % c.geometry.ways := by
  have hsound := h.built.sound.after rs
  have hasks := h.asks_after_iff hkind rs
  split
  · next hroom =>
    obtain ⟨s, hstore⟩ := exists_map_of_kind (c := c.after rs) (by rw [kind_after, hkind])
    have hlines := h.residentLines_after_of_map hkind rs
    rw [hsound.wayFor_of_room hstore (by rw [hlines, geometry_after]; omega), hlines]
    omega
  · next hfull =>
    exact wayFor_of_asks (h.replacement_after_of_map hkind rs) (hasks.mpr (not_lt.mp hfull)) a

end

end DrawsFrom

/-! ## The same cache on a map and on an array -/

/-- Caches of a single set that hold the same lines and count the same look alike. -/
theorem Alike.view_eq {c d : Cache} (h : c.Alike 0 d 0) (hsets : c.geometry.sets = 1)
    (hsets' : d.geometry.sets = 1) (hcounters : c.counters = d.counters) : c.view = d.view := by
  have hsame := fun a => And.intro (h.sound_left.setOf_eq_zero hsets a)
    (h.sound_right.setOf_eq_zero hsets' a)
  simp only [view, View.mk.injEq]
  refine ⟨hcounters, ?_, funext fun a => h.contains_eq (hsame a).1 (hsame a).2,
    funext fun a => h.isDirty_eq (hsame a).1 (hsame a).2⟩
  refine residentLines_eq_of_alike h.sound_left h.sound_right (hsets.trans hsets'.symm) ?_
  intro set hset
  obtain rfl : set = 0 := by omega
  exact h

/-- Two new caches of one shape with a single set: one on a map, and one on an array that is given
the draws of the warm-up first. -/
structure WarmedUp (onMap onArray : Cache) (source : Source) : Prop where
  kind_map : onMap.store.kind = .map
  kind_array : onArray.store.kind = .array
  geometry_eq : onArray.geometry = onMap.geometry
  sets_eq : onMap.geometry.sets = 1
  ways_le : onMap.geometry.ways ≤ 2 ^ 32
  map : onMap.DrawsFrom source
  array : onArray.DrawsFrom (.stream (warmed onMap.geometry.ways source.draw) 0)

namespace WarmedUp

variable {onMap onArray : Cache} {source : Source} (h : WarmedUp onMap onArray source)
include h

/-- After as many misses both put a missing line at the same way. -/
theorem wayFor_eq {rs : List Request}
    (hfilled : (onMap.filled rs).length = (onArray.filled rs).length) (a : UInt64) :
    (onMap.after rs).wayFor a = (onArray.after rs).wayFor a := by
  rw [h.map.wayFor_of_map h.kind_map, h.array.wayFor_of_array h.kind_array, h.geometry_eq,
    Source.draw_stream, Nat.zero_add, warmed_mod h.ways_le, hfilled]

theorem alike_after (rs : List Request) :
    (onMap.after rs).Alike 0 (onArray.after rs) 0 ∧
      (onMap.after rs).counters = (onArray.after rs).counters ∧
      (onMap.filled rs).length = (onArray.filled rs).length := by
  have hmap := h.map.built
  have harray := h.array.built
  induction rs using List.reverseRecOn with
  | nil =>
    refine ⟨⟨hmap.sound, harray.sound, hmap.sound.valid.sets_pos, harray.sound.valid.sets_pos,
      congrArg Geometry.ways h.geometry_eq.symm, congrArg Geometry.lineBytes h.geometry_eq.symm,
      fun way _ => ?_⟩, ?_, rfl⟩
    · rw [after_nil, after_nil, hmap.line_eq, harray.line_eq]
    · exact hmap.counters_eq.trans harray.counters_eq.symm
  | append_singleton rs r ih =>
    obtain ⟨halike, hcounters, hfilled⟩ := ih
    have hi := (hmap.sound.after rs).setOf_eq_zero (by rw [geometry_after, h.sets_eq]) r.address
    have hj := (harray.sound.after rs).setOf_eq_zero
      (by rw [geometry_after, h.geometry_eq, h.sets_eq]) r.address
    have hway := fun _ : (onMap.after rs).find r.address = none => h.wayFor_eq hfilled r.address
    rw [after_append, after_append, filled_concat, filled_concat, halike.contains_eq hi hj]
    refine ⟨halike.access hi hj hway, halike.counters_access hi hj hway hcounters, ?_⟩
    rw [List.length_append, List.length_append, hfilled]
    split <;> rfl

/-- After any run both look alike and serve a request alike. -/
theorem serves_alike (past : List Request) (r : Request) :
    (onMap.after past).view = (onArray.after past).view ∧
      ((onMap.after past).access r).outcome = ((onArray.after past).access r).outcome ∧
      ((onMap.after past).access r).forwards = ((onArray.after past).access r).forwards := by
  obtain ⟨halike, hcounters, hfilled⟩ := h.alike_after past
  have hsets : (onMap.after past).geometry.sets = 1 := by rw [geometry_after, h.sets_eq]
  have hsets' : (onArray.after past).geometry.sets = 1 := by
    rw [geometry_after, h.geometry_eq, h.sets_eq]
  have hi := halike.sound_left.setOf_eq_zero hsets r.address
  have hj := halike.sound_right.setOf_eq_zero hsets' r.address
  have hway := fun _ : (onMap.after past).find r.address = none => h.wayFor_eq hfilled r.address
  exact ⟨halike.view_eq hsets hsets' hcounters, halike.outcome_eq hi hj hway,
    halike.forwards_eq hi hj hway⟩

end WarmedUp

/-- **The stores differ in the draws of the warm-up.**  Let caches of one shape replace lines at
random.

* With a single set whose ways can all be named by a draw, a cache on a map and a cache on an array
  that is first given the draws of its ways in order look alike after every run, and serve every
  request with the same outcome at the same way and the same requests sent down.
* On an array of any number of sets, the draws that are spent are as many as the misses, and each
  miss goes to the way that its own draw names.
* On a map, the first misses take the ways in order and spend no draw, and from then on each miss
  spends one and goes to the way that it names.
* On both, a hit spends no draw, and the misses are those that the counters count, as long as these
  do not come round. -/
theorem random_stores_differ_in_warm_up {g : Geometry} (hpolicy : g.policy = .random)
    (name : String) (source : Source) :
    (∀ onMap onArray, g.sets = 1 → g.ways ≤ 2 ^ 32 →
        buildWith .map g name source = .ok onMap →
        buildWith .array g name (.stream (warmed g.ways source.draw) 0) = .ok onArray →
        ∀ past r, (onMap.after past).view = (onArray.after past).view ∧
          ((onMap.after past).access r).outcome = ((onArray.after past).access r).outcome ∧
          ((onMap.after past).access r).forwards = ((onArray.after past).access r).forwards) ∧
      (∀ c, buildWith .array g name source = .ok c → ∀ rs,
        (c.after rs).replacement = .random g.ways (source.skip (c.filled rs).length) ∧
          c.filled rs = (List.range (c.filled rs).length).map fun k =>
            (source.draw k).toNat % g.ways) ∧
      (∀ c, g.sets = 1 → buildWith .map g name source = .ok c → ∀ rs,
        (c.after rs).replacement = .random g.ways
            (source.skip ((c.filled rs).length - min (c.filled rs).length g.ways)) ∧
          c.filled rs = (List.range (c.filled rs).length).map fun k =>
            if k < g.ways then k else (source.draw (k - g.ways)).toNat % g.ways) ∧
      ∀ kind c, (kind = .map → g.sets = 1) → buildWith kind g name source = .ok c →
        (∀ past r, (c.after past).contains r.address = true →
          ((c.after past).access r).cache.replacement = (c.after past).replacement) ∧
        ∀ rs, (c.after rs).counters.misses.toNat = (c.filled rs).length % 2 ^ 64 := by
  refine ⟨?_, ?_, ?_, ?_⟩
  · intro onMap onArray hsets hways hmap harray
    obtain ⟨hgeometry, hkind, hdraws⟩ := drawsFrom_of_buildWith hpolicy hmap fun _ => hsets
    obtain ⟨hgeometry', hkind', hdraws'⟩ := drawsFrom_of_buildWith hpolicy harray nofun
    rw [← hgeometry] at hsets hways hgeometry' hdraws'
    exact (WarmedUp.mk hkind hkind' hgeometry' hsets hways hdraws hdraws').serves_alike
  · intro c hbuild rs
    obtain ⟨rfl, hkind, hdraws⟩ := drawsFrom_of_buildWith hpolicy hbuild nofun
    exact ⟨hdraws.replacement_after_of_array hkind rs,
      filled_eq_map (hdraws.wayFor_of_array hkind) rs⟩
  · intro c hsets hbuild rs
    obtain ⟨rfl, hkind, hdraws⟩ := drawsFrom_of_buildWith hpolicy hbuild fun _ => hsets
    have hwarm : (c.filled rs).length - min (c.filled rs).length c.geometry.ways =
        (c.filled rs).length - c.geometry.ways := by omega
    exact ⟨hwarm ▸ hdraws.replacement_after_of_map hkind rs,
      filled_eq_map (hdraws.wayFor_of_map hkind) rs⟩
  · intro kind c hkind hbuild
    obtain ⟨-, -, hdraws⟩ := drawsFrom_of_buildWith hpolicy hbuild hkind
    refine ⟨fun past r hhit => ?_, hdraws.built.toNat_misses_eq_length_filled⟩
    obtain ⟨source', hafter⟩ := hdraws.exists_replacement_after past
    rw [replacement_access_of_random hafter, hhit, hafter]
    rfl

/-- Two ways: the third miss is the first one of the map to spend a draw and the third one of the
array, and it goes to the same way. -/
theorem random_stores_differ_in_warm_up_two_ways :
    let source := Source.cycle [1, 0]
    let onMap := fresh .map ⟨1, 2, 8, .random⟩ "L1$" source
    let onArray := fresh .array ⟨1, 2, 8, .random⟩ "L1$" (.stream (warmed 2 source.draw) 0)
    let past : List Request := [⟨0, 8, true⟩, ⟨8, 8, true⟩, ⟨0, 8, false⟩]
    let r : Request := ⟨16, 8, false⟩
    onMap.geometry.policy = .random ∧ onMap.geometry.sets = 1 ∧ onMap.geometry.ways ≤ 2 ^ 32 ∧
      buildWith .map ⟨1, 2, 8, .random⟩ "L1$" source = .ok onMap ∧
      buildWith .array ⟨1, 2, 8, .random⟩ "L1$" (.stream (warmed 2 source.draw) 0) =
        .ok onArray ∧
      ((onMap.after past).access r).outcome = ((onArray.after past).access r).outcome ∧
      ((onMap.after past).access r).outcome = .miss 1 { tag := 1, valid := true, dirty := true } ∧
      (onMap.after (past ++ [r])).replacement.drawsTaken = 1 ∧
      (onArray.after (past ++ [r])).replacement.drawsTaken = 3 ∧
      (onMap.after past).contains 8 = true ∧
      ((onMap.after past).access ⟨8, 8, false⟩).cache.replacement =
        (onMap.after past).replacement := by
  intro source onMap onArray past r
  have hmap : buildWith .map ⟨1, 2, 8, .random⟩ "L1$" source = .ok onMap := rfl
  have harray : buildWith .array ⟨1, 2, 8, .random⟩ "L1$" (.stream (warmed 2 source.draw) 0) =
      .ok onArray := rfl
  have hpolicy : onMap.geometry.policy = .random := rfl
  obtain ⟨hboth, -, hcount, hhit⟩ := random_stores_differ_in_warm_up hpolicy "L1$" source
  obtain ⟨-, hcount', -, -⟩ := random_stores_differ_in_warm_up hpolicy "L1$"
    (.stream (warmed 2 source.draw) 0)
  have hthird : (onMap.filled (past ++ [r])).length = 3 := by decide
  have hthird' : (onArray.filled (past ++ [r])).length = 3 := by decide
  have hheld : (onMap.after past).contains 8 = true := by decide
  refine ⟨hpolicy, rfl, by decide, hmap, harray, (hboth _ _ rfl (by decide) hmap harray past r).2.1,
    by decide, ?_, ?_, hheld, (hhit .map _ (fun _ => rfl) hmap).1 past ⟨8, 8, false⟩ hheld⟩
  · rw [(hcount onMap rfl hmap _).1, hthird]
    rfl
  · rw [(hcount' onArray harray _).1, hthird']
    rfl

end Cache

end CacheModel
