import Mathlib
import CacheModel.Hierarchy
import CacheModel.Proofs.Delivery

/-!
# A hierarchy as caches that stand alone

A reference concerns one side of the first level, and this side alone serves it.  Whatever the
cache of the side sends down is served by the second level before the next reference, and nothing
comes back up.  So each cache of the first level is where it would be had it stood alone and
served the references of its side, and the second level is where it would be had it served the
calls of these two caches in the order of the trace.

The argument does not follow the references through the network each time.  A hierarchy is put
together from its caches, any of which may be left out; serving one reference gives the hierarchy
that is put together from the caches after it.  A trace is then an induction.
-/

namespace CacheModel

/-! ## Sides of the first level -/

/-- The two sides of the first level. -/
inductive Side where
  | instruction
  | data
  deriving DecidableEq

/-- The side that a reference concerns. -/
def AccessKind.side : AccessKind → Side
  | fetch => .instruction
  | load => .data
  | store => .data

/-- The name of the cache on a side. -/
def Side.cacheName : Side → String
  | instruction => icacheName
  | data => dcacheName

/-- The shape of the cache on a side, if it is described. -/
def Description.level (d : Description) : Side → Option Geometry
  | .instruction => d.icache
  | .data => d.dcache

/-- The place of the cache on a side, if it is there. -/
def Hierarchy.place (h : Hierarchy) : Side → Option ℕ
  | .instruction => h.icache
  | .data => h.dcache

/-- The requests of a trace that concern one side, in order. -/
def requestsOf (side : Side) (accesses : List Access) : List Request :=
  (accesses.filter fun a => a.kind.side = side).map Access.request

theorem requestsOf_append (side : Side) (past rest : List Access) :
    requestsOf side (past ++ rest) = requestsOf side past ++ requestsOf side rest := by
  simp [requestsOf]

theorem requestsOf_singleton (side : Side) (a : Access) :
    requestsOf side [a] = if a.kind.side = side then [a.request] else [] := by
  by_cases h : a.kind.side = side <;> simp [requestsOf, h]

/-! ## A cache alone above a recorder -/

namespace Network

/-- A cache that stands alone above a recorder. -/
def alone (c : Cache) : Network :=
  { levels := #[⟨c, some .recorder⟩] }

/-- A recorder takes what is sent to it and leaves the network as it is. -/
theorem inOrder_carryOut_recorder (depth i : ℕ) (net : Network) (effects : List Effect) :
    (inOrder (carryOut depth i (some .recorder)) net effects).1 = net ∧
      (Occurrence.recorded (inOrder (carryOut depth i (some .recorder)) net effects).2).map
        Prod.snd = effects.filterMap Effect.forward? := by
  induction effects with
  | nil => exact ⟨rfl, rfl⟩
  | cons effect effects ih =>
    rw [fst_inOrder_cons, snd_inOrder_cons, Occurrence.recorded_append, List.map_append]
    cases effect with
    | notice event => exact ih
    | forward q => exact ⟨ih.1, congrArg (List.cons q) ih.2⟩

theorem access_alone (c : Cache) (r : Request) :
    ((alone c).access 0 r).1 = alone (c.access r).cache ∧
      (Occurrence.recorded ((alone c).access 0 r).2).map Prod.snd = (c.access r).forwards := by
  have hlevel : (alone c).levels[0]? = some ⟨c, some .recorder⟩ := rfl
  rw [access, show (alone c).size = 0 + 1 from rfl, deliver_succ hlevel]
  have hdown := inOrder_carryOut_recorder 0 0
    ((alone c).modifyCache 0 fun _ => (c.access r).cache) (c.access r).effects
  exact ⟨hdown.1, hdown.2⟩

theorem fst_performAll_alone (c : Cache) (rs : List Request) :
    ((alone c).performAll (rs.map (.serve 0))).1 = alone (c.after rs) := by
  induction rs generalizing c with
  | nil => rfl
  | cons r rs ih =>
    rw [List.map_cons, performAll_cons]
    show (((alone c).access 0 r).1.performAll (rs.map (.serve 0))).1 = _
    rw [(access_alone c r).1, ih, Cache.after_cons]

end Network

/-- What a cache that stands alone above a recorder sends to it for a request after it has served
`past`. -/
def Cache.callsFor (c : Cache) (past : List Request) (r : Request) : List Request :=
  let before := ((Network.alone c).performAll (past.map (.serve 0))).1
  (Occurrence.recorded (before.access 0 r).2).map Prod.snd

theorem Cache.callsFor_eq (c : Cache) (past : List Request) (r : Request) :
    c.callsFor past r = ((c.after past).access r).forwards := by
  rw [callsFor, Network.fst_performAll_alone]
  exact (Network.access_alone _ r).2

/-! ## The caches of both sides through a trace -/

/-- The caches of the first level after a trace, each of which has served the references of its
side. -/
def firstAfter (first : Side → Option Cache) (accesses : List Access) (side : Side) :
    Option Cache :=
  (first side).map fun c => c.after (requestsOf side accesses)

/-- What the caches of the first level, each alone above a recorder, send to it for the references
of a trace that come after `past`. -/
def callsAfter (first : Side → Option Cache) (past : List Access) : List Access → List Request
  | [] => []
  | a :: rest =>
    ((first a.kind.side).elim [] fun c =>
      c.callsFor (requestsOf a.kind.side past) a.request) ++ callsAfter first (past ++ [a]) rest

/-- What the caches of the first level, each alone above a recorder, send to it for a trace, in
the order of the trace. -/
def callsBelow (first : Side → Option Cache) (accesses : List Access) : List Request :=
  callsAfter first [] accesses

section

variable {first : Side → Option Cache} {a : Access}

theorem firstAfter_nil (first : Side → Option Cache) : firstAfter first [] = first := by
  funext side
  exact congrFun Option.map_id (first side)

theorem firstAfter_concat_of_ne {side : Side} (hne : side ≠ a.kind.side)
    (accesses : List Access) :
    firstAfter first (accesses ++ [a]) side = firstAfter first accesses side := by
  rw [firstAfter, requestsOf_append, requestsOf_singleton, if_neg hne.symm, List.append_nil,
    firstAfter]

/-- A reference whose side has no cache changes no cache of the first level. -/
theorem firstAfter_concat_of_none (hnone : first a.kind.side = none) (accesses : List Access) :
    firstAfter first (accesses ++ [a]) = firstAfter first accesses := by
  funext side
  by_cases hside : side = a.kind.side
  · rw [hside, firstAfter, firstAfter, hnone, Option.map_none, Option.map_none]
  · exact firstAfter_concat_of_ne hside accesses

/-- A reference changes the cache of its side. -/
theorem firstAfter_concat_of_some {c : Cache} (hsome : first a.kind.side = some c)
    (accesses : List Access) :
    firstAfter first (accesses ++ [a]) =
      Function.update (firstAfter first accesses) a.kind.side
        (some ((c.after (requestsOf a.kind.side accesses)).access a.request).cache) := by
  funext side
  by_cases hside : side = a.kind.side
  · rw [hside, Function.update_self, firstAfter, hsome, Option.map_some, requestsOf_append,
      requestsOf_singleton, if_pos rfl, Cache.after_append]
    rfl
  · rw [Function.update_of_ne hside]
    exact firstAfter_concat_of_ne hside accesses

theorem callsAfter_append (first : Side → Option Cache) (past xs ys : List Access) :
    callsAfter first past (xs ++ ys) =
      callsAfter first past xs ++ callsAfter first (past ++ xs) ys := by
  induction xs generalizing past with
  | nil => simp [callsAfter]
  | cons x xs ih => simp [callsAfter, ih]

/-- The calls for the last reference come last. -/
theorem callsBelow_concat (first : Side → Option Cache) (accesses : List Access) (a : Access) :
    callsBelow first (accesses ++ [a]) = callsBelow first accesses ++
      (first a.kind.side).elim [] fun c =>
        ((c.after (requestsOf a.kind.side accesses)).access a.request).forwards := by
  rw [callsBelow, callsAfter_append, callsAfter, callsAfter, List.nil_append, List.append_nil]
  simp only [Cache.callsFor_eq]
  rfl

theorem firstAfter_reporting (first : Side → Option Cache) (logsMisses : Bool)
    (accesses : List Access) :
    firstAfter (fun side => (first side).map (Cache.reporting logsMisses)) accesses =
      fun side => (first side).map fun c =>
        (c.after (requestsOf side accesses)).reporting logsMisses := by
  funext side
  simp only [firstAfter, Option.map_map, Function.comp_def, Cache.after_reporting]

/-- Reports of misses do not change what is sent down. -/
theorem callsBelow_reporting (first : Side → Option Cache) (logsMisses : Bool)
    (accesses : List Access) :
    callsBelow (fun side => (first side).map (Cache.reporting logsMisses)) accesses =
      callsBelow first accesses := by
  induction accesses using List.reverseRecOn with
  | nil => rfl
  | append_singleton accesses a ih =>
    rw [callsBelow_concat, callsBelow_concat, ih]
    cases first a.kind.side with
    | none => rfl
    | some c =>
      simp only [Option.map_some, Option.elim_some, Cache.after_reporting,
        Cache.forwards_access_reporting]

end

/-! ## Deliveries with at most one level below -/

namespace Network

/-- A level with nothing below serves a request alone. -/
theorem deliver_last {net : Network} {i : ℕ} {c : Cache}
    (h : net.levels[i]? = some ⟨c, none⟩) (depth : ℕ) (r : Request) :
    (deliver (depth + 1) net i r).1 = net.modifyCache i fun _ => (c.access r).cache := by
  rw [deliver_succ h]
  refine inOrder_invariant (I := (· = net.modifyCache i fun _ => (c.access r).cache)) ?_ rfl _
  intro net' hnet effect
  cases effect with
  | notice event => exact hnet
  | forward q => exact hnet

/-- The last level serves what is sent to it, request by request. -/
theorem inOrder_carryOut_last {k : ℕ} {low : Cache} (depth i : ℕ) {net : Network}
    (h : net.levels[k]? = some ⟨low, none⟩) (effects : List Effect) :
    (inOrder (carryOut (depth + 1) i (some (.level k))) net effects).1 =
      net.modifyCache k fun _ => low.after (effects.filterMap Effect.forward?) := by
  induction effects generalizing net low with
  | nil => exact (modifyCache_self h).symm
  | cons effect effects ih =>
    rw [fst_inOrder_cons]
    cases effect with
    | notice event => exact ih h
    | forward q =>
      have hfirst : (carryOut (depth + 1) i (some (.level k)) net (.forward q)).1 =
          net.modifyCache k fun _ => (low.access q).cache := deliver_last h depth q
      rw [hfirst, ih (getElem?_modifyCache_self h _), modifyCache_modifyCache]
      rfl

/-- A level above the last one serves a request, and then the last one serves what was sent
down. -/
theorem deliver_above_last {net : Network} {i k : ℕ} {c low : Cache} (hne : k ≠ i)
    (hi : net.levels[i]? = some ⟨c, some (.level k)⟩) (hk : net.levels[k]? = some ⟨low, none⟩)
    (depth : ℕ) (r : Request) :
    (deliver (depth + 2) net i r).1 =
      (net.modifyCache i fun _ => (c.access r).cache).modifyCache k fun _ =>
        low.after (c.access r).forwards := by
  rw [deliver_succ hi]
  exact inOrder_carryOut_last depth i (by rw [getElem?_modifyCache_of_ne hne, hk]) _

end Network

/-! ## Hierarchies put together from their caches -/

namespace Hierarchy

/-- The hierarchy of the given caches. -/
def ofSides (first : Side → Option Cache) (second : Option Cache) : Hierarchy :=
  assemble (first .instruction) (first .data) second

/-- A reference is shown to the cache of its side alone. -/
theorem dispatch_tracers (h : Hierarchy) (a : Access) :
    (Tracer.list h.tracers).dispatch a =
      (h.place a.kind.side).toList.map fun i => .serve i a.request := by
  obtain ⟨kind, address, bytes⟩ := a
  cases kind <;> cases hi : h.icache <;> cases hd : h.dcache <;>
    simp [tracers, place, AccessKind.side, Tracer.dispatch, Tracer.dispatch.dispatchEach,
      Tracer.isInterested, hi, hd]

/-- A reference whose side has no cache changes nothing. -/
theorem access_of_none {h : Hierarchy} {a : Access} (hnone : h.place a.kind.side = none) :
    h.access a = (h, []) := by
  rw [access, Network.trace, dispatch_tracers, hnone]
  rfl

theorem fst_access_of_some {h : Hierarchy} {a : Access} {i : ℕ}
    (hsome : h.place a.kind.side = some i) :
    (h.access a).1 = { h with network := (h.network.access i a.request).1 } := by
  rw [access, Network.trace, dispatch_tracers, hsome]
  rfl

section

variable {first : Side → Option Cache} {second : Option Cache} {side : Side} {c : Cache}

theorem place_ofSides_of_none (h : first side = none) :
    (ofSides first second).place side = none := by
  cases side <;> simp [ofSides, assemble, place, h]

/-- A cache of the first level has a place.  It sends its misses to the second level, and it can
be exchanged for another one. -/
theorem exists_place_ofSides (h : first side = some c) :
    ∃ i, (ofSides first second).place side = some i ∧
      (ofSides first second).network.levels[i]? =
        some ⟨c, (ofSides first second).l2.map Link.level⟩ ∧
      ∀ d, { ofSides first second with
          network := (ofSides first second).network.modifyCache i fun _ => d } =
        ofSides (Function.update first side (some d)) second := by
  cases side with
  | instruction =>
    refine ⟨0, ?_, ?_, ?_⟩
    · simp [ofSides, assemble, place, h]
    · cases hd : first .data <;> cases second <;> simp [ofSides, assemble, h, hd]
    · intro d
      cases hd : first .data <;> cases second <;>
        simp [ofSides, assemble, h, hd, Network.modifyCache]
  | data =>
    -- The data cache stands behind the instruction cache, if there is one.
    cases hi : first .instruction with
    | none =>
      refine ⟨0, ?_, ?_, ?_⟩
      · simp [ofSides, assemble, place, h, hi]
      · cases second <;> simp [ofSides, assemble, h, hi]
      · intro d
        cases second <;> simp [ofSides, assemble, h, hi, Network.modifyCache]
    | some c' =>
      refine ⟨1, ?_, ?_, ?_⟩
      · simp [ofSides, assemble, place, h, hi]
      · cases second <;> simp [ofSides, assemble, h, hi]
      · intro d
        cases second <;> simp [ofSides, assemble, h, hi, Network.modifyCache]

/-- The second level has a place.  There is nothing below it, and it can be exchanged for another
one. -/
theorem exists_l2_ofSides (first : Side → Option Cache) (low : Cache) :
    ∃ k, (ofSides first (some low)).l2 = some k ∧
      (ofSides first (some low)).network.levels[k]? = some ⟨low, none⟩ ∧
      ∀ d, { ofSides first (some low) with
          network := (ofSides first (some low)).network.modifyCache k fun _ => d } =
        ofSides first (some d) := by
  refine ⟨((first .instruction).toList ++ (first .data).toList).length, rfl, ?_, ?_⟩
  · cases hi : first .instruction <;> cases hd : first .data <;>
      simp [ofSides, assemble, hi, hd]
  · intro d
    cases hi : first .instruction <;> cases hd : first .data <;>
      simp [ofSides, assemble, hi, hd, Network.modifyCache]

theorem cache?_place_ofSides (first : Side → Option Cache) (second : Option Cache)
    (side : Side) :
    ((ofSides first second).place side).bind (ofSides first second).network.cache? =
      first side := by
  cases hc : first side with
  | none => rw [place_ofSides_of_none hc, Option.bind_none]
  | some c =>
    obtain ⟨i, hplace, hlevel, -⟩ := @exists_place_ofSides first second side c hc
    rw [hplace, Option.bind_some, Network.cache?, hlevel, Option.map_some]

theorem cache?_l2_ofSides (first : Side → Option Cache) (second : Option Cache) :
    (ofSides first second).l2.bind (ofSides first second).network.cache? = second := by
  cases second with
  | none => rfl
  | some low =>
    obtain ⟨k, hl2, hlow, -⟩ := exists_l2_ofSides first low
    rw [hl2, Option.bind_some, Network.cache?, hlow, Option.map_some]

/-! ### References -/

/-- After a reference the hierarchy is put together from the caches after it: the cache of the
side has served the reference, and the second level what was sent down for it. -/
theorem fst_access_ofSides {a : Access} (h : first a.kind.side = some c) :
    ((ofSides first second).access a).1 =
      ofSides (Function.update first a.kind.side (some (c.access a.request).cache))
        (second.map fun low => low.after (c.access a.request).forwards) := by
  obtain ⟨i, hplace, hlevel, hchange⟩ := @exists_place_ofSides first second _ c h
  have hi := (Array.getElem?_eq_some_iff.mp hlevel).1
  rw [fst_access_of_some hplace, Network.access, Network.size]
  cases second with
  | none =>
    obtain ⟨depth, hdepth⟩ := Nat.exists_eq_add_one.mpr (Nat.zero_lt_of_lt hi)
    rw [hdepth, Network.deliver_last hlevel]
    exact hchange _
  | some low =>
    obtain ⟨k, hl2, hlow, -⟩ := exists_l2_ofSides first low
    rw [hl2] at hlevel
    have hne : k ≠ i := by
      rintro rfl
      simp [hlevel] at hlow
    have hk := (Array.getElem?_eq_some_iff.mp hlow).1
    have hsize : 2 ≤ (ofSides first (some low)).network.levels.size := by omega
    obtain ⟨depth, hdepth⟩ := Nat.exists_eq_add_of_le' hsize
    rw [hdepth, Network.deliver_above_last hne hlevel hlow]
    -- First the cache of the side is exchanged, then the second level, whose place is the same.
    have hfirst := hchange (c.access a.request).cache
    obtain ⟨k', hl2', -, hchange'⟩ :=
      exists_l2_ofSides (Function.update first a.kind.side (some (c.access a.request).cache)) low
    rw [← hfirst] at hl2' hchange'
    obtain rfl : k = k' := Option.some.inj (hl2.symm.trans hl2')
    exact hchange' _

end

theorem fst_run_concat (h : Hierarchy) (accesses : List Access) (a : Access) :
    (h.run (accesses ++ [a])).1 = ((h.run accesses).1.access a).1 := by
  simp [run]

/-- After a trace the hierarchy is put together from the caches after it. -/
theorem fst_run_ofSides (first : Side → Option Cache) (second : Option Cache)
    (accesses : List Access) :
    ((ofSides first second).run accesses).1 =
      ofSides (firstAfter first accesses)
        (second.map fun low => low.after (callsBelow first accesses)) := by
  induction accesses using List.reverseRecOn with
  | nil =>
    have hsecond : (second.map fun low => low.after (callsBelow first [])) = second := by
      cases second <;> rfl
    rw [firstAfter_nil, hsecond]
    rfl
  | append_singleton accesses a ih =>
    rw [fst_run_concat, ih]
    cases hc : first a.kind.side with
    | none =>
      have hleft : firstAfter first accesses a.kind.side = none := by
        rw [firstAfter, hc, Option.map_none]
      rw [access_of_none (place_ofSides_of_none hleft), firstAfter_concat_of_none hc,
        callsBelow_concat, hc, Option.elim_none, List.append_nil]
    | some c =>
      have hserved : firstAfter first accesses a.kind.side =
          some (c.after (requestsOf a.kind.side accesses)) := by
        rw [firstAfter, hc, Option.map_some]
      rw [fst_access_ofSides hserved, firstAfter_concat_of_some hc, callsBelow_concat, hc,
        Option.elim_some, Option.map_map]
      refine congrArg (fun change => ofSides _ (second.map change)) (funext fun low => ?_)
      exact (Cache.after_append low _ _).symm

end Hierarchy

/-! ## Hierarchies that are built -/

/-- A new cache of the described shape that reports no misses, and none for a level that is left
out. -/
inductive Stands (name : String) : Option Geometry → Option Cache → Prop
  | absent : Stands name none none
  | present {g : Geometry} {c : Cache} (h : Cache.build g name default = .ok c) :
    Stands name (some g) (some c)

theorem Stands.eq_none {name : String} {cache : Option Cache} (h : Stands name none cache) :
    cache = none := by
  cases h
  rfl

theorem Stands.eq_some {name : String} {g : Geometry} {c : Cache} {cache : Option Cache}
    (hbuild : Cache.build g name default = .ok c) (h : Stands name (some g) cache) :
    cache = some c := by
  cases h with
  | present h => rw [Except.ok.inj (h.symm.trans hbuild)]

theorem Stands.isSome_eq {name : String} {geometry : Option Geometry} {cache : Option Cache}
    (h : Stands name geometry cache) : cache.isSome = geometry.isSome := by
  cases h <;> rfl

theorem Stands.name_eq {name : String} {geometry : Option Geometry} {c : Cache}
    (h : Stands name geometry (some c)) : c.name = name := by
  cases h with
  | present h =>
    obtain ⟨-, rfl⟩ := Cache.eq_fresh_of_buildWith h
    rfl

theorem Stands.built {name : String} {geometry : Option Geometry} {c : Cache}
    (h : Stands name geometry (some c)) : c.Built := by
  cases h with
  | present h => exact .standard h

namespace Hierarchy

theorem stands_of_buildLevel {geometry : Option Geometry} {name : String} {logsMisses : Bool}
    {built : Option Cache} (h : buildLevel geometry name logsMisses = .ok built) :
    ∃ cache, Stands name geometry cache ∧ built = cache.map (Cache.reporting logsMisses) := by
  cases geometry with
  | none =>
    cases h
    exact ⟨none, .absent, rfl⟩
  | some g =>
    rw [buildLevel] at h
    cases hcache : Cache.build g name default with
    | error e =>
      rw [hcache] at h
      cases h
    | ok c =>
      rw [hcache] at h
      cases h
      exact ⟨some c, .present hcache, rfl⟩

/-- A hierarchy that is built is put together from new caches of the described shapes. -/
theorem eq_ofSides_of_build {d : Description} {h : Hierarchy} (hbuild : build d = .ok h) :
    ∃ (first : Side → Option Cache) (second : Option Cache),
      (∀ side, Stands side.cacheName (d.level side) (first side)) ∧ Stands l2Name d.l2 second ∧
      h = ofSides (fun side => (first side).map (Cache.reporting d.logMisses))
        (second.map (Cache.reporting d.logMisses)) := by
  rw [build] at hbuild
  cases hi : buildLevel d.icache icacheName d.logMisses with
  | error e =>
    rw [hi] at hbuild
    cases hbuild
  | ok icache =>
    cases hd : buildLevel d.dcache dcacheName d.logMisses with
    | error e =>
      rw [hi, hd] at hbuild
      cases hbuild
    | ok dcache =>
      cases hl : buildLevel d.l2 l2Name d.logMisses with
      | error e =>
        rw [hi, hd, hl] at hbuild
        cases hbuild
      | ok l2 =>
        rw [hi, hd, hl] at hbuild
        cases hbuild
        obtain ⟨ci, hci, rfl⟩ := stands_of_buildLevel hi
        obtain ⟨cd, hcd, rfl⟩ := stands_of_buildLevel hd
        obtain ⟨cl, hcl, rfl⟩ := stands_of_buildLevel hl
        refine ⟨fun | .instruction => ci | .data => cd, cl, ?_, hcl, rfl⟩
        intro side
        cases side with
        | instruction => exact hci
        | data => exact hcd

/-- After a trace a hierarchy that was built is put together from caches that stood alone. -/
theorem exists_run_eq_ofSides {d : Description} {h : Hierarchy} (hbuild : build d = .ok h)
    (accesses : List Access) :
    ∃ (first : Side → Option Cache) (second : Option Cache),
      (∀ side, Stands side.cacheName (d.level side) (first side)) ∧ Stands l2Name d.l2 second ∧
      (h.run accesses).1 = ofSides
        (fun side => (first side).map fun c =>
          (c.after (requestsOf side accesses)).reporting d.logMisses)
        (second.map fun c => (c.after (callsBelow first accesses)).reporting d.logMisses) := by
  obtain ⟨first, second, hfirst, hsecond, rfl⟩ := eq_ofSides_of_build hbuild
  refine ⟨first, second, hfirst, hsecond, ?_⟩
  rw [fst_run_ofSides, firstAfter_reporting, callsBelow_reporting, Option.map_map]
  simp only [Function.comp_def, Cache.after_reporting]

end Hierarchy

/-- **A hierarchy is no more than its caches.**  Build any hierarchy and serve any trace.  The
instruction cache is then the new cache of its shape after the fetches, and the data cache the new
cache of its shape after the loads and stores.  The second level is the new cache of its shape
after exactly the calls that these two caches, each alone above a recorder, make for the trace, in
the order of the trace.  Nothing else about a cache has changed but that it reports its misses if
the description says so.  A reference whose side has no cache changes nothing at all. -/
theorem hierarchy_decomposes {d : Description} {h : Hierarchy}
    (hbuild : Hierarchy.build d = .ok h) (accesses : List Access) :
    let now := (h.run accesses).1
    ∃ (first : Side → Option Cache) (second : Option Cache),
      (∀ side, Stands side.cacheName (d.level side) (first side)) ∧ Stands l2Name d.l2 second ∧
      (∀ side, (now.place side).bind now.network.cache? =
        (first side).map fun c => (c.after (requestsOf side accesses)).reporting d.logMisses) ∧
      (now.l2.bind now.network.cache? =
        second.map fun c => (c.after (callsBelow first accesses)).reporting d.logMisses) ∧
      ∀ a : Access, d.level a.kind.side = none → now.access a = (now, []) := by
  intro now
  obtain ⟨first, second, hfirst, hsecond, hnow⟩ := Hierarchy.exists_run_eq_ofSides hbuild accesses
  refine ⟨first, second, hfirst, hsecond, ?_, ?_, ?_⟩
  · intro side
    simp only [now, hnow, Hierarchy.cache?_place_ofSides]
  · simp only [now, hnow, Hierarchy.cache?_l2_ofSides]
  · intro a hnone
    have hleft : first a.kind.side = none := Stands.eq_none (hnone ▸ hfirst a.kind.side)
    simp only [now, hnow]
    refine Hierarchy.access_of_none (Hierarchy.place_ofSides_of_none ?_)
    rw [hleft, Option.map_none]

/-- Three levels: a store, a load that sends its line back, and fetches in between. -/
theorem hierarchy_decomposes_three_levels :
    let d : Description :=
      { icache := some ⟨1, 1, 8, .random⟩
        dcache := some ⟨1, 1, 8, .lru⟩
        l2 := some ⟨1, 2, 16, .fifo⟩
        logMisses := true }
    let accesses : List Access :=
      [⟨.store, 64, 8⟩, ⟨.fetch, 0, 4⟩, ⟨.load, 32, 8⟩, ⟨.fetch, 4, 4⟩, ⟨.fetch, 8, 4⟩]
    let below : List Request :=
      [⟨64, 8, false⟩, ⟨0, 8, false⟩, ⟨64, 8, true⟩, ⟨32, 8, false⟩, ⟨8, 8, false⟩]
    ∃ h c, Hierarchy.build d = .ok h ∧ Cache.build ⟨1, 2, 16, .fifo⟩ l2Name default = .ok c ∧
      (h.run accesses).1.l2.bind (h.run accesses).1.network.cache? =
        some ((c.after below).reporting true) := by
  intro d accesses below
  have hbuild : ∃ h, Hierarchy.build d = .ok h := ⟨_, rfl⟩
  obtain ⟨h, hbuild⟩ := hbuild
  obtain ⟨first, second, hfirst, hsecond, -, hl2, -⟩ := hierarchy_decomposes hbuild accesses
  have hsides : first = fun
      | .instruction => some (Cache.fresh .array ⟨1, 1, 8, .random⟩ icacheName default)
      | .data => some (Cache.fresh .array ⟨1, 1, 8, .lru⟩ dcacheName default) := by
    funext side
    cases side with
    | instruction => exact Stands.eq_some rfl (hfirst .instruction)
    | data => exact Stands.eq_some rfl (hfirst .data)
  have hcalls : callsBelow first accesses = below := by
    rw [hsides]
    decide
  have hlow : Cache.build ⟨1, 2, 16, .fifo⟩ l2Name default =
      .ok (Cache.fresh .array ⟨1, 2, 16, .fifo⟩ l2Name default) := rfl
  refine ⟨h, _, hbuild, hlow, ?_⟩
  rw [hl2, Stands.eq_some hlow hsecond, hcalls]
  rfl

end CacheModel
