import CacheModel.CommandLine
import CacheModel.Proofs.Acceptance
import CacheModel.Proofs.Decomposition
import CacheModel.Proofs.Pieces
import CacheModel.Proofs.Room

/-!
# From arguments to hierarchies

A hierarchy is asked for by a file, by geometries among the arguments, or by both.  Everything that
is asked for is judged, also a level of the file in the place of which an argument puts another
one.  What passes these judgements has shapes that can be built, so that the construction of the
hierarchy has nothing left to refuse.  But it is made only if there is room for its tables, which
no judgement asks for.
-/

namespace CacheModel

/-! ## Hierarchies of possible shapes -/

theorem Stands.length_toList_eq {name : String} {geometry : Option Geometry}
    {cache : Option Cache} (h : Stands name geometry cache) :
    cache.toList.length = geometry.toList.length := by
  cases h <;> rfl

namespace Hierarchy

/-- The hierarchy has exactly the levels that are described, each as a new cache of the described
shape.  The caches of the first level stand above the second one, if it is there, and above nothing
otherwise; below the second level there is nothing. -/
structure Realizes (d : Description) (h : Hierarchy) : Prop where
  size : h.network.size = d.icache.toList.length + d.dcache.toList.length + d.l2.toList.length
  present : ∀ side, (h.place side).isSome = (d.level side).isSome
  present_l2 : h.l2.isSome = d.l2.isSome
  cache : ∀ side, ∃ c, Stands side.cacheName (d.level side) c ∧
    (h.place side).bind h.network.cache? = c.map (Cache.reporting d.logMisses)
  cache_l2 : ∃ c, Stands l2Name d.l2 c ∧
    h.l2.bind h.network.cache? = c.map (Cache.reporting d.logMisses)
  next : ∀ side i, h.place side = some i → h.network.next? i = h.l2.map Link.level
  next_l2 : ∀ i, h.l2 = some i → h.network.next? i = none

theorem exists_buildLevel {geometry : Option Geometry} (h : ∀ g, geometry = some g → g.Valid)
    (name : String) (logsMisses : Bool) :
    ∃ cache, buildLevel geometry name logsMisses = .ok cache := by
  cases geometry with
  | none => exact ⟨none, rfl⟩
  | some g =>
    have hbuild : Cache.build g name default = .ok (.fresh g.storeKind g name default) :=
      Cache.buildWith_of_valid g.storeKind name default (h g rfl)
    rw [buildLevel, hbuild]
    exact ⟨_, rfl⟩

/-- What is possible level by level can be built. -/
theorem exists_build_of_possible {d : Description} (h : d.Possible) :
    ∃ built, build d = .ok built := by
  obtain ⟨icache, hicache⟩ := exists_buildLevel h.icache icacheName d.logMisses
  obtain ⟨dcache, hdcache⟩ := exists_buildLevel h.dcache dcacheName d.logMisses
  obtain ⟨l2, hl2⟩ := exists_buildLevel h.l2 l2Name d.logMisses
  rw [build, hicache, hdcache, hl2]
  exact ⟨_, rfl⟩

section

variable (first : Side → Option Cache) (second : Option Cache)

theorem size_ofSides :
    (ofSides first second).network.size =
      (first .instruction).toList.length + (first .data).toList.length +
        second.toList.length := by
  simp [ofSides, assemble, Network.size, Nat.add_assoc]

theorem isSome_place_ofSides (side : Side) :
    ((ofSides first second).place side).isSome = (first side).isSome := by
  cases side <;> simp [ofSides, assemble, place]

theorem isSome_l2_ofSides : (ofSides first second).l2.isSome = second.isSome := by
  simp [ofSides, assemble]

theorem next?_place_ofSides {side : Side} {i : ℕ}
    (hplace : (ofSides first second).place side = some i) :
    (ofSides first second).network.next? i = (ofSides first second).l2.map Link.level := by
  obtain ⟨c, hc⟩ : ∃ c, first side = some c := by
    rw [← Option.isSome_iff_exists, ← isSome_place_ofSides first second side, hplace]
    rfl
  obtain ⟨i', hplace', hlevel, -⟩ := @exists_place_ofSides first second side c hc
  obtain rfl : i' = i := Option.some.inj (hplace'.symm.trans hplace)
  rw [Network.next?, hlevel]
  rfl

theorem next?_l2_ofSides {i : ℕ} (hl2 : (ofSides first second).l2 = some i) :
    (ofSides first second).network.next? i = none := by
  obtain ⟨low, rfl⟩ : ∃ low, second = some low := by
    rw [← Option.isSome_iff_exists, ← isSome_l2_ofSides first second, hl2]
    rfl
  obtain ⟨i', hl2', hlevel, -⟩ := exists_l2_ofSides first low
  obtain rfl : i' = i := Option.some.inj (hl2'.symm.trans hl2)
  rw [Network.next?, hlevel]
  rfl

end

theorem realizes_of_build {d : Description} {h : Hierarchy} (hbuild : build d = .ok h) :
    Realizes d h := by
  obtain ⟨first, second, hfirst, hsecond, rfl⟩ := eq_ofSides_of_build hbuild
  exact {
    size := by
      simp only [size_ofSides, Option.toList_map, List.length_map, hsecond.length_toList_eq,
        (hfirst _).length_toList_eq]
      rfl
    present := fun side => by
      rw [isSome_place_ofSides, Option.isSome_map, (hfirst side).isSome_eq]
    present_l2 := by rw [isSome_l2_ofSides, Option.isSome_map, hsecond.isSome_eq]
    cache := fun side => ⟨first side, hfirst side, cache?_place_ofSides _ _ side⟩
    cache_l2 := ⟨second, hsecond, cache?_l2_ofSides _ _⟩
    next := fun side i hplace => next?_place_ofSides _ _ hplace
    next_l2 := fun i hl2 => next?_l2_ofSides _ _ hl2 }

end Hierarchy

namespace CommandLine

/-! ## What is judged -/

/-- The level that is meant: the one of the description, unless an argument gives another one. -/
inductive Overridden (level : Option Geometry) : Option String → Option Geometry → Prop
  | kept : Overridden level none level
  | given {text : String} {g : Geometry} (h : Geometry.parse text = .ok g) :
    Overridden level (some text) (some g)

theorem overrideLevel_eq_ok_iff {argument : Option String} {level result : Option Geometry} :
    overrideLevel argument level = .ok result ↔ Overridden level argument result := by
  cases argument with
  | none =>
    rw [overrideLevel, Except.ok.injEq]
    exact ⟨fun h => h ▸ .kept, fun h => by cases h; rfl⟩
  | some text =>
    rw [overrideLevel, mapError_eq_ok_iff, map_eq_ok_iff]
    constructor
    · rintro ⟨g, h, rfl⟩
      exact .given h
    · intro h
      cases h with
      | given h => exact ⟨_, h, rfl⟩

/-- The description in the file, or the empty one if there is no file. -/
inductive Base : Option String → Description → Prop
  | absent : Base none .empty
  | given {text : String} {d : Description} (h : Description.ofText text = .ok d) :
    Base (some text) d

/-- The description with the levels of the arguments in the place of its own. -/
structure Merged (o : Options) (base d : Description) : Prop where
  icache : Overridden base.icache o.icache d.icache
  dcache : Overridden base.dcache o.dcache d.dcache
  l2 : Overridden base.l2 o.l2 d.l2
  logMisses : d.logMisses = (base.logMisses || o.logMisses)

/-- A file that can be read and holds the text. -/
def holding (file : Option String) : Option (Except ReadFailure ByteArray) :=
  file.map fun text => .ok text.toUTF8

theorem ofBytes_toUTF8 (text : String) :
    Description.ofBytes (.ok text.toUTF8) = Description.ofText text := by
  rw [Description.ofBytes, Text.fromUTF8?_toUTF8]

/-- The first stage: the description in the file. -/
def readBase (file : Option String) : Except ConfigError Description :=
  file.elim (.ok .empty) fun text => (Description.ofText text).mapError .description

/-- The other stages: the levels that the arguments give. -/
def merge (o : Options) (base : Description) : Except ConfigError Description := do
  let icache ← overrideLevel o.icache base.icache
  let dcache ← overrideLevel o.dcache base.dcache
  let l2 ← overrideLevel o.l2 base.l2
  return { icache, dcache, l2, logMisses := base.logMisses || o.logMisses }

theorem resolve_holding (o : Options) (file : Option String) :
    resolve o (holding file) = readBase file >>= merge o := by
  cases file with
  | none => rfl
  | some text =>
    rw [holding, Option.map_some, resolve]
    dsimp only
    rw [ofBytes_toUTF8]
    rfl

theorem readBase_eq_ok_iff {file : Option String} {base : Description} :
    readBase file = .ok base ↔ Base file base := by
  cases file with
  | none =>
    rw [readBase, Option.elim_none, Except.ok.injEq]
    exact ⟨fun h => h ▸ .absent, fun h => by cases h; rfl⟩
  | some text =>
    rw [readBase, Option.elim_some, mapError_eq_ok_iff]
    exact ⟨.given, fun h => by cases h; assumption⟩

theorem merge_eq_ok_iff {o : Options} {base d : Description} :
    merge o base = .ok d ↔ Merged o base d := by
  simp only [merge, bind_eq_ok_iff, overrideLevel_eq_ok_iff]
  constructor
  · rintro ⟨icache, hicache, dcache, hdcache, l2, hl2, heq⟩
    obtain rfl := Except.ok.inj heq
    exact ⟨hicache, hdcache, hl2, rfl⟩
  · rintro ⟨hicache, hdcache, hl2, hlog⟩
    refine ⟨_, hicache, _, hdcache, _, hl2, ?_⟩
    rw [← hlog]
    rfl

/-- Whatever is asked for passes the judgement exactly if it has a meaning. -/
theorem resolve_eq_ok_iff {o : Options} {file : Option String} {d : Description} :
    resolve o (holding file) = .ok d ↔ ∃ base, Base file base ∧ Merged o base d := by
  simp only [resolve_holding, bind_eq_ok_iff, readBase_eq_ok_iff, merge_eq_ok_iff]

/-! ## Problems -/

/-- Why a stage fails, if it does. -/
def problem? {ε α : Type} : Except ε α → Option ε
  | .error e => some e
  | .ok _ => none

/-- The problem of the file, if there is a file and it has one. -/
def fileProblem? (file : Option String) : Option ConfigError :=
  file.bind fun text => (problem? (Description.ofText text)).map .description

/-- The problem of an argument, if there is an argument and it has one. -/
def argumentProblem? (argument : Option String) : Option ConfigError :=
  argument.bind fun text => (problem? (Geometry.parse text)).map .geometry

/-- The problems of all that is asked for, each judged for itself: of the file, then of the
arguments in the order of the levels. -/
def problems (o : Options) (file : Option String) : List ConfigError :=
  (fileProblem? file).toList ++ [o.icache, o.dcache, o.l2].filterMap argumentProblem?

theorem problem?_bind {ε α β : Type} (x : Except ε α) (f : α → Except ε β) {p : Option ε}
    (h : ∀ a, problem? (f a) = p) : problem? (x >>= f) = (problem? x).or p := by
  cases x with
  | error e => rfl
  | ok a => exact h a

theorem problem?_readBase (file : Option String) :
    problem? (readBase file) = fileProblem? file := by
  cases file with
  | none => rfl
  | some text =>
    rw [readBase, fileProblem?, Option.elim_some, Option.bind_some]
    cases Description.ofText text <;> rfl

theorem problem?_overrideLevel (argument : Option String) (level : Option Geometry) :
    problem? (overrideLevel argument level) = argumentProblem? argument := by
  cases argument with
  | none => rfl
  | some text =>
    rw [overrideLevel, argumentProblem?, Option.bind_some]
    cases Geometry.parse text <;> rfl

/-- The first of all problems is the one that is reported. -/
theorem problem?_resolve (o : Options) (file : Option String) :
    problem? (resolve o (holding file)) = (problems o file).head? := by
  have hmerge : ∀ base, problem? (merge o base) =
      (argumentProblem? o.icache).or ((argumentProblem? o.dcache).or (argumentProblem? o.l2)) := by
    intro base
    rw [merge, problem?_bind _ _ fun icache => problem?_bind _ _ fun dcache =>
      problem?_bind (p := none) _ _ fun l2 => rfl]
    simp only [problem?_overrideLevel, Option.or_none]
  rw [resolve_holding, problem?_bind _ _ hmerge, problem?_readBase, problems, List.head?_append,
    Option.head?_toList]
  congr 1
  cases hicache : argumentProblem? o.icache <;> cases hdcache : argumentProblem? o.dcache <;>
    cases hl2 : argumentProblem? o.l2 <;> simp [hicache, hdcache, hl2]

/-! ## What passes can be built -/

theorem Overridden.valid {argument : Option String} {level result : Option Geometry}
    (h : Overridden level argument result) (hlevel : ∀ g, level = some g → g.Valid) :
    ∀ g, result = some g → g.Valid := by
  cases h with
  | kept => exact hlevel
  | given hparse =>
    rintro g ⟨⟩
    exact Geometry.valid_of_parse hparse

theorem Base.possible {file : Option String} {base : Description} (h : Base file base) :
    base.Possible := by
  cases h with
  | absent => exact Description.possible_empty
  | given h => exact Description.possible_of_ofText h

theorem Merged.possible {o : Options} {base d : Description} (h : Merged o base d)
    (hbase : base.Possible) : d.Possible where
  icache := h.icache.valid hbase.icache
  dcache := h.dcache.valid hbase.dcache
  l2 := h.l2.valid hbase.l2

theorem problem?_eq_none_iff {ε α : Type} {x : Except ε α} :
    problem? x = none ↔ ∃ a, x = .ok a := by
  cases x <;> simp [problem?]

theorem problem?_eq_some_iff {ε α : Type} {x : Except ε α} {e : ε} :
    problem? x = some e ↔ x = .error e := by
  cases x <;> simp [problem?]

theorem problems_eq_nil_iff {o : Options} {file : Option String} :
    problems o file = [] ↔
      (∀ text, file = some text → ∃ d, Description.ofText text = .ok d) ∧
        ∀ argument ∈ [o.icache, o.dcache, o.l2], ∀ text, argument = some text →
          ∃ g, Geometry.parse text = .ok g := by
  simp only [problems, List.append_eq_nil_iff, Option.toList_eq_nil_iff, List.filterMap_eq_nil_iff,
    fileProblem?, argumentProblem?, Option.bind_eq_none_iff, Option.map_eq_none_iff,
    problem?_eq_none_iff]

theorem Merged.valid {o : Options} {base d : Description} (h : Merged o base d)
    (hbase : base.Possible) :
    ∀ level ∈ [d.icache, d.dcache, d.l2], ∀ g ∈ level, g.Valid := by
  obtain ⟨hicache, hdcache, hl2⟩ := h.possible hbase
  simp only [List.mem_cons, List.not_mem_nil, or_false, forall_eq_or_imp, forall_eq]
  exact ⟨hicache, hdcache, hl2⟩

/-- Whatever file and arguments ask for is accepted exactly if the file, when there is one, is a
description and each argument, when it is given, is a geometry.  Then each level is the one of its
argument, or else the one of the file, and all shapes are possible.  If there is room for all
levels, the hierarchy is made with exactly these levels; if there is not, the program stops without
a refusal.  What is not accepted is refused for its first problem, also when that concerns a level
of the file that an argument would replace. -/
theorem accepted_configurations_are_made_if_there_is_room (o : Options) (file : Option String) :
    ((∃ d, resolve o (holding file) = .ok d) ↔
      (∀ text, file = some text → ∃ d, Description.ofText text = .ok d) ∧
        ∀ argument ∈ [o.icache, o.dcache, o.l2], ∀ text, argument = some text →
          ∃ g, Geometry.parse text = .ok g) ∧
    (∀ d, resolve o (holding file) = .ok d →
      (∃ base, Base file base ∧ Merged o base d) ∧ d.Possible ∧
        (d.HasRoom → ∃ h, Hierarchy.make d = .ok h ∧ Hierarchy.build d = .ok h ∧ h.Realizes d) ∧
        (¬ d.HasRoom → Hierarchy.make d = .error .capacityOverflow)) ∧
    ∀ e, resolve o (holding file) = .error e ↔ (problems o file).head? = some e := by
  refine ⟨?_, ?_, ?_⟩
  · rw [← problem?_eq_none_iff, problem?_resolve, List.head?_eq_none_iff, problems_eq_nil_iff]
  · intro d hresolve
    obtain ⟨base, hbase, hmerged⟩ := resolve_eq_ok_iff.mp hresolve
    have hpossible : d.Possible := hmerged.possible hbase.possible
    refine ⟨⟨base, hbase, hmerged⟩, hpossible, fun hroom => ?_,
      Hierarchy.make_eq_error_of_valid (hmerged.valid hbase.possible)⟩
    obtain ⟨h, hbuild⟩ := Hierarchy.exists_build_of_possible hpossible
    exact ⟨h, Hierarchy.make_eq_ok_iff.mpr ⟨hbuild, hroom⟩, hbuild,
      Hierarchy.realizes_of_build hbuild⟩
  · intro e
    rw [← problem?_resolve, problem?_eq_some_iff]

/-- An argument that takes the place of a level in the file. -/
theorem accepted_configurations_are_made_overridden :
    let d : Description := ⟨none, some ⟨1, 8, 64, .fifo⟩, some ⟨8, 2, 16, .random⟩, true⟩
    d.HasRoom ∧ ∃ h, Hierarchy.make d = .ok h ∧ h.Realizes d := by
  intro d
  let base : Description := ⟨none, some ⟨4, 4, 8, .lru⟩, some ⟨8, 2, 16, .random⟩, false⟩
  have hbase : Base (some "[null,\"4:4:8:L\",\"8:2:16\"]") base := .given (by cbv)
  have hmerged : Merged { dcache := some "1:8:64:F", logMisses := true } base d :=
    ⟨.kept, .given (by cbv), .kept, rfl⟩
  have hresolve := resolve_eq_ok_iff.mpr ⟨base, hbase, hmerged⟩
  have hroom : d.HasRoom := by decide
  obtain ⟨-, -, hmade, -⟩ :=
    (accepted_configurations_are_made_if_there_is_room _ _).2.1 d hresolve
  obtain ⟨h, hmake, -, hrealizes⟩ := hmade hroom
  exact ⟨hroom, h, hmake, hrealizes⟩

/-- A geometry that is accepted although a table of its lines would be longer than any object. -/
theorem accepted_configuration_without_room :
    let o : Options := { dcache := some "1152921504606846976:1:8:L" }
    ∃ d, resolve o (holding none) = .ok d ∧ d.Possible ∧ ¬ ∃ h, Hierarchy.make d = .ok h := by
  intro o
  let d : Description := ⟨none, some ⟨1152921504606846976, 1, 8, .lru⟩, none, false⟩
  have hparse : Geometry.parse "1152921504606846976:1:8:L" =
    .ok ⟨1152921504606846976, 1, 8, .lru⟩ := rfl
  have hbase : Base none .empty := .absent
  have hmerged : Merged o .empty d := ⟨.kept, .given hparse, .kept, rfl⟩
  refine ⟨d, resolve_eq_ok_iff.mpr ⟨_, hbase, hmerged⟩, hmerged.possible hbase.possible, ?_⟩
  rintro ⟨h, hmake⟩
  have hroom : d.HasRoom := (Hierarchy.make_eq_ok_iff.mp hmake).2
  revert hroom
  decide

end CommandLine

end CacheModel
