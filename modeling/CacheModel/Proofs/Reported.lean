import Mathlib
import CacheModel.Proofs.Balance

/-!
# Levels in reports

The text that reports on a hierarchy leaves out the levels that were never asked for anything.  For
a cache of the first level these are the traces without a reference of its kind.  The second level
is asked by the caches above it alone: the first reference that one of them serves cannot be found
there, so that its line is read from below.  As long as the counters do not come round, a second
level that is there is therefore left out exactly if all of the first level is.

What the text says of a level is a section of eight lines, seven for the counters and one for the
share of misses, and each of them opens with the name of the level.
-/

namespace CacheModel

/-! ## Levels -/

/-- The levels that a hierarchy can have. -/
inductive Tier where
  | first (side : Side)
  | second
  deriving DecidableEq

namespace Tier

/-- The levels in the order in which they are reported. -/
def all : List Tier := [.first .instruction, .first .data, .second]

/-- The name of the cache at a level. -/
def name : Tier → String
  | first side => side.cacheName
  | second => l2Name

/-- The requests that a trace brings to a level under the given caches of the first level. -/
def requests (above : Side → Option Cache) (accesses : List Access) : Tier → List Request
  | first side => requestsOf side accesses
  | second => callsBelow above accesses

end Tier

/-- The shape of the cache at a level, if it is described. -/
def Description.shape? (d : Description) : Tier → Option Geometry
  | .first side => d.level side
  | .second => d.l2

namespace Hierarchy

/-- The cache at a level, if it is there. -/
def cacheAt? (h : Hierarchy) : Tier → Option Cache
  | .first side => (h.place side).bind h.network.cache?
  | .second => h.l2.bind h.network.cache?

/-- The report of a level, if it is there. -/
def report? (h : Hierarchy) (tier : Tier) : Option Report :=
  (h.cacheAt? tier).map Cache.report

/-- What the text says of a level, if it says anything. -/
def section? (h : Hierarchy) (tier : Tier) : Option String :=
  (h.report? tier).bind Report.text?

end Hierarchy

/-! ## Sections -/

namespace Counter

/-- The counters in the order in which they are listed. -/
def all : List Counter :=
  [.bytesRead, .bytesWritten, .readAccesses, .writeAccesses, .readMisses, .writeMisses, .writebacks]

/-- What a counter is called. -/
def label : Counter → String
  | bytesRead => "Bytes Read:"
  | bytesWritten => "Bytes Written:"
  | readAccesses => "Read Accesses:"
  | writeAccesses => "Write Accesses:"
  | readMisses => "Read Misses:"
  | writeMisses => "Write Misses:"
  | writebacks => "Writebacks:"

end Counter

/-- A line that says of the level with this name what has this label.  The labels stand in a column
that is twenty-three characters wide. -/
def sectionLine (name label value : String) : String :=
  name ++ " " ++ String.ofList (label.toList.rightpad 23 ' ') ++ value ++ "\n"

/-- The lines about a level: its counters, and then the share of misses in percent. -/
def sectionLines (name : String) (counters : Counters) (missRate : Float) : List String :=
  (Counter.all.map fun q => sectionLine name q.label (counters.get q).toNat.repr) ++
    [sectionLine name "Miss Rate:" (Decimal.fixed 3 (.ofBits missRate.toBits) ++ "%")]

theorem Report.padLabel_eq (label : String) :
    padLabel label = String.ofList (label.toList.rightpad 23 ' ') := by
  rw [padLabel, List.rightpad, String.ofList_append, String.ofList_toList, String.length_toList]
  rfl

/-- What is shown of a report is one line for each counter and one for the miss rate. -/
theorem Report.text?_eq_some_iff {r : Report} {text : String} :
    r.text? = some text ↔ ∃ missRate, r.counters.missRate? = some missRate ∧
      text = String.join (sectionLines r.name r.counters missRate) := by
  have hlines : r.text? = r.counters.missRate?.map fun missRate =>
      String.join (sectionLines r.name r.counters missRate) := by
    simp only [text?, rows, List.map_cons, List.map_nil, padLabel_eq]
    rfl
  simp only [hlines, Option.map_eq_some_iff, @eq_comm _ text]

example :
    sectionLine "D$" Counter.bytesRead.label "4096" = "D$ Bytes Read:            4096\n" := by
  decide

/-! ## Requests that reach a level -/

theorem length_requestsOf_le (side : Side) (accesses : List Access) :
    (requestsOf side accesses).length ≤ accesses.length := by
  rw [requestsOf, List.length_map]
  exact List.length_filter_le _ _

theorem requestsOf_eq_nil_iff {side : Side} {accesses : List Access} :
    requestsOf side accesses = [] ↔ ∀ a ∈ accesses, a.kind.side ≠ side := by
  simp [requestsOf]

theorem Cache.length_forwards_le (c : Cache) (r : Request) : (c.access r).forwards.length ≤ 2 := by
  cases hfind : c.find r.address with
  | some way => simp [forwards_of_hit hfind]
  | none =>
    rw [forwards_of_miss hfind]
    cases c.writeback? (c.lineFor r.address) <;> simp

/-- A new cache does not find what it is asked for first. -/
theorem Cache.Built.forwards_ne_nil {c : Cache} (h : c.Built) (r : Request) :
    (c.access r).forwards ≠ [] := by
  rw [Cache.forwards_of_miss (h.find_eq_none r.address)]
  exact List.append_ne_nil_of_right_ne_nil _ (List.cons_ne_nil _ _)

section

variable {above : Side → Option Cache}

/-- A reference sends at most two requests down. -/
theorem length_callsBelow_le (above : Side → Option Cache) (accesses : List Access) :
    (callsBelow above accesses).length ≤ 2 * accesses.length := by
  induction accesses using List.reverseRecOn with
  | nil => exact le_rfl
  | append_singleton accesses a ih =>
    rw [callsBelow_concat, List.length_append, List.length_append, List.length_singleton]
    cases above a.kind.side with
    | none =>
      rw [Option.elim_none, List.length_nil]
      omega
    | some c =>
      have hle := (c.after (requestsOf a.kind.side accesses)).length_forwards_le a.request
      rw [Option.elim_some]
      omega

/-- Nothing is sent down exactly if there is no cache for any reference of the trace. -/
theorem callsBelow_eq_nil_iff (hbuilt : ∀ side c, above side = some c → c.Built)
    {accesses : List Access} :
    callsBelow above accesses = [] ↔ ∀ a ∈ accesses, above a.kind.side = none := by
  induction accesses using List.reverseRecOn with
  | nil => exact iff_of_true rfl nofun
  | append_singleton accesses a ih =>
    rw [callsBelow_concat, List.append_eq_nil_iff, ih, List.forall_mem_append,
      List.forall_mem_singleton]
    refine and_congr_right fun hnone => ?_
    cases hc : above a.kind.side with
    | none => exact iff_of_true rfl rfl
    | some c =>
      -- The references before this one had no cache, so this one is the first of its side.
      have hidle : requestsOf a.kind.side accesses = [] := by
        refine requestsOf_eq_nil_iff.mpr fun b hb hside => ?_
        rw [← hside, hnone b hb] at hc
        cases hc
      rw [Option.elim_some, hidle, Cache.after_nil]
      exact iff_of_false ((hbuilt _ c hc).forwards_ne_nil a.request) nofun

theorem Tier.length_requests_le (tier : Tier) (above : Side → Option Cache)
    (accesses : List Access) :
    (tier.requests above accesses).length ≤ 2 * accesses.length := by
  cases tier with
  | first side =>
    have hle := length_requestsOf_le side accesses
    rw [requests]
    omega
  | second => exact length_callsBelow_le above accesses

end

/-! ## Levels after a trace -/

theorem Cache.Built.accesses_after_eq_zero_iff {c : Cache} (h : c.Built) {rs : List Request}
    (hcount : rs.length < 2 ^ 64) : (c.after rs).counters.accesses = 0 ↔ rs = [] := by
  rw [← UInt64.toNat_inj, h.toNat_accesses_after hcount, UInt64.toNat_zero,
    List.length_eq_zero_iff]

namespace Hierarchy

section

variable (first : Side → Option Cache) (second : Option Cache)

theorem caches_ofSides :
    (ofSides first second).caches = Tier.all.filterMap (ofSides first second).cacheAt? := by
  have hcaches : (ofSides first second).caches =
      (first .instruction).toList ++ (first .data).toList ++ second.toList := by
    simp [ofSides, assemble, caches, Network.caches, Function.comp_def]
  rw [hcaches]
  simp only [Tier.all, List.filterMap_cons, List.filterMap_nil, cacheAt?, cache?_place_ofSides,
    cache?_l2_ofSides]
  cases first .instruction <;> cases first .data <;> cases second <;> rfl

end

theorem isSome_section?_iff {h : Hierarchy} {tier : Tier} :
    (h.section? tier).isSome = true ↔
      ∃ c, h.cacheAt? tier = some c ∧ c.counters.accesses ≠ 0 := by
  cases hcache : h.cacheAt? tier with
  | none => simp [section?, report?, hcache]
  | some c =>
    rw [section?, report?, hcache, Option.map_some, Option.bind_some, Option.isSome_iff_ne_none,
      Ne, Report.text?_eq_none_iff]
    simp [Cache.report]

section

variable {d : Description} {h : Hierarchy} (hbuild : build d = .ok h) (accesses : List Access)
include hbuild

/-- After a trace the reports and the text go through the levels in order. -/
theorem reports_run :
    (h.run accesses).1.reports = Tier.all.filterMap (h.run accesses).1.report? ∧
      (h.run accesses).1.reportText =
        String.join (Tier.all.filterMap (h.run accesses).1.section?) := by
  obtain ⟨first, second, -, -, hnow⟩ := exists_run_eq_ofSides hbuild accesses
  have hreports : (h.run accesses).1.reports =
      Tier.all.filterMap (h.run accesses).1.report? := by
    rw [reports, hnow, caches_ofSides, List.map_filterMap]
    rfl
  refine ⟨hreports, ?_⟩
  rw [reportText, hreports, List.filterMap_filterMap]
  rfl

/-- After a trace each level is the new cache of its shape after the requests that reach it. -/
theorem exists_cacheAt?_run :
    ∃ level : Tier → Option Cache,
      (∀ tier, Stands tier.name (d.shape? tier) (level tier)) ∧
      ∀ tier, (h.run accesses).1.cacheAt? tier = (level tier).map fun c =>
        (c.after (tier.requests (fun side => level (.first side)) accesses)).reporting
          d.logMisses := by
  obtain ⟨first, second, hfirst, hsecond, hnow⟩ := exists_run_eq_ofSides hbuild accesses
  refine ⟨fun | .first side => first side | .second => second, ?_, ?_⟩
  · intro tier
    cases tier with
    | first side => exact hfirst side
    | second => exact hsecond
  · intro tier
    cases tier with
    | first side => rw [cacheAt?, hnow, cache?_place_ofSides]; rfl
    | second => rw [cacheAt?, hnow, cache?_l2_ofSides]; rfl

/-- After a trace every described level has a report under its name, and no other level has
one. -/
theorem map_name_report?_run (tier : Tier) :
    ((h.run accesses).1.report? tier).map Report.name =
      (d.shape? tier).map fun _ => tier.name := by
  obtain ⟨level, hstands, hcache⟩ := exists_cacheAt?_run hbuild accesses
  rw [report?, hcache]
  have htier := hstands tier
  generalize d.shape? tier = geometry, level tier = cache at htier
  cases htier with
  | absent => rfl
  | present hc =>
    simp only [Option.map_some, Cache.report, Cache.reporting, Cache.name_after]
    rw [(Stands.present hc).name_eq]

variable {accesses} (hcount : accesses.length < 2 ^ 62)
include hcount

/-- After a trace the text has a section for the described levels that a request reached. -/
theorem exists_isSome_section?_run_iff :
    ∃ level : Tier → Option Cache,
      (∀ tier, Stands tier.name (d.shape? tier) (level tier)) ∧
      ∀ tier, ((h.run accesses).1.section? tier).isSome = true ↔ (d.shape? tier).isSome = true ∧
        tier.requests (fun side => level (.first side)) accesses ≠ [] := by
  obtain ⟨level, hstands, hcache⟩ := exists_cacheAt?_run hbuild accesses
  refine ⟨level, hstands, fun tier => ?_⟩
  have hle := tier.length_requests_le (fun side => level (.first side)) accesses
  have hfew : (tier.requests (fun side => level (.first side)) accesses).length < 2 ^ 64 := by omega
  rw [isSome_section?_iff, hcache, ← (hstands tier).isSome_eq]
  cases hc : level tier with
  | none => simp
  | some c =>
    have hbuilt : c.Built := (hc ▸ hstands tier).built
    simpa [Cache.reporting] using not_congr (hbuilt.accesses_after_eq_zero_iff hfew)

/-- A cache of the first level has a section if the trace has a reference for its side. -/
theorem isSome_section?_first_iff (side : Side) :
    ((h.run accesses).1.section? (.first side)).isSome = true ↔
      (d.level side).isSome = true ∧ ∃ a ∈ accesses, a.kind.side = side := by
  obtain ⟨level, -, hsection⟩ := exists_isSome_section?_run_iff hbuild hcount
  rw [hsection, Tier.requests, Ne, requestsOf_eq_nil_iff]
  simp [Description.shape?]

/-- The second level has a section if the trace has a reference that the first level serves. -/
theorem isSome_section?_second_iff :
    ((h.run accesses).1.section? .second).isSome = true ↔
      d.l2.isSome = true ∧ ∃ a ∈ accesses, (d.level a.kind.side).isSome = true := by
  obtain ⟨level, hstands, hsection⟩ := exists_isSome_section?_run_iff hbuild hcount
  have hbuilt : ∀ side c, level (.first side) = some c → c.Built :=
    fun side c hc => (hc ▸ hstands (.first side)).built
  have hpresent : ∀ side, ¬ level (.first side) = none ↔ (d.level side).isSome = true := by
    intro side
    rw [← ne_eq, ← Option.isSome_iff_ne_none, (hstands (.first side)).isSome_eq]
    rfl
  rw [hsection, Tier.requests, Ne, callsBelow_eq_nil_iff hbuilt]
  simp only [not_forall, exists_prop, hpresent]
  rfl

end

end Hierarchy

/-- **The text reports on the levels that were used.**  Build any hierarchy and serve any trace that
is not too long to be counted.  The text is made of the sections of the levels in their order.  A
cache of the first level has a section exactly if it is described and the trace has a reference of
its side.  The second level has one exactly if it is described and a cache of the first level has
one.  The list of reports goes through the levels in the same order.  It has one entry for each
level that is described, under its name and with the counters of its cache, and there is no miss
rate exactly if the text has no section for the level.  A section consists of the lines about the
entry, each under the name of the level. -/
theorem used_levels_are_reported {d : Description} {h : Hierarchy}
    (hbuild : Hierarchy.build d = .ok h) {accesses : List Access}
    (hcount : accesses.length < 2 ^ 62) :
    let now := (h.run accesses).1
    now.reportText = String.join (Tier.all.filterMap now.section?) ∧
      (∀ side, (now.section? (.first side)).isSome = true ↔
        (d.level side).isSome = true ∧ ∃ a ∈ accesses, a.kind.side = side) ∧
      ((now.section? .second).isSome = true ↔
        d.l2.isSome = true ∧ ∃ side, (now.section? (.first side)).isSome = true) ∧
      now.reports = Tier.all.filterMap now.report? ∧
      ∀ tier,
        (now.report? tier).map Report.name = (d.shape? tier).map (fun _ => tier.name) ∧
        (now.report? tier).map Report.counters = (now.cacheAt? tier).map Cache.counters ∧
        ∀ report, now.report? tier = some report →
          (report.counters.missRate? = none ↔ now.section? tier = none) ∧
          ∀ text, now.section? tier = some text ↔
            ∃ missRate, report.counters.missRate? = some missRate ∧
              text = String.join (sectionLines tier.name report.counters missRate) := by
  intro now
  obtain ⟨hreports, htext⟩ := Hierarchy.reports_run hbuild accesses
  have hfirst := Hierarchy.isSome_section?_first_iff hbuild hcount
  have hnames := Hierarchy.map_name_report?_run hbuild accesses
  refine ⟨htext, hfirst, ?_, hreports, fun tier =>
    ⟨hnames tier, ?_, fun report hreport => ?_⟩⟩
  · rw [Hierarchy.isSome_section?_second_iff hbuild hcount]
    refine and_congr_right fun _ => ?_
    constructor
    · rintro ⟨a, ha, hlevel⟩
      exact ⟨_, (hfirst _).mpr ⟨hlevel, a, ha, rfl⟩⟩
    · rintro ⟨side, hside⟩
      obtain ⟨hlevel, a, ha, rfl⟩ := (hfirst side).mp hside
      exact ⟨a, ha, hlevel⟩
  · rw [Hierarchy.report?, Option.map_map]
    rfl
  · have hsection : now.section? tier = report.text? := by
      rw [Hierarchy.section?, hreport, Option.bind_some]
    have hname : tier.name = report.name := by
      have htier := hnames tier
      rw [hreport, Option.map_some, eq_comm, Option.map_eq_some_iff] at htier
      obtain ⟨_, -, hname⟩ := htier
      exact hname
    rw [hsection, hname]
    refine ⟨?_, fun text => Report.text?_eq_some_iff⟩
    rw [Report.text?_eq_none_iff, Counters.missRate?_eq_none_iff]

/-- A trace without fetches: the instruction cache is left out of the text but not of the list. -/
theorem used_levels_are_reported_data_only :
    let d : Description :=
      { icache := some ⟨1, 1, 8, .random⟩
        dcache := some ⟨2, 1, 16, .lru⟩
        l2 := some ⟨1, 8, 16, .fifo⟩
        logMisses := true }
    let accesses : List Access := [⟨.load, 64, 8⟩, ⟨.store, 68, 4⟩]
    accesses.length < 2 ^ 62 ∧ ∃ h, Hierarchy.build d = .ok h ∧
      let now := (h.run accesses).1
      now.section? (.first .instruction) = none ∧
        (now.section? (.first .data)).isSome = true ∧ (now.section? .second).isSome = true ∧
        now.reportText = String.join (Tier.all.filterMap now.section?) ∧
        (∃ report, now.report? (.first .instruction) = some report ∧ report.name = icacheName ∧
          report.counters.missRate? = none) ∧
        ∃ report missRate, now.report? (.first .data) = some report ∧
          report.counters.missRate? = some missRate ∧
          now.section? (.first .data) =
            some (String.join (sectionLines dcacheName report.counters missRate)) := by
  intro d accesses
  have hcount : accesses.length < 2 ^ 62 := by decide
  have hbuild : ∃ h, Hierarchy.build d = .ok h := ⟨_, rfl⟩
  obtain ⟨h, hbuild⟩ := hbuild
  obtain ⟨htext, hfirst, hsecond, -, hlist⟩ := used_levels_are_reported hbuild hcount
  have hidle : (h.run accesses).1.section? (.first .instruction) = none := by
    rw [← Option.not_isSome_iff_eq_none, hfirst]
    decide
  have hdata := (hfirst .data).mpr (by decide)
  obtain ⟨hname, -, hinstruction⟩ := hlist (.first .instruction)
  obtain ⟨report, hreport, hname⟩ := Option.map_eq_some_iff.mp hname
  have hrate := (hinstruction report hreport).1.mpr hidle
  obtain ⟨hdataName, -, hused⟩ := hlist (.first .data)
  obtain ⟨used, hdataReport, -⟩ := Option.map_eq_some_iff.mp hdataName
  obtain ⟨text, hshown⟩ := Option.isSome_iff_exists.mp hdata
  obtain ⟨missRate, hdataRate, rfl⟩ := ((hused used hdataReport).2 text).mp hshown
  exact ⟨hcount, h, hbuild, hidle, hdata, hsecond.mpr ⟨rfl, .data, hdata⟩, htext,
    ⟨report, hreport, hname, hrate⟩, used, missRate, hdataReport, hdataRate, hshown⟩

end CacheModel
