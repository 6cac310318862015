import Mathlib
import CacheModel.Proofs.Account
import CacheModel.Proofs.Footprint

/-!
# What a request causes outside the cache

What a miss sends down can be told from what is seen before and after it: the line that is sent
back is the one that was dirty and is gone, and the line that is read is the one of the request.
The address of a line that is sent back is rebuilt from a tag after its place has been taken; that
it is the address of the line that left rests on the tag having been found in its own set.

In a network a request is accounted for at its level by one entry, followed by what the cache has
to tell and by what it sends down its link.  All that happens below because of a request sent down
comes right after it and before the next one.
-/

namespace CacheModel

namespace Cache

/-! ## The line that is sent back -/

/-- The base of the line that the request makes the cache send back, if it does. -/
def sentBack? (c : Cache) (r : Request) : Option UInt64 :=
  if c.contains r.address then none
  else (c.writeback? (c.lineFor r.address)).map Request.address

theorem sentBack?_of_miss {c : Cache} {r : Request} (hmiss : c.contains r.address = false) :
    c.sentBack? r = (c.writeback? (c.lineFor r.address)).map Request.address :=
  if_neg (Bool.eq_false_iff.mp hmiss)

/-- The effects of a miss, told through the line that is sent back. -/
theorem effects_of_miss {c : Cache} {r : Request} (hmiss : c.contains r.address = false) :
    (c.access r).effects =
      (if c.logsMisses then [.notice (.missed c.name r.isWrite r.address)] else []) ++
        ((match c.sentBack? r with
          | some v => [.notice (.wroteBack c.name v), .forward ⟨v, c.lineBytes, true⟩]
          | none => []) ++
        [.forward (c.fillRequest r.address)]) := by
  rw [sentBack?_of_miss hmiss, access_of_miss (contains_eq_false_iff.mp hmiss), missEffects,
    List.append_assoc]
  cases hback : c.writeback? (c.lineFor r.address) with
  | none => rfl
  | some q =>
    obtain ⟨-, -, rfl⟩ := writeback?_eq_some_iff.mp hback
    rfl

theorem effects_of_hit {c : Cache} {r : Request} (hhit : c.contains r.address = true) :
    (c.access r).effects = [] := by
  obtain ⟨way, hfind⟩ := Option.isSome_iff_exists.mp hhit
  rw [access_of_hit hfind]

/-- Lines that are sent back are counted, wherever they go. -/
theorem writebacks_access (c : Cache) (r : Request) :
    (c.access r).cache.counters.writebacks =
      c.counters.writebacks + if (c.sentBack? r).isSome then 1 else 0 := by
  have harrive : (c.counters.recordAccess r).writebacks = c.counters.writebacks := by
    rw [Counters.recordAccess]
    split <;> rfl
  have hmissed : ((c.counters.recordAccess r).recordMiss r.isWrite).writebacks =
      c.counters.writebacks := by
    rw [Counters.recordMiss, ← harrive]
    split <;> rfl
  rw [counters_access, sentBack?, contains]
  cases hfind : c.find r.address with
  | some way => simpa using harrive
  | none =>
    cases c.writeback? (c.lineFor r.address) with
    | none => simpa using hmissed
    | some q => simpa [Counters.recordWriteback] using hmissed

section

variable {c : Cache} (h : c.Sound)
include h

/-- The line that is sent back is the one that was dirty before and is gone after the request. -/
theorem Sound.sentBack?_eq_some_iff {r : Request} {v : UInt64} :
    c.sentBack? r = some v ↔
      c.geometry.addresses.lineBase v = v ∧ c.isDirty v = some true ∧
        (c.access r).cache.contains v = false := by
  constructor
  · intro hback
    rw [sentBack?] at hback
    split at hback
    · cases hback
    · next hmiss =>
      obtain ⟨q, hq, rfl⟩ := Option.map_eq_some_iff.mp hback
      obtain ⟨hmem, hwrite⟩ := mem_forwards_write_iff.mpr
        ⟨contains_eq_false_iff.mp (Bool.eq_false_iff.mpr hmiss), hq⟩
      have hown := h.writesBack_of_mem_forwards hmem hwrite
      obtain ⟨hevicts, hdirty⟩ := h.exists_writesBack_iff.mp ⟨q, hmem, hown⟩
      exact ⟨hown.2.symm, hdirty, (h.leaves_iff_evicts.mpr hevicts).2⟩
  · rintro ⟨hbase, hdirty, hgone⟩
    have hevicts := h.leaves_iff_evicts.mp ⟨contains_of_isDirty hdirty, hgone⟩
    obtain ⟨q, hmem, hwrite, haddress⟩ := h.exists_writesBack_iff.mpr ⟨hevicts, hdirty⟩
    obtain ⟨hmiss, hback⟩ := mem_forwards_write_iff.mp ⟨hmem, hwrite⟩
    rw [sentBack?_of_miss (contains_eq_false_iff.mpr hmiss), hback, Option.map_some, haddress,
      hbase]

/-- It is another line of the set of the request. -/
theorem Sound.ne_of_sentBack?_eq_some {r : Request} {v : UInt64} (hback : c.sentBack? r = some v) :
    c.setOf v = c.setOf r.address ∧ v ≠ c.geometry.addresses.lineBase r.address := by
  obtain ⟨-, hdirty, hgone⟩ := h.sentBack?_eq_some_iff.mp hback
  obtain ⟨htag, hset⟩ := h.setOf_eq_of_leaves ⟨contains_of_isDirty hdirty, hgone⟩
  refine ⟨hset, ?_⟩
  rintro rfl
  exact htag (h.valid.tag_lineBase r.address)

end

end Cache

namespace Network

/-! ## The account of one request -/

/-- What can happen below the level at `i` once it has sent a request down the link: nothing if a
recorder took it, and else what the level below does with it, which does not come back to `i`. -/
def Below (net : Network) (i : ℕ) : Link → Request → List Occurrence → Prop
  | .recorder, _, log => log = []
  | .level j, q, log =>
    (∃ net', net'.wiring = net.wiring ∧ log = (deliver (net.size - 1) net' j q).2) ∧
      ∀ entry ∈ log, entry.isAt i = false

@[simp] theorem carryOut_notice (depth i : ℕ) (next : Option Link) (net : Network) (event : Event) :
    carryOut depth i next net (.notice event) = (net, [.notice event]) := rfl

/-- A request that is sent down is followed by what it causes below. -/
theorem exists_below {net net' : Network} (hw : net'.wiring = net.wiring) {i : ℕ} {link : Link}
    (haway : ∀ j, link = .level j → ¬ Relation.ReflTransGen (Leads net.wiring) j i) (q : Request) :
    ∃ below, net.Below i link q below ∧
      (carryOut (net.size - 1) i (some link) net' (.forward q)).2 =
        .forwarded i link q :: below := by
  cases link with
  | recorder => exact ⟨[], rfl, rfl⟩
  | level j =>
    refine ⟨_, ⟨⟨net', hw, rfl⟩, fun entry hmem => ?_⟩, rfl⟩
    have hsilent := (silent_deliver (net.size - 1) hw (haway j rfl) q).log_eq
    exact Bool.eq_false_iff.mpr (List.filter_eq_nil_iff.mp hsilent entry hmem)

section

variable {net : Network} {i : ℕ} {c : Cache} {next : Option Link}
  (hlevel : net.levels[i]? = some ⟨c, next⟩)
include hlevel

/-- A request, served by the cache of the level and then carried out. -/
theorem snd_access_of_level (r : Request) :
    (net.access i r).2 = .served i r (c.access r).outcome ::
      (inOrder (carryOut (net.size - 1) i next) (net.modifyCache i fun _ => (c.access r).cache)
        (c.access r).effects).2 := by
  have hsize : net.size = net.size - 1 + 1 := by
    have := lt_size_of_cache? (cache?_of_level hlevel)
    omega
  rw [access, hsize, deliver_succ hlevel]
  rfl

/-- The account of a miss at a level with nothing below. -/
theorem snd_access_of_miss_none (hnext : next = none) {r : Request}
    (hmiss : c.contains r.address = false) :
    (net.access i r).2 = .served i r (c.access r).outcome ::
      ((if c.logsMisses then [.notice (.missed c.name r.isWrite r.address)] else []) ++
        match c.sentBack? r with
        | some v => [.notice (.wroteBack c.name v)]
        | none => []) := by
  subst hnext
  rw [snd_access_of_level hlevel, Cache.effects_of_miss hmiss]
  cases c.logsMisses <;> cases c.sentBack? r <;> rfl

/-- The account of a miss at a level that sends its misses down a link. -/
theorem snd_access_of_miss {link : Link} (hnext : next = some link)
    (haway : ∀ j, link = .level j → ¬ Relation.ReflTransGen (Leads net.wiring) j i) {r : Request}
    (hmiss : c.contains r.address = false) :
    ∃ belowBack belowFill,
      (∀ v, c.sentBack? r = some v → net.Below i link ⟨v, c.lineBytes, true⟩ belowBack) ∧
        net.Below i link (c.fillRequest r.address) belowFill ∧
        (net.access i r).2 = .served i r (c.access r).outcome ::
          ((if c.logsMisses then [.notice (.missed c.name r.isWrite r.address)] else []) ++
            ((match c.sentBack? r with
              | some v => .notice (.wroteBack c.name v) ::
                  .forwarded i link ⟨v, c.lineBytes, true⟩ :: belowBack
              | none => []) ++
            .forwarded i link (c.fillRequest r.address) :: belowFill)) := by
  subst hnext
  have hserved := wiring_modifyCache net i fun _ => (c.access r).cache
  rw [snd_access_of_level hlevel, Cache.effects_of_miss hmiss]
  cases c.sentBack? r with
  | none =>
    obtain ⟨belowFill, hfill, hlog⟩ := exists_below hserved haway (c.fillRequest r.address)
    refine ⟨[], belowFill, nofun, hfill, ?_⟩
    cases c.logsMisses <;> simp [hlog]
  | some v =>
    obtain ⟨belowBack, hback, hlogBack⟩ := exists_below hserved haway ⟨v, c.lineBytes, true⟩
    have hsent := (wiring_carryOut (wiring_deliver (net.size - 1)) _ i (some link)
      (.forward ⟨v, c.lineBytes, true⟩)).trans hserved
    obtain ⟨belowFill, hfill, hlogFill⟩ := exists_below hsent haway (c.fillRequest r.address)
    refine ⟨belowBack, belowFill, fun v' heq => Option.some.inj heq ▸ hback, hfill, ?_⟩
    cases c.logsMisses <;> simp [hlogBack, hlogFill]

end

end Network

open Network in
/-- **What goes out can be told from what is seen.**  Let a cache in use, of any shape, stand at a
level that does not lead back to itself.  A request to it has at most one line that was dirty and
is gone afterwards; this line is another one of the same set, and it is counted as a writeback
wherever it goes.

* A hit is accounted for by a single entry: it tells nothing and sends nothing.
* A miss is reported, if misses are; then the writeback of the line that is gone, if there is one,
  is told and after that sent; and then the line of the request is read.  Both requests are for a
  whole line, from its base.  What they cause below comes right after each of them. -/
theorem account_of_request {net : Network} {i : ℕ} {c : Cache} {next : Option Link}
    (hlevel : net.levels[i]? = some ⟨c, next⟩) (hreached : c.Reached)
    (hloop : ¬ Relation.TransGen (Leads net.wiring) i i) (r : Request) :
    let m := c.geometry.addresses
    let d := (c.access r).cache
    let served : Occurrence := .served i r (c.access r).outcome
    let report : List Occurrence :=
      if c.logsMisses then [.notice (.missed c.name r.isWrite r.address)] else []
    let fill : Request := ⟨m.lineBase r.address, c.lineBytes, false⟩
    ∃ gone : Option UInt64,
      (net.access i r).1.levels[i]? = some ⟨d, next⟩ ∧
      (∀ v, gone = some v ↔
        m.lineBase v = v ∧ c.isDirty v = some true ∧ d.contains v = false) ∧
      (∀ v, gone = some v → c.setOf v = c.setOf r.address ∧ v ≠ m.lineBase r.address) ∧
      d.counters.writebacks = c.counters.writebacks + (if gone.isSome then 1 else 0) ∧
      (c.contains r.address = true → (net.access i r).2 = [served]) ∧
      (c.contains r.address = false → next = none →
        (net.access i r).2 = served ::
          (report ++ match gone with
            | some v => [.notice (.wroteBack c.name v)]
            | none => [])) ∧
      ∀ link, c.contains r.address = false → next = some link →
        ∃ belowBack belowFill,
          (∀ v, gone = some v → net.Below i link ⟨v, c.lineBytes, true⟩ belowBack) ∧
          net.Below i link fill belowFill ∧
          (net.access i r).2 = served ::
            (report ++
              ((match gone with
                | some v => .notice (.wroteBack c.name v) ::
                    .forwarded i link ⟨v, c.lineBytes, true⟩ :: belowBack
                | none => []) ++
              .forwarded i link fill :: belowFill)) := by
  have h := hreached.sound
  have haway := away_of_next hloop rfl hlevel
  intro m d served report fill
  refine ⟨c.sentBack? r, ?_, fun v => h.sentBack?_eq_some_iff, fun v => h.ne_of_sentBack?_eq_some,
    Cache.writebacks_access c r, ?_, ?_, ?_⟩
  · have hsize : net.size = net.size - 1 + 1 := by
      have := lt_size_of_cache? (cache?_of_level hlevel)
      omega
    rw [access, hsize]
    exact (deliver_self hloop rfl hlevel _ r).1
  · intro hhit
    rw [snd_access_of_level hlevel, Cache.effects_of_hit hhit]
    rfl
  · exact fun hmiss hnext => snd_access_of_miss_none hlevel hnext hmiss
  · intro link hmiss hnext
    refine snd_access_of_miss hlevel hnext (fun j hlink => haway j ?_) hmiss
    rw [hnext, hlink]

/-- A report, a line that is sent back, and a read that the level below serves in its turn. -/
theorem account_of_request_two_levels :
    let upper := ((Cache.fresh .map ⟨1, 1, 8, .fifo⟩ "L1$" default).after
      [⟨4, 4, true⟩]).reporting true
    let lower := Cache.fresh .array ⟨2, 1, 16, .lru⟩ "L2$" default
    let net : Network := { levels := #[⟨upper, some (.level 1)⟩, ⟨lower, none⟩] }
    let r : Request := ⟨12, 4, false⟩
    upper.Reached ∧ ¬ Relation.TransGen (Network.Leads net.wiring) 0 0 ∧
      ∃ belowBack belowFill,
        (net.access 0 r).2 = .served 0 r (.miss 0 ⟨0, true, true⟩) ::
          .notice (.missed "L1$" false 12) :: .notice (.wroteBack "L1$" 0) ::
          .forwarded 0 (.level 1) ⟨0, 8, true⟩ :: (belowBack ++
          .forwarded 0 (.level 1) ⟨8, 8, false⟩ :: belowFill) := by
  intro upper lower net r
  have hbuild : Cache.buildWith .map ⟨1, 1, 8, .fifo⟩ "L1$" default =
      .ok (Cache.fresh .map ⟨1, 1, 8, .fifo⟩ "L1$" default) := rfl
  have hreached : upper.Reached :=
    ((Cache.Reached.built (.fullyAssociative rfl hbuild)).after _).reporting true
  have htop : net.OnTop 0 := by
    intro j hnext
    match j with
    | 0 => cases hnext
    | 1 => cases hnext
    | j + 2 => cases hnext
  have hloop := htop.not_transGen
  have hlevel : net.levels[0]? = some ⟨upper, some (.level 1)⟩ := rfl
  obtain ⟨gone, -, hgone, -, -, -, -, haccount⟩ := account_of_request hlevel hreached hloop r
  obtain rfl : gone = some 0 := (hgone 0).mpr ⟨by decide, by decide, by decide⟩
  obtain ⟨belowBack, belowFill, -, -, hlog⟩ := haccount (.level 1) (by decide) rfl
  have houtcome : (upper.access r).outcome = .miss 0 ⟨0, true, true⟩ := by decide
  have hbase : upper.geometry.addresses.lineBase r.address = 8 := by decide
  rw [houtcome, hbase] at hlog
  exact ⟨hreached, hloop, belowBack, belowFill, hlog⟩

end CacheModel
