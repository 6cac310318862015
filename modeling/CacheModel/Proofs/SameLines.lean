import Mathlib
import CacheModel.Proofs.Occupancy
import CacheModel.Proofs.Tally

/-!
# What does not feed back

Of a request only its line decides what is found and what is replaced.  Where in the line it
falls, how many bytes it is for and whether it writes goes into counters, dirty bits and reports,
and none of these is ever looked at when a line is looked up, a way is chosen or a stamp is set.

Two relations between caches say this.  The weaker one lets the dirty bits differ, and requests
for the same lines keep it.  The stronger one lets only counters and reports differ; it takes
requests that also agree on whether they write, and then whatever is sent down agrees as well.
-/

namespace CacheModel

/-- The line as it would stand there if it had never been written to. -/
def Line.cleaned (line : Line) : Line :=
  { line with dirty := false }

@[simp] theorem Line.valid_cleaned (line : Line) : line.cleaned.valid = line.valid := rfl

@[simp] theorem Line.holds_cleaned (line : Line) (tag : UInt64) :
    line.cleaned.holds tag = line.holds tag := rfl

/-- The report of a miss. -/
def Effect.isReport : Effect → Bool
  | notice (.missed _ _ _) => true
  | _ => false

namespace Cache

theorem wayFor_eq_of_setOf_eq {c : Cache} {a b : UInt64} (h : c.setOf a = c.setOf b) :
    c.wayFor a = c.wayFor b := by
  rw [wayFor, wayFor, h]

/-! ## Caches that differ in dirty bits only -/

/-- The caches hold the same lines at the same places and remember the same for replacement.  Their
dirty bits, counters and reports may differ. -/
structure SameLines (c d : Cache) : Prop where
  sound_left : c.Sound
  sound_right : d.Sound
  geometry_eq : c.geometry = d.geometry
  kind_eq : c.store.kind = d.store.kind
  replacement_eq : c.replacement = d.replacement
  cleaned_eq : ∀ {set way}, set < c.geometry.sets → way < c.geometry.ways →
    (c.store.line set way).cleaned = (d.store.line set way).cleaned

theorem Sound.sameLines {c : Cache} (h : c.Sound) : c.SameLines c :=
  ⟨h, h, rfl, rfl, rfl, fun _ _ => rfl⟩

namespace SameLines

variable {c d : Cache} (h : c.SameLines d)
include h

theorem symm : d.SameLines c where
  sound_left := h.sound_right
  sound_right := h.sound_left
  geometry_eq := h.geometry_eq.symm
  kind_eq := h.kind_eq.symm
  replacement_eq := h.replacement_eq.symm
  cleaned_eq := by
    rw [← h.geometry_eq]
    exact fun hset hway => (h.cleaned_eq hset hway).symm

theorem setOf_eq (a : UInt64) : c.setOf a = d.setOf a :=
  setOf_eq_of_geometry_eq h.geometry_eq a

theorem tagOf_eq (a : UInt64) : c.tagOf a = d.tagOf a :=
  tagOf_eq_of_geometry_eq h.geometry_eq a

theorem valid_eq {set way : ℕ} (hset : set < c.geometry.sets) (hway : way < c.geometry.ways) :
    (c.store.line set way).valid = (d.store.line set way).valid := by
  rw [← Line.valid_cleaned, h.cleaned_eq hset hway, Line.valid_cleaned]

theorem find_eq (a : UInt64) : c.find a = d.find a := by
  apply Option.ext
  intro way
  rw [h.sound_left.find_iff, h.sound_right.find_iff, ← h.setOf_eq, ← h.tagOf_eq, ← h.geometry_eq]
  apply and_congr_right
  intro hway
  have hline := h.cleaned_eq (h.sound_left.setOf_lt a) hway
  rw [← Line.holds_cleaned, hline, Line.holds_cleaned]

theorem contains_eq (a : UInt64) : c.contains a = d.contains a := by
  rw [contains, contains, h.find_eq]

theorem residentLines_eq : c.residentLines = d.residentLines := by
  rw [h.sound_left.residentLines_eq_card, h.sound_right.residentLines_eq_card, heldPlaces,
    heldPlaces, ← h.geometry_eq]
  refine congrArg Finset.card (Finset.filter_congr fun place hplace => ?_)
  obtain ⟨hset, hway⟩ := Finset.mem_product.mp hplace
  rw [h.valid_eq (Finset.mem_range.mp hset) (Finset.mem_range.mp hway)]

/-- A choice only asks which places are empty. -/
theorem victimize_eq (a : UInt64) :
    c.store.victimize (c.setOf a) c.replacement.tick =
      d.store.victimize (d.setOf a) d.replacement.tick := by
  have hright := h.sound_right.store
  rw [← h.geometry_eq] at hright
  rw [← h.setOf_eq, ← h.replacement_eq]
  refine h.sound_left.store.victimize_congr hright h.kind_eq ?_ _
  simp only [TagStore.places, List.map_map]
  exact List.map_congr_left fun way hway =>
    h.valid_eq (h.sound_left.setOf_lt a) (List.mem_range.mp hway)

theorem wayFor_eq (a : UInt64) : c.wayFor a = d.wayFor a := by
  rw [wayFor, h.victimize_eq, wayFor]

section

variable {r r' : Request} (htag : c.tagOf r.address = c.tagOf r'.address)
include htag

theorem isHit_eq : (c.access r).outcome.isHit = (d.access r').outcome.isHit := by
  rw [isHit_outcome, isHit_outcome, ← h.contains_eq, contains, find_eq_of_tagOf_eq htag, contains]

/-- Requests for one line find it at the same way or bring it in at the same way. -/
theorem way_eq : (c.access r).outcome.way = (d.access r').outcome.way := by
  have hfind := (find_eq_of_tagOf_eq htag).trans (h.find_eq r'.address)
  have hway := (wayFor_eq_of_setOf_eq (setOf_eq_of_tagOf_eq htag)).trans (h.wayFor_eq r'.address)
  cases hc : c.find r.address with
  | some way => rw [access_of_hit hc, access_of_hit (hfind ▸ hc)]
  | none =>
    rw [access_of_miss hc, access_of_miss (hfind ▸ hc)]
    exact hway

/-- Requests for one line keep the relation, whatever they do to it. -/
theorem access : (c.access r).cache.SameLines (d.access r').cache where
  sound_left := h.sound_left.access r
  sound_right := h.sound_right.access r'
  geometry_eq := by rw [geometry_access, geometry_access, h.geometry_eq]
  kind_eq := by rw [kind_access, kind_access, h.kind_eq]
  replacement_eq := by
    have hset := setOf_eq_of_tagOf_eq htag
    rw [replacement_access, replacement_access, find_eq_of_tagOf_eq htag, h.find_eq, hset,
      wayFor_eq_of_setOf_eq hset, h.wayFor_eq, h.victimize_eq, h.setOf_eq, h.replacement_eq]
  cleaned_eq {set way} := by
    rw [geometry_access]
    intro hset hway
    have hset' := h.geometry_eq ▸ hset
    have hway' := h.geometry_eq ▸ hway
    rw [h.sound_left.line_access r hset hway, h.sound_right.line_access r' hset' hway',
      ← h.way_eq htag, ← h.setOf_eq, setOf_eq_of_tagOf_eq htag]
    split
    · simp only [Line.cleaned, lineAfter, htag, h.tagOf_eq]
    · exact h.cleaned_eq hset hway

end

theorem reporting (logsMisses logsMisses' : Bool) :
    (c.reporting logsMisses).SameLines (d.reporting logsMisses') :=
  ⟨h.sound_left.reporting logsMisses, h.sound_right.reporting logsMisses', h.geometry_eq, h.kind_eq,
    h.replacement_eq, h.cleaned_eq⟩

end SameLines

/-- Runs of requests for the same lines keep the relation. -/
theorem SameLines.after {c d : Cache} (h : c.SameLines d) {rs rs' : List Request}
    (htags : List.Forall₂ (fun r r' => c.tagOf r.address = c.tagOf r'.address) rs rs') :
    (c.after rs).SameLines (d.after rs') := by
  induction rs generalizing c d rs' with
  | nil =>
    cases htags
    exact h
  | cons r rs ih =>
    cases htags with
    | cons htag htags => exact ih (h.access htag) (by simpa only [tagOf_access] using htags)

/-! ## Caches that differ in counters and reports only -/

/-- The caches are the same but for their counters and for whether they report their misses. -/
structure SameState (c d : Cache) : Prop where
  name_eq : c.name = d.name
  geometry_eq : c.geometry = d.geometry
  store_eq : c.store = d.store
  replacement_eq : c.replacement = d.replacement

/-- The counters agree, those of bytes apart. -/
def SameCounts (c d : Cache) : Prop :=
  ∀ q : Counter, q ≠ .bytesRead → q ≠ .bytesWritten → c.counters.get q = d.counters.get q

theorem sameState_refl (c : Cache) : c.SameState c := ⟨rfl, rfl, rfl, rfl⟩

theorem sameCounts_refl (c : Cache) : c.SameCounts c := fun _ _ _ => rfl

/-- What a miss causes apart from its report. -/
theorem filter_missEffects (c : Cache) (r : Request) (line : Line) :
    (c.missEffects r line).filter (fun effect => !effect.isReport) =
      (match c.writeback? line with
        | some q => [.notice (.wroteBack c.name q.address), .forward q]
        | none => []) ++ [.forward (c.fillRequest r.address)] := by
  rw [missEffects]
  cases c.logsMisses <;> cases c.writeback? line <;> rfl

/-- Reports send nothing down. -/
theorem forwards_eq_filterMap (s : Step) :
    s.forwards = (s.effects.filter fun effect => !effect.isReport).filterMap Effect.forward? := by
  rw [Step.forwards, List.filterMap_filter]
  refine congrArg (fun f => s.effects.filterMap f) (funext fun effect => ?_)
  cases effect with
  | forward q => rfl
  | notice event => cases event <;> rfl

namespace SameState

variable {c d : Cache} (h : c.SameState d)
include h

theorem trans {e : Cache} (h' : d.SameState e) : c.SameState e :=
  ⟨h.name_eq.trans h'.name_eq, h.geometry_eq.trans h'.geometry_eq, h.store_eq.trans h'.store_eq,
    h.replacement_eq.trans h'.replacement_eq⟩

theorem setOf_eq (a : UInt64) : c.setOf a = d.setOf a :=
  setOf_eq_of_geometry_eq h.geometry_eq a

theorem tagOf_eq (a : UInt64) : c.tagOf a = d.tagOf a :=
  tagOf_eq_of_geometry_eq h.geometry_eq a

theorem find_eq (a : UInt64) : c.find a = d.find a := by
  rw [find, h.setOf_eq, h.tagOf_eq, h.store_eq, find]

theorem isDirty_eq (a : UInt64) : c.isDirty a = d.isDirty a := by
  rw [isDirty, isDirty, h.find_eq, h.setOf_eq, h.store_eq]

theorem wayFor_eq (a : UInt64) : c.wayFor a = d.wayFor a := by
  rw [wayFor, wayFor, h.setOf_eq, h.store_eq, h.replacement_eq]

theorem writeback?_eq (line : Line) : c.writeback? line = d.writeback? line := by
  rw [writeback?, writeback?, lineBytes, lineBytes, h.geometry_eq]

section

variable {r r' : Request} (htag : c.tagOf r.address = c.tagOf r'.address)
include htag

theorem find_request_eq : c.find r.address = d.find r'.address :=
  (find_eq_of_tagOf_eq htag).trans (h.find_eq r'.address)

theorem wayFor_request_eq : c.wayFor r.address = d.wayFor r'.address :=
  (wayFor_eq_of_setOf_eq (setOf_eq_of_tagOf_eq htag)).trans (h.wayFor_eq r'.address)

theorem lineFor_request_eq : c.lineFor r.address = d.lineFor r'.address := by
  rw [lineFor, lineFor, h.wayFor_request_eq htag, setOf_eq_of_tagOf_eq htag, h.setOf_eq, h.store_eq]

/-- Requests for one line have the same outcome. -/
theorem outcome_eq : (c.access r).outcome = (d.access r').outcome := by
  have hfind := h.find_request_eq htag
  cases hc : c.find r.address with
  | some way => rw [access_of_hit hc, access_of_hit (hfind ▸ hc)]
  | none =>
    rw [access_of_miss hc, access_of_miss (hfind ▸ hc), h.wayFor_request_eq htag,
      h.lineFor_request_eq htag]

/-- They cause the same, the reports apart. -/
theorem filter_effects_eq (hvalid : c.geometry.Valid) :
    (c.access r).effects.filter (fun effect => !effect.isReport) =
      (d.access r').effects.filter fun effect => !effect.isReport := by
  have hfind := h.find_request_eq htag
  cases hc : c.find r.address with
  | some way => rw [access_of_hit hc, access_of_hit (hfind ▸ hc)]
  | none =>
    have hbase : c.geometry.addresses.lineBase r.address =
        c.geometry.addresses.lineBase r'.address := hvalid.lineBase_inj.mpr htag
    rw [access_of_miss hc, access_of_miss (hfind ▸ hc), filter_missEffects, filter_missEffects,
      h.lineFor_request_eq htag, h.writeback?_eq, h.name_eq, fillRequest, fillRequest, hbase,
      lineBytes, lineBytes, h.geometry_eq]

theorem forwards_eq (hvalid : c.geometry.Valid) :
    (c.access r).forwards = (d.access r').forwards := by
  rw [forwards_eq_filterMap, forwards_eq_filterMap, h.filter_effects_eq htag hvalid]

variable (hwrite : r.isWrite = r'.isWrite)
include hwrite

/-- Requests that do the same to one line keep the relation. -/
theorem access : (c.access r).cache.SameState (d.access r').cache where
  name_eq := by rw [name_access, name_access, h.name_eq]
  geometry_eq := by rw [geometry_access, geometry_access, h.geometry_eq]
  store_eq := by
    have hfind := h.find_request_eq htag
    have hset := setOf_eq_of_tagOf_eq htag
    cases hc : c.find r.address with
    | some way =>
      rw [store_access_of_hit hc, store_access_of_hit (hfind ▸ hc), hwrite, hset, h.setOf_eq,
        h.store_eq]
    | none =>
      rw [store_access_of_miss hc, store_access_of_miss (hfind ▸ hc), hwrite, hset, htag,
        h.wayFor_request_eq htag, h.setOf_eq, h.tagOf_eq, h.store_eq]
  replacement_eq := by
    rw [replacement_access, replacement_access, h.find_request_eq htag, h.wayFor_request_eq htag,
      setOf_eq_of_tagOf_eq htag, h.setOf_eq, h.store_eq, h.replacement_eq]

/-- They are counted alike, their bytes apart. -/
theorem sameCounts_access (hcounts : c.SameCounts d) :
    (c.access r).cache.SameCounts (d.access r').cache := by
  have hcontains : c.contains r.address = d.contains r'.address := by
    rw [contains, contains, h.find_request_eq htag]
  have hback : c.writesBack r = d.writesBack r' := by
    rw [writesBack, writesBack, hcontains, h.lineFor_request_eq htag, h.writeback?_eq]
  intro q hread hwritten
  have hcharge : charge q c r = charge q d r' := by
    cases q <;> first | contradiction | simp only [charge, hcontains, hwrite, hback]
  rw [← UInt64.toNat_inj, toNat_get_access, toNat_get_access, hcounts q hread hwritten, hcharge]

end

theorem reporting (logsMisses logsMisses' : Bool) :
    (c.reporting logsMisses).SameState (d.reporting logsMisses') :=
  ⟨h.name_eq, h.geometry_eq, h.store_eq, h.replacement_eq⟩

end SameState

/-- Runs that do the same to the same lines keep the relation. -/
theorem SameState.after {c d : Cache} (h : c.SameState d) (hcounts : c.SameCounts d)
    {rs rs' : List Request}
    (hacts : List.Forall₂ (fun r r' =>
      c.tagOf r.address = c.tagOf r'.address ∧ r.isWrite = r'.isWrite) rs rs') :
    (c.after rs).SameState (d.after rs') ∧ (c.after rs).SameCounts (d.after rs') := by
  induction rs generalizing c d rs' with
  | nil =>
    cases hacts
    exact ⟨h, hcounts⟩
  | cons r rs ih =>
    cases hacts with
    | cons hact hacts =>
      obtain ⟨htag, hwrite⟩ := hact
      exact ih (h.access htag hwrite) (h.sameCounts_access htag hwrite hcounts)
        (by simpa only [tagOf_access] using hacts)

end Cache

end CacheModel
