import Mathlib
import CacheModel.Proofs.Delivery

/-!
# The account of one level

The account of a network mixes what happens at all of its levels.  What happens at one level can
be cut out of it again: as long as no path leads from the level back to itself, a delivery that is
under way there never comes back, and the entries of the level are the account that its cache
alone gives of the requests that reach it, one after another.

The same condition is what the depth of a delivery rests on.  The levels from which such a level
can be reached lie at different distances, so that there are always enough steps left when a
request is sent to it, and every request is answered at once.
-/

namespace CacheModel

namespace Network

/-! ## Wiring -/

/-- What lies below each level. -/
def wiring (net : Network) : Array (Option Link) :=
  net.levels.map Level.next

/-- The first level sends its misses to the second one. -/
def Leads (w : Array (Option Link)) (i j : ℕ) : Prop :=
  w[i]? = some (some (.level j))

/-- No level sends its misses to the level at `k`. -/
def OnTop (net : Network) (k : ℕ) : Prop :=
  ∀ j, net.next? j ≠ some (.level k)

/-- The level `k` lies this many links below. -/
inductive Above (w : Array (Option Link)) (k : ℕ) : ℕ → ℕ → Prop
  | here : Above w k 0 k
  | step {i j m : ℕ} (hleads : Leads w i j) (h : Above w k m j) : Above w k (m + 1) i

theorem getElem?_wiring (net : Network) (i : ℕ) :
    net.wiring[i]? = (net.levels[i]?).map Level.next := by
  rw [wiring, Array.getElem?_map]

theorem leads_wiring_iff {net : Network} {i j : ℕ} :
    Leads net.wiring i j ↔ net.next? i = some (.level j) := by
  rw [Leads, getElem?_wiring, next?]
  cases net.levels[i]? <;> simp

theorem OnTop.not_transGen {net : Network} {k : ℕ} (h : net.OnTop k) :
    ¬ Relation.TransGen (Leads net.wiring) k k := by
  intro hcycle
  obtain ⟨j, -, hleads⟩ := Relation.TransGen.tail'_iff.mp hcycle
  exact h j (leads_wiring_iff.mp hleads)

@[simp] theorem size_wiring (net : Network) : net.wiring.size = net.size := by
  simp [wiring, size]

@[simp] theorem wiring_modifyCache (net : Network) (i : ℕ) (f : Cache → Cache) :
    (net.modifyCache i f).wiring = net.wiring := by
  apply Array.ext_getElem?
  intro k
  rw [getElem?_wiring, getElem?_wiring, levels_modifyCache, Option.map_map]
  refine congrArg (Option.map · _) (funext fun level => ?_)
  simp only [Function.comp_apply]
  split <;> rfl

section

variable {w : Array (Option Link)} {i j k m n : ℕ}

theorem Leads.unique (h : Leads w i j) (h' : Leads w i k) : j = k := by
  rw [Leads, h] at h'
  simpa using h'

theorem Leads.lt_size (h : Leads w i j) : i < w.size :=
  (Array.getElem?_eq_some_iff.mp h).1

theorem Above.reflTransGen (h : Above w k m i) : Relation.ReflTransGen (Leads w) i k := by
  induction h with
  | here => exact .refl
  | step hleads _ ih => exact .head hleads ih

theorem Above.exists_of_le (h : Above w k m i) (hn : n ≤ m) : ∃ j, Above w k n j := by
  induction h with
  | here =>
    obtain rfl : n = 0 := by omega
    exact ⟨k, .here⟩
  | @step i j m hleads h ih =>
    rcases Nat.le_succ_iff.mp hn with hle | rfl
    · exact ih hle
    · exact ⟨i, .step hleads h⟩

theorem Above.lt_size (h : Above w k m i) (hk : k < w.size) : i < w.size := by
  cases h with
  | here => exact hk
  | step hleads _ => exact hleads.lt_size

section

variable (hloop : ¬ Relation.TransGen (Leads w) k k)
include hloop

/-- No level lies at two distances above one that does not lead back to itself. -/
theorem Above.unique (h : Above w k m i) (h' : Above w k n i) : m = n := by
  induction h generalizing n with
  | here =>
    cases h' with
    | here => rfl
    | step hleads h' => exact absurd (.head' hleads h'.reflTransGen) hloop
  | step hleads h ih =>
    cases h' with
    | here => exact absurd (.head' hleads h.reflTransGen) hloop
    | step hleads' h' =>
      obtain rfl := hleads.unique hleads'
      rw [ih h']

/-- The distances stay below the number of levels. -/
theorem Above.distance_lt_size (h : Above w k m i) (hk : k < w.size) : m < w.size := by
  have hexists : ∀ n : ℕ, ∃ j, n ≤ m → Above w k n j := by
    intro n
    by_cases hn : n ≤ m
    · exact (h.exists_of_le hn).imp fun _ h _ => h
    · exact ⟨0, fun hn' => absurd hn' hn⟩
  choose level hlevel using hexists
  have hmaps : Set.MapsTo level (Finset.range (m + 1)) (Finset.range w.size) := by
    intro n hn
    have hn : n ≤ m := Nat.lt_succ_iff.mp (Finset.mem_range.mp hn)
    exact Finset.mem_coe.mpr (Finset.mem_range.mpr ((hlevel n hn).lt_size hk))
  have hinj : Set.InjOn level (Finset.range (m + 1)) := by
    intro n hn n' hn' heq
    have hn : n ≤ m := Nat.lt_succ_iff.mp (Finset.mem_range.mp hn)
    have hn' : n' ≤ m := Nat.lt_succ_iff.mp (Finset.mem_range.mp hn')
    exact (hlevel n hn).unique hloop (heq ▸ hlevel n' hn')
  have hcard := Finset.card_le_card_of_injOn level hmaps hinj
  simpa using hcard

end

end

/-! ## A delivery leaves the wiring alone -/

theorem wiring_carryOut {depth : ℕ}
    (hdeliver : ∀ (net : Network) (j : ℕ) (q : Request),
      (deliver depth net j q).1.wiring = net.wiring)
    (net : Network) (i : ℕ) (next : Option Link) (effect : Effect) :
    (carryOut depth i next net effect).1.wiring = net.wiring := by
  match effect, next with
  | .notice _, _ => rfl
  | .forward _, none => rfl
  | .forward _, some .recorder => rfl
  | .forward q, some (.level j) => exact hdeliver net j q

@[simp] theorem wiring_deliver (depth : ℕ) (net : Network) (i : ℕ) (r : Request) :
    (deliver depth net i r).1.wiring = net.wiring := by
  induction depth generalizing net i r with
  | zero => rfl
  | succ depth ih =>
    cases hlevel : net.levels[i]? with
    | none => rw [deliver_of_none hlevel]
    | some level =>
      rw [deliver_succ hlevel]
      refine inOrder_invariant (I := fun after => after.wiring = net.wiring) ?_
        (wiring_modifyCache net i _) _
      exact fun hafter effect => (wiring_carryOut ih _ i level.next effect).trans hafter

theorem wiring_perform (net : Network) (dispatch : Dispatch) :
    (net.perform dispatch).1.wiring = net.wiring := by
  cases dispatch with
  | serve level request => exact wiring_deliver _ net level request
  | note access => rfl

@[simp] theorem wiring_performAll (net : Network) (dispatches : List Dispatch) :
    (net.performAll dispatches).1.wiring = net.wiring := by
  rw [performAll_eq_inOrder]
  exact inOrder_invariant (I := fun after => after.wiring = net.wiring)
    (fun hafter dispatch => (wiring_perform _ dispatch).trans hafter) rfl dispatches

/-! ## What holds of all that happens -/

section

variable {w : Array (Option Link)} {P : Network → List Occurrence → Network → Prop}
  (refl : ∀ net, P net [] net)
  (trans : ∀ {net log net' log' net''}, P net log net' → P net' log' net'' →
    P net (log ++ log') net'')
include refl trans

/-- What holds of every single thing that happens, of nothing, and of one account after another
holds of a delivery.  The levels may be restricted to some that no link leads out of. -/
theorem deliver_rel {Q : ℕ → Prop} (hclosed : ∀ {i j}, Q i → Leads w i j → Q j)
    (hserve : ∀ {net : Network} {i : ℕ} {level : Level}, Q i → net.levels[i]? = some level →
      ∀ r, P net [.served i r (level.cache.access r).outcome]
        (net.modifyCache i fun _ => (level.cache.access r).cache))
    (hnotice : ∀ net event, P net [.notice event] net)
    (hsend : ∀ {i link}, Q i → w[i]? = some (some link) → ∀ net q,
      P net [.forwarded i link q] net)
    (depth : ℕ) {net : Network} (hw : net.wiring = w) {i : ℕ} (hi : Q i) (r : Request) :
    P net (deliver depth net i r).2 (deliver depth net i r).1 := by
  induction depth generalizing net i r with
  | zero => exact refl net
  | succ depth ih =>
    cases hlevel : net.levels[i]? with
    | none =>
      rw [deliver_of_none hlevel]
      exact refl net
    | some level =>
      have hlink : w[i]? = some level.next := by rw [← hw, getElem?_wiring, hlevel]; rfl
      rw [deliver_succ hlevel, ← List.singleton_append]
      refine trans (hserve hi hlevel r) ?_
      refine inOrder_rel (I := fun net => net.wiring = w) refl trans
        (fun hw x => (wiring_carryOut (wiring_deliver depth) _ i _ x).trans hw) ?_
        ((wiring_modifyCache net i _).trans hw) _
      intro net' hw' effect
      match effect, hnext : level.next with
      | .notice event, _ => exact hnotice net' event
      | .forward _, none => exact refl net'
      | .forward q, some .recorder => exact hsend hi (hlink.trans (hnext ▸ rfl)) net' q
      | .forward q, some (.level j) =>
        have hleads : Leads w i j := hlink.trans (hnext ▸ rfl)
        exact trans (hsend hi hleads net' q) (ih hw' (hclosed hi hleads) q)

/-- What holds of every access, of nothing, and of one account after another holds of a run. -/
theorem performAll_rel
    (hserve : ∀ {net : Network}, net.wiring = w → ∀ i r,
      P net (net.access i r).2 (net.access i r).1)
    {net : Network} (hw : net.wiring = w) (dispatches : List Dispatch) :
    P net (net.performAll dispatches).2 (net.performAll dispatches).1 := by
  rw [performAll_eq_inOrder]
  refine inOrder_rel (I := fun after => after.wiring = w) refl trans
    (fun hw dispatch => (wiring_perform _ dispatch).trans hw) ?_ hw dispatches
  intro net' hw' dispatch
  cases dispatch with
  | serve i r => exact hserve hw' i r
  | note access => exact refl net'

end

end Network

/-! ## Entries of a level -/

namespace Occurrence

/-- The entry tells of something that the level at `k` did. -/
def isAt (k : ℕ) : Occurrence → Bool
  | served level _ _ => level == k
  | notice _ => false
  | forwarded level _ _ => level == k

@[simp] theorem isAt_served (k i : ℕ) (r : Request) (outcome : Outcome) :
    (served i r outcome).isAt k = (i == k) := rfl

@[simp] theorem isAt_notice (k : ℕ) (event : Event) : (notice event).isAt k = false := rfl

@[simp] theorem isAt_forwarded (k i : ℕ) (link : Link) (q : Request) :
    (forwarded i link q).isAt k = (i == k) := rfl

end Occurrence

namespace Level

/-- The level after a run of requests. -/
def after (level : Level) (rs : List Request) : Level :=
  { level with cache := level.cache.after rs }

/-- The entries for the requests that the level at `k` sends down, if anything lies below it. -/
def sent (k : ℕ) (next : Option Link) (qs : List Request) : List Occurrence :=
  match next with
  | none => []
  | some link => qs.map (.forwarded k link)

/-- The entries of one request that reaches the level at `k`. -/
def entries (k : ℕ) (level : Level) (r : Request) : List Occurrence :=
  .served k r (level.cache.access r).outcome ::
    sent k level.next (level.cache.access r).forwards

/-- The entries of all requests that reach the level at `k`, one after another. -/
def account (k : ℕ) (level : Level) : List Request → List Occurrence
  | [] => []
  | r :: rs => level.entries k r ++ account k (level.after [r]) rs

@[simp] theorem sent_nil (k : ℕ) (next : Option Link) : sent k next [] = [] := by
  cases next <;> rfl

theorem sent_append (k : ℕ) (next : Option Link) (qs qs' : List Request) :
    sent k next (qs ++ qs') = sent k next qs ++ sent k next qs' := by
  cases next with
  | none => rfl
  | some link => exact List.map_append

@[simp] theorem after_nil (level : Level) : level.after [] = level := rfl

@[simp] theorem geometry_after (level : Level) (rs : List Request) :
    (level.after rs).cache.geometry = level.cache.geometry :=
  Cache.geometry_after level.cache rs

theorem after_append (level : Level) (rs rs' : List Request) :
    level.after (rs ++ rs') = (level.after rs).after rs' := by
  rw [after, Cache.after_append]
  rfl

/-- What is sent are the requests that the cache sends down, and it goes down the link. -/
theorem forwarded_mem_entries_iff {k : ℕ} {level : Level} {r q : Request} {link : Link} :
    .forwarded k link q ∈ level.entries k r ↔
      level.next = some link ∧ q ∈ (level.cache.access r).forwards := by
  cases hnext : level.next with
  | none => simp [entries, sent, hnext]
  | some link' =>
    simp only [entries, sent, hnext, List.mem_cons, List.mem_map, reduceCtorEq, false_or,
      Occurrence.forwarded.injEq, Option.some.injEq]
    constructor
    · rintro ⟨q', hq, -, rfl, rfl⟩
      exact ⟨rfl, hq⟩
    · rintro ⟨rfl, hq⟩
      exact ⟨q, hq, trivial, rfl, rfl⟩

theorem account_append (k : ℕ) (level : Level) (rs rs' : List Request) :
    level.account k (rs ++ rs') = level.account k rs ++ (level.after rs).account k rs' := by
  induction rs generalizing level with
  | nil => rfl
  | cons r rs ih =>
    rw [List.cons_append, account, account, ih, List.append_assoc, ← after_append,
      List.singleton_append]

end Level

namespace Network

/-- Between the two networks nothing happens at the level `k`. -/
structure Silent (k : ℕ) (net : Network) (log : List Occurrence) (net' : Network) : Prop where
  level_eq : net'.levels[k]? = net.levels[k]?
  log_eq : log.filter (Occurrence.isAt k) = []

/-- Between the two networks what happens at the level `k` is what its cache does with a run of
requests. -/
def Tells (k : ℕ) (net : Network) (log : List Occurrence) (net' : Network) : Prop :=
  ∀ ⦃level⦄, net.levels[k]? = some level → ∃ rs,
    net'.levels[k]? = some (level.after rs) ∧
      log.filter (Occurrence.isAt k) = level.account k rs

section

variable {k : ℕ} {net net' net'' : Network} {log log' : List Occurrence}

theorem silent_refl (k : ℕ) (net : Network) : Silent k net [] net := ⟨rfl, rfl⟩

theorem Silent.trans (h : Silent k net log net') (h' : Silent k net' log' net'') :
    Silent k net (log ++ log') net'' where
  level_eq := h'.level_eq.trans h.level_eq
  log_eq := by rw [List.filter_append, h.log_eq, h'.log_eq, List.append_nil]

theorem Silent.tells (h : Silent k net log net') : Tells k net log net' := by
  intro level hlevel
  exact ⟨[], by rw [h.level_eq, hlevel, Level.after_nil], by rw [h.log_eq, Level.account]⟩

theorem Tells.trans (h : Tells k net log net') (h' : Tells k net' log' net'') :
    Tells k net (log ++ log') net'' := by
  intro level hlevel
  obtain ⟨rs, hafter, hlog⟩ := h hlevel
  obtain ⟨rs', hafter', hlog'⟩ := h' hafter
  refine ⟨rs ++ rs', ?_, ?_⟩
  · rw [hafter', Level.after_append]
  · rw [List.filter_append, hlog, hlog', Level.account_append]

end

section

variable {w : Array (Option Link)} {k : ℕ}

/-- The link of a level is part of the wiring. -/
theorem leads_of_next {net : Network} (hw : net.wiring = w) {i j : ℕ} {level : Level}
    (hlevel : net.levels[i]? = some level) (hnext : level.next = some (.level j)) :
    Leads w i j := by
  rw [← hw, leads_wiring_iff, next?, hlevel]
  exact hnext

theorem silent_modifyCache {i : ℕ} (hne : i ≠ k) (net : Network) (f : Cache → Cache) (r : Request)
    (outcome : Outcome) : Silent k net [.served i r outcome] (net.modifyCache i f) where
  level_eq := by
    rw [levels_modifyCache]
    simp [Ne.symm hne]
  log_eq := by simp [hne]

/-- A delivery to a level that does not lead to `k` stays away from `k`. -/
theorem silent_deliver (depth : ℕ) {net : Network} (hw : net.wiring = w) {i : ℕ}
    (haway : ¬ Relation.ReflTransGen (Leads w) i k) (r : Request) :
    Silent k net (deliver depth net i r).2 (deliver depth net i r).1 := by
  have hne : ∀ {i}, ¬ Relation.ReflTransGen (Leads w) i k → i ≠ k :=
    fun haway heq => haway (heq ▸ .refl)
  refine deliver_rel (Q := fun i => ¬ Relation.ReflTransGen (Leads w) i k) (silent_refl k)
    Silent.trans (fun haway hleads hj => haway (.head hleads hj)) ?_ ?_ ?_ depth hw haway r
  · exact fun haway _ r => silent_modifyCache (hne haway) _ _ r _
  · exact fun _ _ => ⟨rfl, rfl⟩
  · exact fun haway _ _ _ => ⟨rfl, by simp [hne haway]⟩

/-- What the level at `k` sends down does not come back to it. -/
theorem inOrder_carryOut_self {net : Network} (hw : net.wiring = w) {next : Option Link}
    (haway : ∀ j, next = some (.level j) → ¬ Relation.ReflTransGen (Leads w) j k) (depth : ℕ)
    (effects : List Effect) :
    (inOrder (carryOut depth k next) net effects).1.levels[k]? = net.levels[k]? ∧
      (inOrder (carryOut depth k next) net effects).2.filter (Occurrence.isAt k) =
        Level.sent k next (effects.filterMap Effect.forward?) := by
  induction effects generalizing net with
  | nil => simp
  | cons effect effects ih =>
    have hfirst : (carryOut depth k next net effect).1.levels[k]? = net.levels[k]? ∧
        (carryOut depth k next net effect).2.filter (Occurrence.isAt k) =
          Level.sent k next ([effect].filterMap Effect.forward?) := by
      match effect, next with
      | .notice _, next => exact ⟨rfl, (Level.sent_nil k next).symm⟩
      | .forward _, none => exact ⟨rfl, rfl⟩
      | .forward _, some .recorder => exact ⟨rfl, by simp [carryOut, Level.sent]⟩
      | .forward q, some (.level j) =>
        have hbelow := silent_deliver depth hw (haway j rfl) q
        exact ⟨hbelow.level_eq, by simp [carryOut, hbelow.log_eq, Level.sent]⟩
    have hrest := ih ((wiring_carryOut (wiring_deliver depth) net k next effect).trans hw)
    rw [fst_inOrder_cons, snd_inOrder_cons, List.filter_append, hrest.1, hrest.2, hfirst.1,
      hfirst.2, ← Level.sent_append, ← List.filterMap_append]
    exact ⟨rfl, rfl⟩

section

variable (hloop : ¬ Relation.TransGen (Leads w) k k)
include hloop

/-- What a level sends down never comes back to it, if the level does not lead back to itself. -/
theorem away_of_next {net : Network} (hw : net.wiring = w) {level : Level}
    (hlevel : net.levels[k]? = some level) (j : ℕ) (hnext : level.next = some (.level j)) :
    ¬ Relation.ReflTransGen (Leads w) j k :=
  fun hj => hloop (.head' (leads_of_next hw hlevel hnext) hj)

/-- A request that is delivered to such a level is served there once, and all that it sends down is
sent for this request. -/
theorem deliver_self {net : Network} (hw : net.wiring = w) {level : Level}
    (hlevel : net.levels[k]? = some level) (depth : ℕ) (r : Request) :
    (deliver (depth + 1) net k r).1.levels[k]? = some (level.after [r]) ∧
      (deliver (depth + 1) net k r).2.filter (Occurrence.isAt k) = level.entries k r := by
  have hwired : (net.modifyCache k fun _ => (level.cache.access r).cache).wiring = w :=
    (wiring_modifyCache net k _).trans hw
  obtain ⟨hafter, hlog⟩ := inOrder_carryOut_self hwired (away_of_next hloop hw hlevel) depth
    (level.cache.access r).effects
  rw [deliver_succ hlevel]
  refine ⟨?_, ?_⟩
  · rw [hafter, levels_modifyCache, hlevel]
    simp [Level.after]
  · rw [List.filter_cons_of_pos (by simp), hlog]
    rfl

/-- In a delivery a level that does not lead back to itself does what its cache does. -/
theorem tells_deliver (depth : ℕ) {net : Network} (hw : net.wiring = w) (i : ℕ) (r : Request) :
    Tells k net (deliver depth net i r).2 (deliver depth net i r).1 := by
  induction depth generalizing net i r with
  | zero => exact (silent_refl k net).tells
  | succ depth ih =>
    cases hlevel : net.levels[i]? with
    | none =>
      rw [deliver_of_none hlevel]
      exact (silent_refl k net).tells
    | some level =>
      by_cases hk : i = k
      · subst hk
        intro level' hlevel'
        obtain ⟨hafter, hlog⟩ := deliver_self hloop hw hlevel' depth r
        exact ⟨[r], hafter, by rw [hlog, Level.account, Level.account, List.append_nil]⟩
      · rw [deliver_succ hlevel]
        have hserved := silent_modifyCache hk net (fun _ => (level.cache.access r).cache) r
          (level.cache.access r).outcome
        have hwired : (net.modifyCache i fun _ => (level.cache.access r).cache).wiring = w :=
          (wiring_modifyCache net i _).trans hw
        rw [← List.singleton_append]
        refine hserved.tells.trans ?_
        refine inOrder_rel (I := fun net => net.wiring = w) (P := Tells k)
          (fun net => (silent_refl k net).tells) Tells.trans
          (fun hw x => (wiring_carryOut (wiring_deliver depth) _ i _ x).trans hw) ?_ hwired _
        intro net' hw' effect
        match effect, level.next with
        | .notice _, _ => exact Silent.tells ⟨rfl, rfl⟩
        | .forward _, none => exact Silent.tells ⟨rfl, rfl⟩
        | .forward _, some .recorder => exact Silent.tells ⟨rfl, by simp [carryOut, hk]⟩
        | .forward q, some (.level j) =>
          have hsent : Silent k net' [.forwarded i (.level j) q] net' := ⟨rfl, by simp [hk]⟩
          exact hsent.tells.trans (ih hw' j q)

end

/-- In a whole run, too, a level that does not lead back to itself does what its cache does. -/
theorem tells_performAll {net : Network} (hloop : ¬ Relation.TransGen (Leads net.wiring) k k)
    (dispatches : List Dispatch) :
    Tells k net (net.performAll dispatches).2 (net.performAll dispatches).1 :=
  performAll_rel (fun net => (silent_refl k net).tells) Tells.trans
    (fun hw i r => tells_deliver hloop _ hw i r) rfl dispatches

end

/-! ## Requests between levels are answered -/

/-- Every request that is sent to the level at `j` is served there next. -/
def Answered (j : ℕ) : List Occurrence → Prop
  | [] => True
  | entry :: log =>
    (∀ i q, entry = .forwarded i (.level j) q → ∃ outcome, log.head? = some (.served j q outcome)) ∧
      Answered j log

theorem answered_append {j : ℕ} {log log' : List Occurrence} (h : Answered j log)
    (h' : Answered j log') : Answered j (log ++ log') := by
  induction log with
  | nil => exact h'
  | cons entry log ih =>
    refine ⟨?_, ih h.2⟩
    intro i q hentry
    obtain ⟨outcome, hhead⟩ := h.1 i q hentry
    exact ⟨outcome, by simp [List.head?_append, hhead]⟩

/-- The answer to a request that was sent comes next. -/
theorem Answered.exists_served {j i : ℕ} {q : Request} {before log : List Occurrence}
    (h : Answered j (before ++ .forwarded i (.level j) q :: log)) :
    ∃ outcome log', log = .served j q outcome :: log' := by
  induction before with
  | nil =>
    obtain ⟨outcome, hhead⟩ := h.1 i q rfl
    exact ⟨outcome, List.head?_eq_some_iff.mp hhead⟩
  | cons entry before ih => exact ih h.2

theorem answered_of_ne {j : ℕ} {entry : Occurrence}
    (hne : ∀ i q, entry ≠ .forwarded i (.level j) q) : Answered j [entry] :=
  ⟨fun i q heq => absurd heq (hne i q), trivial⟩

section

variable {w : Array (Option Link)} {j : ℕ}

/-- A delivery whose depth exceeds every distance from its level to `j` answers what is sent to
`j`. -/
theorem answered_deliver (hj : j < w.size) {depth : ℕ} {net : Network} (hw : net.wiring = w)
    {i : ℕ} (hdepth : ∀ {m}, Above w j m i → m < depth) (r : Request) :
    Answered j (deliver depth net i r).2 := by
  induction depth generalizing net i r with
  | zero => trivial
  | succ depth ih =>
    cases hlevel : net.levels[i]? with
    | none =>
      rw [deliver_of_none hlevel]
      trivial
    | some level =>
      rw [deliver_succ hlevel, ← List.singleton_append]
      refine answered_append (answered_of_ne nofun) ?_
      refine inOrder_rel (I := fun net => net.wiring = w) (P := fun _ log _ => Answered j log)
        (fun _ => trivial) answered_append
        (fun hw x => (wiring_carryOut (wiring_deliver depth) _ i _ x).trans hw) ?_
        ((wiring_modifyCache net i _).trans hw) _
      intro net' hw' effect
      match effect, hnext : level.next with
      | .notice _, _ => exact answered_of_ne nofun
      | .forward _, none => trivial
      | .forward _, some .recorder => exact answered_of_ne nofun
      | .forward q, some (.level l) =>
        have hleads := leads_of_next hw hlevel hnext
        have hbelow : Answered j (deliver depth net' l q).2 :=
          ih hw' (fun habove => Nat.lt_of_succ_lt_succ (hdepth (.step hleads habove))) q
        refine ⟨?_, hbelow⟩
        intro i' q' hentry
        -- A request to `j` itself: the depth that is left suffices to serve it.
        obtain ⟨-, hl, rfl⟩ := Occurrence.forwarded.inj hentry
        obtain rfl : l = j := Link.level.inj hl
        have hleft : 1 < depth + 1 := hdepth (.step hleads .here)
        obtain ⟨left, rfl⟩ : ∃ left, depth = left + 1 := ⟨depth - 1, by omega⟩
        have hlt : l < net'.levels.size := by
          rw [← hw', size_wiring] at hj
          exact hj
        rw [deliver_succ (Array.getElem?_eq_getElem hlt)]
        exact ⟨_, rfl⟩

/-- In a run every request that is sent to a level is answered, unless the level leads back to
itself. -/
theorem answered_performAll {net : Network} (hj : j < net.size)
    (hloop : ¬ Relation.TransGen (Leads net.wiring) j j) (dispatches : List Dispatch) :
    Answered j (net.performAll dispatches).2 := by
  have hj' : j < net.wiring.size := by rwa [size_wiring]
  refine performAll_rel (P := fun _ log _ => Answered j log) (fun _ => trivial) answered_append
    (fun hw i r => answered_deliver hj' hw (fun habove => ?_) r) rfl dispatches
  rw [← size_wiring, hw]
  exact habove.distance_lt_size hloop hj'

end

end Network

end CacheModel
