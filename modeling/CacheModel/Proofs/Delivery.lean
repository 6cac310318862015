import Mathlib
import CacheModel.Tracer
import CacheModel.Proofs.Visible

/-!
# Deliveries step by step

Serving a request at a level means to serve it in the cache of the level and then to carry out
what this causes, one effect after the other.  Carrying out effects and doing what a client asks
have the same form: things are done in order, each changes the network and adds to the account.
The statements here open a delivery into these steps, so that a law of single steps becomes a law
of whole runs.
-/

namespace CacheModel

namespace Network

/-! ## Things done in order -/

/-- Does things in order.  The account of all of them is returned too. -/
def inOrder {α : Type} (step : Network → α → Network × List Occurrence) :
    Network → List α → Network × List Occurrence
  | net, [] => (net, [])
  | net, x :: xs =>
    ((inOrder step (step net x).1 xs).1, (step net x).2 ++ (inOrder step (step net x).1 xs).2)

section

variable {α : Type} {step : Network → α → Network × List Occurrence}

@[simp] theorem inOrder_nil (net : Network) : inOrder step net [] = (net, []) := rfl

@[simp] theorem fst_inOrder_cons (net : Network) (x : α) (xs : List α) :
    (inOrder step net (x :: xs)).1 = (inOrder step (step net x).1 xs).1 := rfl

@[simp] theorem snd_inOrder_cons (net : Network) (x : α) (xs : List α) :
    (inOrder step net (x :: xs)).2 =
      (step net x).2 ++ (inOrder step (step net x).1 xs).2 := rfl

/-- What comes first in a list is done first. -/
theorem inOrder_append (net : Network) (xs ys : List α) :
    inOrder step net (xs ++ ys) =
      ((inOrder step (inOrder step net xs).1 ys).1,
        (inOrder step net xs).2 ++ (inOrder step (inOrder step net xs).1 ys).2) := by
  induction xs generalizing net with
  | nil => simp
  | cons x xs ih => simp [inOrder, ih]

/-- A run that gathers its account as it goes does things in order. -/
theorem foldl_eq_inOrder (net : Network) (log : List Occurrence) (xs : List α) :
    xs.foldl (fun (done : Network × List Occurrence) x =>
        ((step done.1 x).1, done.2 ++ (step done.1 x).2)) (net, log) =
      ((inOrder step net xs).1, log ++ (inOrder step net xs).2) := by
  induction xs generalizing net log with
  | nil => simp
  | cons x xs ih => simp [inOrder, ih]

/-- A property of networks that every step keeps is kept by all that is done in order. -/
theorem inOrder_invariant {I : Network → Prop} (hkeep : ∀ {net}, I net → ∀ x, I (step net x).1)
    {net : Network} (h : I net) (xs : List α) : I (inOrder step net xs).1 := by
  induction xs generalizing net with
  | nil => exact h
  | cons x xs ih => exact ih (hkeep h x)

/-- What holds of every step, of no step, and of one account after another holds of all that is
done in order, as far as the networks keep to an invariant. -/
theorem inOrder_rel {I : Network → Prop} {P : Network → List Occurrence → Network → Prop}
    (refl : ∀ net, P net [] net)
    (trans : ∀ {net log net' log' net''}, P net log net' → P net' log' net'' →
      P net (log ++ log') net'')
    (hkeep : ∀ {net}, I net → ∀ x, I (step net x).1)
    (hstep : ∀ {net}, I net → ∀ x, P net (step net x).2 (step net x).1)
    {net : Network} (h : I net) (xs : List α) :
    P net (inOrder step net xs).2 (inOrder step net xs).1 := by
  induction xs generalizing net with
  | nil => exact refl net
  | cons x xs ih => exact trans (hstep h x) (ih (hkeep h x))

/-- Steps that say the same about related networks, and keep them related, do so in any order. -/
theorem inOrder_related {R : Network → Network → Prop}
    (step step' : Network → α → Network × List Occurrence)
    (hstep : ∀ {net net'}, R net net' → ∀ x,
      (step net x).2 = (step' net' x).2 ∧ R (step net x).1 (step' net' x).1)
    {net net' : Network} (h : R net net') (xs : List α) :
    (inOrder step net xs).2 = (inOrder step' net' xs).2 ∧
      R (inOrder step net xs).1 (inOrder step' net' xs).1 := by
  induction xs generalizing net net' with
  | nil => exact ⟨rfl, h⟩
  | cons x xs ih =>
    obtain ⟨hlog, hnext⟩ := hstep h x
    obtain ⟨hlog', hlast⟩ := ih hnext
    exact ⟨by rw [snd_inOrder_cons, snd_inOrder_cons, hlog, hlog'], hlast⟩

end

/-- The requests of a client are served in order. -/
theorem performAll_eq_inOrder (net : Network) (dispatches : List Dispatch) :
    net.performAll dispatches = inOrder perform net dispatches :=
  @foldl_eq_inOrder _ perform net [] dispatches

theorem performAll_cons (net : Network) (d : Dispatch) (ds : List Dispatch) :
    net.performAll (d :: ds) =
      (((net.perform d).1.performAll ds).1,
        (net.perform d).2 ++ ((net.perform d).1.performAll ds).2) := by
  simp only [performAll_eq_inOrder, inOrder]

theorem performAll_append (net : Network) (ds es : List Dispatch) :
    net.performAll (ds ++ es) =
      (((net.performAll ds).1.performAll es).1,
        (net.performAll ds).2 ++ ((net.performAll ds).1.performAll es).2) := by
  simp only [performAll_eq_inOrder, inOrder_append]

/-! ## One delivery -/

/-- Carries out one effect of a request that was served at level `i`. -/
def carryOut (depth i : ℕ) (next : Option Link) (net : Network) :
    Effect → Network × List Occurrence
  | .notice event => (net, [.notice event])
  | .forward request =>
    match next with
    | none => (net, [])
    | some .recorder => (net, [.forwarded i .recorder request])
    | some (.level j) =>
      ((deliver depth net j request).1,
        .forwarded i (.level j) request :: (deliver depth net j request).2)

theorem deliver_of_none {net : Network} {i : ℕ} (h : net.levels[i]? = none) (depth : ℕ)
    (r : Request) : deliver depth net i r = (net, []) := by
  cases depth with
  | zero => rfl
  | succ depth => rw [deliver, h]

/-- A delivery: the cache of the level serves the request, and then its effects are carried out in
order. -/
theorem deliver_succ {net : Network} {i : ℕ} {level : Level} (h : net.levels[i]? = some level)
    (depth : ℕ) (r : Request) :
    deliver (depth + 1) net i r =
      ((inOrder (carryOut depth i level.next)
          (net.modifyCache i fun _ => (level.cache.access r).cache)
          (level.cache.access r).effects).1,
        .served i r (level.cache.access r).outcome ::
          (inOrder (carryOut depth i level.next)
            (net.modifyCache i fun _ => (level.cache.access r).cache)
            (level.cache.access r).effects).2) := by
  have hfold := @foldl_eq_inOrder _ (carryOut depth i level.next)
    (net.modifyCache i fun _ => (level.cache.access r).cache)
    [.served i r (level.cache.access r).outcome] (level.cache.access r).effects
  rw [deliver, h]
  refine Eq.trans (congrArg (fun step => (level.cache.access r).effects.foldl step _) ?_) hfold
  funext done effect
  obtain ⟨net, log⟩ := done
  cases effect with
  | notice event => rfl
  | forward request =>
    cases hnext : level.next with
    | none => simp [carryOut]
    | some link => cases link <;> rfl

/-! ## Levels -/

theorem cache?_of_level {net : Network} {i : ℕ} {level : Level}
    (h : net.levels[i]? = some level) : net.cache? i = some level.cache := by
  rw [cache?, h, Option.map_some]

theorem lt_size_of_cache? {net : Network} {i : ℕ} {c : Cache} (h : net.cache? i = some c) :
    i < net.size := by
  obtain ⟨level, hlevel, -⟩ := Option.map_eq_some_iff.mp h
  exact (Array.getElem?_eq_some_iff.mp hlevel).1

theorem levels_modifyCache (net : Network) (i k : ℕ) (f : Cache → Cache) :
    (net.modifyCache i f).levels[k]? =
      (net.levels[k]?).map fun level =>
        if k = i then { level with cache := f level.cache } else level := by
  rw [modifyCache, Array.getElem?_modify]
  by_cases hk : k = i
  · simp [hk]
  · simp [hk, Ne.symm hk]

theorem levels_connect (net : Network) (i k : ℕ) (link : Option Link) :
    (net.connect i link).levels[k]? =
      (net.levels[k]?).map fun level =>
        if k = i then { level with next := link } else level := by
  rw [connect, Array.getElem?_modify]
  by_cases hk : k = i
  · simp [hk]
  · simp [hk, Ne.symm hk]

theorem cache?_modifyCache (net : Network) (i k : ℕ) (f : Cache → Cache) :
    (net.modifyCache i f).cache? k = (net.cache? k).map fun c => if k = i then f c else c := by
  rw [cache?, cache?, levels_modifyCache, Option.map_map, Option.map_map]
  refine congrArg (Option.map · _) (funext fun level => ?_)
  by_cases hk : k = i <;> simp [hk]

theorem cache?_connect (net : Network) (i k : ℕ) (link : Option Link) :
    (net.connect i link).cache? k = net.cache? k := by
  rw [cache?, cache?, levels_connect, Option.map_map]
  refine congrArg (Option.map · _) (funext fun level => ?_)
  by_cases hk : k = i <;> simp [hk]

/-- The level that is changed keeps its link. -/
theorem getElem?_modifyCache_self {net : Network} {i : ℕ} {c : Cache} {next : Option Link}
    (h : net.levels[i]? = some ⟨c, next⟩) (d : Cache) :
    (net.modifyCache i fun _ => d).levels[i]? = some ⟨d, next⟩ := by
  rw [levels_modifyCache, h]
  simp

theorem getElem?_modifyCache_of_ne {i k : ℕ} (hne : k ≠ i) (net : Network) (f : Cache → Cache) :
    (net.modifyCache i f).levels[k]? = net.levels[k]? := by
  rw [levels_modifyCache]
  simp [hne]

theorem modifyCache_self {net : Network} {i : ℕ} {c : Cache} {next : Option Link}
    (h : net.levels[i]? = some ⟨c, next⟩) : (net.modifyCache i fun _ => c) = net := by
  rw [Network.mk.injEq]
  apply Array.ext_getElem?
  intro k
  by_cases hk : k = i
  · rw [hk, getElem?_modifyCache_self h, h]
  · exact getElem?_modifyCache_of_ne hk net _

/-- Of two changes of one cache the second one counts. -/
theorem modifyCache_modifyCache (net : Network) (i : ℕ) (c d : Cache) :
    ((net.modifyCache i fun _ => c).modifyCache i fun _ => d) = net.modifyCache i fun _ => d := by
  rw [Network.mk.injEq]
  apply Array.ext_getElem?
  intro k
  rw [levels_modifyCache, levels_modifyCache, levels_modifyCache, Option.map_map]
  refine congrArg (Option.map · _) (funext fun level => ?_)
  by_cases hk : k = i <;> simp [hk]

@[simp] theorem size_modifyCache (net : Network) (i : ℕ) (f : Cache → Cache) :
    (net.modifyCache i f).size = net.size := by
  simp [modifyCache, size]

@[simp] theorem size_connect (net : Network) (i : ℕ) (link : Option Link) :
    (net.connect i link).size = net.size := by
  simp [connect, size]

end Network

end CacheModel
