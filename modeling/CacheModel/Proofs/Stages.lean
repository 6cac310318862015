import Mathlib

/-!
# Stages that may fail

A reader runs through stages each of which may fail.  It succeeds exactly if every stage does, and
these lemmas take such a success apart.
-/

namespace CacheModel

section

variable {ε ε' α β : Type} {x : Except ε α}

/-- A stage that succeeds hands its result on. -/
@[simp] theorem ok_bind (a : α) (f : α → Except ε β) : Except.ok a >>= f = f a := rfl

/-- Two stages succeed when the second one succeeds on what the first one returns. -/
theorem bind_eq_ok_iff {f : α → Except ε β} {b : β} :
    x >>= f = .ok b ↔ ∃ a, x = .ok a ∧ f a = .ok b := by
  cases x with
  | error e => exact ⟨nofun, nofun⟩
  | ok a => exact ⟨fun h => ⟨a, rfl, h⟩, fun ⟨_, heq, h⟩ => Except.ok.inj heq ▸ h⟩

theorem map_eq_ok_iff {f : α → β} {b : β} : x.map f = .ok b ↔ ∃ a, x = .ok a ∧ f a = b := by
  cases x <;> simp [Except.map]

theorem map_eq_error_iff {f : α → β} {e : ε} : x.map f = .error e ↔ x = .error e := by
  cases x <;> simp [Except.map]

theorem mapError_eq_ok_iff {f : ε → ε'} {a : α} : x.mapError f = .ok a ↔ x = .ok a := by
  cases x <;> simp [Except.mapError]

theorem mapError_eq_error_iff {f : ε → ε'} {e' : ε'} :
    x.mapError f = .error e' ↔ ∃ e, x = .error e ∧ f e = e' := by
  cases x <;> simp [Except.mapError]

/-- A stage does what its rules say if it follows each of them and one of them always applies. -/
theorem outcomes_iff {succeeds : α → Prop} {fails : ε → Prop} (hok : ∀ a, succeeds a → x = .ok a)
    (herror : ∀ e, fails e → x = .error e) (htotal : (∃ a, succeeds a) ∨ ∃ e, fails e) :
    (∀ a, x = .ok a ↔ succeeds a) ∧ ∀ e, x = .error e ↔ fails e := by
  refine ⟨fun a => ⟨fun h => ?_, hok a⟩, fun e => ⟨fun h => ?_, herror e⟩⟩
  · rcases htotal with ⟨a', ha'⟩ | ⟨e, he⟩
    · cases (hok a' ha').symm.trans h
      exact ha'
    · cases (herror e he).symm.trans h
  · rcases htotal with ⟨a, ha⟩ | ⟨e', he'⟩
    · cases (hok a ha).symm.trans h
    · cases (herror e' he').symm.trans h
      exact he'

end

theorem mapM_eq_ok {ε α β : Type} {f : α → Except ε β} {g : α → β} {xs : List α}
    (h : ∀ x ∈ xs, f x = .ok (g x)) : xs.mapM f = .ok (xs.map g) := by
  induction xs with
  | nil => rfl
  | cons x xs ih =>
    rw [List.forall_mem_cons] at h
    rw [List.mapM_cons, h.1, ok_bind, ih h.2, ok_bind]
    rfl

/-- What has no result at all, if it is known which results it has. -/
theorem eq_none_iff_of_eq_some_iff {α : Type} {x : Option α} {p : α → Prop}
    (h : ∀ a, x = some a ↔ p a) : x = none ↔ ∀ a, ¬ p a := by
  rw [Option.eq_none_iff_forall_ne_some]
  exact forall_congr' fun a => (h a).not

/-- A list is mapped by a stage that may fail element by element. -/
theorem mapM_eq_some_iff {α β : Type} {f : α → Option β} {xs : List α} {ys : List β} :
    xs.mapM f = some ys ↔ List.Forall₂ (fun x y => f x = some y) xs ys := by
  induction xs generalizing ys with
  | nil => simp [eq_comm]
  | cons x xs ih =>
    simp only [List.mapM_cons, Option.bind_eq_bind, Option.bind_eq_some_iff, Option.pure_def,
      Option.some.injEq, List.forall₂_cons_left_iff, ih]
    exact ⟨fun ⟨y, hy, ys', hys, heq⟩ => ⟨y, ys', hy, hys, heq.symm⟩,
      fun ⟨y, ys', hy, hys, heq⟩ => ⟨y, hy, ys', hys, heq.symm⟩⟩

end CacheModel
