import CacheModel.Proofs.Json.Values
import CacheModel.Proofs.Meaning

/-!
# Which descriptions are accepted

A text describes a hierarchy exactly if it writes a value that gives, under known and different
keys, what the hierarchy has.  The reader goes through the text once and reports the first problem
that it meets; that there is none is the same as that all rules are kept, and does not depend on the
order in which the members of objects are written.
-/

namespace CacheModel.Description

theorem finish_eq_ok_iff {α : Type} {document : Json.Document} {a b : α} :
    finish document a = .ok b ↔ document.trailing = none ∧ a = b := by
  rw [finish]
  split
  · next htrailing => simp [htrailing]
  · next htrailing => rw [Except.ok.injEq, and_iff_right htrailing]

theorem ofText_eq_ok_iff {text : String} {d : Description} :
    ofText text = .ok d ↔
      ∃ node values, Json.Writes text node ∧ Gives node values ∧ Describes values d := by
  simp only [ofText, bind_eq_ok_iff, finish_eq_ok_iff, readNode_eq_ok_iff, Json.writes_iff]
  constructor
  · rintro ⟨d', ⟨hfault, values, hgives, h⟩, htrailing, rfl⟩
    exact ⟨_, values, ⟨rfl, hfault, htrailing⟩, hgives, h⟩
  · rintro ⟨_, values, ⟨rfl, hfault, htrailing⟩, hgives, h⟩
    exact ⟨d, ⟨hfault, values, hgives, h⟩, htrailing, rfl⟩

theorem possible_of_ofText {text : String} {d : Description} (h : ofText text = .ok d) :
    d.Possible := by
  obtain ⟨_, _, -, -, h⟩ := ofText_eq_ok_iff.mp h
  exact h.possible

/-- A text writes one value at most, and a value gives one list of values at most. -/
theorem values_unique {text : String} {node node' : Json.Node}
    {values values' : List (String × Json.Node)} (hnode : Json.Writes text node)
    (hgives : Gives node values) (hnode' : Json.Writes text node') (hgives' : Gives node' values') :
    values = values' := by
  obtain rfl : node = node' := (Json.writes_iff.mp hnode).1.symm.trans (Json.writes_iff.mp hnode').1
  cases hgives <;> cases hgives' <;> rfl

theorem Shuffled.symm {node node' : Json.Node} (h : Shuffled node node') : Shuffled node' node := by
  cases h with
  | same => exact .same _
  | object hperm => exact .object hperm.symm

theorem Rearranged.symm {values values' : List (String × Json.Node)}
    (h : Rearranged values values') : Rearranged values' values := by
  obtain ⟨middle, hperm, hsame⟩ := h
  obtain ⟨middle', hsame', hperm'⟩ := List.perm_comp_forall₂ hperm hsame
  exact ⟨middle', hperm'.symm, hsame'.flip.imp fun _ _ h => ⟨h.1.symm, h.2.symm⟩⟩

/-- A text is accepted as a description exactly if it writes an object or an array whose values
describe the hierarchy; another text that gives the same values in another order is accepted with
the same meaning. -/
theorem descriptions_accepted_exactly (text : String) (d : Description) :
    (ofText text = .ok d ↔
      ∃ node values, Json.Writes text node ∧ Gives node values ∧ Describes values d) ∧
    ∀ text' node node' values values', Json.Writes text node → Gives node values →
      Json.Writes text' node' → Gives node' values' → Rearranged values values' →
      (ofText text = .ok d ↔ ofText text' = .ok d) := by
  refine ⟨ofText_eq_ok_iff, ?_⟩
  intro text' node node' values values' hnode hgives hnode' hgives' hrearranged
  simp only [ofText_eq_ok_iff]
  constructor
  · rintro ⟨_, _, hnode₁, hgives₁, h⟩
    obtain rfl := values_unique hnode hgives hnode₁ hgives₁
    exact ⟨node', values', hnode', hgives', h.rearranged hrearranged⟩
  · rintro ⟨_, _, hnode₁, hgives₁, h⟩
    obtain rfl := values_unique hnode' hgives' hnode₁ hgives₁
    exact ⟨node, values, hnode, hgives, h.rearranged hrearranged.symm⟩

/-- A level that is spelled out in two orders. -/
theorem descriptions_accepted_exactly_reordered :
    ofText "\x7b\"log_misses\":true,\"l2\":\x7b\"ways\":2,\"line_bytes\":16,\"sets\":4\x7d\x7d" =
      .ok ⟨none, none, some ⟨4, 2, 16, .random⟩, true⟩ := by
  let sets := Json.Node.number (.natural 4)
  let ways := Json.Node.number (.natural 2)
  let lineBytes := Json.Node.number (.natural 16)
  let level := Json.Members.member "sets" sets
    (.member "ways" ways (.member "line_bytes" lineBytes .closed))
  let level' := Json.Members.member "ways" ways
    (.member "line_bytes" lineBytes (.member "sets" sets .closed))
  have hwrites : Json.Writes
      "\x7b\"l2\":\x7b\"sets\":4,\"ways\":2,\"line_bytes\":16\x7d, \"log_misses\":true\x7d"
      (.object (.member "l2" (.object level) (.member "log_misses" (.boolean true) .closed))) :=
    Json.writes_iff.mpr ⟨by cbv, rfl, by cbv⟩
  have hwrites' : Json.Writes
      "\x7b\"log_misses\":true,\"l2\":\x7b\"ways\":2,\"line_bytes\":16,\"sets\":4\x7d\x7d"
      (.object (.member "log_misses" (.boolean true) (.member "l2" (.object level') .closed))) :=
    Json.writes_iff.mpr ⟨by cbv, rfl, by cbv⟩
  have hmembers : ([("sets", sets)] ++ [("ways", ways), ("line_bytes", lineBytes)]).Perm
      ([("ways", ways), ("line_bytes", lineBytes)] ++ [("sets", sets)]) := List.perm_append_comm
  have hlevel : Shuffled (.object level) (.object level') := .object hmembers
  have hrearranged : Rearranged
      [("l2", .object level), ("log_misses", .boolean true)]
      [("log_misses", .boolean true), ("l2", .object level')] :=
    ⟨_, .swap _ _ _, .cons ⟨rfl, .same _⟩ (.cons ⟨rfl, hlevel⟩ .nil)⟩
  refine ((descriptions_accepted_exactly _ _).2 _ _ _ _ _ hwrites (.object _) hwrites' (.object _)
    hrearranged).mp ?_
  cbv

end CacheModel.Description
