import Mathlib
import CacheModel.Proofs.GeometryText

/-!
# Normal form of geometry texts

Many texts stand for one geometry: numbers may have a sign, zeros in front and blanks around them,
a policy has several names, and the random policy may be left out.  One of these texts is written
when a geometry is shown, with plain numbers and the letter of the policy.  Whatever is accepted has
this text as its normal form: it is read as the same geometry, two texts have the same normal form
exactly if they are read as the same geometry, and no two possible geometries are shown alike.
-/

namespace CacheModel.Geometry

/-- The text that is shown for what a text is read as. -/
def normalForm (text : String) : Except GeometryError String := (parse text).map render

/-! ## Fields as they are shown -/

/-- A text that neither begins nor ends with a blank is left as it is. -/
theorem trimmed_self {cs : List Char} (h : ∀ c ∈ cs, Text.isBlank c = false) :
    Text.Trimmed cs cs where
  eq := ⟨[], [], by simp, nofun, nofun⟩
  head c hc := h c (List.mem_of_mem_head? hc)
  getLast c hc := h c (List.mem_of_getLast? hc)

/-- A number is written in the one way that has no sign, no zero in front and no blank. -/
theorem spellsNumber_decimal {n : ℕ} (h : n < 2 ^ 64) : SpellsNumber (Nat.toDigits 10 n) n := by
  refine ⟨_, trimmed_self fun c hc => ?_, .plain (Text.digits_decimal n), h⟩
  obtain ⟨d, hd⟩ := Text.isHexDigit_of_mem_decimal hc
  exact Text.isBlank_of_hexDigit? hd

theorem spellsPolicy_code (policy : Policy) : SpellsPolicy [policy.code] policy :=
  ofText?_eq_some_iff.mp policy.ofText?_code

/-- The fields of the text that is shown. -/
theorem joined_render (g : Geometry) :
    Text.Joined ':' [Nat.toDigits 10 g.sets, Nat.toDigits 10 g.ways, Nat.toDigits 10 g.lineBytes,
      [g.policy.code]] g.render.toList where
  eq := by
    have hcolon : (toString ":").toList = [':'] := rfl
    have hcode : (toString g.policy.code).toList = [g.policy.code] :=
      String.toList_singleton g.policy.code
    simp [render, List.intercalate, List.intersperse, hcolon, hcode]
  ne_nil := List.cons_ne_nil _ _
  unmarked := by
    have hnumber : ∀ n, ':' ∉ Nat.toDigits 10 n := fun n hmem => by
      obtain ⟨d, hd⟩ := Text.isHexDigit_of_mem_decimal hmem
      cases hd
    have hcode : ':' ∉ [g.policy.code] := by
      cases g.policy <;> decide
    simp only [List.forall_mem_cons, hnumber, hcode, not_false_eq_true, true_and]
    nofun

/-! ## Texts as they are shown -/

theorem spells_render {g : Geometry} (h : g.Valid) : Spells g.render g :=
  ⟨some [g.policy.code], ⟨_, _, _, joined_render g, spellsNumber_decimal h.sets_lt,
    spellsNumber_decimal h.ways_lt, spellsNumber_decimal h.lineBytes_lt⟩,
    .given (spellsPolicy_code g.policy)⟩

/-- What is shown for a possible geometry is read as that geometry. -/
theorem parse_render {g : Geometry} (h : g.Valid) : parse g.render = .ok g :=
  ((parse_outcomes g.render).1 g).mpr ⟨spells_render h, h⟩

theorem render_injOn : Set.InjOn render {g | g.Valid} := by
  intro g hg g' hg' heq
  have hread : parse g.render = .ok g' := heq ▸ parse_render hg'
  exact Except.ok.inj ((parse_render hg).symm.trans hread)

theorem normalForm_eq_ok_iff {text normal : String} :
    normalForm text = .ok normal ↔ ∃ g, parse text = .ok g ∧ g.render = normal :=
  map_eq_ok_iff

/-- The text that is shown for a geometry is a normal form.  Every geometry that a cache can have is
read from the text that is shown for it, so that no two of them are shown alike.  What is shown for
an accepted text is accepted and read as the same geometry, it is its own normal form, and it is the
normal form of exactly the texts that are read as this geometry. -/
theorem shown_text_is_normal_form :
    (∀ g, g.check = .ok g → parse g.render = .ok g) ∧
    Set.InjOn render {g | g.check = .ok g} ∧
    ∀ text g, parse text = .ok g →
      parse g.render = .ok g ∧ normalForm g.render = .ok g.render ∧
        ∀ text', normalForm text' = .ok g.render ↔ parse text' = .ok g := by
  have hvalid : ∀ {g : Geometry}, g.check = .ok g → g.Valid := fun h => (valid_of_check h).2
  refine ⟨fun g h => parse_render (hvalid h), render_injOn.mono fun g h => hvalid h, ?_⟩
  intro text g hparse
  have hpossible := valid_of_parse hparse
  have hshown := parse_render hpossible
  refine ⟨hshown, normalForm_eq_ok_iff.mpr ⟨g, hshown, rfl⟩, fun text' => ?_⟩
  rw [normalForm_eq_ok_iff]
  constructor
  · rintro ⟨g', hparse', heq⟩
    rwa [render_injOn (valid_of_parse hparse') hpossible heq] at hparse'
  · exact fun hparse' => ⟨g, hparse', rfl⟩

/-- Signs, zeros, blanks and long names are gone from the text that is shown. -/
theorem shown_text_is_normal_form_padded :
    let g : Geometry := ⟨8, 4, 64, .lru⟩
    g.check = .ok g ∧ parse "+08: 4\t:064:Lru " = .ok g ∧ g.render = "8:4:64:L" ∧
      parse "8:4:64:L" = .ok g ∧ normalForm "+08: 4\t:064:Lru " = .ok "8:4:64:L" := by
  intro g
  have hcheck : g.check = .ok g := by decide
  have hread : parse "+08: 4\t:064:Lru " = .ok g := rfl
  have hshown : g.render = "8:4:64:L" := by cbv
  obtain ⟨hpossible, -, htexts⟩ := shown_text_is_normal_form
  obtain ⟨-, -, hnormal⟩ := htexts _ g hread
  rw [← hshown]
  exact ⟨hcheck, hread, rfl, hpossible g hcheck, (hnormal _).mpr hread⟩

end CacheModel.Geometry
