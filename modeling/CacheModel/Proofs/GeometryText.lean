import Mathlib
import CacheModel.Proofs.Address
import CacheModel.Proofs.Numeral
import CacheModel.Proofs.Pieces
import CacheModel.Proofs.Stages
import CacheModel.Proofs.Store

/-!
# Geometry texts

A geometry text has three or four fields between colons.  The first three are numbers, and a fourth
one names the policy.  The rules below say which texts stand for which geometry; what is wrong with
any other text is the first thing that applies of its fields and numbers, its policy and the shape
it stands for.

A text stands for a geometry, has numbers but names no policy, or does not even have its numbers.
The reader does one thing in each of the three cases, and both equivalences follow from that.
-/

namespace CacheModel.Geometry

/-! ## What a text stands for -/

/-- The ways to write a number in a field: with a plus sign or without, and with blanks around. -/
def SpellsNumber (field : List Char) (n : ℕ) : Prop :=
  ∃ core, Text.Trimmed core field ∧ Text.Unsigned 10 core n ∧ n < 2 ^ 64

/-- The names of the policies in lower case. -/
def policyNames : List (String × Policy) :=
  [("r", .random), ("random", .random), ("l", .lru), ("lru", .lru), ("f", .fifo), ("fifo", .fifo)]

/-- The ways to write a policy in a field: by a name in any mixture of cases, with blanks around. -/
def SpellsPolicy (field : List Char) (policy : Policy) : Prop :=
  ∃ core name, Text.Trimmed core field ∧ core.map Char.toLower = name.toList ∧
    (name, policy) ∈ policyNames

/-- The text consists of three numbers between colons, and perhaps a last field. -/
def SpellsNumbers (text : String) (sets ways lineBytes : ℕ) (last : Option (List Char)) : Prop :=
  ∃ first second third, Text.Joined ':' (first :: second :: third :: last.toList) text.toList ∧
    SpellsNumber first sets ∧ SpellsNumber second ways ∧ SpellsNumber third lineBytes

/-- The policy that the last field chooses, if there is one. -/
inductive SpellsChoice : Option (List Char) → Policy → Prop
  | omitted : SpellsChoice none .random
  | given {field : List Char} {policy : Policy} (h : SpellsPolicy field policy) :
    SpellsChoice (some field) policy

/-- The text stands for the geometry, whether or not a cache can have this shape. -/
def Spells (text : String) (g : Geometry) : Prop :=
  ∃ last, SpellsNumbers text g.sets g.ways g.lineBytes last ∧ SpellsChoice last g.policy

/-! ## What can be wrong -/

/-- What is wrong with a shape: the first of its conditions that does not hold. -/
inductive ShapeFault (g : Geometry) : GeometryError → Prop
  | invalidSets (h : ¬ g.sets.isPowerOfTwo) : ShapeFault g (.invalidSets g.sets)
  | invalidWays (hsets : g.sets.isPowerOfTwo) (h : g.ways = 0) : ShapeFault g (.invalidWays g.ways)
  | invalidLineSize (hsets : g.sets.isPowerOfTwo) (hways : 1 ≤ g.ways)
      (h : g.lineBytes < 8 ∨ ¬ g.lineBytes.isPowerOfTwo) :
    ShapeFault g (.invalidLineSize g.lineBytes)
  | tooLarge (hsets : g.sets.isPowerOfTwo) (hways : 1 ≤ g.ways) (hline : 8 ≤ g.lineBytes)
      (hpower : g.lineBytes.isPowerOfTwo) (h : 2 ^ 64 ≤ g.sets * g.ways * g.lineBytes) :
    ShapeFault g (.tooLarge g.sets g.ways g.lineBytes)

/-- What is wrong with a text: first its fields and numbers, then its policy, then its shape. -/
inductive TextFault (text : String) : GeometryError → Prop
  | malformed (h : ∀ sets ways lineBytes last, ¬ SpellsNumbers text sets ways lineBytes last) :
    TextFault text (.malformed text)
  | unknownPolicy {sets ways lineBytes : ℕ} {field : List Char}
      (hnumbers : SpellsNumbers text sets ways lineBytes (some field))
      (h : ∀ policy, ¬ SpellsPolicy field policy) :
    TextFault text (.unknownPolicy (String.ofList field))
  | shape {g : Geometry} {e : GeometryError} (hspells : Spells text g) (h : ShapeFault g e) :
    TextFault text e

/-! ## Shapes -/

theorem isPowerOfTwo_eq_true_iff {n : ℕ} : isPowerOfTwo n = true ↔ n.isPowerOfTwo :=
  isPowerOfTwo_iff

theorem valid_iff {g : Geometry} : g.Valid ↔
    g.sets.isPowerOfTwo ∧ 1 ≤ g.ways ∧ 8 ≤ g.lineBytes ∧ g.lineBytes.isPowerOfTwo ∧
      g.sets * g.ways * g.lineBytes < 2 ^ 64 := by
  rw [Valid, fault?_eq_none_iff, isPowerOfTwo_eq_true_iff, isPowerOfTwo_eq_true_iff,
    ← Nat.one_le_iff_ne_zero]
  rfl

theorem fault?_of_shapeFault {g : Geometry} {e : GeometryError} (h : ShapeFault g e) :
    g.fault? = some e := by
  simp only [fault?, Bool.not_eq_true', Bool.or_eq_true, decide_eq_true_eq, ← Bool.not_eq_true,
    isPowerOfTwo_eq_true_iff]
  cases h with
  | invalidSets h => rw [if_pos h]
  | invalidWays hsets h => rw [if_neg (not_not.mpr hsets), if_pos h]
  | invalidLineSize hsets hways h =>
    have hline : g.lineBytes < minLineBytes ∨ ¬ g.lineBytes.isPowerOfTwo := h
    rw [if_neg (not_not.mpr hsets), if_neg (Nat.one_le_iff_ne_zero.mp hways), if_pos hline]
  | tooLarge hsets hways hline hpower h =>
    have hfine : ¬ (g.lineBytes < minLineBytes ∨ ¬ g.lineBytes.isPowerOfTwo) :=
      not_or.mpr ⟨not_lt.mpr hline, not_not.mpr hpower⟩
    have hlarge : Text.wordLimit ≤ g.capacity := h
    rw [if_neg (not_not.mpr hsets), if_neg (Nat.one_le_iff_ne_zero.mp hways), if_neg hfine,
      if_pos hlarge]

theorem shapeFault_or_valid (g : Geometry) : (∃ e, ShapeFault g e) ∨ g.Valid := by
  rw [valid_iff]
  by_cases hsets : g.sets.isPowerOfTwo
  · by_cases hways : g.ways = 0
    · exact .inl ⟨_, .invalidWays hsets hways⟩
    · rw [← ne_eq, ← Nat.one_le_iff_ne_zero] at hways
      by_cases hline : g.lineBytes < 8 ∨ ¬ g.lineBytes.isPowerOfTwo
      · exact .inl ⟨_, .invalidLineSize hsets hways hline⟩
      · rw [not_or, not_lt, not_not] at hline
        by_cases hlarge : 2 ^ 64 ≤ g.sets * g.ways * g.lineBytes
        · exact .inl ⟨_, .tooLarge hsets hways hline.1 hline.2 hlarge⟩
        · exact .inr ⟨hsets, hways, hline.1, hline.2, not_le.mp hlarge⟩
  · exact .inl ⟨_, .invalidSets hsets⟩

theorem check_outcomes (g : Geometry) :
    (∀ g', g.check = .ok g' ↔ g' = g ∧ g.Valid) ∧ ∀ e, g.check = .error e ↔ ShapeFault g e := by
  apply outcomes_iff
  · rintro _ ⟨rfl, hvalid⟩
    exact check_of_valid hvalid
  · intro e h
    rw [check, fault?_of_shapeFault h]
  · exact (shapeFault_or_valid g).symm.imp_left fun hvalid => ⟨g, rfl, hvalid⟩

/-! ## Fields -/

theorem number?_eq_some_iff {field : List Char} {n : ℕ} :
    number? field = some n ↔ SpellsNumber field n := by
  have hbase : 10 ≤ 16 := by decide
  simp only [number?, Text.word64?_eq_some_iff hbase, SpellsNumber, ← Text.trim_eq_iff,
    exists_eq_left']

/-- Two words that agree in upper case agree in lower case. -/
theorem map_toUpper_eq_iff {xs ys : List Char} :
    xs.map Char.toUpper = ys.map Char.toUpper ↔ xs.map Char.toLower = ys.map Char.toLower := by
  have hlower : Char.toLower ∘ Char.toUpper = Char.toLower :=
    funext Char.toLower_toUpper_eq_toLower
  have hupper : Char.toUpper ∘ Char.toLower = Char.toUpper :=
    funext Char.toUpper_toLower_eq_toUpper
  constructor
  · intro h
    simpa only [List.map_map, hlower] using congrArg (List.map Char.toLower) h
  · intro h
    simpa only [List.map_map, hupper] using congrArg (List.map Char.toUpper) h

theorem ofText?_eq_some_iff {field : List Char} {policy : Policy} :
    Policy.ofText? field = some policy ↔ SpellsPolicy field policy := by
  have hupper : Policy.spellings =
      policyNames.map fun name => (name.1.toList.map Char.toUpper, name.2) := by
    decide
  have hlower : ∀ name ∈ policyNames, name.1.toList.map Char.toLower = name.1.toList := by
    decide
  rw [Policy.ofText?, ← mem_iff_lookup (by decide), hupper, List.mem_map]
  constructor
  · rintro ⟨⟨name, policy⟩, hname, heq⟩
    obtain ⟨hword, rfl⟩ := Prod.mk.inj heq
    exact ⟨_, name, Text.trim_eq_iff.mp rfl,
      (map_toUpper_eq_iff.mp hword.symm).trans (hlower _ hname), hname⟩
  · rintro ⟨core, name, hcore, hword, hname⟩
    refine ⟨(name, policy), hname, Prod.ext ?_ rfl⟩
    rw [Text.trim_eq_iff.mpr hcore]
    exact map_toUpper_eq_iff.mpr ((hlower _ hname).trans hword.symm)

/-! ## Texts -/

section

variable {text : String} {sets ways lineBytes : ℕ} {field : List Char} {last : Option (List Char)}
  {g : Geometry}

theorem ofFields_of_spells {first second third : List Char} (hsets : SpellsNumber first sets)
    (hways : SpellsNumber second ways) (hline : SpellsNumber third lineBytes)
    (policy : Except GeometryError Policy) :
    ofFields text first second third policy =
      policy >>= fun policy => check { sets, ways, lineBytes, policy } := by
  simp only [ofFields, number?_eq_some_iff.mpr hsets, number?_eq_some_iff.mpr hways,
    number?_eq_some_iff.mpr hline]

/-- A text with its numbers is read on from its last field. -/
theorem parse_of_spellsNumbers (h : SpellsNumbers text sets ways lineBytes last) :
    parse text = last.elim (.ok .random) policyField >>= fun policy =>
      check { sets, ways, lineBytes, policy } := by
  obtain ⟨first, second, third, hjoined, hsets, hways, hline⟩ := h
  rw [parse, Text.splitBy_eq_iff.mpr hjoined]
  cases last <;> exact ofFields_of_spells hsets hways hline _

theorem parse_of_spells (h : Spells text g) : parse text = g.check := by
  obtain ⟨sets, ways, lineBytes, policy⟩ := g
  obtain ⟨last, hnumbers, hchoice⟩ := h
  rw [parse_of_spellsNumbers hnumbers]
  cases hchoice with
  | omitted => rfl
  | given h => rw [Option.elim_some, policyField, ofText?_eq_some_iff.mpr h]; rfl

theorem parse_of_unknownPolicy (hnumbers : SpellsNumbers text sets ways lineBytes (some field))
    (h : ∀ policy, ¬ SpellsPolicy field policy) :
    parse text = .error (.unknownPolicy (String.ofList field)) := by
  have hnone : Policy.ofText? field = none :=
    (eq_none_iff_of_eq_some_iff fun _ => ofText?_eq_some_iff).mpr h
  rw [parse_of_spellsNumbers hnumbers, Option.elim_some, policyField, hnone]
  rfl

theorem parse_of_malformed
    (h : ∀ sets ways lineBytes last, ¬ SpellsNumbers text sets ways lineBytes last) :
    parse text = .error (.malformed text) := by
  have hfields : ∀ first second third last policy,
      Text.splitBy (· == ':') text.toList = first :: second :: third :: Option.toList last →
        ofFields text first second third policy = .error (.malformed text) := by
    intro first second third last policy hpieces
    unfold ofFields
    split
    · next sets ways lineBytes hsets hways hline =>
      exact absurd ⟨first, second, third, Text.splitBy_eq_iff.mp hpieces,
        number?_eq_some_iff.mp hsets, number?_eq_some_iff.mp hways, number?_eq_some_iff.mp hline⟩
        (h sets ways lineBytes last)
    · rfl
  unfold parse
  split
  · next first second third hpieces => exact hfields _ _ _ none _ hpieces
  · next first second third field hpieces => exact hfields _ _ _ (some field) _ hpieces
  · rfl

/-- A text stands for a geometry, or something is wrong before its shape is looked at. -/
theorem spells_or_textFault (text : String) : (∃ g, Spells text g) ∨ ∃ e, TextFault text e := by
  by_cases hnumbers : ∃ sets ways lineBytes last, SpellsNumbers text sets ways lineBytes last
  · obtain ⟨sets, ways, lineBytes, last, hnumbers⟩ := hnumbers
    by_cases hchoice : ∃ policy, SpellsChoice last policy
    · obtain ⟨policy, hchoice⟩ := hchoice
      exact .inl ⟨⟨sets, ways, lineBytes, policy⟩, last, hnumbers, hchoice⟩
    · cases last with
      | none => exact absurd ⟨_, .omitted⟩ hchoice
      | some field =>
        exact .inr ⟨_, .unknownPolicy hnumbers fun policy h => hchoice ⟨policy, .given h⟩⟩
  · exact .inr ⟨_, .malformed fun sets ways lineBytes last h =>
      hnumbers ⟨sets, ways, lineBytes, last, h⟩⟩

theorem parse_of_textFault {e : GeometryError} (h : TextFault text e) : parse text = .error e := by
  cases h with
  | malformed h => exact parse_of_malformed h
  | unknownPolicy hnumbers h => exact parse_of_unknownPolicy hnumbers h
  | shape hspells h => rw [parse_of_spells hspells, ((check_outcomes _).2 _).mpr h]

theorem parse_outcomes (text : String) :
    (∀ g, parse text = .ok g ↔ Spells text g ∧ g.Valid) ∧
      ∀ e, parse text = .error e ↔ TextFault text e := by
  apply outcomes_iff
  · rintro g ⟨hspells, hvalid⟩
    rw [parse_of_spells hspells, check_of_valid hvalid]
  · exact fun e h => parse_of_textFault h
  · rcases spells_or_textFault text with ⟨g, hspells⟩ | hfault
    · rcases shapeFault_or_valid g with ⟨e, hfault⟩ | hvalid
      · exact .inr ⟨e, .shape hspells hfault⟩
      · exact .inl ⟨g, hspells, hvalid⟩
    · exact .inr hfault

end

/-- A geometry text that is accepted names a possible shape. -/
theorem valid_of_parse {text : String} {g : Geometry} (h : parse text = .ok g) : g.Valid :=
  (((parse_outcomes text).1 g).mp h).2

/-- A geometry text is accepted exactly if it stands for a possible shape, which is then what is
read; every other text is refused for the first thing that is wrong with it. -/
theorem texts_accepted_exactly (text : String) :
    (∀ g, parse text = .ok g ↔ Spells text g ∧ g.sets.isPowerOfTwo ∧ 1 ≤ g.ways ∧
      8 ≤ g.lineBytes ∧ g.lineBytes.isPowerOfTwo ∧ g.sets * g.ways * g.lineBytes < 2 ^ 64) ∧
    ∀ e, parse text = .error e ↔ TextFault text e := by
  refine ⟨fun g => ?_, (parse_outcomes text).2⟩
  rw [(parse_outcomes text).1, valid_iff]

/-- The policy is looked at before the shape, and quoted as it stands. -/
example : parse "3: +0 :7: X" = .error (.unknownPolicy " X") := by
  rfl

end CacheModel.Geometry
