import CacheModel.Proofs.Json.Grammar
import CacheModel.Proofs.Stages

/-!
# Reading numbers

A number goes on as long as it can, so that reading it back takes a text behind it that does not go
on with it.  Apart from that the reader of numbers agrees with the rules for writing them: what is
read is written there, and what is written is read.

The reader tells the parts of a number one after the other, and so do the lemmas: the exponent, the
fraction, the digits in front.
-/

namespace CacheModel.Json

/-- What stands behind a number and does not go on with it. -/
def Stops (rest : List Char) : Prop :=
  ∀ c ∈ rest.head?, c.isDigit = false ∧ c ≠ '.' ∧ c ≠ 'e' ∧ c ≠ 'E'

/-- A number that may be out of range, and the text behind it. -/
def Reading.ofNumber? (number? : Option Number) (rest : List Char) : Reading Number :=
  match number? with
  | some number => .ok (number, rest)
  | none => .error .misplaced

theorem Reading.ofNumber?_eq_ok_iff {number? : Option Number} {number : Number}
    {rest rest' : List Char} :
    ofNumber? number? rest = .ok (number, rest') ↔ number? = some number ∧ rest = rest' := by
  cases number? <;> simp [ofNumber?]

section

variable {cs digits rest : List Char} {r : Real} {number : Number}

theorem isDigit_of_mem_takeWhile : ∀ c ∈ cs.takeWhile Char.isDigit, c.isDigit = true :=
  fun _ => List.mem_takeWhile_imp

theorem takeWhile_digits (h : ∀ c ∈ digits, c.isDigit = true)
    (hrest : ∀ c ∈ rest.head?, c.isDigit = false) :
    (digits ++ rest).takeWhile Char.isDigit = digits ∧
      (digits ++ rest).dropWhile Char.isDigit = rest := by
  rw [List.takeWhile_append_of_pos h, List.dropWhile_append_of_pos h]
  cases rest with
  | nil => simp
  | cons c rest => simp [hrest c rfl]

theorem digitValues_eq_nil_iff : digitValues cs = [] ↔ cs = [] := List.map_eq_nil_iff

/-- The reader tells a number with a needless zero by the values of its digits. -/
theorem whole_iff (h : ∀ c ∈ cs, c.isDigit = true) :
    Whole cs ↔ digitValues cs ≠ [] ∧ ∀ n values, digitValues cs ≠ 0 :: n :: values := by
  have hzero : ∀ {c : Char}, c.isDigit = true → (c.toNat - '0'.toNat = 0 ↔ c = '0') := by
    intro c hc
    rw [Char.isDigit_iff_toNat] at hc
    rw [← Char.toNat_inj, Nat.sub_eq_zero_iff_le]
    exact ⟨fun hle => le_antisymm hle hc.1, Eq.le⟩
  rw [Whole, Digits, ne_eq, ne_eq, digitValues_eq_nil_iff, and_iff_left h, and_congr_right_iff]
  intro hne
  obtain ⟨c, cs, rfl⟩ := List.exists_cons_of_ne_nil hne
  rw [List.head?_cons, Option.some.injEq, List.cons.injEq]
  constructor
  · intro hwhole n values heq
    obtain ⟨hc, hcs⟩ := List.cons.inj heq
    obtain ⟨-, rfl⟩ := hwhole ((hzero (h c List.mem_cons_self)).mp hc)
    cases hcs
  · intro hvalues hc
    refine ⟨hc, ?_⟩
    cases cs with
    | nil => rfl
    | cons c' cs =>
      exact absurd (congrArg (· :: _) ((hzero (h c List.mem_cons_self)).mpr hc)) (hvalues _ _)

theorem finishReal_eq : finishReal r rest = .ofNumber? (r.scaled? none) rest := by
  rw [finishReal, Real.scaled?]
  cases r.value? <;> rfl

/-- Whether a sign is possible, and the text behind it does not begin with one. -/
def Signed (sign : Option Char) (cs : List Char) : Prop :=
  sign = some '-' ∨ sign = some '+' ∨ (sign = none ∧ ∀ c ∈ cs.head?, c ≠ '-' ∧ c ≠ '+')

theorem exists_signed (cs : List Char) :
    ∃ sign body, Signed sign body ∧ cs = sign.toList ++ body := by
  by_cases hminus : cs.head? = some '-'
  · exact ⟨some '-', cs.tail, .inl rfl, (List.cons_head?_tail hminus).symm⟩
  · by_cases hplus : cs.head? = some '+'
    · exact ⟨some '+', cs.tail, .inr (.inl rfl), (List.cons_head?_tail hplus).symm⟩
    · exact ⟨none, cs, .inr (.inr ⟨rfl, fun c hc =>
        ⟨fun heq => hminus (heq ▸ hc), fun heq => hplus (heq ▸ hc)⟩⟩), rfl⟩

/-- The exponent of a number, behind its sign. -/
def readSize (r : Real) (down : Bool) (cs : List Char) : Reading Number :=
  let digits := cs.takeWhile Char.isDigit
  let rest := cs.dropWhile Char.isDigit
  if digits.isEmpty then .error (noDigit rest)
  else
    let size := Text.ofDigits 10 (digitValues digits)
    if exponentLimit < size then
      if r.significand ≠ 0 ∧ !down then .error .misplaced
      else finishReal { r with significand := 0, exponent := 0 } rest
    else
      finishReal { r with exponent := if down then r.exponent - size else r.exponent + size } rest

theorem readExponent_eq_readSize {sign : Option Char} (h : Signed sign cs) :
    readExponent r (sign.toList ++ cs) = readSize r (decide (sign = some '-')) cs := by
  rcases h with rfl | rfl | ⟨rfl, hcs⟩
  · rfl
  · rfl
  · cases cs with
    | nil => rfl
    | cons c cs =>
      obtain ⟨hminus, hplus⟩ := hcs c rfl
      rw [Option.toList_none, List.nil_append, readExponent.eq_def]
      split
      next down body heq =>
      split at heq
      · next heq' => exact absurd (List.cons.inj heq').1 hminus
      · next heq' => exact absurd (List.cons.inj heq').1 hplus
      · obtain ⟨rfl, rfl⟩ := Prod.mk.inj heq
        rfl

theorem readSize_eq {sign : Option Char} (mark : Char) :
    readSize r (decide (sign = some '-')) cs =
      if (cs.takeWhile Char.isDigit).isEmpty then .error (noDigit (cs.dropWhile Char.isDigit))
      else .ofNumber? (r.scaled? (some ⟨mark, sign, cs.takeWhile Char.isDigit⟩))
        (cs.dropWhile Char.isDigit) := by
  simp only [readSize, Real.scaled?, Exponent.size, finishReal_eq, Bool.not_eq_true',
    decide_eq_false_iff_not, decide_eq_true_eq, ne_eq]
  split_ifs <;> rfl

/-- What is read behind the letter of an exponent is written there. -/
theorem exists_exponent_of_read {mark : Char} (hmark : mark = 'e' ∨ mark = 'E')
    (h : readExponent r cs = .ok (number, rest)) :
    ∃ e : Exponent, e.WellFormed ∧ r.scaled? (some e) = some number ∧
      mark :: cs = e.text ++ rest := by
  obtain ⟨sign, body, hsigned, rfl⟩ := exists_signed cs
  rw [readExponent_eq_readSize hsigned, readSize_eq mark] at h
  split_ifs at h with hdigits
  obtain ⟨hnumber, rfl⟩ := Reading.ofNumber?_eq_ok_iff.mp h
  have hsign : sign = none ∨ sign = some '+' ∨ sign = some '-' := by
    rcases hsigned with h | h | h
    · exact .inr (.inr h)
    · exact .inr (.inl h)
    · exact .inl h.1
  refine ⟨⟨mark, sign, body.takeWhile Char.isDigit⟩, ⟨hmark, hsign, ?_, ?_⟩, hnumber, ?_⟩
  · exact fun hnil => hdigits (List.isEmpty_iff.mpr hnil)
  · exact isDigit_of_mem_takeWhile
  · simp only [Exponent.text, List.cons_append, List.append_assoc, List.takeWhile_append_dropWhile]

theorem readExponent_of_wellFormed {e : Exponent} (he : e.WellFormed)
    (hnumber : r.scaled? (some e) = some number) (hrest : Stops rest) :
    readExponent r (e.sign.toList ++ e.digits ++ rest) = .ok (number, rest) := by
  obtain ⟨htake, hdrop⟩ := takeWhile_digits he.digits.2 fun c hc => (hrest c hc).1
  have hsigned : Signed e.sign (e.digits ++ rest) := by
    rcases he.sign with h | h | h
    · refine .inr (.inr ⟨h, fun c hc => ?_⟩)
      rw [List.head?_append_of_ne_nil _ he.digits.1] at hc
      have hdigit := he.digits.2 c (List.mem_of_mem_head? hc)
      exact ⟨fun heq => absurd (heq ▸ hdigit) (by decide),
        fun heq => absurd (heq ▸ hdigit) (by decide)⟩
    · exact .inr (.inl h)
    · exact .inl h
  rw [List.append_assoc, readExponent_eq_readSize hsigned, readSize_eq e.mark, htake, hdrop,
    if_neg (by simpa using he.digits.1)]
  exact Reading.ofNumber?_eq_ok_iff.mpr ⟨hnumber, rfl⟩

theorem Exponent.WellFormed.text_eq {e : Exponent} (he : e.WellFormed) :
    e.text = 'e' :: (e.sign.toList ++ e.digits) ∨ e.text = 'E' :: (e.sign.toList ++ e.digits) :=
  he.mark.imp (fun h => by rw [Exponent.text, h]; rfl) fun h => by rw [Exponent.text, h]; rfl

theorem exists_exponent_of_readScaled (h : readScaled r cs = .ok (number, rest)) :
    ∃ exponent : Option Exponent, (∀ e, exponent = some e → e.WellFormed) ∧
      r.scaled? exponent = some number ∧ cs = exponent.elim [] Exponent.text ++ rest := by
  have hsome : ∀ {mark body}, mark = 'e' ∨ mark = 'E' →
      readExponent r body = .ok (number, rest) →
      ∃ exponent : Option Exponent, (∀ e, exponent = some e → e.WellFormed) ∧
        r.scaled? exponent = some number ∧
        mark :: body = exponent.elim [] Exponent.text ++ rest := by
    intro mark body hmark hread
    obtain ⟨e, he, hnumber, htext⟩ := exists_exponent_of_read hmark hread
    exact ⟨some e, fun _ heq => Option.some.inj heq ▸ he, hnumber, htext⟩
  unfold readScaled at h
  split at h
  · exact hsome (.inl rfl) h
  · exact hsome (.inr rfl) h
  · rw [finishReal_eq] at h
    obtain ⟨hnumber, rfl⟩ := Reading.ofNumber?_eq_ok_iff.mp h
    exact ⟨none, nofun, hnumber, rfl⟩

theorem readScaled_of_wellFormed {exponent : Option Exponent}
    (hexponent : ∀ e, exponent = some e → e.WellFormed)
    (hnumber : r.scaled? exponent = some number) (hrest : Stops rest) :
    readScaled r (exponent.elim [] Exponent.text ++ rest) = .ok (number, rest) := by
  cases exponent with
  | none =>
    rw [Option.elim_none, List.nil_append, readScaled.eq_3, finishReal_eq]
    · exact Reading.ofNumber?_eq_ok_iff.mpr ⟨hnumber, rfl⟩
    · rintro cs rfl
      exact (hrest 'e' rfl).2.2.1 rfl
    · rintro cs rfl
      exact (hrest 'E' rfl).2.2.2 rfl
  | some e =>
    have he := hexponent e rfl
    have hread := readExponent_of_wellFormed he hnumber hrest
    rcases he.text_eq with htext | htext <;>
      rw [Option.elim_some, htext, List.cons_append, readScaled] <;> exact hread

/-- A text does not go on with digits if an exponent or nothing more of a number comes. -/
theorem not_isDigit_of_exponent {exponent : Option Exponent}
    (hexponent : ∀ e, exponent = some e → e.WellFormed) (hrest : Stops rest) :
    ∀ c ∈ (exponent.elim [] Exponent.text ++ rest).head?, c.isDigit = false := by
  cases exponent with
  | none => exact fun c hc => (hrest c hc).1
  | some e =>
    rcases (hexponent e rfl).text_eq with htext | htext <;>
      (rw [Option.elim_some, htext]; rintro c ⟨⟩; rfl)

theorem readFraction_eq :
    readFraction r cs =
      if (cs.takeWhile Char.isDigit).isEmpty then .error (noDigit (cs.dropWhile Char.isDigit))
      else readScaled (r.extended (cs.takeWhile Char.isDigit)) (cs.dropWhile Char.isDigit) := by
  simp only [readFraction, Real.extended, digitValues, List.isEmpty_map, List.length_map]

theorem exists_fraction_of_read (h : readFraction r cs = .ok (number, rest)) :
    ∃ digits, ∃ exponent : Option Exponent, Digits digits ∧
      (∀ e, exponent = some e → e.WellFormed) ∧
      (r.extended digits).scaled? exponent = some number ∧
      cs = digits ++ (exponent.elim [] Exponent.text ++ rest) := by
  rw [readFraction_eq] at h
  split_ifs at h with hdigits
  obtain ⟨exponent, hexponent, hnumber, hbehind⟩ := exists_exponent_of_readScaled h
  refine ⟨_, exponent, ⟨mt List.isEmpty_iff.mpr hdigits, isDigit_of_mem_takeWhile⟩, hexponent,
    hnumber, ?_⟩
  rw [← hbehind, List.takeWhile_append_dropWhile]

theorem readFraction_of_wellFormed {exponent : Option Exponent} (hdigits : Digits digits)
    (hexponent : ∀ e, exponent = some e → e.WellFormed)
    (hnumber : (r.extended digits).scaled? exponent = some number) (hrest : Stops rest) :
    readFraction r (digits ++ (exponent.elim [] Exponent.text ++ rest)) = .ok (number, rest) := by
  obtain ⟨htake, hdrop⟩ := takeWhile_digits hdigits.2 (not_isDigit_of_exponent hexponent hrest)
  rw [readFraction_eq, htake, hdrop, if_neg (by simpa using hdigits.1)]
  exact readScaled_of_wellFormed hexponent hnumber hrest

/-- A number behind its sign and the digits in front of its point. -/
def readPlaces (negative : Bool) (whole rest : List Char) : Reading Number :=
  let (significand, left) := takeFitting 0 (digitValues whole)
  let r : Real := { negative, significand, exponent := left.length }
  match rest with
  | '.' :: cs => readFraction r cs
  | 'e' :: cs => readExponent r cs
  | 'E' :: cs => readExponent r cs
  | rest => if left.isEmpty then .ok (.ofWhole negative significand, rest) else finishReal r rest

theorem readNumber_eq_readPlaces {negative : Bool} (h : Whole (cs.takeWhile Char.isDigit)) :
    readNumber negative cs =
      readPlaces negative (cs.takeWhile Char.isDigit) (cs.dropWhile Char.isDigit) := by
  obtain ⟨hne, hzero⟩ := (whole_iff isDigit_of_mem_takeWhile).mp h
  unfold readNumber
  dsimp only
  split
  · next heq => exact absurd heq hne
  · next heq => exact absurd heq (hzero _ _)
  · rfl

theorem whole_of_readNumber {negative : Bool} (h : readNumber negative cs = .ok (number, rest)) :
    Whole (cs.takeWhile Char.isDigit) := by
  rw [whole_iff isDigit_of_mem_takeWhile]
  unfold readNumber at h
  dsimp only at h
  split at h
  · cases h
  · cases h
  · next hne hzero => exact ⟨hne, fun n values => hzero _ _⟩

theorem Literal.parts_eq {l : Literal} {significand : ℕ} {left : List ℕ}
    (h : takeFitting 0 (digitValues l.whole) = (significand, left)) :
    l.parts = { negative := l.negative, significand, exponent := left.length } := by
  rw [Literal.parts, h]

theorem Literal.number?_of_none {l : Literal} {significand : ℕ} {left : List ℕ}
    (hfit : takeFitting 0 (digitValues l.whole) = (significand, left))
    (hfraction : l.fraction = none) (hexponent : l.exponent = none) :
    l.number? = if left.isEmpty then some (.ofWhole l.negative significand)
      else l.parts.scaled? none := by
  have hempty : ((left.length : ℤ) = 0) = (left.isEmpty = true) := by simp
  rw [number?, hfraction]
  simp only [hexponent, parts_eq hfit, true_and, hempty]

/-- A number is read only where it is written. -/
theorem exists_literal_of_readNumber {negative : Bool}
    (h : readNumber negative cs = .ok (number, rest)) :
    ∃ l : Literal, l.WellFormed ∧ l.negative = negative ∧ l.number? = some number ∧
      cs = l.unsigned ++ rest := by
  have hwhole := whole_of_readNumber h
  rw [readNumber_eq_readPlaces hwhole] at h
  rw [← List.takeWhile_append_dropWhile (p := Char.isDigit) (l := cs)]
  generalize cs.takeWhile Char.isDigit = whole at h hwhole ⊢
  generalize cs.dropWhile Char.isDigit = behind at h ⊢
  rcases hfit : takeFitting 0 (digitValues whole) with ⟨significand, left⟩
  have hscaled : ∀ {mark body}, mark = 'e' ∨ mark = 'E' →
      readExponent { negative, significand, exponent := left.length } body = .ok (number, rest) →
      ∃ l : Literal, l.WellFormed ∧ l.negative = negative ∧ l.number? = some number ∧
        whole ++ mark :: body = l.unsigned ++ rest := by
    intro mark body hmark hread
    obtain ⟨e, he, hnumber, htext⟩ := exists_exponent_of_read hmark hread
    refine ⟨⟨negative, whole, none, some e⟩, ⟨hwhole, nofun, fun _ heq =>
      Option.some.inj heq ▸ he⟩, rfl, ?_, by rw [htext]; simp [Literal.unsigned]⟩
    rw [Literal.number?, Literal.parts_eq hfit]
    simpa using hnumber
  unfold readPlaces at h
  rw [hfit] at h
  dsimp only at h
  split at h
  · obtain ⟨digits, exponent, hdigits, hexponent, hnumber, rfl⟩ := exists_fraction_of_read h
    refine ⟨⟨negative, whole, some digits, exponent⟩, ⟨hwhole, fun _ heq =>
      Option.some.inj heq ▸ hdigits, hexponent⟩, rfl, ?_, by simp [Literal.unsigned]⟩
    rw [Literal.number?, Literal.parts_eq hfit]
    exact hnumber
  · exact hscaled (.inl rfl) h
  · exact hscaled (.inr rfl) h
  · have hl : (⟨negative, whole, none, none⟩ : Literal).WellFormed := ⟨hwhole, nofun, nofun⟩
    have htext : (⟨negative, whole, none, none⟩ : Literal).unsigned = whole := by
      simp [Literal.unsigned]
    refine ⟨⟨negative, whole, none, none⟩, hl, rfl, ?_⟩
    rw [htext, Literal.number?_of_none hfit rfl rfl, Literal.parts_eq hfit]
    split_ifs at h ⊢ with hleft
    · obtain ⟨rfl, rfl⟩ := Prod.mk.inj (Except.ok.inj h)
      exact ⟨rfl, rfl⟩
    · rw [finishReal_eq] at h
      obtain ⟨hnumber, rfl⟩ := Reading.ofNumber?_eq_ok_iff.mp h
      exact ⟨hnumber, rfl⟩

theorem readNumber_of_wellFormed {l : Literal} (hl : l.WellFormed)
    (hnumber : l.number? = some number) (hrest : Stops rest) :
    readNumber l.negative (l.unsigned ++ rest) = .ok (number, rest) := by
  obtain ⟨negative, whole, fraction, exponent⟩ := l
  obtain ⟨hwhole, hfraction, hexponent⟩ := hl
  rcases hfit : takeFitting 0 (digitValues whole) with ⟨significand, left⟩
  have hbehind : ∀ c ∈ (fraction.elim [] ('.' :: ·) ++
      (exponent.elim [] Exponent.text ++ rest)).head?, c.isDigit = false := by
    cases fraction with
    | none => exact not_isDigit_of_exponent hexponent hrest
    | some digits =>
      rintro c ⟨⟩
      rfl
  obtain ⟨htake, hdrop⟩ := takeWhile_digits hwhole.1.2 hbehind
  simp only [Literal.unsigned, List.append_assoc]
  rw [readNumber_eq_readPlaces (by rwa [htake]), htake, hdrop, readPlaces, hfit]
  dsimp only
  cases fraction with
  | some digits =>
    rw [Literal.number?, Literal.parts_eq hfit] at hnumber
    exact readFraction_of_wellFormed (hfraction digits rfl) hexponent hnumber hrest
  | none =>
    cases exponent with
    | some e =>
      have he := hexponent e rfl
      rw [Literal.number?, Literal.parts_eq hfit] at hnumber
      have hread := readExponent_of_wellFormed he (by simpa using hnumber) hrest
      rcases he.text_eq with htext | htext <;>
        rw [Option.elim_none, Option.elim_some, htext] <;> exact hread
    | none =>
      rw [Literal.number?_of_none hfit rfl rfl, Literal.parts_eq hfit] at hnumber
      simp only [Option.elim_none, List.nil_append]
      split
      · exact absurd rfl (hrest '.' rfl).2.1
      · exact absurd rfl (hrest 'e' rfl).2.2.1
      · exact absurd rfl (hrest 'E' rfl).2.2.2
      · split_ifs at hnumber ⊢
        · rw [Option.some.inj hnumber]
        · rw [finishReal_eq]
          exact Reading.ofNumber?_eq_ok_iff.mpr ⟨hnumber, rfl⟩

end

/-! ## Natural numbers -/

theorem foldl_digits_le (value : ℕ) (digits : List ℕ) :
    value ≤ digits.foldl (fun value digit => value * 10 + digit) value := by
  induction digits generalizing value with
  | nil => exact le_rfl
  | cons digit digits ih => exact le_trans (by omega) (ih (value * 10 + digit))

/-- All digits are taken in exactly if their number fits a word. -/
theorem takeFitting_eq_iff {value n : ℕ} {digits : List ℕ} (hvalue : value < Text.wordLimit) :
    takeFitting value digits = (n, []) ↔
      digits.foldl (fun value digit => value * 10 + digit) value = n ∧ n < Text.wordLimit := by
  induction digits generalizing value with
  | nil =>
    rw [takeFitting, Prod.mk.injEq, and_iff_left rfl, List.foldl_nil]
    exact ⟨fun h => ⟨h, h ▸ hvalue⟩, And.left⟩
  | cons digit digits ih =>
    rw [takeFitting, List.foldl_cons]
    split_ifs with hfits
    · exact ih hfits
    · refine ⟨nofun, fun ⟨h, hn⟩ => absurd (lt_of_le_of_lt (foldl_digits_le _ digits) ?_) hfits⟩
      rwa [h]

theorem Real.scaled?_ne_natural (r : Real) (exponent : Option Exponent) (n : ℕ) :
    r.scaled? exponent ≠ some (.natural n) := by
  unfold Real.scaled?
  split
  · simp
  · split_ifs <;> simp

/-- The only literals of natural numbers are the digits of those that fit a word. -/
theorem Literal.number?_eq_some_natural_iff {l : Literal} {n : ℕ} :
    l.number? = some (.natural n) ↔ l.negative = false ∧ l.fraction = none ∧ l.exponent = none ∧
      Text.ofDigits 10 (digitValues l.whole) = n ∧ n < Text.wordLimit := by
  have hfits : takeFitting 0 (digitValues l.whole) = (n, []) ↔
      Text.ofDigits 10 (digitValues l.whole) = n ∧ n < Text.wordLimit :=
    takeFitting_eq_iff (by decide)
  constructor
  · intro h
    rcases hfit : takeFitting 0 (digitValues l.whole) with ⟨significand, left⟩
    cases hfraction : l.fraction with
    | some digits =>
      rw [number?, hfraction] at h
      exact absurd h (Real.scaled?_ne_natural _ _ _)
    | none =>
      cases hexponent : l.exponent with
      | some e =>
        simp only [number?, hfraction, hexponent, reduceCtorEq, false_and, if_false] at h
        exact absurd h (Real.scaled?_ne_natural _ _ _)
      | none =>
        rw [number?_of_none hfit hfraction hexponent] at h
        split_ifs at h with hleft
        · obtain rfl := List.isEmpty_iff.mp hleft
          unfold Number.ofWhole at h
          split_ifs at h with hnegative
          · obtain rfl := Number.natural.inj (Option.some.inj h)
            exact ⟨by simpa using hnegative, rfl, rfl, hfits.mp hfit⟩
          · cases h
          · cases h
        · exact absurd h (Real.scaled?_ne_natural _ _ _)
  · rintro ⟨hnegative, hfraction, hexponent, hvalue⟩
    rw [number?_of_none (hfits.mpr hvalue) hfraction hexponent, hnegative]
    rfl

/-- A number is written by its literals. -/
theorem spellsNumber_iff {cs : List Char} {number : Number} :
    SpellsNumber cs number ↔
      ∃ l : Literal, l.WellFormed ∧ l.number? = some number ∧ cs = l.text := by
  constructor
  · intro h
    cases h with
    | @natural digits n h hvalue hfits =>
      refine ⟨⟨false, cs, none, none⟩, ⟨h, nofun, nofun⟩, ?_,
        by simp [Literal.text, Literal.unsigned]⟩
      exact Literal.number?_eq_some_natural_iff.mpr ⟨rfl, rfl, rfl, hvalue, hfits⟩
    | other h hnumber => exact ⟨_, h, hnumber, rfl⟩
  · rintro ⟨l, h, hnumber, rfl⟩
    by_cases hnatural : ∃ n, number = .natural n
    · obtain ⟨n, rfl⟩ := hnatural
      obtain ⟨hnegative, hfraction, hexponent, hvalue, hfits⟩ :=
        Literal.number?_eq_some_natural_iff.mp hnumber
      have htext : l.text = l.whole := by
        simp [Literal.text, Literal.unsigned, hnegative, hfraction, hexponent]
      exact htext ▸ .natural h.whole hvalue hfits
    · exact .other h hnumber fun n heq => hnatural ⟨n, heq⟩

end CacheModel.Json
