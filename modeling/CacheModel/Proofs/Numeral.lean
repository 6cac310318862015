import Mathlib
import CacheModel.Proofs.Stages
import CacheModel.Text.Blank
import CacheModel.Text.Numeral

/-!
# Digits and numerals

Digits are ASCII characters, and none of them is a blank or one of the marks that stand beside
them.  A numeral is one or more digits, perhaps behind a plus sign, and denotes the value of its
digits.
-/

namespace CacheModel

namespace Text

section

variable {base : ℕ} {c : Char} {n : ℕ}

/-- The places of the digits among the characters. -/
theorem toNat_of_hexDigit? (h : hexDigit? c = some n) :
    (48 ≤ c.toNat ∧ c.toNat ≤ 57) ∨ (97 ≤ c.toNat ∧ c.toNat ≤ 102) ∨
      (65 ≤ c.toNat ∧ c.toNat ≤ 70) := by
  unfold hexDigit? at h
  simp only [Char.le_def, UInt32.le_iff_toNat_le] at h
  split_ifs at h with hdigit hlower hupper
  · exact .inl hdigit
  · exact .inr (.inl hlower)
  · exact .inr (.inr hupper)

theorem utf8Size_of_hexDigit? (h : hexDigit? c = some n) : c.utf8Size = 1 := by
  have hascii : c.val.toNat ≤ 127 := by
    have hplace := toNat_of_hexDigit? h
    rw [Char.toNat] at hplace
    omega
  rw [Char.utf8Size, if_pos (by simpa [UInt32.le_iff_toNat_le] using hascii)]

theorem isBlank_of_hexDigit? (h : hexDigit? c = some n) : isBlank c = false := by
  have hplace := toNat_of_hexDigit? h
  simp only [isBlank, Bool.or_eq_false_iff, Bool.and_eq_false_iff, decide_eq_false_iff_not,
    beq_eq_false_iff_ne]
  omega

theorem hexDigit?_of_digit? (h : digit? base c = some n) : hexDigit? c = some n :=
  (Option.filter_eq_some_iff.mp h).1

/-- A character that is no digit of base sixteen is no digit at all. -/
theorem ne_of_digit? (mark : Char) (hmark : hexDigit? mark = none) (h : digit? base c = some n) :
    c ≠ mark := by
  rintro rfl
  cases hmark.symm.trans (hexDigit?_of_digit? h)

/-- The place of a letter in lower case. -/
theorem toNat_toLower (c : Char) :
    c.toLower.toNat = if 65 ≤ c.toNat ∧ c.toNat ≤ 90 then c.toNat + 32 else c.toNat := by
  have hupper : c.isUpper = true ↔ 65 ≤ c.toNat ∧ c.toNat ≤ 90 := by
    simp [Char.isUpper, UInt32.le_iff_toNat_le]
  split_ifs with h
  · have hvalid : (c.toNat + 32).isValidChar := by
      left
      omega
    rw [Char.toLower_eq_of_isUpper (hupper.mpr h), Char.toNat_ofNat, if_pos hvalid]
  · rw [Char.toLower_eq_of_not_isUpper (hupper.not.mpr h)]

theorem toNat_digitChar (h : n < 16) :
    n.digitChar.toNat = if n < 10 then 48 + n else 87 + n := by
  interval_cases n <;> rfl

theorem hexDigit?_eq_some_iff : hexDigit? c = some n ↔ n < 16 ∧ c.toLower = n.digitChar := by
  have hplaces : n < 16 → (c.toLower = n.digitChar ↔
      (if 65 ≤ c.toNat ∧ c.toNat ≤ 90 then c.toNat + 32 else c.toNat) =
        if n < 10 then 48 + n else 87 + n) := fun hn => by
    rw [← Char.toNat_inj, toNat_toLower, toNat_digitChar hn]
  have hvalue : hexDigit? c = some n ↔
      (if 48 ≤ c.toNat ∧ c.toNat ≤ 57 then some (c.toNat - 48)
        else if 97 ≤ c.toNat ∧ c.toNat ≤ 102 then some (c.toNat - 97 + 10)
        else if 65 ≤ c.toNat ∧ c.toNat ≤ 70 then some (c.toNat - 65 + 10) else none) = some n :=
    Iff.rfl
  rw [and_congr_right hplaces, hvalue]
  split_ifs <;> simp only [Option.some.injEq, false_iff] <;> omega

/-- A digit is written by the character of its value, a letter in either case. -/
theorem digit?_eq_some_iff (hbase : base ≤ 16) :
    digit? base c = some n ↔ n < base ∧ c.toLower = n.digitChar := by
  rw [digit?, Option.filter_eq_some_iff, hexDigit?_eq_some_iff, decide_eq_true_eq]
  constructor
  · exact fun ⟨⟨_, hchar⟩, hn⟩ => ⟨hn, hchar⟩
  · exact fun ⟨hn, hchar⟩ => ⟨⟨hn.trans_le hbase, hchar⟩, hn⟩

end

/-- Characters that are digits take as many bytes as there are characters. -/
theorem foldl_utf8Size_of_digits {cs : List Char} {digits : List ℕ}
    (h : List.Forall₂ (fun c n => hexDigit? c = some n) cs digits) (bytes : ℕ) :
    cs.foldl (fun bytes c => bytes + c.utf8Size) bytes = bytes + cs.length := by
  induction h generalizing bytes with
  | nil => rfl
  | cons hc _ ih => rw [List.foldl_cons, ih, utf8Size_of_hexDigit? hc, List.length_cons]; omega

/-- The number of some digits, the most significant one first. -/
theorem ofDigits_eq (base : ℕ) (digits : List ℕ) :
    ofDigits base digits = Nat.ofDigits base digits.reverse := by
  have hfold : ∀ value, digits.foldl (fun value digit => value * base + digit) value =
      Nat.ofDigits base digits.reverse + base ^ digits.length * value := by
    induction digits with
    | nil => simp
    | cons digit digits ih =>
      intro value
      rw [List.foldl_cons, ih, List.reverse_cons, Nat.ofDigits_append, Nat.ofDigits_singleton,
        List.length_reverse, List.length_cons, pow_succ]
      ring
  rw [ofDigits, hfold, Nat.mul_zero, Nat.add_zero]

/-- A numeral whose first character is a digit. -/
theorem word64?_of_digits {base : ℕ} {c : Char} {cs : List Char} {digits : List ℕ} {n : UInt64}
    (h : (c :: cs).mapM (digit? base) = some digits)
    (hvalue : Nat.ofDigits base digits.reverse = n.toNat) :
    word64? base (c :: cs) = some n.toNat := by
  have hplus : c ≠ '+' := by
    obtain ⟨d, ds, hd, -, -⟩ := List.forall₂_cons_left_iff.mp (mapM_eq_some_iff.mp h)
    exact ne_of_digit? '+' rfl hd
  have hunsigned : unsigned? base (c :: cs) = digits? base (c :: cs) := by
    rw [unsigned?.eq_2]
    rintro cs' heq
    exact hplus (List.cons.inj heq).1
  rw [word64?, hunsigned, digits?, List.isEmpty_cons, if_neg (by simp), h, Option.map_some,
    ofDigits_eq, hvalue, Option.filter_eq_some_iff]
  exact ⟨rfl, decide_eq_true n.toNat_lt⟩

section

variable {base n : ℕ} {cs : List Char}

/-- The ways to write a number by one or more digits, the most significant one first. -/
def Digits (base : ℕ) (cs : List Char) (n : ℕ) : Prop :=
  cs ≠ [] ∧ ∃ digits, List.Forall₂ (fun c d => d < base ∧ c.toLower = Nat.digitChar d) cs digits ∧
    Nat.ofDigits base digits.reverse = n

/-- The ways to write a number without a minus sign. -/
inductive Unsigned (base : ℕ) : List Char → ℕ → Prop
  | plain {cs : List Char} {n : ℕ} (h : Digits base cs n) : Unsigned base cs n
  | signed {cs : List Char} {n : ℕ} (h : Digits base cs n) : Unsigned base ('+' :: cs) n

/-- Each character of a number is a digit. -/
theorem Digits.exists_hexDigit? (h : Digits base cs n) (hbase : base ≤ 16) :
    ∀ c ∈ cs, ∃ d, hexDigit? c = some d := by
  obtain ⟨-, digits, hdigits, -⟩ := h
  induction hdigits with
  | nil => nofun
  | @cons c d cs digits hdigit _ ih =>
    have hhex : hexDigit? c = some d :=
      hexDigit?_eq_some_iff.mpr ⟨hdigit.1.trans_le hbase, hdigit.2⟩
    exact List.forall_mem_cons.mpr ⟨⟨d, hhex⟩, ih⟩

theorem toLower_digitChar {d : ℕ} (h : d < 16) : d.digitChar.toLower = d.digitChar := by
  interval_cases d <;> rfl

/-- One more digit behind a number. -/
theorem Digits.concat (h : Digits base cs n) (hbase : base ≤ 16) {d : ℕ} (hd : d < base) :
    Digits base (cs ++ [d.digitChar]) (n * base + d) := by
  obtain ⟨hne, digits, hdigits, rfl⟩ := h
  refine ⟨by simp, digits ++ [d], ?_, ?_⟩
  · exact List.rel_append hdigits (.cons ⟨hd, toLower_digitChar (hd.trans_le hbase)⟩ .nil)
  · rw [List.reverse_append, List.reverse_singleton, List.singleton_append, Nat.ofDigits_cons]
    ring

/-- A number is written by its digits. -/
theorem digits_toDigits (hone : 1 < base) (hbase : base ≤ 16) (n : ℕ) :
    Digits base (Nat.toDigits base n) n := by
  induction n using Nat.strong_induction_on with
  | _ n ih =>
    rcases lt_or_ge n base with hlt | hle
    · rw [Nat.toDigits_of_lt_base hlt]
      exact ⟨by simp, [n], .cons ⟨hlt, toLower_digitChar (hlt.trans_le hbase)⟩ .nil, by simp⟩
    · have hpos : 0 < base := Nat.zero_lt_of_lt hone
      have hquotient := ih (n / base) (Nat.div_lt_self (hpos.trans_le hle) hone)
      have hdigits := hquotient.concat hbase (Nat.mod_lt n hpos)
      rwa [Nat.div_add_mod', ← Nat.toDigits_of_base_le hone hle] at hdigits

theorem digits_decimal (n : ℕ) : Digits 10 (Nat.toDigits 10 n) n :=
  digits_toDigits (by decide) (by decide) n

theorem isHexDigit_of_mem_decimal {c : Char} (hc : c ∈ Nat.toDigits 10 n) :
    ∃ d, hexDigit? c = some d :=
  (digits_decimal n).exists_hexDigit? (by decide) c hc

/-- A number ends where a character stands that is no digit. -/
theorem decimal_append_cons_inj {mark : Char} (hmark : hexDigit? mark = none) {n' : ℕ}
    {rest rest' : List Char} :
    Nat.toDigits 10 n ++ mark :: rest = Nat.toDigits 10 n' ++ mark :: rest' ↔
      n = n' ∧ rest = rest' := by
  have hnumber : ∀ n rest, (Nat.toDigits 10 n ++ mark :: rest).takeWhile (· != mark) =
      Nat.toDigits 10 n := by
    intro n rest
    have hdigits : ∀ c ∈ Nat.toDigits 10 n, (c != mark) = true := by
      intro c hc
      obtain ⟨d, hd⟩ := isHexDigit_of_mem_decimal hc
      refine bne_iff_ne.mpr fun heq => ?_
      rw [heq, hmark] at hd
      cases hd
    rw [List.takeWhile_append_of_pos hdigits, List.takeWhile_cons_of_neg (by simp), List.append_nil]
  constructor
  · intro heq
    have hsame : Nat.toDigits 10 n = Nat.toDigits 10 n' := by
      rw [← hnumber n rest, heq, hnumber]
    have hrepr : n.repr = n'.repr := congrArg String.ofList hsame
    obtain rfl := Nat.repr_injective hrepr
    exact ⟨rfl, (List.cons.inj (List.append_cancel_left heq)).2⟩
  · rintro ⟨rfl, rfl⟩
    rfl

theorem digits?_eq_some_iff (hbase : base ≤ 16) : digits? base cs = some n ↔ Digits base cs n := by
  unfold digits? Digits
  simp only [← digit?_eq_some_iff hbase]
  split_ifs with h
  · simp only [List.isEmpty_iff.mp h, ne_eq, not_true_eq_false, false_and]
  · simp only [Option.map_eq_some_iff, mapM_eq_some_iff, ofDigits_eq]
    exact ⟨fun hdigits => ⟨by simpa using h, hdigits⟩, And.right⟩

theorem unsigned?_eq_some_iff (hbase : base ≤ 16) :
    unsigned? base cs = some n ↔ Unsigned base cs n := by
  unfold unsigned?
  split
  · next cs =>
    rw [digits?_eq_some_iff hbase]
    refine ⟨.signed, fun h => ?_⟩
    cases h with
    | plain h =>
      -- The sign is no digit.
      obtain ⟨-, digits, hdigits, -⟩ := h
      obtain ⟨d, _, hd, -, -⟩ := List.forall₂_cons_left_iff.mp hdigits
      exact absurd rfl (ne_of_digit? '+' rfl ((digit?_eq_some_iff hbase).mpr hd))
    | signed h => exact h
  · next cs hsign =>
    rw [digits?_eq_some_iff hbase]
    refine ⟨.plain, fun h => ?_⟩
    cases h with
    | plain h => exact h
    | signed => exact absurd rfl (hsign _)

theorem word64?_eq_some_iff (hbase : base ≤ 16) :
    word64? base cs = some n ↔ Unsigned base cs n ∧ n < 2 ^ 64 := by
  rw [word64?, Option.filter_eq_some_iff, unsigned?_eq_some_iff hbase, decide_eq_true_eq]
  rfl

end

end Text

end CacheModel
