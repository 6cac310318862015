import CacheModel.Proofs.Json.Grammar
import CacheModel.Proofs.Numeral

/-!
# Reading texts

The reader of texts agrees with the rules for writing them: a text is read from the front of some
characters exactly if these begin with a way to write it, and all of that is taken.
-/

namespace CacheModel.Json

/-! ## Characters by number -/

theorem readHex_eq_ok_iff {cs rest : List Char} {n : ℕ} :
    readHex cs = .ok (n, rest) ↔ ∃ digits, SpellsHex digits n ∧ cs = digits ++ rest := by
  constructor
  · intro h
    unfold readHex at h
    split_ifs at h with hbytes
    split at h
    · next values hvalues =>
      obtain ⟨rfl, rfl⟩ := Prod.mk.inj (Except.ok.inj h)
      rw [Text.foldl_utf8Size_of_digits (mapM_eq_some_iff.mp hvalues)] at hbytes
      have hlength : (cs.take 4).length = 4 :=
        le_antisymm (List.length_take_le 4 cs) (by omega)
      exact ⟨cs.take 4, ⟨hlength, by rw [hvalues]; rfl⟩, (List.take_append_drop 4 cs).symm⟩
    · cases h
  · rintro ⟨digits, ⟨hlength, hvalue⟩, rfl⟩
    obtain ⟨values, hvalues, rfl⟩ := Option.map_eq_some_iff.mp hvalue
    have hbytes := Text.foldl_utf8Size_of_digits (mapM_eq_some_iff.mp hvalues) 0
    rw [readHex, List.take_left' hlength, List.drop_left' hlength, hbytes, if_neg (by omega),
      hvalues]

theorem readLowHalf_eq_ok_iff {high : ℕ} {cs rest : List Char} {c : Char} :
    readLowHalf high cs = .ok (c, rest) ↔
      ∃ digits low, SpellsHex digits low ∧ (0xDC00 ≤ low ∧ low ≤ 0xDFFF) ∧
        Char.ofNat (0x10000 + (high - 0xD800) * 0x400 + (low - 0xDC00)) = c ∧
        cs = '\\' :: 'u' :: (digits ++ rest) := by
  constructor
  · intro h
    unfold readLowHalf at h
    split at h
    · cases h
    · cases h
    · split at h
      · cases h
      · next low behind hhex =>
        obtain ⟨digits, hdigits, rfl⟩ := readHex_eq_ok_iff.mp hhex
        split_ifs at h with hlow
        obtain ⟨rfl, rfl⟩ := Prod.mk.inj (Except.ok.inj h)
        exact ⟨digits, low, hdigits, hlow, rfl, rfl⟩
    · cases h
  · rintro ⟨digits, low, hdigits, hlow, rfl, rfl⟩
    rw [readLowHalf, readHex_eq_ok_iff.mpr ⟨digits, hdigits, rfl⟩]
    exact if_pos hlow

theorem exists_spells_of_readNumbered {cs rest : List Char} {c : Char}
    (h : readNumbered cs = .ok (c, rest)) :
    ∃ xs, SpellsCharacter ('\\' :: 'u' :: xs) c ∧ cs = xs ++ rest := by
  unfold readNumbered at h
  split at h
  · cases h
  · next n behind hhex =>
    obtain ⟨digits, hdigits, rfl⟩ := readHex_eq_ok_iff.mp hhex
    split_ifs at h with hn hhigh
    · obtain ⟨rfl, rfl⟩ := Prod.mk.inj (Except.ok.inj h)
      exact ⟨digits, .numbered hdigits hn, rfl⟩
    · obtain ⟨digits', low, hdigits', hlow, rfl, rfl⟩ := readLowHalf_eq_ok_iff.mp h
      exact ⟨digits ++ '\\' :: 'u' :: digits', .halved hdigits ⟨by omega, hhigh⟩ hdigits' hlow,
        by rw [List.append_assoc]; rfl⟩

theorem exists_spells_of_readEscape {cs rest : List Char} {c : Char}
    (h : readEscape cs = .ok (c, rest)) :
    ∃ xs, SpellsCharacter ('\\' :: xs) c ∧ cs = xs ++ rest := by
  have hescaped : ∀ {mark c' : Char} {behind : List Char}, (mark, c') ∈ escapes →
      (Except.ok (c', behind) : Reading Char) = .ok (c, rest) →
      ∃ xs, SpellsCharacter ('\\' :: xs) c ∧ mark :: behind = xs ++ rest := by
    rintro mark c' behind hmem heq
    obtain ⟨rfl, rfl⟩ := Prod.mk.inj (Except.ok.inj heq)
    exact ⟨[mark], .escaped hmem, rfl⟩
  unfold readEscape at h
  split at h
  case h_1 => cases h
  case h_10 =>
    obtain ⟨xs, hxs, rfl⟩ := exists_spells_of_readNumbered h
    exact ⟨'u' :: xs, hxs, rfl⟩
  case h_11 => cases h
  all_goals exact hescaped (by decide) h

/-! ## Characters -/

/-- A character is read from the front of a text exactly if it is written there. -/
theorem readCharacter_eq_ok_some_iff {cs rest : List Char} {c : Char} :
    readCharacter cs = .ok (some c, rest) ↔ ∃ xs, SpellsCharacter xs c ∧ cs = xs ++ rest := by
  constructor
  · intro h
    unfold readCharacter at h
    split at h
    · cases h
    · cases h
    · obtain ⟨⟨c', behind⟩, hescape, heq⟩ := map_eq_ok_iff.mp h
      simp only [Prod.mk.injEq, Option.some.injEq] at heq
      obtain ⟨rfl, rfl⟩ := heq
      obtain ⟨xs, hxs, rfl⟩ := exists_spells_of_readEscape hescape
      exact ⟨'\\' :: xs, hxs, rfl⟩
    · next c' behind hquote hslash =>
      split_ifs at h with hcontrol
      obtain ⟨heq, rfl⟩ := Prod.mk.inj (Except.ok.inj h)
      obtain rfl := Option.some.inj heq
      exact ⟨[c'], .plain (by omega) hquote hslash, rfl⟩
  · rintro ⟨xs, h, rfl⟩
    cases h with
    | plain hcontrol hquote hslash =>
      rw [List.singleton_append, readCharacter.eq_4 _ _ hquote hslash]
      exact if_neg (by omega)
    | escaped h =>
      simp only [escapes, List.mem_cons, Prod.mk.injEq, List.not_mem_nil, or_false] at h
      rcases h with h | h | h | h | h | h | h | h <;> obtain ⟨rfl, rfl⟩ := h <;> rfl
    | numbered hdigits hn =>
      simp only [List.cons_append, readCharacter, readEscape, readNumbered,
        readHex_eq_ok_iff.mpr ⟨_, hdigits, rfl⟩, if_pos hn]
      rfl
    | @halved digits digits' high low hdigits hhigh hdigits' hlow =>
      simp only [List.cons_append, List.append_assoc, readCharacter, readEscape, readNumbered,
        readHex_eq_ok_iff.mpr ⟨_, hdigits, rfl⟩]
      rw [if_neg (by omega), if_pos hhigh.2,
        readLowHalf_eq_ok_iff.mpr ⟨digits', low, hdigits', hlow, rfl, rfl⟩, Except.map]

theorem readCharacter_eq_ok_none_iff {cs rest : List Char} :
    readCharacter cs = .ok (none, rest) ↔ cs = '"' :: rest := by
  constructor
  · intro h
    unfold readCharacter at h
    split at h
    · cases h
    · rw [(Prod.mk.inj (Except.ok.inj h)).2]
    · obtain ⟨_, _, heq⟩ := map_eq_ok_iff.mp h
      cases heq
    · split_ifs at h
      cases h
  · rintro rfl
    rfl

/-! ## Texts -/

theorem length_pos_of_spellsCharacter {xs : List Char} {c : Char} (h : SpellsCharacter xs c) :
    0 < xs.length := by
  cases h <;> simp

theorem exists_spells_of_readCharacters {fuel : ℕ} {sofar cs rest : List Char} {s : String}
    (h : readCharacters fuel sofar cs = .ok (s, rest)) :
    ∃ xs chars, SpellsCharacters xs chars ∧ s = String.ofList (sofar.reverse ++ chars) ∧
      cs = xs ++ rest := by
  fun_induction readCharacters fuel sofar cs with
  | case1 => cases h
  | case2 => cases h
  | case3 fuel sofar cs behind hread =>
    obtain rfl := readCharacter_eq_ok_none_iff.mp hread
    obtain ⟨rfl, rfl⟩ := Prod.mk.inj (Except.ok.inj h)
    exact ⟨['"'], [], .closed, by rw [List.append_nil], rfl⟩
  | case4 fuel sofar cs c behind hread ih =>
    obtain ⟨xs, hxs, rfl⟩ := readCharacter_eq_ok_some_iff.mp hread
    obtain ⟨ys, chars, hys, rfl, rfl⟩ := ih h
    exact ⟨xs ++ ys, c :: chars, .character hxs hys, by simp, (List.append_assoc xs ys rest).symm⟩

theorem readCharacters_of_spells {xs chars : List Char} (h : SpellsCharacters xs chars)
    {fuel : ℕ} (hfuel : xs.length ≤ fuel) (sofar rest : List Char) :
    readCharacters fuel sofar (xs ++ rest) =
      .ok (String.ofList (sofar.reverse ++ chars), rest) := by
  induction h generalizing fuel sofar with
  | closed =>
    obtain ⟨fuel, rfl⟩ := Nat.exists_eq_add_one_of_ne_zero (by simpa using Nat.ne_of_gt hfuel)
    rw [List.singleton_append, readCharacters, readCharacter_eq_ok_none_iff.mpr rfl,
      List.append_nil]
  | @character xs ys cs c hxs hys ih =>
    rw [List.length_append] at hfuel
    have hpos := length_pos_of_spellsCharacter hxs
    obtain ⟨fuel, rfl⟩ := Nat.exists_eq_add_one_of_ne_zero (n := fuel) (by omega)
    rw [List.append_assoc, readCharacters, readCharacter_eq_ok_some_iff.mpr ⟨xs, hxs, rfl⟩]
    dsimp only
    rw [ih (by omega)]
    simp

/-- A text is read from behind its opening quote exactly if it is written there. -/
theorem readText_eq_ok_iff {cs rest : List Char} {s : String} :
    readText cs = .ok (s, rest) ↔ ∃ xs, SpellsText xs s ∧ cs = xs ++ rest := by
  constructor
  · intro h
    obtain ⟨xs, chars, hxs, rfl, rfl⟩ := exists_spells_of_readCharacters h
    exact ⟨xs, by simpa [SpellsText] using hxs, rfl⟩
  · rintro ⟨xs, hxs, rfl⟩
    rw [readText, readCharacters_of_spells hxs (by rw [List.length_append]; omega)]
    simp

end CacheModel.Json
