import Mathlib
import CacheModel.Text.Blank

/-!
# Pieces, words and bytes

What becomes of a text that is put together from pieces when it is cut again, into pieces or into
words, and when it is handed over as bytes.  Cutting, trimming and the search for words are each
settled by an equivalence that says which results a text has, and it has exactly one.
-/

namespace CacheModel.Text

/-! ## Pieces -/

section

variable {α : Type} {p : α → Bool} {xs : List α}

theorem splitBy_cons_of_neg {a : α} (h : p a = false) (xs : List α) :
    splitBy p (a :: xs) = (splitBy p xs).modifyHead (a :: ·) := by
  obtain ⟨piece, pieces, heq⟩ := List.exists_cons_of_ne_nil (splitBy_ne_nil p xs)
  rw [heq, List.modifyHead_cons]
  rw [splitBy] at heq
  rw [splitBy, List.foldr_cons, heq, if_neg (by simp [h])]

/-- What does not contain a place to cut stays in one piece. -/
theorem splitBy_append_of_neg (h : ∀ x ∈ xs, p x = false) (ys : List α) :
    splitBy p (xs ++ ys) = (splitBy p ys).modifyHead (xs ++ ·) := by
  induction xs with
  | nil =>
    rw [List.nil_append]
    cases splitBy p ys <;> rfl
  | cons x xs ih =>
    rw [List.forall_mem_cons] at h
    rw [List.cons_append, splitBy_cons_of_neg h.1, ih h.2, List.modifyHead_modifyHead]
    rfl

theorem splitBy_of_neg (h : ∀ x ∈ xs, p x = false) : splitBy p xs = [xs] := by
  rw [← List.append_nil xs, splitBy_append_of_neg h, splitBy_nil, List.modifyHead_cons]

theorem splitBy_append_cons {a : α} (h : ∀ x ∈ xs, p x = false) (ha : p a = true) (ys : List α) :
    splitBy p (xs ++ a :: ys) = xs :: splitBy p ys := by
  rw [splitBy_append_of_neg h, splitBy_cons_of_pos ha, List.modifyHead_cons, List.append_nil]

theorem splitBy_eq_splitOnP (p : α → Bool) (xs : List α) : splitBy p xs = xs.splitOnP p := by
  induction xs with
  | nil => rw [splitBy_nil, List.splitOnP_nil]
  | cons a xs ih =>
    rw [List.splitOnP_cons_eq_if_modifyHead, ← ih]
    split_ifs with ha
    · exact splitBy_cons_of_pos ha xs
    · exact splitBy_cons_of_neg (by simpa using ha) xs

/-- A place to cut parts the pieces in front of it from those behind it. -/
theorem splitBy_append_of_pos {a : α} (ha : p a = true) (xs ys : List α) :
    splitBy p (xs ++ a :: ys) = splitBy p xs ++ splitBy p ys := by
  rw [splitBy_eq_splitOnP, List.splitOnP_append_cons xs ys ha, ← splitBy_eq_splitOnP,
    ← splitBy_eq_splitOnP]

/-- There is one piece more than there are places to cut. -/
theorem length_splitBy (p : α → Bool) (xs : List α) :
    (splitBy p xs).length = xs.countP p + 1 := by
  induction xs with
  | nil => rfl
  | cons a xs ih =>
    cases ha : p a with
    | true => rw [splitBy_cons_of_pos ha, List.length_cons, ih, List.countP_cons_of_pos ha]
    | false =>
      rw [splitBy_cons_of_neg ha, List.length_modifyHead, ih, List.countP_cons_of_neg (by simp [ha])]

/-- No piece contains a place to cut. -/
theorem not_of_mem_splitBy {piece : List α} (h : piece ∈ splitBy p xs) :
    ∀ x ∈ piece, p x = false := by
  induction xs generalizing piece with
  | nil =>
    rw [splitBy_nil, List.mem_singleton] at h
    rw [h]
    nofun
  | cons a xs ih =>
    cases ha : p a with
    | true =>
      rw [splitBy_cons_of_pos ha, List.mem_cons] at h
      rcases h with rfl | h
      · nofun
      · exact ih h
    | false =>
      obtain ⟨first, pieces, heq⟩ := List.exists_cons_of_ne_nil (splitBy_ne_nil p xs)
      rw [heq] at ih
      rw [splitBy_cons_of_neg ha, heq, List.modifyHead_cons, List.mem_cons] at h
      rcases h with rfl | h
      · exact List.forall_mem_cons.mpr ⟨ha, ih List.mem_cons_self⟩
      · exact ih (List.mem_cons_of_mem _ h)

/-- The pieces of a list that a mark joins. -/
structure Joined (mark : α) (pieces : List (List α)) (xs : List α) : Prop where
  eq : [mark].intercalate pieces = xs
  ne_nil : pieces ≠ []
  unmarked : ∀ piece ∈ pieces, mark ∉ piece

/-- Cutting at a mark and joining with it undo each other. -/
theorem splitBy_eq_iff [BEq α] [LawfulBEq α] {mark : α} {pieces : List (List α)} :
    splitBy (· == mark) xs = pieces ↔ Joined mark pieces xs := by
  have heq : splitBy (· == mark) xs = xs.splitOn mark := splitBy_eq_splitOnP _ xs
  constructor
  · rintro rfl
    refine ⟨?_, splitBy_ne_nil _ xs, fun piece hpiece hmark => ?_⟩
    · rw [heq, List.intercalate_splitOn]
    · simpa using not_of_mem_splitBy hpiece mark hmark
  · rintro ⟨rfl, hne, hunmarked⟩
    rw [heq, List.splitOn_intercalate mark hunmarked hne]

end

/-! ## Blanks at the ends -/

section

variable {core cs : List Char}

theorem trimStart_eq_iff : trimStart cs = core ↔
    ∃ before, cs = before ++ core ∧ (∀ c ∈ before, isBlank c = true) ∧
      ∀ c ∈ core.head?, isBlank c = false := by
  unfold trimStart
  constructor
  · rintro rfl
    refine ⟨cs.takeWhile isBlank, List.takeWhile_append_dropWhile.symm,
      fun c hc => List.mem_takeWhile_imp hc, fun c hc => ?_⟩
    have hnot := List.head?_dropWhile_not isBlank cs
    rwa [Option.mem_def.mp hc] at hnot
  · rintro ⟨before, rfl, hbefore, hhead⟩
    rw [List.dropWhile_append_of_pos hbefore]
    cases core with
    | nil => rfl
    | cons c core => rw [List.dropWhile_cons_of_neg (by simpa using hhead c rfl)]

theorem trimEnd_eq_iff : trimEnd cs = core ↔
    ∃ after, cs = core ++ after ∧ (∀ c ∈ after, isBlank c = true) ∧
      ∀ c ∈ core.getLast?, isBlank c = false := by
  have hreverse : trimEnd cs = core ↔ trimStart cs.reverse = core.reverse :=
    List.reverse_eq_iff
  rw [hreverse, trimStart_eq_iff, List.head?_reverse]
  constructor
  · rintro ⟨before, heq, hbefore, hlast⟩
    refine ⟨before.reverse, ?_, fun c hc => hbefore c (List.mem_reverse.mp hc), hlast⟩
    rw [← List.reverse_inj, heq, List.reverse_append, List.reverse_reverse]
  · rintro ⟨after, rfl, hafter, hlast⟩
    exact ⟨after.reverse, List.reverse_append, fun c hc => hafter c (List.mem_reverse.mp hc), hlast⟩

/-- What is left of a text when the blanks at either end are taken away. -/
structure Trimmed (core cs : List Char) : Prop where
  eq : ∃ before after, cs = before ++ (core ++ after) ∧
    (∀ c ∈ before, isBlank c = true) ∧ ∀ c ∈ after, isBlank c = true
  head : ∀ c ∈ core.head?, isBlank c = false
  getLast : ∀ c ∈ core.getLast?, isBlank c = false

theorem trim_eq_iff : trim cs = core ↔ Trimmed core cs := by
  unfold trim
  rw [trimEnd_eq_iff]
  constructor
  · rintro ⟨after, hstart, hafter, hlast⟩
    obtain ⟨before, heq, hbefore, hhead⟩ := trimStart_eq_iff.mp hstart
    refine ⟨⟨before, after, heq, hbefore, hafter⟩, fun c hc => hhead c ?_, hlast⟩
    rw [List.head?_append, Option.mem_def.mp hc]
    rfl
  · rintro ⟨⟨before, after, rfl, hbefore, hafter⟩, hhead, hlast⟩
    cases core with
    | nil =>
      -- Nothing is left, so that the blanks behind it are taken away at the start.
      refine ⟨[], trimStart_eq_iff.mpr ⟨before ++ after, ?_, ?_, nofun⟩, nofun, nofun⟩
      · simp
      · exact fun c hc => (List.mem_append.mp hc).elim (hbefore c) (hafter c)
    | cons c core =>
      exact ⟨after, trimStart_eq_iff.mpr ⟨before, rfl, hbefore, hhead⟩, hafter, hlast⟩

end

/-! ## Words -/

section

variable {blanks word cs : List Char} {ws : List (List Char)}

theorem words_nil : words [] = [] := rfl

theorem words_append_of_blanks (h : ∀ c ∈ blanks, isBlank c = true) (cs : List Char) :
    words (blanks ++ cs) = words cs := by
  induction blanks with
  | nil => rfl
  | cons c blanks ih =>
    rw [List.forall_mem_cons] at h
    rw [← ih h.2, List.cons_append, words, splitBy_cons_of_pos h.1]
    rfl

theorem words_of_blanks (h : ∀ c ∈ blanks, isBlank c = true) : words blanks = [] := by
  rw [← List.append_nil blanks, words_append_of_blanks h, words_nil]

/-- A word ends at the end of the text or at a blank. -/
theorem words_append_of_word (hword : ∀ c ∈ word, isBlank c = false) (hne : word ≠ [])
    (hcs : ∀ c ∈ cs.head?, isBlank c = true) : words (word ++ cs) = word :: words cs := by
  have hkept : word.isEmpty = false := by simpa using hne
  cases cs with
  | nil =>
    rw [List.append_nil, words, splitBy_of_neg hword, List.filter_singleton, hkept]
    rfl
  | cons c cs =>
    have hc : isBlank c = true := hcs c rfl
    rw [words, splitBy_append_cons hword hc, List.filter_cons, hkept, words,
      splitBy_cons_of_pos hc]
    rfl

/-- The words of a text, in order: each one ends at a blank or at the end of the text. -/
inductive Words : List (List Char) → List Char → Prop
  | nil {blanks : List Char} (h : ∀ c ∈ blanks, isBlank c = true) : Words [] blanks
  | cons {blanks word rest : List Char} {ws : List (List Char)}
      (hblanks : ∀ c ∈ blanks, isBlank c = true) (hne : word ≠ [])
      (hword : ∀ c ∈ word, isBlank c = false) (hend : ∀ c ∈ rest.head?, isBlank c = true)
      (hrest : Words ws rest) : Words (word :: ws) (blanks ++ (word ++ rest))

theorem words_eq_of_words (h : Words ws cs) : words cs = ws := by
  induction h with
  | nil h => exact words_of_blanks h
  | cons hblanks hne hword hend _ ih =>
    rw [words_append_of_blanks hblanks, words_append_of_word hword hne hend, ih]

/-- One more blank in front of a text. -/
theorem Words.cons_blank {c : Char} (hc : isBlank c = true) (h : Words ws cs) :
    Words ws (c :: cs) := by
  cases h with
  | nil h => exact .nil (List.forall_mem_cons.mpr ⟨hc, h⟩)
  | cons hblanks hne hword hend hrest =>
    rw [← List.cons_append]
    exact .cons (List.forall_mem_cons.mpr ⟨hc, hblanks⟩) hne hword hend hrest

/-- One more character in front of a text is a word or belongs to the first one. -/
theorem Words.exists_cons {c : Char} (hc : isBlank c = false) (h : Words ws cs) :
    ∃ ws', Words ws' (c :: cs) := by
  have hsingle : ∀ d ∈ [c], isBlank d = false := List.forall_mem_singleton.mpr hc
  have hnew : (∀ d ∈ cs.head?, isBlank d = true) → ∃ ws', Words ws' (c :: cs) := fun hend =>
    ⟨[c] :: ws, @Words.cons [] _ _ _ nofun nofun hsingle hend h⟩
  cases h with
  | nil h => exact hnew fun d hd => h d (List.mem_of_mem_head? hd)
  | @cons blanks word rest ws hblanks hne hword hend hrest =>
    cases blanks with
    | nil =>
      exact ⟨(c :: word) :: ws, @Words.cons [] _ _ _ nofun nofun
        (List.forall_mem_cons.mpr ⟨hc, hword⟩) hend hrest⟩
    | cons d blanks => exact hnew fun e he => hblanks e (List.mem_of_mem_head? he)

theorem exists_words (cs : List Char) : ∃ ws, Words ws cs := by
  induction cs with
  | nil => exact ⟨[], .nil nofun⟩
  | cons c cs ih =>
    obtain ⟨ws, hws⟩ := ih
    cases hc : isBlank c with
    | true => exact ⟨ws, hws.cons_blank hc⟩
    | false => exact hws.exists_cons hc

theorem words_eq_iff : words cs = ws ↔ Words ws cs := by
  refine ⟨?_, words_eq_of_words⟩
  rintro rfl
  obtain ⟨ws, hws⟩ := exists_words cs
  rwa [words_eq_of_words hws]

end

/-! ## Bytes -/

/-- The bytes of a text. -/
def bytesOf (cs : List Char) : List UInt8 := cs.flatMap String.utf8EncodeChar

theorem toList_data_toUTF8 (text : String) : text.toUTF8.data.toList = bytesOf text.toList := by
  rw [String.toUTF8_eq_toByteArray, ← String.utf8Encode_toList, List.utf8Encode, bytesOf]
  simp

theorem fromUTF8?_toUTF8 (text : String) : String.fromUTF8? text.toUTF8 = some text := by
  simp only [String.fromUTF8?, String.toUTF8_eq_toByteArray, dif_pos text.isValidUTF8]
  rfl

/-- Bytes are a text exactly if they are the bytes of one. -/
theorem fromUTF8?_eq_some_iff {bytes : List UInt8} {text : String} :
    String.fromUTF8? (ByteArray.mk bytes.toArray) = some text ↔ bytesOf text.toList = bytes := by
  constructor
  · intro h
    rw [String.fromUTF8?] at h
    split_ifs at h with hvalid
    rw [← Option.some.inj h, ← toList_data_toUTF8]
    rfl
  · rintro rfl
    rw [← toList_data_toUTF8, Array.toArray_toList]
    exact fromUTF8?_toUTF8 text

theorem fromUTF8?_bytesOf (cs : List Char) :
    String.fromUTF8? (ByteArray.mk (bytesOf cs).toArray) = some (String.ofList cs) := by
  rw [fromUTF8?_eq_some_iff, String.toList_ofList]

/-- No byte of another character is a line feed. -/
theorem lineFeed_mem_utf8EncodeChar_iff {c : Char} :
    10 ∈ String.utf8EncodeChar c ↔ c = '\n' := by
  have hlow : c.val.toNat = 10 ↔ c = '\n' := by
    rw [← Char.toNat_inj]
    rfl
  have hbyte : ∀ n : ℕ, (10 : UInt8) = UInt8.ofNat n ↔ n % 256 = 10 := fun n => by
    rw [← UInt8.toNat_inj, UInt8.toNat_ofNat']
    exact eq_comm
  rw [← hlow, String.utf8EncodeChar.eq_1]
  split_ifs <;> simp only [List.mem_cons, List.not_mem_nil, or_false, hbyte] <;> omega

theorem lineFeed_not_mem_bytesOf {cs : List Char} (h : '\n' ∉ cs) : 10 ∉ bytesOf cs := by
  rw [bytesOf, List.mem_flatMap]
  rintro ⟨c, hc, hmem⟩
  exact h (lineFeed_mem_utf8EncodeChar_iff.mp hmem ▸ hc)

end CacheModel.Text
