import Mathlib
import CacheModel.Proofs.Numeral
import CacheModel.Proofs.Pieces
import CacheModel.Proofs.Stages
import CacheModel.Proofs.Written

/-!
# Lines of a trace

A line counts for the words in front of its comment.  Without words it names nothing; two or three
words name a reference if the first one is a kind and the others are numbers; and any other line is
refused for the first problem in the order word count, kind, address, size.

The rules are stated for words, so that two lines with the same words are read alike.  Only the
complaint about the number of words quotes the line itself.

The sentence shown for a refused line gives the number of the line, the problem and what stands in
its place.  Line and problem can be told from the sentence, so that it names no other problem.
-/

namespace CacheModel.Trace

/-! ## Numbers -/

/-- The numbers that words denote.  Behind a mark for base sixteen, and otherwise in the whole word,
underscores do not count and the rest is a numeral. -/
inductive Denotes : List Char → UInt64 → Prop
  | hexadecimal {mark : Char} {digits : List Char} {n : UInt64} (hmark : mark = 'x' ∨ mark = 'X')
      (h : Text.Unsigned 16 (digits.filter (· != '_')) n.toNat) : Denotes ('0' :: mark :: digits) n
  | decimal {word : List Char} {n : UInt64}
      (hplain : ∀ mark digits, mark = 'x' ∨ mark = 'X' → word ≠ '0' :: mark :: digits)
      (h : Text.Unsigned 10 (word.filter (· != '_')) n.toNat) : Denotes word n

theorem map_word64?_eq_some_iff {base : ℕ} {cs : List Char} {n : UInt64} (hbase : base ≤ 16) :
    (Text.word64? base cs).map Nat.toUInt64 = some n ↔ Text.Unsigned base cs n.toNat := by
  simp only [Option.map_eq_some_iff, Text.word64?_eq_some_iff hbase]
  constructor
  · rintro ⟨value, ⟨h, hvalue⟩, rfl⟩
    rwa [Nat.toUInt64_eq, UInt64.toNat_ofNat_of_lt' hvalue]
  · exact fun h => ⟨n.toNat, ⟨h, n.toNat_lt⟩, by simp⟩

theorem denotes_marked_iff {mark : Char} {digits : List Char} {n : UInt64}
    (hmark : mark = 'x' ∨ mark = 'X') :
    Denotes ('0' :: mark :: digits) n ↔ Text.Unsigned 16 (digits.filter (· != '_')) n.toNat := by
  refine ⟨fun h => ?_, .hexadecimal hmark⟩
  cases h with
  | hexadecimal _ h => exact h
  | decimal hplain => exact absurd rfl (hplain mark digits hmark)

theorem number?_eq_some_iff {word : List Char} {n : UInt64} :
    number? word = some n ↔ Denotes word n := by
  unfold number?
  split
  · rw [map_word64?_eq_some_iff (by decide), denotes_marked_iff (.inl rfl)]
    rfl
  · rw [map_word64?_eq_some_iff (by decide), denotes_marked_iff (.inr rfl)]
    rfl
  · next hlower hupper =>
    rw [map_word64?_eq_some_iff (by decide)]
    constructor
    · refine .decimal ?_
      rintro mark digits (rfl | rfl) heq
      · exact hlower digits heq
      · exact hupper digits heq
    · intro h
      cases h with
      | hexadecimal hmark =>
        rcases hmark with rfl | rfl
        · exact (hlower _ rfl).elim
        · exact (hupper _ rfl).elim
      | decimal _ h => exact h

/-! ## References -/

/-- The size that the third word gives, or the usual one without it. -/
inductive SpellsBytes : Option (List Char) → UInt64 → Prop
  | omitted : SpellsBytes none 8
  | given {word : List Char} {n : UInt64} (h : Denotes word n) : SpellsBytes (some word) n

/-- The words name the reference. -/
def SpellsReference (words : List (List Char)) (a : Access) : Prop :=
  ∃ kind address bytes, words = kind :: address :: Option.toList bytes ∧
    SpellsKind kind a.kind ∧ Denotes address a.address ∧ SpellsBytes bytes a.bytes

/-- What is wrong with two or three words: the first one that is not what its place asks for. -/
inductive WordFault (kind address : List Char) (bytes : Option (List Char)) : LineError → Prop
  | unknownKind (h : ∀ k, ¬ SpellsKind kind k) :
    WordFault kind address bytes (.unknownKind (String.ofList kind))
  | invalidAddress {k : AccessKind} (hkind : SpellsKind kind k) (h : ∀ n, ¬ Denotes address n) :
    WordFault kind address bytes (.invalidAddress (String.ofList address))
  | invalidSize {k : AccessKind} {n : UInt64} {word : List Char} (hkind : SpellsKind kind k)
      (haddress : Denotes address n) (hbytes : bytes = some word) (h : ∀ n, ¬ Denotes word n) :
    WordFault kind address bytes (.invalidSize (String.ofList word))

theorem ofWords_of_wordFault {kind address : List Char} {bytes : Option (List Char)} {e : LineError}
    (h : WordFault kind address bytes e) : ofWords kind address bytes = .error e := by
  have hkind? : ∀ {word}, (∀ k, ¬ SpellsKind word k) → kind? word = none :=
    (eq_none_iff_of_eq_some_iff fun _ => kind?_eq_some_iff).mpr
  have hnumber? : ∀ {word}, (∀ n, ¬ Denotes word n) → number? word = none :=
    (eq_none_iff_of_eq_some_iff fun _ => number?_eq_some_iff).mpr
  cases h with
  | unknownKind h => simp only [ofWords, hkind? h]
  | invalidAddress hkind h => simp only [ofWords, kind?_eq_some_iff.mpr hkind, hnumber? h]
  | invalidSize hkind haddress hbytes h =>
    simp only [ofWords, kind?_eq_some_iff.mpr hkind, number?_eq_some_iff.mpr haddress, hbytes,
      hnumber? h]

/-- Two or three words name a reference, or one of them is not what it should be. -/
theorem spells_or_wordFault (kind address : List Char) (bytes : Option (List Char)) :
    (∃ a : Access, SpellsKind kind a.kind ∧ Denotes address a.address ∧ SpellsBytes bytes a.bytes) ∨
      ∃ e, WordFault kind address bytes e := by
  by_cases hkind : ∃ k, SpellsKind kind k
  swap
  · exact .inr ⟨_, .unknownKind (not_exists.mp hkind)⟩
  obtain ⟨k, hkind⟩ := hkind
  by_cases haddress : ∃ n, Denotes address n
  swap
  · exact .inr ⟨_, .invalidAddress hkind (not_exists.mp haddress)⟩
  obtain ⟨n, haddress⟩ := haddress
  by_cases hbytes : ∃ size, SpellsBytes bytes size
  · obtain ⟨size, hbytes⟩ := hbytes
    exact .inl ⟨⟨k, n, size⟩, hkind, haddress, hbytes⟩
  · cases bytes with
    | none => exact absurd ⟨_, .omitted⟩ hbytes
    | some word =>
      exact .inr ⟨_, .invalidSize hkind haddress rfl fun size h => hbytes ⟨size, .given h⟩⟩

theorem ofWords_outcomes (kind address : List Char) (bytes : Option (List Char)) :
    (∀ a, ofWords kind address bytes = .ok a ↔
      SpellsKind kind a.kind ∧ Denotes address a.address ∧ SpellsBytes bytes a.bytes) ∧
    ∀ e, ofWords kind address bytes = .error e ↔ WordFault kind address bytes e := by
  refine outcomes_iff ?_ (fun e => ofWords_of_wordFault) (spells_or_wordFault kind address bytes)
  rintro ⟨k, n, size⟩ ⟨hkind, haddress, hbytes⟩
  dsimp only at hkind haddress hbytes
  simp only [ofWords, kind?_eq_some_iff.mpr hkind, number?_eq_some_iff.mpr haddress]
  cases hbytes with
  | omitted => rfl
  | given h => simp only [number?_eq_some_iff.mpr h]

/-! ## Lines -/

/-- The line without its comment, if it has one. -/
inductive Uncommented : List Char → List Char → Prop
  | whole {content : List Char} (h : '#' ∉ content) : Uncommented content content
  | cut {content comment : List Char} (h : '#' ∉ content) :
    Uncommented (content ++ '#' :: comment) content

/-- The words of a line, in order. -/
def HasWords (line : String) (words : List (List Char)) : Prop :=
  ∃ content, Uncommented line.toList content ∧ Text.Words words content

/-- What is wrong with a line that has these words. -/
inductive LineFault (line : String) : List (List Char) → LineError → Prop
  | wordCount {words : List (List Char)} {content core : List Char}
      (h : words.length = 1 ∨ 4 ≤ words.length) (hcontent : Uncommented line.toList content)
      (hcore : Text.Trimmed core content) : LineFault line words (.wordCount (String.ofList core))
  | word {kind address : List Char} {bytes : Option (List Char)} {e : LineError}
      (h : WordFault kind address bytes e) : LineFault line (kind :: address :: bytes.toList) e

theorem uncommented_withoutComment (cs : List Char) : Uncommented cs (withoutComment cs) := by
  induction cs with
  | nil => exact .whole nofun
  | cons c cs ih =>
    by_cases hc : c = '#'
    · subst hc
      exact @Uncommented.cut [] cs nofun
    · have hcons : withoutComment (c :: cs) = c :: withoutComment cs :=
        List.takeWhile_cons_of_pos (by simpa using hc)
      rw [hcons]
      generalize withoutComment cs = content at ih
      cases ih with
      | whole h => exact .whole (List.not_mem_cons_of_ne_of_not_mem (Ne.symm hc) h)
      | cut h => exact .cut (List.not_mem_cons_of_ne_of_not_mem (Ne.symm hc) h)

theorem withoutComment_eq_iff {cs content : List Char} :
    withoutComment cs = content ↔ Uncommented cs content := by
  refine ⟨fun h => h ▸ uncommented_withoutComment cs, fun h => ?_⟩
  have hkept : '#' ∉ content → ∀ c ∈ content, (c != '#') = true := fun hnot c hc =>
    bne_iff_ne.mpr fun heq => hnot (heq ▸ hc)
  cases h with
  | whole h => exact List.takeWhile_eq_self_iff.mpr (hkept h)
  | cut h =>
    rw [withoutComment, List.takeWhile_append_of_pos (hkept h),
      List.takeWhile_cons_of_neg (by simp), List.append_nil]

theorem hasWords_iff {line : String} {words : List (List Char)} :
    HasWords line words ↔ Text.words (withoutComment line.toList) = words := by
  simp only [HasWords, ← withoutComment_eq_iff, exists_eq_left', Text.words_eq_iff]

section

variable {line : String} {words : List (List Char)}

theorem ofLine_of_words {kind address : List Char} {bytes : Option (List Char)}
    (h : HasWords line (kind :: address :: bytes.toList)) :
    ofLine line = (ofWords kind address bytes).map some := by
  rw [hasWords_iff] at h
  cases bytes <;> simp only [ofLine, h, Option.toList]

theorem ofLine_of_wordCount (h : HasWords line words)
    (hcount : words.length = 1 ∨ 4 ≤ words.length) :
    ofLine line = .error (.wordCount (String.ofList (Text.trim (withoutComment line.toList)))) := by
  rw [hasWords_iff] at h
  unfold ofLine
  dsimp only
  rw [h]
  split
  · simp at hcount
  · simp at hcount
  · simp at hcount
  · rfl

/-- A line has no words, two or three of them, or another number. -/
theorem count_cases (words : List (List Char)) : words = [] ∨
    (∃ kind address bytes, words = kind :: address :: Option.toList bytes) ∨
      words.length = 1 ∨ 4 ≤ words.length := by
  match words with
  | [] => exact .inl rfl
  | [_] => exact .inr (.inr (.inl rfl))
  | [kind, address] => exact .inr (.inl ⟨kind, address, none, rfl⟩)
  | [kind, address, bytes] => exact .inr (.inl ⟨kind, address, some bytes, rfl⟩)
  | _ :: _ :: _ :: _ :: _ => exact .inr (.inr (.inr (by simp)))

theorem ofLine_outcomes (h : HasWords line words) :
    (∀ result : Option Access,
      ofLine line = .ok result ↔ result.elim (words = []) (SpellsReference words)) ∧
    ∀ e, ofLine line = .error e ↔ LineFault line words e := by
  apply outcomes_iff
  · rintro (_ | a) hresult
    · rw [Option.elim_none] at hresult
      rw [hasWords_iff, hresult] at h
      simp only [ofLine, h]
    · obtain ⟨kind, address, bytes, rfl, ha⟩ := hresult
      rw [ofLine_of_words h, ((ofWords_outcomes kind address bytes).1 a).mpr ha]
      rfl
  · intro e hfault
    cases hfault with
    | wordCount hcount hcontent hcore =>
      rw [ofLine_of_wordCount h hcount, withoutComment_eq_iff.mpr hcontent,
        Text.trim_eq_iff.mpr hcore]
    | word hfault =>
      rw [ofLine_of_words h, ofWords_of_wordFault hfault]
      rfl
  · rcases count_cases words with rfl | ⟨kind, address, bytes, rfl⟩ | hcount
    · exact .inl ⟨none, rfl⟩
    · rcases spells_or_wordFault kind address bytes with ⟨a, ha⟩ | ⟨e, hfault⟩
      · exact .inl ⟨some a, kind, address, bytes, rfl, ha⟩
      · exact .inr ⟨e, .word hfault⟩
    · exact .inr ⟨_, .wordCount hcount (uncommented_withoutComment _) (Text.trim_eq_iff.mp rfl)⟩

/-- The problem without the line that it quotes. -/
def LineError.withoutContent : LineError → LineError
  | wordCount _ => wordCount ""
  | error => error

/-- Lines with the same words are read alike. -/
theorem ofLine_congr {line' : String} (h : HasWords line words) (h' : HasWords line' words) :
    (ofLine line).mapError LineError.withoutContent =
      (ofLine line').mapError LineError.withoutContent := by
  rcases count_cases words with rfl | ⟨kind, address, bytes, rfl⟩ | hcount
  · rw [((ofLine_outcomes h).1 none).mpr rfl, ((ofLine_outcomes h').1 none).mpr rfl]
  · rw [ofLine_of_words h, ofLine_of_words h']
  · rw [ofLine_of_wordCount h hcount, ofLine_of_wordCount h' hcount]
    rfl

theorem readLine_toUTF8 (line : String) (number : ℕ) :
    readLine (line.toUTF8.data.toList, number) = (ofLine line).mapError (.badLine number) := by
  rw [readLine, Text.toList_data_toUTF8, Text.fromUTF8?_bytesOf, String.ofList_toList]
  dsimp only
  cases ofLine line <;> rfl

end

/-! ## Sentences -/

/-- What a sentence says about a line. -/
def LineError.complaint : LineError → String
  | wordCount _ => "expected `<op> <addr> [bytes]`, got"
  | unknownKind _ => "unknown access kind"
  | invalidAddress _ => "invalid address"
  | invalidSize _ => "invalid size"

/-- What stands there instead: the line without its comment, or one word. -/
def LineError.quoted : LineError → String
  | wordCount content => content
  | unknownKind word => word
  | invalidAddress word => word
  | invalidSize word => word

/-- The sentence says that this line has this problem. -/
def Names (sentence : String) (number : ℕ) (fault : LineError) : Prop :=
  sentence = "trace line " ++ number.repr ++ ": " ++ fault.complaint ++ " `" ++ fault.quoted ++ "`"

theorem LineError.message_eq (fault : LineError) :
    fault.message = fault.complaint ++ " `" ++ fault.quoted ++ "`" := by
  have hopen : ∀ {opening complaint : String} (word : String), complaint ++ " `" = opening →
      toString opening ++ toString word ++ toString "`" = complaint ++ " `" ++ word ++ "`" := by
    rintro _ complaint word rfl
    rfl
  cases fault <;> exact hopen _ rfl

/-- The complaints differ in their first nine characters, whatever is quoted behind them. -/
theorem LineError.take_message (fault : LineError) :
    fault.message.toList.take 9 = fault.complaint.toList.take 9 := by
  have hlong : 9 ≤ fault.complaint.toList.length := by
    cases fault <;> rw [complaint] <;> decide
  rw [message_eq]
  simp only [String.toList_append, List.append_assoc]
  exact List.take_append_of_le_length hlong

theorem LineError.complaint_eq_of_message_eq {fault fault' : LineError}
    (h : fault.message = fault'.message) : fault.complaint = fault'.complaint := by
  have hstart : fault.complaint.toList.take 9 = fault'.complaint.toList.take 9 := by
    rw [← take_message, h, take_message]
  cases fault <;> cases fault' <;> first
    | rfl
    | exact absurd hstart (by rw [complaint, complaint]; decide)

/-- No two problems have the same sentence. -/
theorem LineError.message_injective : Function.Injective LineError.message := by
  intro fault fault' h
  have hcomplaint := complaint_eq_of_message_eq h
  have hquoted : fault.quoted = fault'.quoted := by
    rwa [message_eq, message_eq, hcomplaint, String.append_left_inj, String.append_right_inj] at h
  cases fault <;> cases fault' <;> first
    | exact congrArg _ hquoted
    | exact absurd hcomplaint (by rw [complaint, complaint]; decide)

theorem message_badLine (number : ℕ) (fault : LineError) :
    (TraceError.badLine number fault).message =
      "trace line " ++ number.repr ++ ": " ++ fault.message :=
  rfl

/-- The sentence for a bad line says which line it is and what is wrong with it, and nothing
else. -/
theorem names_message_iff {number number' : ℕ} {fault fault' : LineError} :
    Names (TraceError.badLine number fault).message number' fault' ↔
      number' = number ∧ fault' = fault := by
  have hnames : Names (TraceError.badLine number fault).message number' fault' ↔
      (TraceError.badLine number' fault').message = (TraceError.badLine number fault).message := by
    rw [Names, message_badLine number', LineError.message_eq, eq_comm]
    simp only [String.append_assoc]
  have hsentence : ∀ n e, (TraceError.badLine n e).message.toList =
      "trace line ".toList ++ (Nat.toDigits 10 n ++ ':' :: ' ' :: e.message.toList) := by
    intro n e
    rw [message_badLine]
    simp only [String.toList_append, List.append_assoc, Nat.repr, String.toList_ofList]
    rfl
  rw [hnames, ← String.toList_inj, hsentence, hsentence, List.append_cancel_left_eq,
    Text.decimal_append_cons_inj rfl, List.cons_inj_right, String.toList_inj,
    LineError.message_injective.eq_iff]

/-- The refusal without the line that it quotes. -/
def withoutContent : TraceError → TraceError
  | .badLine number error => .badLine number error.withoutContent
  | error => error

theorem mapError_withoutContent (result : Except LineError (Option Access)) (number : ℕ) :
    (result.mapError (.badLine number)).mapError withoutContent =
      (result.mapError LineError.withoutContent).mapError (.badLine number) := by
  cases result <;> rfl

/-- A line is read exactly by the rules for its words.  It names nothing if it has none and a
reference if its words name one; otherwise it is refused, with its number, for the first thing that
is wrong with its words, and the sentence shown for it names this line and this problem and no
other.  A line with the same words is read in the same way. -/
theorem lines_accepted_exactly (line : String) (number : ℕ) :
    (∃ words, HasWords line words) ∧ ∀ words, HasWords line words →
      (readLine (line.toUTF8.data.toList, number) = .ok none ↔ words = []) ∧
      (∀ a, readLine (line.toUTF8.data.toList, number) = .ok (some a) ↔ SpellsReference words a) ∧
      (∀ e, readLine (line.toUTF8.data.toList, number) = .error e ↔
        ∃ fault, LineFault line words fault ∧ e = .badLine number fault) ∧
      (∀ e, readLine (line.toUTF8.data.toList, number) = .error e → ∀ number' fault,
        Names e.message number' fault ↔ number' = number ∧ LineFault line words fault) ∧
      ∀ line', HasWords line' words →
        (readLine (line'.toUTF8.data.toList, number)).mapError withoutContent =
          (readLine (line.toUTF8.data.toList, number)).mapError withoutContent := by
  refine ⟨⟨_, hasWords_iff.mpr rfl⟩, fun words h => ?_⟩
  obtain ⟨hok, herror⟩ := ofLine_outcomes h
  simp only [readLine_toUTF8, mapError_eq_ok_iff, mapError_eq_error_iff]
  refine ⟨hok none, fun a => hok (some a), fun e => ?_, ?_, fun line' h' => ?_⟩
  · simp only [herror, eq_comm]
  · rintro _ ⟨first, hfirst, rfl⟩ number' fault
    rw [names_message_iff, ← herror]
    refine and_congr_right fun _ => ⟨?_, fun hfault => ?_⟩
    · rintro rfl
      exact hfirst
    · exact Except.error.inj (hfault.symm.trans hfirst)
  · rw [mapError_withoutContent, mapError_withoutContent, ofLine_congr h' h]

/-- A sign behind the mark for base sixteen, and nothing but underscores behind a digit.  With the
mark cut apart the address is no number, and this is said before anything of the size. -/
theorem lines_accepted_exactly_odd_spellings :
    (HasWords "R 0x+1f 1__# r 16" [['R'], ['0', 'x', '+', '1', 'f'], ['1', '_', '_']] ∧
      readLine ("R 0x+1f 1__# r 16".toUTF8.data.toList, 7) = .ok (some ⟨.load, 31, 1⟩)) ∧
    HasWords "R 0_x10 +" [['R'], ['0', '_', 'x', '1', '0'], ['+']] ∧
      ∃ e, readLine ("R 0_x10 +".toUTF8.data.toList, 7) = .error e ∧
        e.message = "trace line 7: invalid address `0_x10`" := by
  have hkind : SpellsKind ['R'] .load := by simp [SpellsKind, kindSpellings]
  refine ⟨?_, ?_⟩
  · have hwords :
        HasWords "R 0x+1f 1__# r 16" [['R'], ['0', 'x', '+', '1', 'f'], ['1', '_', '_']] :=
      hasWords_iff.mpr (by decide)
    have hdigits : Text.Digits 16 ['1', 'f'] 31 :=
      ⟨List.cons_ne_nil _ _, [1, 15], by simp [Nat.digitChar], by decide⟩
    have haddress : Denotes ['0', 'x', '+', '1', 'f'] 31 :=
      .hexadecimal (.inl rfl) (.signed hdigits)
    have hdigit : Text.Digits 10 ['1'] 1 :=
      ⟨List.cons_ne_nil _ _, [1], by simp [Nat.digitChar], by decide⟩
    have hbytes : Denotes ['1', '_', '_'] 1 := .decimal (by simp) (.plain hdigit)
    obtain ⟨-, hlines⟩ := lines_accepted_exactly "R 0x+1f 1__# r 16" 7
    obtain ⟨-, hreference, -⟩ := hlines _ hwords
    exact ⟨hwords, (hreference ⟨.load, 31, 1⟩).mpr
      ⟨_, _, some _, rfl, hkind, haddress, .given hbytes⟩⟩
  · have hwords : HasWords "R 0_x10 +" [['R'], ['0', '_', 'x', '1', '0'], ['+']] :=
      hasWords_iff.mpr (by decide)
    have haddress : ∀ n, ¬ Denotes ['0', '_', 'x', '1', '0'] n :=
      (eq_none_iff_of_eq_some_iff fun _ => number?_eq_some_iff).mp (by decide)
    have hfault : LineFault "R 0_x10 +" [['R'], ['0', '_', 'x', '1', '0'], ['+']]
        (.invalidAddress (String.ofList ['0', '_', 'x', '1', '0'])) :=
      @LineFault.word _ _ _ (some _) _ (.invalidAddress hkind haddress)
    obtain ⟨-, hlines⟩ := lines_accepted_exactly "R 0_x10 +" 7
    obtain ⟨-, -, hrefused, hsentence, -⟩ := hlines _ hwords
    have herror := (hrefused _).mpr ⟨_, hfault, rfl⟩
    have hnames := (hsentence _ herror 7 _).mpr ⟨rfl, hfault⟩
    exact ⟨hwords, _, herror, hnames.trans (by decide)⟩

end CacheModel.Trace
