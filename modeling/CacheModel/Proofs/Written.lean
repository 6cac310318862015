import CacheModel.Proofs.Numeral
import CacheModel.Proofs.Pieces
import CacheModel.Proofs.Store
import CacheModel.Trace

/-!
# Traces as they are written

A list of references can be written down in many ways.  Each reference has a line of its own, its
kind has several names, numbers have two bases and may be spread out by underscores, the usual size
may be left out, and blanks, comments and lines without a reference may stand in between.  Whatever
way is taken, reading gives back the list.

The reader takes a line apart from the outside to the inside, and the rules put it together from
the inside to the outside; so each rule has a lemma that says what the reader makes of it, and the
lines of a trace are then read one after the other.
-/

namespace CacheModel.Trace

/-! ## Numbers -/

/-- The ways to write digits: one after the other, with underscores anywhere. -/
inductive SpellsDigits (base : ℕ) : List Char → List ℕ → Prop
  | nil : SpellsDigits base [] []
  | digit {c : Char} {cs : List Char} {n : ℕ} {ns : List ℕ} (h : Text.digit? base c = some n)
      (hrest : SpellsDigits base cs ns) : SpellsDigits base (c :: cs) (n :: ns)
  | underscore {cs : List Char} {ns : List ℕ} (hrest : SpellsDigits base cs ns) :
    SpellsDigits base ('_' :: cs) ns

/-- The ways to write a word of 64 bits: in base ten, or in base sixteen behind a mark, each with
zeros in front and with underscores anywhere behind the first digit. -/
inductive SpellsNumber : List Char → UInt64 → Prop
  | decimal {c : Char} {cs : List Char} {d : ℕ} {ds : List ℕ} {n : UInt64}
      (hfirst : Text.digit? 10 c = some d) (hrest : SpellsDigits 10 cs ds)
      (hvalue : Nat.ofDigits 10 (d :: ds).reverse = n.toNat) : SpellsNumber (c :: cs) n
  | hexadecimal {mark c : Char} {cs : List Char} {d : ℕ} {ds : List ℕ} {n : UInt64}
      (hmark : mark = 'x' ∨ mark = 'X') (hfirst : Text.digit? 16 c = some d)
      (hrest : SpellsDigits 16 cs ds) (hvalue : Nat.ofDigits 16 (d :: ds).reverse = n.toNat) :
    SpellsNumber ('0' :: mark :: c :: cs) n

theorem mapM_withoutUnderscores {base : ℕ} {cs : List Char} {ns : List ℕ}
    (h : SpellsDigits base cs ns) :
    (withoutUnderscores cs).mapM (Text.digit? base) = some ns := by
  rw [mapM_eq_some_iff]
  induction h with
  | nil => exact .nil
  | digit h hrest ih =>
    have hne := Text.ne_of_digit? '_' rfl h
    rw [withoutUnderscores, List.filter_cons_of_pos (by simpa using hne)]
    exact .cons h ih
  | underscore hrest ih => exact ih

theorem word64?_of_spells {base : ℕ} {c : Char} {cs : List Char} {d : ℕ} {ds : List ℕ} {n : UInt64}
    (hfirst : Text.digit? base c = some d) (hrest : SpellsDigits base cs ds)
    (hvalue : Nat.ofDigits base (d :: ds).reverse = n.toNat) :
    (Text.word64? base (withoutUnderscores (c :: cs))).map Nat.toUInt64 = some n := by
  have hdigits := mapM_withoutUnderscores (.digit hfirst hrest)
  have hne := Text.ne_of_digit? '_' rfl hfirst
  rw [withoutUnderscores, List.filter_cons_of_pos (by simpa using hne)] at hdigits ⊢
  rw [Text.word64?_of_digits hdigits hvalue, Option.map_some]
  simp

theorem number?_of_spells {word : List Char} {n : UInt64} (h : SpellsNumber word n) :
    number? word = some n := by
  cases h with
  | @decimal c cs _ _ _ hfirst hrest hvalue =>
    -- Neither mark is a digit of base ten, so that no decimal looks like a hexadecimal.
    have hmark : ∀ mark, (mark = 'x' ∨ mark = 'X') → ∀ cs', cs ≠ mark :: cs' := by
      rintro mark hmark cs' rfl
      cases hrest with
      | digit h => rcases hmark with rfl | rfl <;> cases h
      | underscore => simp at hmark
    rw [number?.eq_3]
    · exact word64?_of_spells hfirst hrest hvalue
    · intro cs' heq
      exact hmark 'x' (.inl rfl) cs' (List.cons.inj heq).2
    · intro cs' heq
      exact hmark 'X' (.inr rfl) cs' (List.cons.inj heq).2
  | hexadecimal hmark hfirst hrest hvalue =>
    rcases hmark with rfl | rfl <;> exact word64?_of_spells hfirst hrest hvalue

/-! ## Words -/

/-- A word: characters none of which is a blank or begins a comment. -/
def Solid (cs : List Char) : Prop := cs ≠ [] ∧ ∀ c ∈ cs, Text.isBlank c = false ∧ c ≠ '#'

theorem solid_of_digit? {base : ℕ} {c : Char} {d : ℕ} (h : Text.digit? base c = some d) :
    Text.isBlank c = false ∧ c ≠ '#' :=
  ⟨Text.isBlank_of_hexDigit? (Text.hexDigit?_of_digit? h), Text.ne_of_digit? '#' rfl h⟩

theorem SpellsDigits.solid {base : ℕ} {cs : List Char} {ns : List ℕ} (h : SpellsDigits base cs ns) :
    ∀ c ∈ cs, Text.isBlank c = false ∧ c ≠ '#' := by
  induction h with
  | nil => nofun
  | digit h _ ih => exact List.forall_mem_cons.mpr ⟨solid_of_digit? h, ih⟩
  | underscore _ ih => exact List.forall_mem_cons.mpr ⟨by decide, ih⟩

theorem SpellsNumber.solid {word : List Char} {n : UInt64} (h : SpellsNumber word n) :
    Solid word := by
  cases h with
  | decimal hfirst hrest =>
    exact ⟨nofun, List.forall_mem_cons.mpr ⟨solid_of_digit? hfirst, hrest.solid⟩⟩
  | hexadecimal hmark hfirst hrest =>
    have hthis : ∀ {mark}, (mark = 'x' ∨ mark = 'X') → Text.isBlank mark = false ∧ mark ≠ '#' := by
      rintro mark (rfl | rfl) <;> decide
    exact ⟨nofun, List.forall_mem_cons.mpr ⟨by decide, List.forall_mem_cons.mpr
      ⟨hthis hmark, List.forall_mem_cons.mpr ⟨solid_of_digit? hfirst, hrest.solid⟩⟩⟩⟩

/-- The ways to write a kind: one of its names, in any mixture of cases. -/
def SpellsKind (word : List Char) (kind : AccessKind) : Prop :=
  (word.map Char.toLower, kind) ∈ kindSpellings

theorem kind?_eq_some_iff {word : List Char} {kind : AccessKind} :
    kind? word = some kind ↔ SpellsKind word kind :=
  (mem_iff_lookup (by decide)).symm

theorem toLower_of_isBlank {c : Char} (h : Text.isBlank c = true) : c.toLower = c := by
  rw [Char.toLower, dif_neg]
  rintro ⟨hlow, hhigh⟩
  have hplace : 65 ≤ c.toNat ∧ c.toNat ≤ 90 := ⟨hlow, hhigh⟩
  simp only [Text.isBlank, Bool.or_eq_true, Bool.and_eq_true, decide_eq_true_eq, beq_iff_eq] at h
  omega

theorem SpellsKind.solid {word : List Char} {kind : AccessKind} (h : SpellsKind word kind) :
    Solid word := by
  have hnames : ∀ spelling ∈ kindSpellings,
      spelling.1 ≠ [] ∧ ∀ c ∈ spelling.1, Text.isBlank c = false ∧ c ≠ '#' := by
    simp [kindSpellings, Text.isBlank]
  obtain ⟨hne, hsolid⟩ := hnames _ h
  refine ⟨fun heq => hne (by rw [heq]; rfl), fun c hc => ?_⟩
  obtain ⟨hblank, hremark⟩ := hsolid c.toLower (List.mem_map_of_mem hc)
  refine ⟨?_, ?_⟩
  · by_contra hc
    rw [toLower_of_isBlank (by simpa using hc)] at hblank
    exact hc hblank
  · rintro rfl
    exact hremark rfl

/-! ## Lines -/

/-- Blanks that do not end a line. -/
def Blanks (cs : List Char) : Prop := ∀ c ∈ cs, Text.isBlank c = true ∧ c ≠ '\n'

/-- The ways to write a size behind an address.  Only the usual size may be left out. -/
inductive SpellsSize : UInt64 → List Char → Prop
  | omitted : SpellsSize defaultBytes []
  | given {gap word : List Char} {n : UInt64} (hgap : Blanks gap) (hne : gap ≠ [])
      (hword : SpellsNumber word n) : SpellsSize n (gap ++ word)

/-- The ways to write what a line names. -/
inductive SpellsContent : Option Access → List Char → Prop
  | nothing {blanks : List Char} (h : Blanks blanks) : SpellsContent none blanks
  | reference {a : Access} {before kind gap address size after : List Char}
      (hbefore : Blanks before) (hkind : SpellsKind kind a.kind) (hgap : Blanks gap)
      (hne : gap ≠ []) (haddress : SpellsNumber address a.address) (hsize : SpellsSize a.bytes size)
      (hafter : Blanks after) :
    SpellsContent (some a) (before ++ (kind ++ (gap ++ (address ++ (size ++ after)))))

/-- The ways to write a line, without its end: what it names and perhaps a comment. -/
inductive SpellsLine : Option Access → List Char → Prop
  | plain {a : Option Access} {cs : List Char} (h : SpellsContent a cs) : SpellsLine a cs
  | commented {a : Option Access} {cs comment : List Char} (h : SpellsContent a cs)
      (hcomment : '\n' ∉ comment) : SpellsLine a (cs ++ '#' :: comment)

theorem Blanks.isBlank {cs : List Char} (h : Blanks cs) : ∀ c ∈ cs, Text.isBlank c = true :=
  fun c hc => (h c hc).1

/-- Blanks at the front of a text, if there are any. -/
theorem head_of_blanks {gap : List Char} (hgap : Blanks gap) (hne : gap ≠ []) (cs : List Char) :
    ∀ c ∈ (gap ++ cs).head?, Text.isBlank c = true := by
  rw [List.head?_append_of_ne_nil _ hne]
  exact fun c hc => hgap.isBlank c (List.mem_of_mem_head? hc)

theorem words_of_blanks {cs : List Char} (h : Blanks cs) : Text.words cs = [] :=
  Text.words_of_blanks h.isBlank

/-- The words of a reference: its kind, its address, and its size if it is given. -/
theorem words_of_size {n : UInt64} {size after : List Char} (hsize : SpellsSize n size)
    (hafter : Blanks after) :
    (size = [] ∧ n = defaultBytes ∧ Text.words (size ++ after) = []) ∨
      ∃ word, SpellsNumber word n ∧ Text.words (size ++ after) = [word] := by
  cases hsize with
  | omitted => exact .inl ⟨rfl, rfl, words_of_blanks hafter⟩
  | @given gap word _ hgap hne hword =>
    obtain ⟨hword_ne, hsolid⟩ := hword.solid
    have hend : ∀ c ∈ after.head?, Text.isBlank c = true :=
      fun c hc => hafter.isBlank c (List.mem_of_mem_head? hc)
    refine .inr ⟨word, hword, ?_⟩
    rw [List.append_assoc, Text.words_append_of_blanks hgap.isBlank,
      Text.words_append_of_word (fun c hc => (hsolid c hc).1) hword_ne hend, words_of_blanks hafter]

/-- The address ends where a size or the blanks behind it begin. -/
theorem head_of_size {n : UInt64} {size after : List Char} (hsize : SpellsSize n size)
    (hafter : Blanks after) : ∀ c ∈ (size ++ after).head?, Text.isBlank c = true := by
  cases hsize with
  | omitted => exact fun c hc => hafter.isBlank c (List.mem_of_mem_head? hc)
  | given hgap hne =>
    rw [List.append_assoc]
    exact head_of_blanks hgap hne _

theorem words_of_reference {a : Access} {before kind gap address size after : List Char}
    (hbefore : Blanks before) (hkind : SpellsKind kind a.kind) (hgap : Blanks gap) (hne : gap ≠ [])
    (haddress : SpellsNumber address a.address) (hsize : SpellsSize a.bytes size)
    (hafter : Blanks after) :
    Text.words (before ++ (kind ++ (gap ++ (address ++ (size ++ after))))) =
      kind :: address :: Text.words (size ++ after) := by
  have hend := head_of_size hsize hafter
  obtain ⟨hkind_ne, hkind⟩ := hkind.solid
  obtain ⟨haddress_ne, haddress⟩ := haddress.solid
  rw [Text.words_append_of_blanks hbefore.isBlank,
    Text.words_append_of_word (fun c hc => (hkind c hc).1) hkind_ne (head_of_blanks hgap hne _),
    Text.words_append_of_blanks hgap.isBlank,
    Text.words_append_of_word (fun c hc => (haddress c hc).1) haddress_ne hend]

/-- Text inside a line, in front of a comment. -/
def Inner (cs : List Char) : Prop := ∀ c ∈ cs, c ≠ '#' ∧ c ≠ '\n'

theorem Inner.append {xs ys : List Char} (hxs : Inner xs) (hys : Inner ys) : Inner (xs ++ ys) :=
  fun c hc => (List.mem_append.mp hc).elim (hxs c) (hys c)

theorem Blanks.inner {cs : List Char} (h : Blanks cs) : Inner cs := fun c hc =>
  ⟨fun heq => absurd (heq ▸ (h c hc).1) (by decide), (h c hc).2⟩

theorem Solid.inner {cs : List Char} (h : Solid cs) : Inner cs := fun c hc =>
  ⟨(h.2 c hc).2, fun heq => absurd (heq ▸ (h.2 c hc).1) (by decide)⟩

theorem SpellsSize.inner {n : UInt64} {size : List Char} (h : SpellsSize n size) : Inner size := by
  cases h with
  | omitted => exact nofun
  | given hgap _ hword => exact hgap.inner.append hword.solid.inner

theorem SpellsContent.inner {a : Option Access} {cs : List Char} (h : SpellsContent a cs) :
    Inner cs := by
  cases h with
  | nothing h => exact h.inner
  | reference hbefore hkind hgap _ haddress hsize hafter =>
    exact hbefore.inner.append (hkind.solid.inner.append (hgap.inner.append
      (haddress.solid.inner.append (hsize.inner.append hafter.inner))))

theorem ofWords_of_spells {a : Access} {kind address : List Char} (hkind : SpellsKind kind a.kind)
    (haddress : SpellsNumber address a.address) {bytes : Option (List Char)}
    (hbytes : (bytes = none ∧ a.bytes = defaultBytes) ∨
      ∃ word, bytes = some word ∧ SpellsNumber word a.bytes) :
    ofWords kind address bytes = .ok a := by
  simp only [ofWords, kind?_eq_some_iff.mpr hkind, number?_of_spells haddress]
  obtain ⟨kind, address, bytes⟩ := a
  rcases hbytes with ⟨rfl, heq⟩ | ⟨word, rfl, hword⟩
  · rw [← heq]
  · simp only [number?_of_spells hword]

/-- What is written in a line is read from it. -/
theorem ofLine_of_content {a : Option Access} {cs : List Char} (h : SpellsContent a cs)
    {line : String} (hline : withoutComment line.toList = cs) : ofLine line = .ok a := by
  simp only [ofLine, hline]
  cases h with
  | nothing h => rw [words_of_blanks h]
  | @reference a _ _ _ _ _ _ hbefore hkind hgap hne haddress hsize hafter =>
    rw [words_of_reference hbefore hkind hgap hne haddress hsize hafter]
    rcases words_of_size hsize hafter with ⟨-, hbytes, hwords⟩ | ⟨word, hword, hwords⟩
    · rw [hwords]
      exact map_eq_ok_iff.mpr ⟨a, ofWords_of_spells hkind haddress (.inl ⟨rfl, hbytes⟩), rfl⟩
    · rw [hwords]
      exact map_eq_ok_iff.mpr ⟨a, ofWords_of_spells hkind haddress (.inr ⟨word, rfl, hword⟩), rfl⟩

theorem ofLine_of_spells {a : Option Access} {line : String} (h : SpellsLine a line.toList) :
    ofLine line = .ok a := by
  generalize hcs : line.toList = cs at h
  cases h with
  | plain h =>
    refine ofLine_of_content h ?_
    rw [hcs, withoutComment, List.takeWhile_eq_self_iff]
    exact fun c hc => by simpa using (h.inner c hc).1
  | @commented cs comment h _ =>
    refine ofLine_of_content h ?_
    have hbefore : ∀ c ∈ cs, (c != '#') = true := fun c hc => by simpa using (h.inner c hc).1
    rw [hcs, withoutComment, List.takeWhile_append_of_pos hbefore,
      List.takeWhile_cons_of_neg (by simp), List.append_nil]

theorem lineFeed_not_mem_of_spells {a : Option Access} {cs : List Char} (h : SpellsLine a cs) :
    '\n' ∉ cs := by
  cases h with
  | plain h => exact fun hmem => (h.inner _ hmem).2 rfl
  | commented h hcomment =>
    rw [List.mem_append, List.mem_cons]
    rintro (hmem | heq | hmem)
    · exact (h.inner _ hmem).2 rfl
    · cases heq
    · exact hcomment hmem

/-- A carriage return at the end of a line is one more blank, or belongs to the comment. -/
theorem SpellsLine.carriageReturn {a : Option Access} {cs : List Char} (h : SpellsLine a cs) :
    SpellsLine a (cs ++ ['\r']) := by
  have hblank : Blanks ['\r'] := by
    rintro c hc
    rw [List.mem_singleton.mp hc]
    decide
  have happend : ∀ {blanks}, Blanks blanks → Blanks (blanks ++ ['\r']) := fun h c hc =>
    (List.mem_append.mp hc).elim (h c) (hblank c)
  cases h with
  | plain h =>
    cases h with
    | nothing h => exact .plain (.nothing (happend h))
    | reference hbefore hkind hgap hne haddress hsize hafter =>
      simp only [List.append_assoc]
      exact .plain (.reference hbefore hkind hgap hne haddress hsize (happend hafter))
  | commented h hcomment =>
    rw [List.append_assoc, List.cons_append]
    refine .commented h ?_
    rw [List.mem_append, List.mem_singleton]
    exact not_or.mpr ⟨hcomment, by decide⟩

/-! ## Traces -/

/-- The ways to write a trace: line by line, each line ended by a line feed, in front of which a
carriage return may stand.  The last line may be left without an end. -/
inductive Spells : List Access → List Char → Prop
  | last {a : Option Access} {cs : List Char} (h : SpellsLine a cs) : Spells a.toList cs
  | line {a : Option Access} {accesses : List Access} {cs ending rest : List Char}
      (h : SpellsLine a cs) (hending : ending = ['\n'] ∨ ending = ['\r', '\n'])
      (hrest : Spells accesses rest) : Spells (a.toList ++ accesses) (cs ++ (ending ++ rest))

theorem readLine_of_spells {a : Option Access} {cs : List Char} (h : SpellsLine a cs)
    (number : ℕ) : readLine (Text.bytesOf cs, number) = .ok a := by
  rw [readLine, Text.fromUTF8?_bytesOf]
  dsimp only
  rw [ofLine_of_spells (by rwa [String.toList_ofList])]

/-- The lines of a trace are read one after the other, whatever the number of the first one. -/
theorem exists_mapM_readLine {accesses : List Access} {cs : List Char} (h : Spells accesses cs) :
    ∃ results : List (Option Access), results.filterMap id = accesses ∧ ∀ number,
      ((Text.splitBy (· == lineFeed) (Text.bytesOf cs)).zipIdx number).mapM readLine =
        .ok results := by
  have huncut : ∀ {a : Option Access} {cs : List Char}, SpellsLine a cs →
      ∀ byte ∈ Text.bytesOf cs, (byte == lineFeed) = false := by
    intro a cs h byte hbyte
    have hnot : lineFeed ∉ Text.bytesOf cs :=
      Text.lineFeed_not_mem_bytesOf (lineFeed_not_mem_of_spells h)
    exact beq_false_of_ne fun heq => hnot (heq ▸ hbyte)
  induction h with
  | @last a cs h =>
    refine ⟨[a], by cases a <;> rfl, fun number => ?_⟩
    rw [Text.splitBy_of_neg (huncut h), List.zipIdx_singleton, List.mapM_cons,
      readLine_of_spells h number]
    rfl
  | @line a accesses cs ending rest h hending _ ih =>
    obtain ⟨results, hresults, hread⟩ := ih
    refine ⟨a :: results, ?_, fun number => ?_⟩
    · rw [← hresults]
      cases a <;> rfl
    · -- The carriage return, if there is one, belongs to the line.
      obtain ⟨body, hbody, htext⟩ : ∃ body, SpellsLine a body ∧
          cs ++ (ending ++ rest) = body ++ '\n' :: rest := by
        rcases hending with rfl | rfl
        · exact ⟨cs, h, rfl⟩
        · exact ⟨cs ++ ['\r'], h.carriageReturn, by simp⟩
      have hbytes : Text.bytesOf (body ++ '\n' :: rest) =
          Text.bytesOf body ++ lineFeed :: Text.bytesOf rest := by
        simp only [Text.bytesOf, List.flatMap_append, List.flatMap_cons]
        rfl
      rw [htext, hbytes, Text.splitBy_append_cons (huncut hbody) (beq_self_eq_true lineFeed),
        List.zipIdx_cons, List.mapM_cons, readLine_of_spells hbody number, hread (number + 1)]
      rfl

/-- However a list of references is written down, reading gives it back. -/
theorem reading_undoes_writing {accesses : List Access} {text : String}
    (h : Spells accesses text.toList) : readFrom (.ok text.toUTF8) = .ok accesses := by
  obtain ⟨results, hresults, hread⟩ := exists_mapM_readLine h
  rw [readFrom, read, Text.toList_data_toUTF8, hread 1, ← hresults]
  rfl

/-- Two references in different spellings, a blank line between them, a comment behind the first
one and no end behind the second one. -/
theorem reading_undoes_writing_two_lines :
    readFrom (.ok "Fetch 0x0_1F\t4 # first\r\n\nw 1_6".toUTF8) =
      .ok [⟨.fetch, 31, 4⟩, ⟨.store, 16, 8⟩] := by
  have hnone : Blanks [] := nofun
  have hspace : Blanks [' '] := List.forall_mem_singleton.mpr (by decide)
  have htab : Blanks ['\t'] := List.forall_mem_singleton.mpr (by decide)
  have hfetch : SpellsKind ['F', 'e', 't', 'c', 'h'] .fetch := by simp [SpellsKind, kindSpellings]
  have hstore : SpellsKind ['w'] .store := by simp [SpellsKind, kindSpellings]
  have hfirst : SpellsNumber ['0', 'x', '0', '_', '1', 'F'] 31 :=
    .hexadecimal (.inl rfl) rfl (.underscore (.digit rfl (.digit rfl .nil))) (by decide)
  have hsecond : SpellsNumber ['1', '_', '6'] 16 :=
    .decimal rfl (.underscore (.digit rfl .nil)) (by decide)
  have hsize : SpellsSize 4 ['\t', '4'] := .given htab nofun (.decimal rfl .nil (by decide))
  have hcomment : '\n' ∉ [' ', 'f', 'i', 'r', 's', 't'] := by decide
  have hline := SpellsLine.commented (SpellsContent.reference (a := ⟨.fetch, 31, 4⟩) hnone hfetch
    hspace (by simp) hfirst hsize hspace) hcomment
  have hlast := SpellsLine.plain (SpellsContent.reference (a := ⟨.store, 16, 8⟩) hnone hstore
    hspace (by simp) hsecond .omitted hnone)
  have htrace := Spells.line hline (.inr rfl)
    (.line (.plain (.nothing hnone)) (.inl rfl) (.last hlast))
  exact reading_undoes_writing htrace

end CacheModel.Trace
