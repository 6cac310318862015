import Mathlib
import CacheModel.Proofs.TraceLine

/-!
# Traces that follow one another

A trace that ends where a line ends can be followed by another one.  The lines of both together are
the lines of the first one and then the lines of the second one, so that reading them comes to the
same as reading one after the other: the references of the second trace follow those of the first
one, and the first refusal stands.  Only the number of a bad line in the second trace tells how many
lines came before.

The empty line behind the last line feed of a trace names nothing.  It gives way to the first line
of whatever follows.
-/

namespace CacheModel

/-- The refusal with so many lines in front of the trace. -/
def TraceError.below (lines : ℕ) : TraceError → TraceError
  | unreadable failure => unreadable failure
  | badLine number error => badLine (number + lines) error

namespace Trace

/-! ## What is wrong with a line -/

/-- What is wrong with a line that has this number: its bytes are no text, or there is a fault in
its words. -/
inductive LineRefusal (line : List UInt8) (number : ℕ) : TraceError → Prop
  | notText (h : ∀ text : String, Text.bytesOf text.toList ≠ line) :
    LineRefusal line number (.unreadable .notText)
  | badLine {text : String} {words : List (List Char)} {e : LineError}
      (htext : Text.bytesOf text.toList = line) (hwords : HasWords text words)
      (h : LineFault text words e) : LineRefusal line number (.badLine number e)

/-- What is wrong with a trace: the first of its lines that is refused. -/
def Refusal (bytes : List UInt8) (e : TraceError) : Prop :=
  ∃ before line after, Text.Joined lineFeed (before ++ line :: after) bytes ∧
    (∀ other ∈ before, ∀ number e', ¬ LineRefusal other number e') ∧
    LineRefusal line (before.length + 1) e

theorem readLine_of_text {line : List UInt8} {text : String}
    (h : Text.bytesOf text.toList = line) (number : ℕ) :
    readLine (line, number) = (ofLine text).mapError (.badLine number) := by
  rw [← h, ← Text.toList_data_toUTF8, readLine_toUTF8]

theorem readLine_of_notText {line : List UInt8}
    (h : ∀ text : String, Text.bytesOf text.toList ≠ line) (number : ℕ) :
    readLine (line, number) = .error (.unreadable .notText) := by
  have hnone : String.fromUTF8? (ByteArray.mk line.toArray) = none :=
    (eq_none_iff_of_eq_some_iff fun _ => Text.fromUTF8?_eq_some_iff).mpr h
  simp only [readLine, hnone]

theorem readLine_cases (line : List UInt8) :
    (∃ text : String, Text.bytesOf text.toList = line ∧
        ∀ number, readLine (line, number) = (ofLine text).mapError (.badLine number)) ∨
      (∀ text : String, Text.bytesOf text.toList ≠ line) ∧
        ∀ number, readLine (line, number) = .error (.unreadable .notText) := by
  by_cases htext : ∃ text : String, Text.bytesOf text.toList = line
  · obtain ⟨text, htext⟩ := htext
    exact .inl ⟨text, htext, readLine_of_text htext⟩
  · exact .inr ⟨not_exists.mp htext, readLine_of_notText (not_exists.mp htext)⟩

/-- A line that can be read can be read whatever its number is. -/
theorem readLine_eq_ok_iff {line : List UInt8} {number : ℕ} {a : Option Access} :
    readLine (line, number) = .ok a ↔
      ∃ text : String, Text.bytesOf text.toList = line ∧ ofLine text = .ok a := by
  constructor
  · intro h
    obtain ⟨text, htext, hread⟩ | ⟨-, hread⟩ := readLine_cases line
    · rw [hread, mapError_eq_ok_iff] at h
      exact ⟨text, htext, h⟩
    · rw [hread] at h
      cases h
  · rintro ⟨text, htext, h⟩
    rw [readLine_of_text htext, h]
    rfl

theorem readLine_eq_error_iff {line : List UInt8} {number : ℕ} {e : TraceError} :
    readLine (line, number) = .error e ↔ LineRefusal line number e := by
  constructor
  · intro h
    obtain ⟨text, htext, hread⟩ | ⟨hnot, hread⟩ := readLine_cases line
    · rw [hread, mapError_eq_error_iff] at h
      obtain ⟨fault, hfault, rfl⟩ := h
      have hwords : HasWords text _ := hasWords_iff.mpr rfl
      exact .badLine htext hwords (((ofLine_outcomes hwords).2 fault).mp hfault)
    · rw [hread] at h
      cases h
      exact .notText hnot
  · intro h
    cases h with
    | notText h => exact readLine_of_notText h number
    | badLine htext hwords h =>
      rw [readLine_of_text htext, ((ofLine_outcomes hwords).2 _).mpr h]
      rfl

/-- The number of a line only shows in its refusal. -/
theorem readLine_add (line : List UInt8) (number lines : ℕ) :
    readLine (line, number + lines) = (readLine (line, number)).mapError (.below lines) := by
  obtain ⟨text, -, hread⟩ | ⟨-, hread⟩ := readLine_cases line
  · rw [hread, hread]
    cases ofLine text <;> rfl
  · rw [hread, hread]
    rfl

/-! ## Lines one after the other -/

/-- The references of some lines, of which the first one has the given number. -/
def readLines (number : ℕ) (lines : List (List UInt8)) : Except TraceError (List Access) :=
  ((lines.zipIdx number).mapM readLine).map (·.filterMap id)

theorem read_eq_readLines (bytes : List UInt8) :
    read bytes = readLines 1 (Text.splitBy (· == lineFeed) bytes) := rfl

theorem readLines_cons (number : ℕ) (line : List UInt8) (lines : List (List UInt8)) :
    readLines number (line :: lines) = readLine (line, number) >>= fun a =>
      (readLines (number + 1) lines).map (a.toList ++ ·) := by
  rw [readLines, List.zipIdx_cons, List.mapM_cons, readLines]
  cases readLine (line, number) with
  | error e => rfl
  | ok a =>
    cases (lines.zipIdx (number + 1)).mapM readLine with
    | error e => rfl
    | ok results => cases a <;> rfl

theorem readLines_append (number : ℕ) (lines lines' : List (List UInt8)) :
    readLines number (lines ++ lines') = readLines number lines >>= fun accesses =>
      (readLines (number + lines.length) lines').map (accesses ++ ·) := by
  rw [readLines, List.zipIdx_append, List.mapM_append, readLines, readLines]
  cases (lines.zipIdx number).mapM readLine with
  | error e => rfl
  | ok results =>
    cases (lines'.zipIdx (number + lines.length)).mapM readLine with
    | error e => rfl
    | ok results' => exact congrArg Except.ok List.filterMap_append

theorem readLines_add (number lines : ℕ) (ls : List (List UInt8)) :
    readLines (number + lines) ls = (readLines number ls).mapError (.below lines) := by
  induction ls generalizing number with
  | nil => rfl
  | cons line ls ih =>
    rw [readLines_cons, readLines_cons, readLine_add, Nat.add_right_comm, ih]
    cases readLine (line, number) with
    | error e => rfl
    | ok a => cases readLines (number + 1) ls <;> rfl

/-- Lines are refused for the first one of them that is. -/
theorem readLines_eq_error_iff {number : ℕ} {lines : List (List UInt8)} {e : TraceError} :
    readLines number lines = .error e ↔ ∃ before line after, lines = before ++ line :: after ∧
      (∀ other ∈ before, ∀ number e', ¬ LineRefusal other number e') ∧
      LineRefusal line (number + before.length) e := by
  constructor
  · intro h
    induction lines generalizing number with
    | nil => exact absurd h nofun
    | cons line lines ih =>
      rw [readLines_cons] at h
      rcases hline : readLine (line, number) with e' | a
      · rw [hline] at h
        cases h
        exact ⟨[], line, lines, rfl, nofun, readLine_eq_error_iff.mp hline⟩
      · rw [hline, ok_bind, map_eq_error_iff] at h
        obtain ⟨before, bad, after, rfl, hbefore, hbad⟩ := ih h
        refine ⟨line :: before, bad, after, rfl, ?_, ?_⟩
        · refine List.forall_mem_cons.mpr ⟨fun number' e' hrefusal => ?_, hbefore⟩
          have hok : readLine (line, number') = .ok a :=
            readLine_eq_ok_iff.mpr (readLine_eq_ok_iff.mp hline)
          rw [readLine_eq_error_iff.mpr hrefusal] at hok
          cases hok
        · rwa [List.length_cons, ← Nat.add_assoc, Nat.add_right_comm]
  · rintro ⟨before, bad, after, rfl, hbefore, hbad⟩
    induction before generalizing number with
    | nil =>
      have hline : readLine (bad, number) = .error e := readLine_eq_error_iff.mpr hbad
      rw [List.nil_append, readLines_cons, hline]
      rfl
    | cons line before ih =>
      rw [List.forall_mem_cons] at hbefore
      rw [List.length_cons, ← Nat.add_assoc, Nat.add_right_comm] at hbad
      rw [List.cons_append, readLines_cons]
      rcases hline : readLine (line, number) with e' | a
      · exact absurd (readLine_eq_error_iff.mp hline) (hbefore.1 number e')
      · rw [ok_bind, ih hbefore.2 hbad]
        rfl

theorem read_eq_error_iff {bytes : List UInt8} {e : TraceError} :
    read bytes = .error e ↔ Refusal bytes e := by
  simp only [read_eq_readLines, readLines_eq_error_iff, Refusal, Text.splitBy_eq_iff,
    Nat.add_comm 1]

/-! ## Traces one after the other -/

/-- A trace that ends where a line ends: with a line feed, or without having begun. -/
def Ended (bytes : List UInt8) : Prop := bytes = [] ∨ bytes.getLast? = some lineFeed

/-- The two traces are read one after the other. -/
theorem read_append {first : List UInt8} (h : Ended first) (second : List UInt8) :
    read (first ++ second) = read first >>= fun accesses =>
      ((read second).mapError (.below (first.count lineFeed))).map (accesses ++ ·) := by
  rcases h with rfl | hlast
  · have hbelow : TraceError.below 0 = id := funext fun e => by cases e <;> rfl
    rw [List.nil_append, List.count_nil, hbelow]
    cases read second <;> rfl
  · obtain ⟨lines, rfl⟩ := List.getLast?_eq_some_iff.mp hlast
    have hcut : ∀ rest, Text.splitBy (· == lineFeed) (lines ++ lineFeed :: rest) =
        Text.splitBy (· == lineFeed) lines ++ Text.splitBy (· == lineFeed) rest :=
      fun rest => Text.splitBy_append_of_pos (p := (· == lineFeed)) (beq_self_eq_true _) lines rest
    have hfirst : read (lines ++ [lineFeed]) =
        readLines 1 (Text.splitBy (· == lineFeed) lines) := by
      rw [read_eq_readLines, hcut, Text.splitBy_nil, readLines_append]
      cases readLines 1 (Text.splitBy (· == lineFeed) lines) with
      | error e => rfl
      | ok accesses => exact congrArg Except.ok (List.append_nil accesses)
    have hcount : (lines ++ [lineFeed]).count lineFeed =
        (Text.splitBy (· == lineFeed) lines).length := by
      rw [Text.length_splitBy, List.count_append, List.count_singleton_self, List.count]
    rw [hfirst, hcount, List.append_assoc, List.singleton_append, read_eq_readLines,
      hcut, readLines_append, readLines_add]
    rfl

/-- Reading a trace that follows another one comes to reading the one and then the other.  If the
first one is refused, so are both together, in the same way.  If both can be read, the references of
the second one follow those of the first one.  If only the second one is refused, both together are
refused in the same way, the number of a bad line being greater by the number of the lines in front.
A refusal is always that of the first line that is no text or has a fault in its words. -/
theorem consecutive_traces {first : List UInt8} (hended : Ended first) (second : List UInt8) :
    (∀ e, read first = .error e → read (first ++ second) = .error e) ∧
    (∀ accesses accesses', read first = .ok accesses → read second = .ok accesses' →
      read (first ++ second) = .ok (accesses ++ accesses')) ∧
    (∀ accesses e, read first = .ok accesses → read second = .error e →
      read (first ++ second) = .error (e.below (first.count lineFeed))) ∧
    ∀ e, read (first ++ second) = .error e ↔ Refusal (first ++ second) e := by
  refine ⟨fun e h => ?_, fun accesses accesses' h h' => ?_, fun accesses e h h' => ?_,
    fun e => read_eq_error_iff⟩
  · rw [read_append hended, h]
    rfl
  · rw [read_append hended, h, h']
    rfl
  · rw [read_append hended, h, h']
    rfl

/-- Two lines of the first trace name nothing, but they count.  The bytes behind the bad line of the
second trace are no text, but the bad line comes first. -/
theorem consecutive_traces_fifth_line :
    let first := "r 0x10 4\r\n\n# i 0\n".toUTF8.data.toList
    let second := "w 8\nq 1 2\n".toUTF8.data.toList ++ [0xff]
    Ended first ∧ read first = .ok [⟨.load, 16, 4⟩] ∧
      read second = .error (.badLine 2 (.unknownKind "q")) ∧
      read (first ++ second) = .error (.badLine 5 (.unknownKind "q")) := by
  intro first second
  have hended : Ended first := .inr (by decide)
  have hfirst : read first = .ok [⟨.load, 16, 4⟩] := rfl
  have hsecond : read second = .error (.badLine 2 (.unknownKind "q")) := rfl
  obtain ⟨-, -, hboth, -⟩ := consecutive_traces hended second
  exact ⟨hended, hfirst, hsecond, hboth _ _ hfirst hsecond⟩

end Trace

end CacheModel
