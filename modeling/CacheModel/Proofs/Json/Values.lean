import CacheModel.Proofs.Json.Node
import CacheModel.Proofs.Json.Numbers
import CacheModel.Proofs.Json.Texts

/-!
# Reading values

The reader of values agrees with the rules for writing them.  It looks one character ahead and
recurses into a value or goes on behind it, and each of these calls takes from its fuel; so both
directions are by induction on the fuel, with one step for each of the four kinds of call.  What a
call without a fault has read is written there, and what is written is read by a call that has as
much fuel as there are characters.
-/

namespace CacheModel.Json

/-! ## Gaps and words -/

section

variable {gap cs rest : List Char} {c : Char}

theorem Gap.append {gap' : List Char} (h : Gap gap) (h' : Gap gap') : Gap (gap ++ gap') :=
  fun c hc => (List.mem_append.mp hc).elim (h c) (h' c)

theorem exists_gap (cs : List Char) : ∃ gap, Gap gap ∧ cs = gap ++ skipGap cs :=
  ⟨cs.takeWhile isGap, fun _ => List.mem_takeWhile_imp, List.takeWhile_append_dropWhile.symm⟩

theorem skipGap_append (hgap : Gap gap) (hc : isGap c = false) :
    skipGap (gap ++ c :: rest) = c :: rest := by
  rw [skipGap, List.dropWhile_append_of_pos hgap, List.dropWhile_cons_of_neg (by simp [hc])]

theorem skipGap_of_gap (hgap : Gap gap) : skipGap gap = [] :=
  List.dropWhile_eq_nil_iff.mpr hgap

theorem gap_of_skipGap_eq_nil (h : skipGap cs = []) : Gap cs :=
  List.dropWhile_eq_nil_iff.mp h

theorem stops_of_gap (hgap : Gap gap) (h : Stops rest) : Stops (gap ++ rest) := by
  cases gap with
  | nil => exact h
  | cons c gap =>
    rintro _ ⟨⟩
    have hc : c = ' ' ∨ c = '\n' ∨ c = '\t' ∨ c = '\r' := by
      simpa [isGap, or_assoc] using hgap c List.mem_cons_self
    rcases hc with rfl | rfl | rfl | rfl <;> decide

theorem stops_of_mem (hc : c ∈ [',', ']', '}']) : Stops (c :: rest) := by
  rintro _ ⟨⟩
  simp only [List.mem_cons, List.not_mem_nil, or_false] at hc
  rcases hc with rfl | rfl | rfl <;> decide

theorem readWord_eq_ok_iff {word : List Char} :
    readWord word cs = .ok rest ↔ cs = word ++ rest := by
  fun_induction readWord word cs with
  | case1 => simp
  | case2 => simp
  | case3 word c cs ih => simp [ih]
  | case4 letter word c cs h => simp [h]

theorem stops_of_spellsItems {depth : ℕ} {items : Items} (h : SpellsItems depth false items cs)
    (rest : List Char) : Stops (cs ++ rest) := by
  cases h with
  | closed hgap | next hgap =>
    rw [List.append_assoc]
    exact stops_of_gap hgap (stops_of_mem (by simp))

theorem stops_of_spellsMembers {depth : ℕ} {members : Members}
    (h : SpellsMembers depth false members cs) (rest : List Char) : Stops (cs ++ rest) := by
  cases h with
  | closed hgap | next hgap =>
    rw [List.append_assoc]
    exact stops_of_gap hgap (stops_of_mem (by simp))

end

/-! ## What is read is written there -/

def NodeSound (fuel : ℕ) : Prop :=
  ∀ ⦃depth cs node rest⦄, readNode fuel depth cs = (node, rest) → node.fault? = none →
    ∃ gap xs, Gap gap ∧ Spells depth node xs ∧ cs = gap ++ xs ++ rest

def ItemsSound (fuel : ℕ) : Prop :=
  ∀ ⦃depth atStart cs items rest⦄, readItems fuel depth atStart cs = (items, rest) →
    items.fault? = none → ∃ xs, SpellsItems depth atStart items xs ∧ cs = xs ++ rest

def MembersSound (fuel : ℕ) : Prop :=
  ∀ ⦃depth atStart cs members rest⦄, readMembers fuel depth atStart cs = (members, rest) →
    members.fault? = none → ∃ xs, SpellsMembers depth atStart members xs ∧ cs = xs ++ rest

def MemberSound (fuel : ℕ) : Prop :=
  ∀ ⦃depth key cs members rest⦄, readMember fuel depth key cs = (members, rest) →
    members.fault? = none → ∃ xs, SpellsMember depth key members xs ∧ cs = xs ++ rest

theorem Node.ofReading_eq_iff {α : Type} {beginning : Beginning} {f : α → Node}
    {reading : Reading α} {node : Node} {rest : List Char} (hfault : node.fault? = none) :
    Node.ofReading beginning f reading = (node, rest) ↔
      ∃ a, reading = .ok (a, rest) ∧ f a = node := by
  cases reading with
  | error fault =>
    rw [Node.ofReading, Prod.mk.injEq]
    refine ⟨?_, nofun⟩
    rintro ⟨rfl, -⟩
    cases hfault
  | ok reading =>
    rw [Node.ofReading, Prod.mk.injEq]
    exact ⟨fun ⟨hnode, hrest⟩ => ⟨_, by rw [← hrest], hnode⟩,
      fun ⟨a, heq, hnode⟩ => by obtain rfl := Except.ok.inj heq; exact ⟨hnode, rfl⟩⟩

theorem Node.ofWord_eq_iff {node node' : Node} {word cs rest : List Char}
    (hfault : node'.fault? = none) :
    Node.ofWord node (readWord word cs) = (node', rest) ↔ node = node' ∧ cs = word ++ rest := by
  rw [← readWord_eq_ok_iff]
  cases readWord word cs with
  | error fault =>
    rw [Node.ofWord, Prod.mk.injEq]
    refine ⟨?_, nofun⟩
    rintro ⟨rfl, -⟩
    cases hfault
  | ok behind =>
    rw [Node.ofWord, Prod.mk.injEq, Except.ok.injEq]

theorem exists_spells_of_readNumber {negative : Bool} {cs rest : List Char} {number : Number}
    (h : readNumber negative cs = .ok (number, rest)) :
    ∃ xs, SpellsNumber xs number ∧ (if negative then '-' :: cs else cs) = xs ++ rest := by
  obtain ⟨l, hl, rfl, hnumber, rfl⟩ := exists_literal_of_readNumber h
  refine ⟨l.text, spellsNumber_iff.mpr ⟨l, hl, hnumber, rfl⟩, ?_⟩
  rw [Literal.text]
  split_ifs <;> rfl

theorem nodeSound_succ {fuel : ℕ} (hitems : ItemsSound fuel) (hmembers : MembersSound fuel) :
    NodeSound (fuel + 1) := by
  intro depth cs node rest h hfault
  obtain ⟨gap, hgap, hcs⟩ := exists_gap cs
  suffices hspells : ∃ xs, Spells depth node xs ∧ skipGap cs = xs ++ rest by
    obtain ⟨xs, hxs, heq⟩ := hspells
    exact ⟨gap, xs, hgap, hxs, by rw [List.append_assoc, ← heq, ← hcs]⟩
  rw [readNode.eq_def] at h
  dsimp only at h
  split at h
  · cases h
    cases hfault
  · next body heq =>
    obtain ⟨rfl, rfl⟩ := (Node.ofWord_eq_iff hfault).mp h
    exact ⟨_, .null, heq⟩
  · next body heq =>
    obtain ⟨rfl, rfl⟩ := (Node.ofWord_eq_iff hfault).mp h
    exact ⟨_, .true, heq⟩
  · next body heq =>
    obtain ⟨rfl, rfl⟩ := (Node.ofWord_eq_iff hfault).mp h
    exact ⟨_, .false, heq⟩
  · next body heq =>
    obtain ⟨s, hread, rfl⟩ := (Node.ofReading_eq_iff hfault).mp h
    obtain ⟨xs, hxs, rfl⟩ := readText_eq_ok_iff.mp hread
    exact ⟨_, .text hxs, heq⟩
  · next body heq =>
    obtain ⟨number, hread, rfl⟩ := (Node.ofReading_eq_iff hfault).mp h
    obtain ⟨xs, hxs, hbody⟩ := exists_spells_of_readNumber hread
    exact ⟨xs, .number hxs, heq.trans hbody⟩
  · next body heq =>
    cases depth with
    | zero =>
      cases h
      cases hfault
    | succ depth =>
      obtain ⟨rfl, rfl⟩ := Prod.mk.inj h
      obtain ⟨xs, hxs, hbody⟩ := hitems (Prod.mk.eta).symm hfault
      exact ⟨_, .array hxs, heq.trans (congrArg _ hbody)⟩
  · next body heq =>
    cases depth with
    | zero =>
      cases h
      cases hfault
    | succ depth =>
      obtain ⟨rfl, rfl⟩ := Prod.mk.inj h
      obtain ⟨xs, hxs, hbody⟩ := hmembers (Prod.mk.eta).symm hfault
      exact ⟨_, .object hxs, heq.trans (congrArg _ hbody)⟩
  · next c body _ _ _ _ _ _ _ heq =>
    split_ifs at h with hdigit
    · obtain ⟨number, hread, rfl⟩ := (Node.ofReading_eq_iff hfault).mp h
      obtain ⟨xs, hxs, hbody⟩ := exists_spells_of_readNumber hread
      exact ⟨xs, .number hxs, heq.trans hbody⟩
    · cases h
      cases hfault

theorem itemsSound_succ {fuel : ℕ} (hnode : NodeSound fuel) (hitems : ItemsSound fuel) :
    ItemsSound (fuel + 1) := by
  intro depth atStart cs items rest h hfault
  obtain ⟨gap, hgap, hcs⟩ := exists_gap cs
  -- An item and the items behind it, wherever the item begins.
  have hitem : ∀ {body}, (Items.item (readNode fuel depth body).1
        (readItems fuel depth false (readNode fuel depth body).2).1,
      (readItems fuel depth false (readNode fuel depth body).2).2) = (items, rest) →
      ∃ gap' xs ys value items', Gap gap' ∧ Spells depth value xs ∧
        SpellsItems depth false items' ys ∧ items = .item value items' ∧
        body = gap' ++ xs ++ (ys ++ rest) := by
    intro body heq
    obtain ⟨rfl, rfl⟩ := Prod.mk.inj heq
    obtain ⟨hvalue, hbehind⟩ := Items.fault?_item_eq_none_iff.mp hfault
    obtain ⟨gap', xs, hgap', hxs, hbody⟩ := hnode (Prod.mk.eta).symm hvalue
    obtain ⟨ys, hys, hrest⟩ := hitems (Prod.mk.eta).symm hbehind
    exact ⟨gap', xs, ys, _, _, hgap', hxs, hys, rfl, hbody.trans (congrArg _ hrest)⟩
  rw [readItems.eq_def] at h
  dsimp only at h
  split at h
  · cases h
    cases hfault
  · next body _ heq =>
    obtain ⟨rfl, rfl⟩ := Prod.mk.inj h
    exact ⟨_, .closed hgap, by rw [hcs, heq, List.append_assoc]; rfl⟩
  · obtain ⟨gap', xs, ys, value, items', hgap', hxs, hys, rfl, hbody⟩ := hitem h
    refine ⟨_, .first (hgap.append hgap') hxs hys, ?_⟩
    rw [hcs, hbody]
    simp only [List.append_assoc]
  · next body heq =>
    split at h
    · cases h
      cases hfault
    · cases h
      cases hfault
    · obtain ⟨gap', xs, ys, value, items', hgap', hxs, hys, rfl, hbody⟩ := hitem h
      obtain ⟨between, hbetween, hbehind⟩ := exists_gap body
      refine ⟨_, .next hgap (hbetween.append hgap') hxs hys, ?_⟩
      rw [hcs, heq, hbehind, hbody]
      simp only [List.append_assoc, List.cons_append]
  · cases h
    cases hfault

theorem membersSound_succ {fuel : ℕ} (hmember : MemberSound fuel) : MembersSound (fuel + 1) := by
  intro depth atStart cs members rest h hfault
  obtain ⟨gap, hgap, hcs⟩ := exists_gap cs
  rw [readMembers.eq_def] at h
  dsimp only at h
  split at h
  · cases h
    cases hfault
  · next body _ heq =>
    obtain ⟨rfl, rfl⟩ := Prod.mk.inj h
    exact ⟨_, .closed hgap, by rw [hcs, heq, List.append_assoc]; rfl⟩
  · next body heq =>
    split at h
    · cases h
      cases hfault
    · next key behind hread =>
      obtain ⟨xs, hxs, rfl⟩ := readText_eq_ok_iff.mp hread
      obtain ⟨ys, hys, rfl⟩ := hmember h hfault
      refine ⟨_, .first hgap hxs hys, ?_⟩
      rw [hcs, heq]
      simp only [List.append_assoc, List.cons_append]
  · cases h
    cases hfault
  · next body heq =>
    split at h
    · cases h
      cases hfault
    · next body' heq' =>
      split at h
      · cases h
        cases hfault
      · next key behind hread =>
        obtain ⟨between, hbetween, hbehind⟩ := exists_gap body
        obtain ⟨xs, hxs, rfl⟩ := readText_eq_ok_iff.mp hread
        obtain ⟨ys, hys, rfl⟩ := hmember h hfault
        refine ⟨_, .next hgap hbetween hxs hys, ?_⟩
        rw [hcs, heq, hbehind, heq']
        simp only [List.append_assoc, List.cons_append]
    · cases h
      cases hfault
  · cases h
    cases hfault

theorem memberSound_succ {fuel : ℕ} (hnode : NodeSound fuel) (hmembers : MembersSound fuel) :
    MemberSound (fuel + 1) := by
  intro depth key cs members rest h hfault
  obtain ⟨gap, hgap, hcs⟩ := exists_gap cs
  rw [readMember.eq_def] at h
  dsimp only at h
  split at h
  · cases h
    cases hfault
  · next body heq =>
    obtain ⟨rfl, rfl⟩ := Prod.mk.inj h
    obtain ⟨hvalue, hbehind⟩ := Members.fault?_member_eq_none_iff.mp hfault
    obtain ⟨gap', xs, hgap', hxs, hbody⟩ := hnode (Prod.mk.eta).symm hvalue
    obtain ⟨ys, hys, hrest⟩ := hmembers (Prod.mk.eta).symm hbehind
    refine ⟨_, .mk hgap hgap' hxs hys, ?_⟩
    have htext := hcs.trans (congrArg _ (heq.trans (congrArg _ (hbody.trans (congrArg _ hrest)))))
    refine htext.trans ?_
    simp only [List.append_assoc, List.cons_append]
  · cases h
    cases hfault

/-- What any call without a fault has read is written there. -/
theorem read_sound (fuel : ℕ) :
    NodeSound fuel ∧ ItemsSound fuel ∧ MembersSound fuel ∧ MemberSound fuel := by
  induction fuel with
  | zero =>
    refine ⟨?_, ?_, ?_, ?_⟩
    · intro depth cs node rest h hfault
      rw [readNode] at h
      cases h
      cases hfault
    · intro depth atStart cs items rest h hfault
      rw [readItems] at h
      cases h
      cases hfault
    · intro depth atStart cs members rest h hfault
      rw [readMembers] at h
      cases h
      cases hfault
    · intro depth key cs members rest h hfault
      rw [readMember] at h
      cases h
      cases hfault
  | succ fuel ih =>
    obtain ⟨hnode, hitems, hmembers, hmember⟩ := ih
    exact ⟨nodeSound_succ hitems hmembers, itemsSound_succ hnode hitems, membersSound_succ hmember,
      memberSound_succ hnode hmembers⟩

/-! ## What is written is read -/

def NodeComplete (fuel : ℕ) : Prop :=
  ∀ ⦃depth node xs⦄, Spells depth node xs → xs.length ≤ fuel →
    node.fault? = none ∧ ∀ gap rest, Gap gap → Stops rest →
      readNode fuel depth (gap ++ (xs ++ rest)) = (node, rest)

def ItemsComplete (fuel : ℕ) : Prop :=
  ∀ ⦃depth atStart items xs⦄, SpellsItems depth atStart items xs → xs.length ≤ fuel →
    items.fault? = none ∧ ∀ rest, readItems fuel depth atStart (xs ++ rest) = (items, rest)

def MembersComplete (fuel : ℕ) : Prop :=
  ∀ ⦃depth atStart members xs⦄, SpellsMembers depth atStart members xs → xs.length ≤ fuel →
    members.fault? = none ∧ ∀ rest, readMembers fuel depth atStart (xs ++ rest) = (members, rest)

def MemberComplete (fuel : ℕ) : Prop :=
  ∀ ⦃depth key members xs⦄, SpellsMember depth key members xs → xs.length ≤ fuel →
    members.fault? = none ∧ ∀ rest, readMember fuel depth key (xs ++ rest) = (members, rest)

/-- A number begins with a minus sign or with a digit. -/
theorem readNumber_of_spells {xs rest : List Char} {number : Number} (h : SpellsNumber xs number)
    (hrest : Stops rest) :
    (∃ ys, xs = '-' :: ys ∧ readNumber true (ys ++ rest) = .ok (number, rest)) ∨
      ∃ c ys, xs = c :: ys ∧ c.isDigit = true ∧
        readNumber false (xs ++ rest) = .ok (number, rest) := by
  obtain ⟨l, hl, hnumber, rfl⟩ := spellsNumber_iff.mp h
  have hread := readNumber_of_wellFormed hl hnumber hrest
  cases hnegative : l.negative with
  | true => exact .inl ⟨l.unsigned, by rw [Literal.text, hnegative]; rfl, hnegative ▸ hread⟩
  | false =>
    have htext : l.text = l.unsigned := by rw [Literal.text, hnegative]; rfl
    obtain ⟨c, ys, hwhole⟩ := List.exists_cons_of_ne_nil hl.whole.1.1
    refine .inr ⟨c, _, by rw [htext, Literal.unsigned, hwhole]; rfl, ?_, htext ▸ hnegative ▸ hread⟩
    exact hl.whole.1.2 c (by rw [hwhole]; exact List.mem_cons_self)

theorem exists_cons_of_spells {depth : ℕ} {node : Node} {xs : List Char}
    (h : Spells depth node xs) : ∃ c ys, xs = c :: ys ∧ isGap c = false ∧ c ≠ ']' := by
  cases h with
  | null | true | false | text | array | object => exact ⟨_, _, rfl, rfl, by decide⟩
  | number h =>
    have hstops : Stops [] := nofun
    obtain ⟨ys, rfl, -⟩ | ⟨c, ys, rfl, hdigit, -⟩ := readNumber_of_spells h hstops
    · exact ⟨_, _, rfl, rfl, by decide⟩
    · refine ⟨_, _, rfl, ?_, fun heq => absurd (heq ▸ hdigit) (by decide)⟩
      simp only [isGap, Bool.or_eq_false_iff, beq_eq_false_iff_ne]
      refine ⟨⟨⟨?_, ?_⟩, ?_⟩, ?_⟩ <;> exact fun heq => absurd (heq ▸ hdigit) (by decide)

theorem readNode_number {fuel depth : ℕ} {gap xs rest : List Char} {number : Number}
    (hgap : Gap gap) (h : SpellsNumber xs number) (hrest : Stops rest) :
    readNode (fuel + 1) depth (gap ++ (xs ++ rest)) = (.number number, rest) := by
  obtain ⟨ys, rfl, hread⟩ | ⟨c, ys, rfl, hdigit, hread⟩ := readNumber_of_spells h hrest
  · rw [List.cons_append, readNode, skipGap_append hgap rfl]
    exact congrArg (Node.ofReading .number .number) hread
  · obtain ⟨_, _, heq, hc, -⟩ := exists_cons_of_spells (Spells.number h : Spells depth _ _)
    obtain ⟨rfl, rfl⟩ := List.cons.inj heq
    rw [List.cons_append] at hread ⊢
    rw [readNode.eq_def]
    dsimp only
    rw [skipGap_append hgap hc]
    have hne : ∀ mark : Char, mark.isDigit = false → c ≠ mark :=
      fun mark hmark heq => absurd (heq ▸ hdigit) (by simp [hmark])
    split
    case h_9 heq =>
      obtain ⟨rfl, rfl⟩ := List.cons.inj heq
      rw [if_pos hdigit, hread]
      rfl
    case h_1 heq => cases heq
    all_goals
      next heq => exact absurd (List.cons.inj heq).1 (hne _ rfl)

theorem nodeComplete_succ {fuel : ℕ} (hitems : ItemsComplete fuel)
    (hmembers : MembersComplete fuel) : NodeComplete (fuel + 1) := by
  intro depth node xs h hfuel
  cases h with
  | null | true | false =>
    refine ⟨rfl, fun gap rest hgap _ => ?_⟩
    rw [List.cons_append, readNode, skipGap_append hgap rfl]
    rfl
  | number h => exact ⟨rfl, fun gap rest hgap hrest => readNode_number hgap h hrest⟩
  | @text _ cs s h =>
    refine ⟨rfl, fun gap rest hgap _ => ?_⟩
    rw [List.cons_append, readNode, skipGap_append hgap rfl]
    exact congrArg (Node.ofReading .text .text) (readText_eq_ok_iff.mpr ⟨cs, h, rfl⟩)
  | array h =>
    obtain ⟨hfault, hread⟩ := hitems h (by simpa using hfuel)
    refine ⟨hfault, fun gap rest hgap _ => ?_⟩
    rw [List.cons_append, readNode, skipGap_append hgap rfl]
    exact congrArg (fun reading => (Node.array reading.1, reading.2)) (hread rest)
  | object h =>
    obtain ⟨hfault, hread⟩ := hmembers h (by simpa using hfuel)
    refine ⟨hfault, fun gap rest hgap _ => ?_⟩
    rw [List.cons_append, readNode, skipGap_append hgap rfl]
    exact congrArg (fun reading => (Node.object reading.1, reading.2)) (hread rest)

theorem length_pos_of_spells {depth : ℕ} {node : Node} {xs : List Char}
    (h : Spells depth node xs) : 0 < xs.length := by
  obtain ⟨c, ys, rfl, -⟩ := exists_cons_of_spells h
  exact Nat.succ_pos _

theorem length_pos_of_spellsItems {depth : ℕ} {atStart : Bool} {items : Items} {xs : List Char}
    (h : SpellsItems depth atStart items xs) : 0 < xs.length := by
  cases h with
  | closed | next => simp
  | first _ hvalue => simp [length_pos_of_spells hvalue]

section

variable {fuel depth : ℕ} {gap cs : List Char} {c : Char}

theorem readItems_closed {atStart : Bool} (hgap : Gap gap) :
    readItems (fuel + 1) depth atStart (gap ++ ']' :: cs) = (.closed, cs) := by
  rw [readItems.eq_def]
  dsimp only
  rw [skipGap_append hgap rfl]
  rfl

theorem readItems_first (hgap : Gap gap) (hc : isGap c = false) (hclosing : c ≠ ']') :
    readItems (fuel + 1) depth true (gap ++ c :: cs) =
      (.item (readNode fuel depth (c :: cs)).1
        (readItems fuel depth false (readNode fuel depth (c :: cs)).2).1,
      (readItems fuel depth false (readNode fuel depth (c :: cs)).2).2) := by
  rw [readItems.eq_def]
  dsimp only
  rw [skipGap_append hgap hc]
  split
  · next heq => cases heq
  · next heq => exact absurd (List.cons.inj heq).1 hclosing
  · rfl
  · next heq => cases heq
  · next heq _ _ _ => cases heq

theorem readItems_next {gap' : List Char} (hgap : Gap gap) (hgap' : Gap gap')
    (hc : isGap c = false) (hclosing : c ≠ ']') :
    readItems (fuel + 1) depth false (gap ++ ',' :: (gap' ++ c :: cs)) =
      (.item (readNode fuel depth (c :: cs)).1
        (readItems fuel depth false (readNode fuel depth (c :: cs)).2).1,
      (readItems fuel depth false (readNode fuel depth (c :: cs)).2).2) := by
  rw [readItems.eq_def]
  dsimp only
  rw [skipGap_append hgap rfl]
  split
  · next heq => cases heq
  · next heq => exact absurd (List.cons.inj heq).1 (by decide)
  · next heq _ _ => cases heq
  · next heq _ =>
    obtain ⟨-, rfl⟩ := List.cons.inj heq
    rw [skipGap_append hgap' hc]
    split
    · next heq => cases heq
    · next heq => exact absurd (List.cons.inj heq).1 hclosing
    · rfl
  · next hne => exact absurd rfl (hne _)

theorem readMembers_closed {atStart : Bool} (hgap : Gap gap) :
    readMembers (fuel + 1) depth atStart (gap ++ '}' :: cs) = (.closed, cs) := by
  rw [readMembers.eq_def]
  dsimp only
  rw [skipGap_append hgap rfl]
  rfl

theorem readMembers_first {key : String} {rest : List Char} (hgap : Gap gap)
    (hkey : readText cs = .ok (key, rest)) :
    readMembers (fuel + 1) depth true (gap ++ '"' :: cs) = readMember fuel depth key rest := by
  rw [readMembers.eq_def]
  dsimp only
  rw [skipGap_append hgap rfl]
  split
  · next heq => cases heq
  · next heq => exact absurd (List.cons.inj heq).1 (by decide)
  · next heq _ =>
    obtain ⟨-, rfl⟩ := List.cons.inj heq
    rw [hkey]
  · next hne => exact absurd rfl (hne _)
  · next heq => cases heq
  · next heq _ _ _ => cases heq

theorem readMembers_next {gap' : List Char} {key : String} {rest : List Char} (hgap : Gap gap)
    (hgap' : Gap gap') (hkey : readText cs = .ok (key, rest)) :
    readMembers (fuel + 1) depth false (gap ++ ',' :: (gap' ++ '"' :: cs)) =
      readMember fuel depth key rest := by
  rw [readMembers.eq_def]
  dsimp only
  rw [skipGap_append hgap rfl]
  split
  · next heq => cases heq
  · next heq => exact absurd (List.cons.inj heq).1 (by decide)
  · next heq => cases heq
  · next heq _ _ _ => cases heq
  · next heq _ =>
    obtain ⟨-, rfl⟩ := List.cons.inj heq
    rw [skipGap_append hgap' rfl]
    split
    · next heq => cases heq
    · next heq =>
      obtain ⟨-, rfl⟩ := List.cons.inj heq
      rw [hkey]
    · next hne => exact absurd rfl (hne _)
  · next hne => exact absurd rfl (hne _)

theorem readMember_colon {key : String} (hgap : Gap gap) :
    readMember (fuel + 1) depth key (gap ++ ':' :: cs) =
      (.member key (readNode fuel depth cs).1
        (readMembers fuel depth false (readNode fuel depth cs).2).1,
      (readMembers fuel depth false (readNode fuel depth cs).2).2) := by
  rw [readMember, skipGap_append hgap rfl]
  rfl

end

theorem itemsComplete_succ {fuel : ℕ} (hnode : NodeComplete fuel) (hitems : ItemsComplete fuel) :
    ItemsComplete (fuel + 1) := by
  intro depth atStart items xs h hfuel
  have hitem : ∀ {value items' cs behind}, Spells depth value cs →
      SpellsItems depth false items' behind → cs.length + behind.length ≤ fuel + 1 →
      (Items.item value items').fault? = none ∧
        ∀ rest, readNode fuel depth (cs ++ (behind ++ rest)) = (value, behind ++ rest) ∧
          readItems fuel depth false (behind ++ rest) = (items', rest) := by
    intro value items' cs behind hvalue hbehind hlength
    have hpos := length_pos_of_spells hvalue
    have hpos' := length_pos_of_spellsItems hbehind
    obtain ⟨hfault, hread⟩ := hnode hvalue (by omega)
    obtain ⟨hfault', hread'⟩ := hitems hbehind (by omega)
    exact ⟨Items.fault?_item_eq_none_iff.mpr ⟨hfault, hfault'⟩, fun rest =>
      ⟨hread [] (behind ++ rest) nofun (stops_of_spellsItems hbehind rest), hread' rest⟩⟩
  cases h with
  | closed hgap =>
    refine ⟨rfl, fun rest => ?_⟩
    rw [List.append_assoc]
    exact readItems_closed hgap
  | first hgap hvalue hbehind =>
    obtain ⟨c, ys, rfl, hc, hclosing⟩ := exists_cons_of_spells hvalue
    obtain ⟨hfault, hread⟩ := hitem hvalue hbehind (by simp at hfuel ⊢; omega)
    refine ⟨hfault, fun rest => ?_⟩
    obtain ⟨hnode, hitems⟩ := hread rest
    simp only [List.append_assoc, List.cons_append] at hnode ⊢
    rw [readItems_first hgap hc hclosing, hnode, hitems]
  | next hgap hgap' hvalue hbehind =>
    obtain ⟨c, ys, rfl, hc, hclosing⟩ := exists_cons_of_spells hvalue
    obtain ⟨hfault, hread⟩ := hitem hvalue hbehind (by simp at hfuel ⊢; omega)
    refine ⟨hfault, fun rest => ?_⟩
    obtain ⟨hnode, hitems⟩ := hread rest
    simp only [List.append_assoc, List.cons_append] at hnode ⊢
    rw [readItems_next hgap hgap' hc hclosing, hnode, hitems]

theorem membersComplete_succ {fuel : ℕ} (hmember : MemberComplete fuel) :
    MembersComplete (fuel + 1) := by
  intro depth atStart members xs h hfuel
  cases h with
  | closed hgap =>
    refine ⟨rfl, fun rest => ?_⟩
    rw [List.append_assoc]
    exact readMembers_closed hgap
  | @first _ gap cs behind key _ hgap hkey hbehind =>
    obtain ⟨hfault, hread⟩ := hmember hbehind (by simp at hfuel; omega)
    refine ⟨hfault, fun rest => ?_⟩
    have htext : readText (cs ++ (behind ++ rest)) = .ok (key, behind ++ rest) :=
      readText_eq_ok_iff.mpr ⟨cs, hkey, rfl⟩
    simp only [List.append_assoc, List.cons_append]
    rw [readMembers_first hgap htext, hread]
  | @next _ gap gap' cs behind key _ hgap hgap' hkey hbehind =>
    obtain ⟨hfault, hread⟩ := hmember hbehind (by simp at hfuel; omega)
    refine ⟨hfault, fun rest => ?_⟩
    have htext : readText (cs ++ (behind ++ rest)) = .ok (key, behind ++ rest) :=
      readText_eq_ok_iff.mpr ⟨cs, hkey, rfl⟩
    simp only [List.append_assoc, List.cons_append]
    rw [readMembers_next hgap hgap' htext, hread]

theorem memberComplete_succ {fuel : ℕ} (hnode : NodeComplete fuel)
    (hmembers : MembersComplete fuel) : MemberComplete (fuel + 1) := by
  intro depth key members xs h hfuel
  cases h with
  | mk hgap hgap' hvalue hbehind =>
    obtain ⟨hfault, hread⟩ := hnode hvalue (by simp at hfuel; omega)
    obtain ⟨hfault', hread'⟩ := hmembers hbehind (by simp at hfuel; omega)
    refine ⟨Members.fault?_member_eq_none_iff.mpr ⟨hfault, hfault'⟩, fun rest => ?_⟩
    simp only [List.append_assoc, List.cons_append]
    rw [readMember_colon hgap, hread _ _ hgap' (stops_of_spellsMembers hbehind rest), hread']

/-- What is written is read by any call with as much fuel as characters. -/
theorem read_complete (fuel : ℕ) :
    NodeComplete fuel ∧ ItemsComplete fuel ∧ MembersComplete fuel ∧ MemberComplete fuel := by
  induction fuel with
  | zero =>
    refine ⟨?_, ?_, ?_, ?_⟩
    · intro depth node xs h hfuel
      exact absurd (length_pos_of_spells h) (by omega)
    · intro depth atStart items xs h hfuel
      exact absurd (length_pos_of_spellsItems h) (by omega)
    · intro depth atStart members xs h hfuel
      cases h <;> simp at hfuel
    · intro depth key members xs h hfuel
      cases h
      simp at hfuel
  | succ fuel ih =>
    obtain ⟨hnode, hitems, hmembers, hmember⟩ := ih
    exact ⟨nodeComplete_succ hitems hmembers, itemsComplete_succ hnode hitems,
      membersComplete_succ hmember, memberComplete_succ hnode hmembers⟩

/-! ## Documents -/

/-- A text is read as a value exactly if it writes that value, and then it has no fault and nothing
behind. -/
theorem writes_iff {text : String} {node : Node} :
    Writes text node ↔ (readDocument text).value = node ∧ node.fault? = none ∧
      (readDocument text).trailing = none := by
  constructor
  · rintro ⟨before, cs, after, hbefore, hafter, hcs, htext⟩
    have hlength : cs.length ≤ 3 * text.toList.length + 4 := by
      rw [htext]
      simp only [List.length_append]
      omega
    obtain ⟨hfault, hread⟩ := (read_complete _).1 hcs hlength
    have hstops : Stops after := List.append_nil after ▸ stops_of_gap hafter nofun
    have hdocument := hread before after hbefore hstops
    rw [← List.append_assoc, ← htext] at hdocument
    refine ⟨by rw [readDocument]; exact congrArg Prod.fst hdocument, hfault, ?_⟩
    rw [readDocument]
    dsimp only
    rw [hdocument, skipGap_of_gap hafter]
    rfl
  · rintro ⟨rfl, hfault, htrailing⟩
    rw [readDocument] at hfault htrailing ⊢
    dsimp only at hfault htrailing ⊢
    obtain ⟨before, cs, hbefore, hcs, htext⟩ := (read_sound _).1 (Prod.mk.eta).symm hfault
    refine ⟨before, cs, _, hbefore, ?_, hcs, htext⟩
    split_ifs at htrailing with hgap
    exact gap_of_skipGap_eq_nil (List.isEmpty_iff.mp hgap)

end CacheModel.Json
