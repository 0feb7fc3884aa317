import WordMachine.Proofs.Acceptance

/-!
# Operands that escape the layout's own errors

A layout means to report what is wrong with a program as an error of its own, charged to a line. It
does so but for declarations with a number that looks right and cannot be used: a count with a
character that only looks like a digit, a count or a value with more digits than are converted, and
a count too large for the room it asks for. `Literal.Unreadable` tells such operands by their text,
and they are exactly those for which a number or its room is refused (`grant_refusal_iff`).
-/

namespace WordMachine

open Text

namespace Literal

/-- A text that looks like a number and is not converted to one. -/
def UnreadableCount (text : List Char) : Prop :=
  text ≠ [] ∧ (∀ c ∈ text, isDigitLike c = true)
    ∧ ((∃ c ∈ text, isDecimal c = false) ∨ Numeral.maxDigits < text.length)

/-- A text whose first number has more digits than are converted. -/
def OverlongNumber (text : List Char) : Prop :=
  ∃ before digits rest, text = before ++ digits ++ rest
    ∧ (∀ c ∈ before, isDecimal c = false) ∧ (∀ c ∈ rest.head?, isDecimal c = false)
    ∧ (∀ c ∈ digits, isDecimal c = true) ∧ Numeral.maxDigits < digits.length

/-- An operand with a number that cannot be used, though nothing else is wrong with it so far. -/
inductive Unreadable : DataOp → List Char → Prop
  | count {op : DataOp} {count text : List Char} (hcount : '*' ∉ count) (htext : '*' ∉ text)
    (h : UnreadableCount count) : Unreadable op (count ++ '*' :: text)
  | value {operand text : List Char} {n : Nat} (hrep : Repeats operand n text)
    (h : OverlongNumber text) : Unreadable .constant operand
  | words {operand text : List Char} {n : Nat} {v : Int} (hrep : Repeats operand n text)
    (hv : FirstNumber text v) (hfits : Word.Fits v) (hn : indexLimit ≤ n) :
    Unreadable .constant operand
  | space {operand text : List Char} {n : Nat} (hrep : Repeats operand n text)
    (hn : Memory.maxRoom < n * Word.bytes) : Unreadable .space operand

section Number

variable {text : List Char} {line : Int}

theorem read_error_iff (hne : text ≠ []) : (∃ e, Numeral.read text = .error e)
    ↔ (∃ c ∈ text, isDecimal c = false) ∨ Numeral.maxDigits < text.length := by
  constructor
  · rintro ⟨e, he⟩
    by_contra hno
    simp only [not_or, not_exists, not_and, Bool.not_eq_false, not_lt] at hno
    rw [read_eq_ok_iff.2 ⟨hne, hno.1, hno.2, rfl⟩] at he
    cases he
  · intro hbad
    rcases hr : Numeral.read text with e | n
    · exact ⟨e, rfl⟩
    · obtain ⟨-, hdec, hlen, -⟩ := read_eq_ok_iff.1 hr
      rcases hbad with ⟨c, hc, hno⟩ | hlong
      · rw [hdec c hc] at hno
        cases hno
      · omega

theorem count_refusal_iff :
    (∃ r, count text line = .error (.refusal r)) ↔ UnreadableCount text := by
  unfold count
  split_ifs with hlike
  · simp only [Bool.or_eq_true, List.isEmpty_iff, Bool.not_eq_true', List.all_eq_false] at hlike
    constructor
    · rintro ⟨r, hr⟩
      cases hr
    · rintro ⟨hne, hall, -⟩
      rcases hlike with hnil | ⟨c, hc, hno⟩
      · exact absurd hnil hne
      · exact absurd (hall c hc) hno
  · simp only [Bool.or_eq_true, List.isEmpty_iff, Bool.not_eq_true', List.all_eq_false, not_or,
      not_exists, not_and, not_not] at hlike
    have hread := read_error_iff hlike.1
    simp only [UnreadableCount, ← hread, hlike.1, ne_eq, not_false_eq_true, true_and]
    rcases Numeral.read text with e | n
    · exact ⟨fun _ => ⟨hlike.2, e, rfl⟩, fun _ => ⟨_, rfl⟩⟩
    · simp

theorem value_refusal_iff :
    (∃ r, value text line = .error (.refusal r)) ↔ OverlongNumber text := by
  unfold value
  constructor
  · rintro ⟨r, hr⟩
    rcases hf : find? text with _ | ⟨negative, digits⟩ <;> rw [hf] at hr
    · simp [fault, Failure.atLine] at hr
    · obtain ⟨before, rest, htext, hbefore, hrest, hne, hdigits, -⟩ := find?_eq_some_iff.1 hf
      refine ⟨before, digits, rest, htext, hbefore, hrest, hdigits, ?_⟩
      rcases hn : Numeral.read digits with e | n
      · rcases (read_error_iff hne).1 ⟨e, hn⟩ with ⟨c, hc, hno⟩ | hlong
        · rw [hdigits c hc] at hno
          cases hno
        · exact hlong
      · simp only [hn] at hr
        split_ifs at hr <;> simp [fault, Failure.atLine] at hr
  · rintro ⟨before, digits, rest, htext, hbefore, hrest, hdigits, hlong⟩
    have hne : digits ≠ [] := by
      rintro rfl
      simp at hlong
    have hf := find?_eq_some_iff.2 ⟨before, rest, htext, hbefore, hrest, hne, hdigits, rfl⟩
    obtain ⟨e, he⟩ := (read_error_iff hne).2 (.inr hlong)
    exact ⟨.numeral e, by simp only [hf, he]⟩

end Number

section Operand

variable {operand : List Char} {line : Int}

theorem OverlongNumber.ne_nil (h : OverlongNumber operand) : operand ≠ [] := by
  obtain ⟨before, digits, rest, rfl, -, -, -, hlong⟩ := h
  intro hnil
  simp only [List.append_eq_nil_iff] at hnil
  simp [hnil.1.2] at hlong

theorem constant_refusal {r : Refusal} (h : constant operand line = .error (.refusal r)) :
    Unreadable .constant operand := by
  unfold constant at h
  split at h
  · cases h
  · rename_i text hparts
    obtain ⟨rfl, hstar⟩ := eq_of_parts hparts
    rcases bind_eq_error.1 h with h | ⟨v, -, h⟩
    · simp only [List.flatMap_nil, List.append_nil]
      exact .value (.once (hstar text (by simp))) (value_refusal_iff.1 ⟨r, h⟩)
    · cases h
  · rename_i times text hparts
    obtain ⟨rfl, hstar⟩ := eq_of_parts hparts
    have htimes := hstar times (by simp)
    have htext := hstar text (by simp)
    simp only [List.flatMap_cons, List.flatMap_nil, List.append_nil]
    rcases bind_eq_error.1 h with h | ⟨n, hn, h⟩
    · exact .count htimes htext (count_refusal_iff.1 ⟨r, h⟩)
    rcases bind_eq_error.1 h with h | ⟨v, hv, h⟩
    · exact .value (.times htimes htext (count_eq_ok_iff.1 hn)) (value_refusal_iff.1 ⟨r, h⟩)
    · cases h
  · cases h

theorem space_refusal {r : Refusal} (h : space operand line = .error (.refusal r)) :
    Unreadable .space operand := by
  unfold space at h
  split at h
  · cases h
  · cases h
  · rename_i times text hparts
    obtain ⟨rfl, hstar⟩ := eq_of_parts hparts
    simp only [List.flatMap_cons, List.flatMap_nil, List.append_nil]
    rcases bind_eq_error.1 h with h | ⟨n, hn, h⟩
    · exact .count (hstar times (by simp)) (hstar text (by simp)) (count_refusal_iff.1 ⟨r, h⟩)
    · cases h
  · cases h

/-- An operand for which there is no room is unreadable for its count. -/
theorem AsksFor.unreadable {op : DataOp} {c : Chunk} (h : AsksFor op operand c)
    (hroom : c.refusal? ≠ none) : Unreadable op operand := by
  cases h with
  | constant hrep hv hfits =>
    rw [ne_eq, Chunk.refusal?_words, not_lt] at hroom
    exact .words hrep hv hfits hroom
  | space hrep =>
    rw [ne_eq, Chunk.refusal?_zeros, not_le] at hroom
    exact .space hrep hroom

theorem constant_unreadable_iff :
    ((∃ r, constant operand line = .error (.refusal r))
        ∨ ∃ c, constant operand line = .ok c ∧ c.refusal? ≠ none)
      ↔ Unreadable .constant operand := by
  constructor
  · rintro (⟨r, h⟩ | ⟨c, hc, hroom⟩)
    · exact constant_refusal h
    · exact (constant_eq_ok_iff.1 hc).unreadable hroom
  · intro h
    cases h with
    | count hcount htext h =>
      obtain ⟨r, hr⟩ : ∃ r, count _ line = .error (.refusal r) := count_refusal_iff.2 h
      refine .inl ⟨r, ?_⟩
      simp only [constant, parts_append hcount htext, hr]
      rfl
    | value hrep h =>
      obtain ⟨r, hr⟩ : ∃ r, value _ line = .error (.refusal r) := value_refusal_iff.2 h
      refine .inl ⟨r, ?_⟩
      cases hrep with
      | once htext =>
        simp only [constant, parts_of_not_mem h.ne_nil htext, hr]
        rfl
      | times hcount htext hnum =>
        simp only [constant, parts_append hcount htext, count_eq_ok_iff.2 hnum, hr]
        rfl
    | words hrep hv hfits hn =>
      refine .inr ⟨_, constant_eq_ok_iff.2 (.constant hrep hv hfits), ?_⟩
      rwa [ne_eq, Chunk.refusal?_words, not_lt]

theorem space_unreadable_iff :
    ((∃ r, space operand line = .error (.refusal r))
        ∨ ∃ c, space operand line = .ok c ∧ c.refusal? ≠ none)
      ↔ Unreadable .space operand := by
  constructor
  · rintro (⟨r, h⟩ | ⟨c, hc, hroom⟩)
    · exact space_refusal h
    · exact (space_eq_ok_iff.1 hc).unreadable hroom
  · intro h
    cases h with
    | count hcount htext h =>
      obtain ⟨r, hr⟩ : ∃ r, count _ line = .error (.refusal r) := count_refusal_iff.2 h
      refine .inl ⟨r, ?_⟩
      simp only [space, parts_append hcount htext, hr]
      rfl
    | space hrep hn =>
      refine .inr ⟨_, space_eq_ok_iff.2 (.space hrep), ?_⟩
      rwa [ne_eq, Chunk.refusal?_zeros, not_le]

end Operand

end Literal

theorem DataOp.grant_refusal_iff {op : DataOp} {l : CodeLine} {line : Int} :
    (∃ r, op.grant l.operands line = .error (.refusal r)) ↔ Literal.Unreadable op l.operand := by
  have hgrant : (∃ r, op.grant l.operands line = .error (.refusal r))
      ↔ (∃ r, op.chunk l.operands line = .error (.refusal r))
        ∨ ∃ c, op.chunk l.operands line = .ok c ∧ c.refusal? ≠ none := by
    simp only [grant, bind_eq_error, exists_or, ← Chunk.granted_refusal_iff, ← exists_and_left]
    rw [exists_comm]
  rw [hgrant]
  cases op with
  | constant => exact Literal.constant_unreadable_iff
  | space => exact Literal.space_unreadable_iff

/-- A declaration with a number that cannot be used. -/
def IsUnreadable (text : String) : Prop :=
  ∃ l op, CodeLine.parse? text = some l ∧ l.mnemonic? = some (.data op)
    ∧ Literal.Unreadable op l.operand

/-- An error of the layout, charged to one of so many lines. -/
def Failure.IsLayoutError (f : Failure) (count : Nat) : Prop :=
  ∃ (n : Nat) (cause : Cause), f = .atLine n cause ∧ cause.phase? = some .layout
    ∧ 1 ≤ n ∧ n ≤ count

namespace Rule

theorem eq_of_rank {r r' : Rule} (h : r.rank = r'.rank) : r = r' := by
  cases r <;> cases r' <;> first | rfl | cases h

theorem FirstBroken.unique {ls : List String} {n n' : Nat} {r r' : Rule}
    (h : r.FirstBroken ls n) (h' : r'.FirstBroken ls n') : n = n' ∧ r = r' := by
  have hn : n = n' := by
    rcases Nat.lt_trichotomy n n' with hlt | heq | hgt
    · exact absurd (h'.before n hlt r) h.broken
    · exact heq
    · exact absurd (h.before n' hgt r') h'.broken
  subst hn
  refine ⟨rfl, eq_of_rank ?_⟩
  rcases Nat.lt_trichotomy r.rank r'.rank with hlt | heq | hgt
  · exact absurd (h'.earlier r hlt) h.broken
  · exact heq
  · exact absurd (h.earlier r' hgt) h'.broken

end Rule

section Cause

variable {cause : Cause} {r : Rule}

theorem phase?_of_rule? (h : cause.rule? = some r) : cause.phase? = some .layout := by
  cases cause <;> first | rfl | cases h

theorem literal_of_rule? (h : cause.rule? = some .operandsDeclare) :
    ∃ fault, cause = .literal fault := by
  cases cause <;> cases h
  exact ⟨_, rfl⟩

end Cause

theorem Layout.Draft.grant_of_tells {d : Draft} {s : Statement} {f : Failure} {line : Int}
    (h : d.add s = .error f) (ht : f.Tells line .operandsDeclare) :
    ∃ l op, CodeLine.parse? s.text = some l ∧ l.mnemonic? = some (.data op)
      ∧ op.grant l.operands s.line = .error f := by
  have hother : ∀ cause, f = .atLine s.line cause → cause.rule? = some .operandsDeclare := by
    rintro cause rfl
    rcases ht with ⟨cause', hf, hrule⟩ | ⟨-, e, hf⟩ <;> cases hf
    exact hrule
  obtain ⟨l, hp, h | ⟨d₁, -, h⟩⟩ := add_error h
  · obtain ⟨name, -, ⟨first, -, hf⟩ | ⟨-, -, hf⟩⟩ := define_error h <;> cases hother _ hf
  · obtain ⟨-, hf⟩ | ⟨op, hm, ⟨-, hf⟩ | ⟨-, hc⟩⟩ := grant_error h
    · cases hother _ hf
    · cases hother _ hf
    · exact ⟨l, op, hp, hm, hc⟩

section Source

variable {source : String} {f : Failure}

/-- A failure at an operand is an error of the literal, or the operand is unreadable. -/
theorem failure_at_operand {n : Nat} {t : String}
    (h : Layout.build (statements source) = .error f)
    (hb : Rule.operandsDeclare.FirstBroken (lines source) (n + 1))
    (ht : (lines source)[n]? = some t) :
    (∃ fault, f = .atLine (n + 1) (.literal fault) ∧ ¬ IsUnreadable t)
      ∨ (∃ r, f = .refusal r) ∧ IsUnreadable t := by
  obtain ⟨n', s, d, r, hs, hadd, hb', htells⟩ := failure_of_build h
  obtain ⟨hn, rfl⟩ := hb.unique hb'
  obtain rfl : n = n' := by omega
  rw [ht, Option.some.injEq] at hs
  subst hs
  obtain ⟨l, op, hp, hm, hc⟩ := Layout.Draft.grant_of_tells hadd htells
  have hiff : IsUnreadable s.text ↔ ∃ r, f = .refusal r := by
    have hgrant : (∃ r, op.grant l.operands s.line = .error (.refusal r))
        ↔ Literal.Unreadable op l.operand := DataOp.grant_refusal_iff
    simp only [hc, Except.error.injEq] at hgrant
    simp [IsUnreadable, hp, hm, hgrant]
  rw [hiff]
  rcases htells with ⟨cause, rfl, hrule⟩ | ⟨-, e, rfl⟩
  · obtain ⟨fault, rfl⟩ := literal_of_rule? hrule
    exact .inl ⟨fault, rfl, by simp⟩
  · exact .inr ⟨⟨e, rfl⟩, e, rfl⟩

/-- A program is laid out or fails with an error of the layout charged to one of its lines, unless
the first line at fault is a declaration whose operand is unreadable; any other operand at fault is
reported as an error of its literal. -/
theorem build_own_error_iff (source : String) :
    ((∃ l, Layout.build (statements source) = .ok l)
          ∨ (∃ f, Layout.build (statements source) = .error f
            ∧ f.IsLayoutError (lines source).length)
        ↔ ¬ ∃ (n : Nat) (t : String), Rule.operandsDeclare.FirstBroken (lines source) (n + 1)
          ∧ (lines source)[n]? = some t ∧ IsUnreadable t)
      ∧ ∀ (n : Nat) (t : String), Rule.operandsDeclare.FirstBroken (lines source) (n + 1) →
        (lines source)[n]? = some t → ¬ IsUnreadable t →
          ∃ fault, Layout.build (statements source)
            = .error (.atLine (n + 1) (.literal fault)) := by
  rcases h : Layout.build (statements source) with f | l
  · refine ⟨⟨?_, fun hno => .inr ⟨f, rfl, ?_⟩⟩, fun n t hb ht hread => ?_⟩
    · rintro (⟨l, hl⟩ | ⟨f', hf', n', cause, hcause, -⟩) ⟨n, t, hb, ht, hbad⟩
      · cases hl
      · cases hf'
        rcases failure_at_operand h hb ht with ⟨-, -, hread⟩ | ⟨⟨r, hr⟩, -⟩
        · exact hread hbad
        · rw [hcause] at hr
          cases hr
    · obtain ⟨n, s, d, r, hs, -, hb, ⟨cause, rfl, hrule⟩ | ⟨rfl, e, rfl⟩⟩ := failure_of_build h
      · exact ⟨n + 1, cause, rfl, phase?_of_rule? hrule, hb.one_le, hb.le_length⟩
      · rcases failure_at_operand h hb hs with ⟨fault, hf, -⟩ | ⟨-, hbad⟩
        · cases hf
        · exact absurd ⟨n, s.text, hb, hs, hbad⟩ hno
    · rcases failure_at_operand h hb ht with ⟨fault, rfl, -⟩ | ⟨-, hbad⟩
      · exact ⟨fault, rfl⟩
      · exact absurd hbad hread
  · have hrules := rules_of_build h
    have hnot : ∀ n, ¬ Rule.operandsDeclare.FirstBroken (lines source) n := fun n hb =>
      hb.broken ((hrules _).sublist (List.take_sublist n _))
    refine ⟨⟨?_, fun _ => .inl ⟨l, rfl⟩⟩, fun n t hb => absurd hb (hnot _)⟩
    rintro - ⟨n, t, hb, -⟩
    exact hnot _ hb

/-- A count with nothing to count is an error of the literal. -/
theorem build_own_error_no_number :
    ∃ (n : Nat) (t : String), Rule.operandsDeclare.FirstBroken (lines "X DC 2*") (n + 1)
      ∧ (lines "X DC 2*")[n]? = some t ∧ ¬ IsUnreadable t
      ∧ ∃ fault, Layout.build (statements "X DC 2*")
        = .error (.atLine (n + 1) (.literal fault)) := by
  have h : Layout.build (statements "X DC 2*") = .error (.atLine 1 (.literal (.noNumber ""))) := by
    decide +kernel
  obtain ⟨n, s, d, r, hs, -, hb, ⟨cause, hf, hrule⟩ | ⟨-, e, hf⟩⟩ := failure_of_build h
  · simp only [Failure.atLine, Failure.diagnostic.injEq, Diagnostic.mk.injEq] at hf
    rw [← hf.1] at hrule
    cases hrule
    rcases failure_at_operand h hb hs with ⟨-, -, hread⟩ | ⟨⟨e, hf⟩, -⟩
    · exact ⟨n, s.text, hb, hs, hread, (build_own_error_iff "X DC 2*").2 n s.text hb hs hread⟩
    · cases hf
  · cases hf

/-- A raised digit passes for a count, and so do a count that is too large for one and a count of
words that take too much room. -/
theorem build_own_error_raised_digit :
    Layout.build (statements "X DC ²*1") = .error (.refusal (.numeral (.notDecimal ['²'])))
      ∧ Layout.build (statements "X DS 9223372036854775808*1") = .error (.refusal .countTooLarge)
      ∧ Layout.build (statements "X DS 2305843009213693951*1") = .error (.refusal .roomTooLarge)
      ∧ ∀ source ∈ ["X DC ²*1", "X DS 9223372036854775808*1", "X DS 2305843009213693951*1"],
        ¬ ((∃ l, Layout.build (statements source) = .ok l)
          ∨ ∃ f, Layout.build (statements source) = .error f
            ∧ f.IsLayoutError (lines source).length) := by
  have hdigit : Layout.build (statements "X DC ²*1")
      = .error (.refusal (.numeral (.notDecimal ['²']))) := by
    decide +kernel
  have hlarge : Layout.build (statements "X DS 9223372036854775808*1")
      = .error (.refusal .countTooLarge) := by
    decide +kernel
  have hroom : Layout.build (statements "X DS 2305843009213693951*1")
      = .error (.refusal .roomTooLarge) := by
    decide +kernel
  refine ⟨hdigit, hlarge, hroom, ?_⟩
  simp only [List.forall_mem_cons, hdigit, hlarge, hroom]
  simp [Failure.IsLayoutError, Failure.atLine]

end Source

end WordMachine
