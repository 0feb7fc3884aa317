import WordMachine.Proofs.Draft

/-!
# Which programs are laid out

Five rules say what a program has to be, each as a property of all its lines at once. A layout goes
through the lines one by one and knows of those before only which labels they define and whether one
held an instruction. That is enough: a line is taken in exactly when it breaks no rule after the
lines before it, and otherwise the failure tells of the first rule broken (`rules_of_add`,
`rule_of_add`). So a program that is laid out keeps the rules (`rules_of_draft`), and a failure is
charged to the first line at which they are no longer kept (`firstBroken_of_build`).
-/

namespace WordMachine

open Text

def labelOf? (text : String) : Option String := (CodeLine.parse? text).bind CodeLine.label

/-- A name made of ASCII letters and digits, at least one. -/
def IsAlphanumeric (name : String) : Prop := name ≠ "" ∧ ∀ c ∈ name.toList, c.isAlphanum = true

def IsDeclaration (text : String) : Prop :=
  ∃ l op, CodeLine.parse? text = some l ∧ l.mnemonic? = some (.data op)

/-- A line that names a mnemonic other than those of declarations. -/
def IsInstruction (text : String) : Prop :=
  ∃ l m, CodeLine.parse? text = some l ∧ l.mnemonic? = some m ∧ ∀ op, m ≠ .data op

/-- The rules of a program, in the order in which a line is held to them. -/
inductive Rule where
  | labelsDistinct
  | labelsNamed
  | mnemonicsKnown
  | dataFirst
  | operandsDeclare
  deriving DecidableEq, Repr

namespace Rule

def rank : Rule → Nat
  | labelsDistinct => 0
  | labelsNamed => 1
  | mnemonicsKnown => 2
  | dataFirst => 3
  | operandsDeclare => 4

/-- Whether the lines of a program keep a rule. -/
def Holds (ls : List String) : Rule → Prop
  | labelsDistinct => (ls.filterMap labelOf?).Nodup
  | labelsNamed => ∀ t ∈ ls, ∀ name, labelOf? t = some name → IsAlphanumeric name
  | mnemonicsKnown => ∀ t ∈ ls, ∀ l, CodeLine.parse? t = some l → ∃ m, l.mnemonic? = some m
  | dataFirst => ls.Pairwise fun a b => ¬ (IsInstruction a ∧ IsDeclaration b)
  | operandsDeclare => ∀ t ∈ ls, ∀ l op, CodeLine.parse? t = some l →
      l.mnemonic? = some (.data op) → ∃ c, Literal.Declares op l.operand c

/-- Whether a line breaks a rule after the lines before it. -/
def BrokenBy (before : List String) (t : String) : Rule → Prop
  | labelsDistinct => ∃ name, labelOf? t = some name ∧ name ∈ before.filterMap labelOf?
  | labelsNamed => ∃ name, labelOf? t = some name ∧ ¬ IsAlphanumeric name
  | mnemonicsKnown => ∃ l, CodeLine.parse? t = some l ∧ l.mnemonic? = none
  | dataFirst => IsDeclaration t ∧ ∃ a ∈ before, IsInstruction a
  | operandsDeclare => ∃ l op, CodeLine.parse? t = some l ∧ l.mnemonic? = some (.data op)
      ∧ ¬ ∃ c, Literal.Declares op l.operand c

variable {r : Rule} {before ls ls' : List String} {t : String}

theorem holds_nil (r : Rule) : r.Holds [] := by
  cases r <;> simp [Holds]

theorem Holds.sublist (h : r.Holds ls) (hs : ls'.Sublist ls) : r.Holds ls' := by
  cases r with
  | labelsDistinct => exact List.Nodup.sublist (hs.filterMap labelOf?) h
  | labelsNamed => exact fun t ht => h t (hs.subset ht)
  | mnemonicsKnown => exact fun t ht => h t (hs.subset ht)
  | dataFirst => exact List.Pairwise.sublist hs h
  | operandsDeclare => exact fun t ht => h t (hs.subset ht)

/-- One more line keeps a rule when it does not break it. -/
theorem holds_append_iff : r.Holds (before ++ [t]) ↔ r.Holds before ∧ ¬ r.BrokenBy before t := by
  cases r with
  | labelsDistinct =>
    simp only [Holds, BrokenBy, List.filterMap_append]
    rcases hl : labelOf? t with _ | name
    · simp [hl]
    · simp only [List.filterMap_cons, hl, List.filterMap_nil, List.nodup_append, List.nodup_cons,
        List.nodup_nil, List.not_mem_nil, not_false_eq_true, List.mem_singleton, forall_eq,
        true_and, Option.some.injEq, exists_eq_left']
      refine and_congr_right fun _ => ⟨fun h hmem => h name hmem rfl, fun h a ha he => ?_⟩
      rw [he] at ha
      exact h ha
  | labelsNamed =>
    simp only [Holds, BrokenBy, List.forall_mem_append, List.forall_mem_singleton, not_exists,
      not_and, not_not]
  | mnemonicsKnown =>
    simp only [Holds, BrokenBy, List.forall_mem_append, List.forall_mem_singleton, not_exists,
      not_and, ← Option.isSome_iff_exists, ← ne_eq, Option.isSome_iff_ne_none]
  | dataFirst =>
    simp only [Holds, BrokenBy, List.pairwise_append, List.pairwise_singleton, true_and,
      List.mem_singleton, forall_eq, not_and, not_exists]
    refine and_congr_right fun _ => ⟨fun h hd a ha hi => ?_, fun h a ha hi hd => ?_⟩
    · exact h a ha hi hd
    · exact h hd a ha hi
  | operandsDeclare =>
    simp only [Holds, BrokenBy, List.forall_mem_append, List.forall_mem_singleton, not_exists,
      not_and, not_forall, not_not]

def FirstBrokenBy (before : List String) (t : String) (r : Rule) : Prop :=
  r.BrokenBy before t ∧ ∀ r' : Rule, r'.rank < r.rank → ¬ r'.BrokenBy before t

/-- Where and how a program first goes wrong: `n` is the least number of its lines that do not keep
the rules, and `r` is the first rule that they do not keep. -/
structure FirstBroken (ls : List String) (n : Nat) (r : Rule) : Prop where
  one_le : 1 ≤ n
  le_length : n ≤ ls.length
  before : ∀ k < n, ∀ r' : Rule, r'.Holds (ls.take k)
  broken : ¬ r.Holds (ls.take n)
  earlier : ∀ r' : Rule, r'.rank < r.rank → r'.Holds (ls.take n)

end Rule

def Cause.rule? : Cause → Option Rule
  | .duplicateLabel .. => some .labelsDistinct
  | .invalidLabel _ => some .labelsNamed
  | .unknownInstruction _ => some .mnemonicsKnown
  | .dataAfterCode _ => some .dataFirst
  | .literal _ => some .operandsDeclare
  | _ => none

/-- A failure tells that a line breaks a rule: it is an error of that kind charged to the line, or
the refusal of a number in an operand or of the room it asks for. -/
def Failure.Tells (f : Failure) (line : Int) (r : Rule) : Prop :=
  (∃ cause, f = .diagnostic ⟨cause, some line⟩ ∧ cause.rule? = some r)
    ∨ r = .operandsDeclare ∧ ∃ e, f = .refusal e

theorem isLabelName_iff {name : String} : isLabelName name = true ↔ IsAlphanumeric name := by
  simp [isLabelName, IsAlphanumeric]

section Line

variable {t : String} {l : CodeLine} {before : List String}

theorem labelOf?_of_parse? (h : CodeLine.parse? t = some l) : labelOf? t = l.label := by
  unfold labelOf?
  rw [h]
  rfl

theorem labelOf?_of_blank (h : CodeLine.parse? t = none) : labelOf? t = none := by
  unfold labelOf?
  rw [h]
  rfl

theorem isInstruction_iff (h : CodeLine.parse? t = some l) :
    IsInstruction t ↔ ∃ m, l.mnemonic? = some m ∧ ∀ op, m ≠ .data op := by
  simp [IsInstruction, h]

theorem isDeclaration_iff (h : CodeLine.parse? t = some l) :
    IsDeclaration t ↔ ∃ op, l.mnemonic? = some (.data op) := by
  simp [IsDeclaration, h]

theorem Rule.not_brokenBy_of_blank (h : CodeLine.parse? t = none) (r : Rule) :
    ¬ r.BrokenBy before t := by
  have hl := labelOf?_of_blank h
  cases r <;> simp [BrokenBy, IsDeclaration, h, hl]

end Line

namespace Layout.Draft

/-- What a draft knows of the lines it went through. -/
structure Knows (ls : List String) (d : Draft) : Prop where
  labels : d.symbols.labels.map Label.name = ls.filterMap labelOf?
  inCode : d.inCode = true ↔ ∃ t ∈ ls, IsInstruction t

variable {d d' d₁ : Draft} {s : Statement} {ls : List String} {l : CodeLine} {f : Failure}

theorem knows_nil : Knows [] {} := ⟨rfl, by simp⟩

theorem Knows.find?_eq_none_iff (hk : Knows ls d) {name : String} :
    d.symbols.find? name = none ↔ name ∉ ls.filterMap labelOf? := by
  rw [← hk.labels]
  simp [Symbols.find?]

theorem names_define {label : Option String} (h : d.define s label = .ok d₁) :
    d₁.symbols.labels.map Label.name = d.symbols.labels.map Label.name ++ label.toList := by
  rcases define_cases h with ⟨rfl, rfl⟩ | ⟨name, rfl, -, -, rfl⟩ <;> simp

theorem inCode_holding {c : Chunk} (h : d.grant s l = .ok c) :
    (d.holding c).inCode = true ↔
      d.inCode = true ∨ ∃ m, l.mnemonic? = some m ∧ ∀ op, m ≠ .data op := by
  rcases grant_cases h with ⟨op, hm, -, hdecl⟩ | ⟨m, hm, hcode, rfl⟩
  · rw [inCode_holding_of_declares hdecl, hm]
    simp
  · exact ⟨fun _ => .inr ⟨m, hm, hcode⟩, fun _ => by simp [holding, Chunk.isCode]⟩

theorem Knows.add (hk : Knows ls d) (h : d.add s = .ok d') : Knows (ls ++ [s.text]) d' := by
  rcases add_cases h with ⟨hp, rfl⟩ | ⟨l, d₁, c, hp, hd, hc, rfl⟩
  · refine ⟨?_, ?_⟩
    · simpa [push, labelOf?_of_blank hp] using hk.labels
    · simpa [push, IsInstruction, hp] using hk.inCode
  · refine ⟨?_, ?_⟩
    · show d₁.symbols.labels.map Label.name = _
      rw [names_define hd, hk.labels, List.filterMap_append,
        ← labelOf?_of_parse? hp]
      rcases hl : labelOf? s.text with _ | name <;> simp [hl]
    · show (d₁.holding c).inCode = true ↔ _
      rw [inCode_holding hc, inCode_define hd, hk.inCode, ← isInstruction_iff hp]
      simp [or_and_right, exists_or]

section Labels

variable (hk : Knows ls d) (hp : CodeLine.parse? s.text = some l)
include hk hp

theorem Knows.rules_of_define (h : d.define s l.label = .ok d₁) :
    ¬ Rule.labelsDistinct.BrokenBy ls s.text ∧ ¬ Rule.labelsNamed.BrokenBy ls s.text := by
  simp only [Rule.BrokenBy, labelOf?_of_parse? hp, ← isLabelName_iff]
  rcases define_cases h with ⟨hl, -⟩ | ⟨name, hl, hnew, hname, -⟩ <;> rw [hl]
  · simp
  · rw [hk.find?_eq_none_iff] at hnew
    refine ⟨?_, by simp [hname]⟩
    rintro ⟨name', hn', hmem⟩
    cases hn'
    exact hnew hmem

theorem Knows.rule_of_define (h : d.define s l.label = .error f) :
    ∃ r : Rule, r.FirstBrokenBy ls s.text ∧ f.Tells s.line r := by
  have hl := labelOf?_of_parse? hp
  obtain ⟨name, hname, ⟨first, hf, rfl⟩ | ⟨hf, hbad, rfl⟩⟩ := define_error h
  · refine ⟨.labelsDistinct, ⟨⟨name, hl.trans hname, ?_⟩, fun r' hr => ?_⟩, .inl ⟨_, rfl, rfl⟩⟩
    · by_contra hnew
      rw [← hk.find?_eq_none_iff, hf] at hnew
      cases hnew
    · cases r' <;> simp [Rule.rank] at hr
  · refine ⟨.labelsNamed, ⟨⟨name, hl.trans hname, ?_⟩, fun r' hr => ?_⟩, .inl ⟨_, rfl, rfl⟩⟩
    · rw [← isLabelName_iff, hbad]
      simp
    · cases r' <;> simp only [Rule.rank] at hr <;> try omega
      rintro ⟨name', hn', hmem⟩
      rw [hl, hname] at hn'
      cases hn'
      exact hk.find?_eq_none_iff.1 hf hmem

end Labels

section Chunks

variable (hin : d.inCode = true ↔ ∃ t ∈ ls, IsInstruction t)
  (hp : CodeLine.parse? s.text = some l)
include hin hp

theorem rules_of_grant {c : Chunk} (h : d.grant s l = .ok c) :
    ¬ Rule.mnemonicsKnown.BrokenBy ls s.text ∧ ¬ Rule.dataFirst.BrokenBy ls s.text
      ∧ ¬ Rule.operandsDeclare.BrokenBy ls s.text := by
  simp only [Rule.BrokenBy, isDeclaration_iff hp, hp, Option.some.injEq, ← hin]
  rcases grant_cases h with ⟨op, hm, hcode, hdecl⟩ | ⟨m, hm, hcode, -⟩
  · refine ⟨by simp [hm], by simp [hcode], ?_⟩
    rintro ⟨l', op', rfl, hm', hno⟩
    rw [hm] at hm'
    cases hm'
    exact hno ⟨c, hdecl⟩
  · have hnot : ∀ op, l.mnemonic? ≠ some (.data op) := by
      intro op hop
      rw [hm] at hop
      cases hop
      exact hcode op rfl
    refine ⟨by simp [hm], ?_, ?_⟩
    · rintro ⟨⟨op, hop⟩, -⟩
      exact hnot op hop
    · rintro ⟨l', op, rfl, hop, -⟩
      exact hnot op hop

/-- A chunk is not granted for the first rule that its line breaks, those on labels aside. -/
theorem rule_of_grant (h : d.grant s l = .error f)
    (hdistinct : ¬ Rule.labelsDistinct.BrokenBy ls s.text)
    (hnamed : ¬ Rule.labelsNamed.BrokenBy ls s.text) :
    ∃ r : Rule, r.FirstBrokenBy ls s.text ∧ f.Tells s.line r := by
  rcases grant_error h with ⟨hm, rfl⟩ | ⟨op, hm, h⟩
  · refine ⟨.mnemonicsKnown, ⟨⟨l, hp, hm⟩, fun r' hr => ?_⟩, .inl ⟨_, rfl, rfl⟩⟩
    cases r' <;> first | assumption | exact absurd hr (by decide)
  have hknown : ¬ Rule.mnemonicsKnown.BrokenBy ls s.text := by
    simp [Rule.BrokenBy, hp, hm]
  rcases h with ⟨hcode, rfl⟩ | ⟨hcode, h⟩
  · refine ⟨.dataFirst, ⟨⟨⟨l, op, hp, hm⟩, hin.1 hcode⟩, fun r' hr => ?_⟩, .inl ⟨_, rfl, rfl⟩⟩
    cases r' <;> first | assumption | exact absurd hr (by decide)
  · have hfirst : ¬ Rule.dataFirst.BrokenBy ls s.text := by
      simp [Rule.BrokenBy, ← hin, hcode]
    have hno : ¬ ∃ c, Literal.Declares op l.operand c := by
      rintro ⟨c, hc⟩
      rw [DataOp.grant_eq_ok_iff.2 hc] at h
      cases h
    refine ⟨.operandsDeclare, ⟨⟨l, op, hp, hm, hno⟩, fun r' hr => ?_⟩, ?_⟩
    · cases r' <;> first | assumption | exact absurd hr (by decide)
    · rcases DataOp.grant_error h with ⟨e, rfl⟩ | ⟨e, rfl, -⟩
      · exact .inl ⟨_, rfl, rfl⟩
      · exact .inr ⟨rfl, e, rfl⟩

end Chunks

/-- A line that is taken in breaks no rule. -/
theorem Knows.rules_of_add (hk : Knows ls d) (h : d.add s = .ok d') (r : Rule) :
    ¬ r.BrokenBy ls s.text := by
  rcases add_cases h with ⟨hp, -⟩ | ⟨l, d₁, c, hp, hd, hc, -⟩
  · exact r.not_brokenBy_of_blank hp
  · -- the table now holds the label of this line too, and what was known of the flag still stands
    have hin := hk.inCode
    rw [← inCode_define hd] at hin
    obtain ⟨hdistinct, hnamed⟩ := hk.rules_of_define hp hd
    obtain ⟨hknown, hfirst, hdecl⟩ := rules_of_grant hin hp hc
    cases r <;> assumption

/-- A line that is not taken in breaks a rule, and the failure tells of the first. -/
theorem Knows.rule_of_add (hk : Knows ls d) (h : d.add s = .error f) :
    ∃ r : Rule, r.FirstBrokenBy ls s.text ∧ f.Tells s.line r := by
  obtain ⟨l, hp, h | ⟨d₁, hd, h⟩⟩ := add_error h
  · exact hk.rule_of_define hp h
  · have hin := hk.inCode
    rw [← inCode_define hd] at hin
    obtain ⟨hdistinct, hnamed⟩ := hk.rules_of_define hp hd
    exact rule_of_grant hin hp h hdistinct hnamed

end Layout.Draft

section Program

variable {program done rest : List Statement} {s : Statement} {d : Layout.Draft} {f : Failure}

theorem map_text_statements (source : String) :
    (statements source).map Statement.text = lines source := by
  simp [statements, Function.comp_def]

theorem index_of_statements {source : String} (h : statements source = done ++ s :: rest) :
    s.index = done.length := by
  have hs : (statements source)[done.length]? = some s := by
    rw [h]
    simp
  unfold statements at hs
  rw [List.getElem?_map, List.getElem?_zipIdx] at hs
  rcases hl : (lines source)[done.length]? with _ | text <;> rw [hl] at hs
  · cases hs
  · cases hs
    simp

theorem rules_of_draft (h : program.foldlM Layout.Draft.add {} = .ok d) :
    d.Knows (program.map Statement.text) ∧ ∀ r : Rule, r.Holds (program.map Statement.text) := by
  refine foldlM_induct (P := fun done d => Layout.Draft.Knows (done.map Statement.text) d
    ∧ ∀ r : Rule, r.Holds (done.map Statement.text)) ?_ program []
    ⟨Layout.Draft.knows_nil, Rule.holds_nil⟩ h
  rintro done d s d' ⟨hk, hr⟩ ha
  rw [List.map_append]
  exact ⟨hk.add ha, fun r => Rule.holds_append_iff.2 ⟨hr r, hk.rules_of_add ha r⟩⟩

theorem Rule.FirstBrokenBy.firstBroken {before rest : List String} {t : String} {r : Rule}
    (hr : r.FirstBrokenBy before t) (hbefore : ∀ r' : Rule, r'.Holds before) :
    r.FirstBroken (before ++ t :: rest) (before.length + 1) := by
  have htake : (before ++ t :: rest).take (before.length + 1) = before ++ [t] := by
    simp [List.take_append, List.take_of_length_le]
  refine ⟨by omega, by simp, fun k hk r' => ?_, ?_, fun r' hr' => ?_⟩
  · rw [List.take_append_of_le_length (by omega)]
    exact (hbefore r').sublist (List.take_sublist k before)
  · rw [htake, holds_append_iff]
    exact fun h => h.2 hr.1
  · rw [htake, holds_append_iff]
    exact ⟨hbefore r', hr.2 r' hr'⟩

theorem rules_of_build {source : String} {l : Layout}
    (h : Layout.build (statements source) = .ok l) (r : Rule) : r.Holds (lines source) := by
  unfold Layout.build at h
  obtain ⟨d, hd, -⟩ := bind_eq_ok.1 h
  rw [← map_text_statements]
  exact (rules_of_draft hd).2 r

/-- A layout that fails does so at the line with which the rules are first no longer kept. -/
theorem failure_of_build {source : String} (h : Layout.build (statements source) = .error f) :
    ∃ (n : Nat) (s : Statement) (d : Layout.Draft) (r : Rule),
      (lines source)[n]? = some s.text ∧ d.add s = .error f
        ∧ r.FirstBroken (lines source) (n + 1) ∧ f.Tells (n + 1) r := by
  unfold Layout.build at h
  rcases bind_eq_error.1 h with h | ⟨d, -, h⟩
  · obtain ⟨done, s, rest, d, hsplit, hdone, hs⟩ := foldlM_error h
    obtain ⟨hk, hbefore⟩ := rules_of_draft hdone
    obtain ⟨r, hr, ht⟩ := hk.rule_of_add hs
    refine ⟨done.length, s, d, r, ?_, hs, ?_, ?_⟩
    · rw [← map_text_statements, hsplit]
      simp
    · rw [← map_text_statements, hsplit, List.map_append, List.map_cons]
      simpa using hr.firstBroken hbefore
    · rw [Statement.line, index_of_statements hsplit] at ht
      exact ht
  · cases h

theorem firstBroken_of_build {source : String} (h : Layout.build (statements source) = .error f) :
    ∃ (n : Nat) (r : Rule), r.FirstBroken (lines source) n ∧ f.Tells n r := by
  obtain ⟨n, s, d, r, -, -, hr, ht⟩ := failure_of_build h
  exact ⟨n + 1, r, hr, ht⟩

/-- A program is laid out exactly when it keeps the rules. When it is not, the failure is charged to
the first line with which they are no longer kept, and tells of the first that is not. -/
theorem build_ok_iff_rules (source : String) :
    ((∃ l, Layout.build (statements source) = .ok l) ↔ ∀ r : Rule, r.Holds (lines source))
      ∧ ∀ f, Layout.build (statements source) = .error f →
        ∃ (n : Nat) (r : Rule), r.FirstBroken (lines source) n ∧ f.Tells n r := by
  refine ⟨⟨?_, fun hr => ?_⟩, fun f => firstBroken_of_build⟩
  · rintro ⟨l, h⟩
    unfold Layout.build at h
    obtain ⟨d, hd, -⟩ := bind_eq_ok.1 h
    rw [← map_text_statements]
    exact (rules_of_draft hd).2
  · rcases h : Layout.build (statements source) with f | l
    · obtain ⟨n, r, hb, -⟩ := firstBroken_of_build h
      exact absurd ((hr r).sublist (List.take_sublist n _)) hb.broken
    · exact ⟨l, rfl⟩

/-- The last line declares data after an instruction, and above all defines a label again. -/
theorem build_ok_iff_rules_twice :
    Layout.build (statements "X DC 2*-7\nLR 0,0\nX DS 1")
        = .error (.atLine 3 (.duplicateLabel "X" (some 1)))
      ∧ ∃ (n : Nat) (r : Rule), r.FirstBroken (lines "X DC 2*-7\nLR 0,0\nX DS 1") n
        ∧ (Failure.atLine 3 (.duplicateLabel "X" (some 1))).Tells n r :=
  have h : Layout.build (statements "X DC 2*-7\nLR 0,0\nX DS 1")
      = .error (.atLine 3 (.duplicateLabel "X" (some 1))) := by decide +kernel
  ⟨h, (build_ok_iff_rules _).2 _ h⟩

/-- The words asked for are bytes that can be counted, and no other rule is broken, but there is no
room for them. -/
theorem build_refuses_room :
    (∀ r : Rule, r ≠ .operandsDeclare → r.Holds (lines "X DS 2305843009213693951*1"))
      ∧ (∀ t ∈ lines "X DS 2305843009213693951*1", ∃ l n, CodeLine.parse? t = some l
        ∧ l.mnemonic? = some (.data .space) ∧ Literal.AsksFor .space l.operand (.zeros n)
        ∧ n * Word.bytes < indexLimit)
      ∧ Layout.build (statements "X DS 2305843009213693951*1")
        = .error (.refusal .roomTooLarge) := by
  have hlines : lines "X DS 2305843009213693951*1" = ["X DS 2305843009213693951*1"] := by
    decide +kernel
  have hbuild : Layout.build (statements "X DS 2305843009213693951*1")
      = .error (.refusal .roomTooLarge) := by
    decide +kernel
  refine ⟨fun r hr => ?_, fun t ht => ?_, hbuild⟩
  · obtain ⟨n, r', hb, ⟨cause, hf, -⟩ | ⟨rfl, -⟩⟩ := firstBroken_of_build hbuild
    · cases hf
    · have hrank : r.rank < Rule.operandsDeclare.rank := by
        cases r <;> first | exact absurd rfl hr | decide
      have hholds := hb.earlier r hrank
      rwa [List.take_of_length_le (by simpa [hlines] using hb.one_le)] at hholds
  · rw [hlines, List.mem_singleton] at ht
    subst ht
    have hparse : CodeLine.parse? "X DS 2305843009213693951*1"
        = some ⟨"X", some "X", "DS", ["2305843009213693951*1"]⟩ := by
      decide +kernel
    refine ⟨_, 2305843009213693951, hparse, by decide +kernel, ?_, by decide⟩
    exact (@DataOp.chunk_eq_ok_iff .space _ 1 _).1 (by decide +kernel)

end Program

end WordMachine
