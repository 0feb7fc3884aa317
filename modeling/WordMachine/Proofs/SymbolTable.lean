import WordMachine.Proofs.Labels

/-!
# The table of labels

A line carries a label when its second token is an instruction name. The table of a layout lists the
labels that the lines carry and no others, each where the layout placed its line, so it goes up line
by line and its addresses never go down (`pairwise_labels`). No name is listed twice, so looking a
name up is finding it in the list (`find?_eq_some_iff`). A draft that took a line in finds the label
of that line from then on (`finds_of_draft`), and a line that carries it again is refused before
anything else about it is looked at (`define_of_find?`).
-/

namespace WordMachine

open Text

/-- A line that begins with a name and goes on with an instruction. -/
def Carries (text name : String) : Prop :=
  ∃ second rest, tokens text = name :: second :: rest ∧ isMnemonic second = true

theorem labelOf?_eq_some_iff {text name : String} :
    labelOf? text = some name ↔ Carries text name := by
  unfold labelOf? CodeLine.parse? CodeLine.ofTokens? Carries
  split
  · rename_i ht
    simp [ht]
  · rename_i first ht
    simp [ht]
  · rename_i first second rest ht
    by_cases hm : isMnemonic second = true
    · simp [ht, hm]
    · simp [ht, hm]

section Lookup

variable {t : Symbols} (hnodup : (t.labels.map Label.name).Nodup) (name : String)
include hnodup

theorem Symbols.find?_eq_some_iff (label : Label) :
    t.find? name = some label ↔ label ∈ t.labels ∧ label.name = name := by
  constructor
  · intro h
    exact ⟨List.mem_of_find?_eq_some h, by simpa using List.find?_some h⟩
  · rintro ⟨hmem, rfl⟩
    exact find?_of_mem hnodup hmem

theorem Symbols.addressOf?_eq_some_iff (address : Int) :
    t.addressOf? name = some address
      ↔ ∃ label ∈ t.labels, label.name = name ∧ label.address = address := by
  unfold addressOf?
  simp only [Option.map_eq_some_iff, find?_eq_some_iff hnodup, and_assoc]

theorem Symbols.contains_eq_true_iff :
    t.contains name = true ↔ ∃ label ∈ t.labels, label.name = name := by
  unfold contains
  simp only [Option.isSome_iff_exists, find?_eq_some_iff hnodup]

end Lookup

section Order

variable {source : String} {l : Layout}

theorem pairwise_statements (h : Layout.build (statements source) = .ok l) :
    l.statements.Pairwise fun s t => s.index < t.index ∧ s.address ≤ t.address := by
  rw [List.pairwise_iff_getElem]
  intro i j hi hj hij
  have hsi := List.getElem?_eq_getElem hi
  have hsj := List.getElem?_eq_getElem hj
  rw [(statement_of_build h hsi).2.1, (statement_of_build h hsj).2.1,
    Layout.build_placed h i _ hsi, Layout.build_placed h j _ hsj]
  exact ⟨by omega, extent_take_mono (size_nonneg_of_build h) (Nat.le_of_lt hij)⟩

theorem pairwise_labels (h : Layout.build (statements source) = .ok l) :
    l.symbols.labels.Pairwise fun a b => a.line < b.line ∧ a.address ≤ b.address := by
  rw [Layout.labels_of_build h, List.pairwise_filterMap]
  refine (pairwise_statements h).imp fun hst a ha b hb => ?_
  obtain ⟨name, -, rfl⟩ := Option.map_eq_some_iff.1 ha
  obtain ⟨name', -, rfl⟩ := Option.map_eq_some_iff.1 hb
  exact hst

theorem mem_labels_iff (h : Layout.build (statements source) = .ok l) (label : Label) :
    label ∈ l.symbols.labels ↔ ∃ (i : Nat) (s : Statement), (lines source)[i]? = some s.text
      ∧ l.statements[i]? = some s ∧ Carries s.text label.name ∧ label.line = i
      ∧ label.address = s.address := by
  constructor
  · intro hmem
    obtain ⟨i, s, hs, hline, hname, haddress⟩ := line_of_label h hmem
    exact ⟨i, s, (statement_of_build h hs).1, hs, labelOf?_eq_some_iff.1 hname, hline,
      haddress.symm⟩
  · rintro ⟨i, s, -, hs, hname, hline, haddress⟩
    rw [Layout.labels_of_build h, List.mem_filterMap]
    refine ⟨s, List.mem_of_getElem? hs, ?_⟩
    rw [Statement.label?, labelOf?_eq_some_iff.2 hname, Option.map_some,
      (statement_of_build h hs).2.1, ← hline, ← haddress]

end Order

namespace Layout

namespace Draft

variable {d d' : Draft} {s : Statement}

/-- A label that is in the table already is refused. -/
theorem define_of_find? {name : String} {first : Label} (h : d.symbols.find? name = some first) :
    d.define s (some name)
      = .error (.atLine s.line (.duplicateLabel name (some (first.line + 1)))) := by
  simp only [define, Symbols.define, h]
  rfl

theorem find?_add (h : d.add s = .ok d') {name : String} {label : Label}
    (hf : d.symbols.find? name = some label) : d'.symbols.find? name = some label := by
  rcases add_cases h with ⟨-, rfl⟩ | ⟨l, d₁, c, -, hd, -, rfl⟩
  · exact hf
  · show d₁.symbols.find? name = some label
    rcases define_cases hd with ⟨-, rfl⟩ | ⟨name', -, -, -, rfl⟩
    · exact hf
    · unfold Symbols.find? at hf ⊢
      rw [List.find?_append, hf]
      rfl

theorem find?_add_self (h : d.add s = .ok d') {name : String} (hl : labelOf? s.text = some name) :
    ∃ label, d'.symbols.find? name = some label ∧ label.line = s.index := by
  rcases add_cases h with ⟨hp, -⟩ | ⟨l, d₁, c, hp, hd, -, rfl⟩
  · rw [labelOf?_of_blank hp] at hl
    cases hl
  · rw [labelOf?_of_parse? hp] at hl
    rcases define_cases hd with ⟨hn, -⟩ | ⟨name', hn, hnew, -, rfl⟩ <;> rw [hn] at hl <;> cases hl
    refine ⟨⟨name, s.index, d.address⟩, ?_, rfl⟩
    simp only [push, holding]
    unfold Symbols.find? at hnew ⊢
    rw [List.find?_append, hnew]
    simp

end Draft

/-- The label of every line gone through is found, and leads to that line. -/
def Finds (done : List Statement) (d : Draft) : Prop :=
  ∀ s ∈ done, ∀ name, labelOf? s.text = some name →
    ∃ label, d.symbols.find? name = some label ∧ label.line = s.index

theorem finds_of_draft {program : List Statement} {d : Draft}
    (h : program.foldlM Draft.add {} = .ok d) : Finds program d := by
  have hstep : ∀ done d s d', Finds done d → d.add s = .ok d' → Finds (done ++ [s]) d' := by
    intro done d s d' hd hadd s' hs' name hl
    rcases List.mem_append.1 hs' with hs' | hs'
    · obtain ⟨label, hf, hline⟩ := hd s' hs' name hl
      exact ⟨label, Draft.find?_add hadd hf, hline⟩
    · cases List.mem_singleton.1 hs'
      exact Draft.find?_add_self hadd hl
  exact foldlM_induct hstep program [] (by simp [Finds]) h

theorem build_of_split {done rest : List Statement} {s : Statement} {d : Draft} {f : Failure}
    (hdone : done.foldlM Draft.add {} = .ok d) (hs : d.add s = .error f) :
    build (done ++ s :: rest) = .error f := by
  unfold build
  rw [List.foldlM_append, hdone]
  show (((s :: rest).foldlM Draft.add d) >>= _) = _
  rw [List.foldlM_cons, hs]
  rfl

end Layout

/-- A label that comes a second time is refused at the line where it does, which names the line
where it came first. -/
theorem build_of_repeated_label {source : String} {i j : Nat} {s t name : String} (hij : i < j)
    (hs : (lines source)[i]? = some s) (ht : (lines source)[j]? = some t)
    (hsname : Carries s name) (htname : Carries t name) {l : Layout}
    (h : Layout.build ((statements source).take j) = .ok l) :
    Layout.build (statements source)
      = .error (.atLine (j + 1) (.duplicateLabel name (some (i + 1)))) := by
  obtain ⟨d, hd, -⟩ := bind_eq_ok.1 h
  have hsi : (statements source)[i]? = some { text := s, index := i } := by
    rw [getElem?_statements, hs]
    rfl
  have htj : (statements source)[j]? = some { text := t, index := j } := by
    rw [getElem?_statements, ht]
    rfl
  have hmem : ({ text := s, index := i } : Statement) ∈ (statements source).take j := by
    refine List.mem_of_getElem? (i := i) ?_
    rw [List.getElem?_take_of_lt hij, hsi]
  obtain ⟨first, hfirst, hline⟩ :=
    Layout.finds_of_draft hd _ hmem name (labelOf?_eq_some_iff.2 hsname)
  have hadd : d.add { text := t, index := j }
      = .error (.atLine (j + 1) (.duplicateLabel name (some (i + 1)))) := by
    have htlabel := labelOf?_eq_some_iff.2 htname
    rcases hp : CodeLine.parse? t with _ | code
    · rw [labelOf?_of_blank hp] at htlabel
      cases htlabel
    · rw [labelOf?_of_parse? hp] at htlabel
      unfold Layout.Draft.add
      simp only [hp, htlabel, Layout.Draft.define_of_find? hfirst, hline]
      rfl
  obtain ⟨hlt, hget⟩ := List.getElem?_eq_some_iff.1 htj
  rw [← List.take_append_drop j (statements source), List.drop_eq_getElem_cons hlt, hget]
  exact Layout.build_of_split hd hadd

/-- The table of a layout has one label for each line that carries one and no other, in the order of
the lines, with the address at which the line is placed. Names are made of letters and digits and
differ, addresses do not go down, and what is found for a name is what is listed. A program that
carries a label a second time, where the lines before would be laid out, fails there, whatever
instruction it is the label of. -/
theorem table_of_labels (source : String) :
    (∀ l, Layout.build (statements source) = .ok l →
      (∀ label : Label, label ∈ l.symbols.labels ↔
          ∃ (i : Nat) (s : Statement), (lines source)[i]? = some s.text
            ∧ l.statements[i]? = some s ∧ Carries s.text label.name ∧ label.line = i
            ∧ label.address = s.address)
        ∧ l.symbols.labels.Pairwise (fun a b => a.line < b.line ∧ a.address ≤ b.address)
        ∧ (l.symbols.labels.map Label.name).Nodup
        ∧ (∀ label ∈ l.symbols.labels, IsAlphanumeric label.name)
        ∧ ∀ name : String,
          (∀ label, l.symbols.find? name = some label
              ↔ label ∈ l.symbols.labels ∧ label.name = name)
            ∧ (∀ address, l.symbols.addressOf? name = some address
              ↔ ∃ label ∈ l.symbols.labels, label.name = name ∧ label.address = address)
            ∧ (l.symbols.contains name = true ↔ ∃ label ∈ l.symbols.labels, label.name = name))
      ∧ ∀ (i j : Nat) (s t name : String), i < j → (lines source)[i]? = some s →
        (lines source)[j]? = some t → Carries s name → Carries t name →
        (∃ l, Layout.build ((statements source).take j) = .ok l) →
          Layout.build (statements source)
            = .error (.atLine (j + 1) (.duplicateLabel name (some (i + 1)))) := by
  refine ⟨fun l h => ?_, fun i j s t name hij hs ht hsname htname ⟨l, hl⟩ =>
    build_of_repeated_label hij hs ht hsname htname hl⟩
  have hnodup : (l.symbols.labels.map Label.name).Nodup := by
    rw [names_of_build h]
    exact rules_of_build h .labelsDistinct
  exact ⟨mem_labels_iff h, pairwise_labels h, hnodup, fun label => isAlphanumeric_of_build h,
    fun name => ⟨Symbols.find?_eq_some_iff hnodup name, Symbols.addressOf?_eq_some_iff hnodup name,
      Symbols.contains_eq_true_iff hnodup name⟩⟩

/-- Two labels share an address when the line of the first takes no room; one of them, when it comes
again, is refused before it is found that its line is out of order and has no value. -/
theorem table_of_labels_again :
    (∃ l, Layout.build (statements "K DC 0*1\nB LR 0,0") = .ok l
        ∧ l.symbols.labels = [⟨"K", 0, 0⟩, ⟨"B", 1, 0⟩]
        ∧ l.symbols.addressOf? "B" = some 0)
      ∧ Layout.build (statements "K DC 0*1\nB LR 0,0\nK DC")
        = .error (.atLine 3 (.duplicateLabel "K" (some 1))) := by
  have hlabels : (Layout.build (statements "K DC 0*1\nB LR 0,0")).map (·.symbols.labels)
      = .ok [⟨"K", 0, 0⟩, ⟨"B", 1, 0⟩] := by
    decide +kernel
  have hbefore : (Layout.build ((statements "K DC 0*1\nB LR 0,0\nK DC").take 2)).map
      (·.statements.length) = .ok 2 := by
    decide +kernel
  obtain ⟨l, hl, hlist⟩ := map_eq_ok.1 hlabels
  obtain ⟨l', hl', -⟩ := map_eq_ok.1 hbefore
  obtain ⟨-, -, -, -, hlookup⟩ := (table_of_labels "K DC 0*1\nB LR 0,0").1 l hl
  refine ⟨⟨l, hl, hlist, ?_⟩, ?_⟩
  · exact ((hlookup "B").2.1 0).2 ⟨⟨"B", 1, 0⟩, by simp [hlist], rfl, rfl⟩
  · exact (table_of_labels "K DC 0*1\nB LR 0,0\nK DC").2 0 2 "K DC 0*1" "K DC" "K" (by decide)
      (by decide +kernel) (by decide +kernel) ⟨"DC", ["0*1"], by decide +kernel⟩
      ⟨"DC", [], by decide +kernel⟩ ⟨l', hl'⟩

end WordMachine
