import Mathlib.Data.List.Nodup
import WordMachine.Proofs.Bare
import WordMachine.Proofs.Tokens

/-!
# What a label is good for

The table of a layout lists the labels of its lines, each with the line and the address at which it
stands (`labels_of_build`), and a name means the label that has it (`find?_of_build`). An operand
made of letters and digits is read as a label (`Address.read_of_name`), unless it is all digits,
which spell an address. In a jump the name stands right after the mnemonic, so there it must not be
a mnemonic itself: then it would be the instruction and what is before it a label (`parse?_jump`).
-/

namespace WordMachine

open Text

/-- The label that a statement defines where it is placed. -/
def Statement.label? (s : Statement) : Option Label :=
  (labelOf? s.text).map fun name => ⟨name, s.index, s.address⟩

section Table

variable {source : String} {l : Layout}

theorem Symbols.find?_of_mem {t : Symbols} (hnodup : (t.labels.map Label.name).Nodup)
    {label : Label} (h : label ∈ t.labels) : t.find? label.name = some label := by
  unfold find?
  rcases hf : t.labels.find? (·.name == label.name) with _ | found
  · have := List.find?_eq_none.1 hf label h
    simp at this
  · have hname : found.name = label.name := by simpa using List.find?_some hf
    rw [hf, List.inj_on_of_nodup_map hnodup (List.mem_of_find?_eq_some hf) h hname]

theorem Layout.labels_of_build {program : List Statement} (h : build program = .ok l) :
    l.symbols.labels = l.statements.filterMap Statement.label? := by
  obtain ⟨d, hd, rfl⟩ := build_induct
    (P := fun _ d => d.symbols.labels = d.statements.toList.filterMap Statement.label?) rfl
    (fun done d s d' hP ha => by
      rcases Draft.add_cases ha with ⟨hp, rfl⟩ | ⟨l, d₁, c, hp, hd, -, rfl⟩
      · simp [Draft.push, hP, Statement.label?, labelOf?_of_blank hp]
      · have hlabel := labelOf?_of_parse? hp
        rcases Draft.define_cases hd with ⟨hl, rfl⟩ | ⟨name, hl, -, -, rfl⟩
        · simp [Draft.push, Draft.holding, hP, Statement.label?, hlabel, hl]
        · simp [Draft.push, Draft.holding, hP, Statement.label?, hlabel, hl]) h
  exact hd

theorem names_of_build (h : Layout.build (statements source) = .ok l) :
    l.symbols.labels.map Label.name = (lines source).filterMap labelOf? := by
  rw [Layout.labels_of_build h, ← map_text_statements, ← (Layout.build_lines h).1,
    List.map_filterMap, List.filterMap_map]
  refine List.filterMap_congr fun s _ => ?_
  rcases hl : labelOf? s.text with _ | name <;> simp [Statement.label?, hl]

theorem find?_of_build (h : Layout.build (statements source) = .ok l) {label : Label}
    (hmem : label ∈ l.symbols.labels) : l.symbols.find? label.name = some label := by
  refine Symbols.find?_of_mem ?_ hmem
  rw [names_of_build h]
  exact rules_of_build h .labelsDistinct

theorem isAlphanumeric_of_build (h : Layout.build (statements source) = .ok l) {label : Label}
    (hmem : label ∈ l.symbols.labels) : IsAlphanumeric label.name := by
  have hname := List.mem_map_of_mem (f := Label.name) hmem
  rw [names_of_build h] at hname
  obtain ⟨t, ht, hl⟩ := List.mem_filterMap.1 hname
  exact rules_of_build h .labelsNamed t ht _ hl

theorem line_of_label (h : Layout.build (statements source) = .ok l) {label : Label}
    (hmem : label ∈ l.symbols.labels) :
    ∃ (k : Nat) (st : Statement), l.statements[k]? = some st ∧ label.line = k
      ∧ labelOf? st.text = some label.name ∧ st.address = label.address := by
  rw [Layout.labels_of_build h] at hmem
  obtain ⟨st, hst, hl⟩ := List.mem_filterMap.1 hmem
  obtain ⟨k, hk⟩ := List.getElem?_of_mem hst
  obtain ⟨name, hname, rfl⟩ := Option.map_eq_some_iff.1 hl
  exact ⟨k, st, hk, (statement_of_build h hk).2.1, hname, rfl⟩

theorem target?_of_label (h : Layout.build (statements source) = .ok l) {k : Nat} {st : Statement}
    (hst : l.statements[k]? = some st) (hpos : 0 < st.size) :
    target? l.statements st.address = some k := by
  rw [Layout.build_placed h k st hst]
  exact target?_of_getElem? (size_nonneg_of_build h) hst hpos

end Table

section Read

variable {count : Nat} {line : Int} {name r : String}

theorem IsAlphanumeric.isWord (h : IsAlphanumeric name) : Token.IsWord name.toList :=
  Token.isWord_of_isAlphanum (by simpa using h.1) h.2

theorem IsAlphanumeric.not_mem (h : IsAlphanumeric name) : '#' ∉ name.toList ∧ '(' ∉ name.toList :=
  ⟨fun hc => (plain_of_isAlphanum (h.2 _ hc)).2.2.1 rfl,
    fun hc => (plain_of_isAlphanum (h.2 _ hc)).2.2.2 rfl⟩

theorem isAlphanumeric_of_isDigits (h : isDigits r.toList = true) : IsAlphanumeric r := by
  simp only [isDigits, Bool.and_eq_true, Bool.not_eq_true', List.isEmpty_eq_false_iff,
    List.all_eq_true] at h
  refine ⟨by simpa using h.1, fun c hc => ?_⟩
  simp [Char.isAlphanum, h.2 c hc]

theorem isDigits_of_readRegister {cs : List Char} {n : Nat}
    (h : readRegister count cs line = .ok n) : isDigits cs = true := by
  unfold readRegister at h
  simp only [] at h
  split_ifs at h with hd
  exact hd

theorem isMnemonic_of_isDigits (h : isDigits r.toList = true) : isMnemonic r = false := by
  unfold isMnemonic
  rcases hm : Mnemonic.ofName? r with _ | m
  · rfl
  · rw [← Mnemonic.name_of_ofName? hm] at h
    revert h
    rcases m with (⟨_ | _ | _ | _⟩ | _ | _) | (⟨_ | _ | _ | _⟩ | _ | _ | _ | _) | (_ | _ | _ | _) |
      (_ | _) <;> decide

theorem Address.read_of_name (h : IsAlphanumeric name) (hd : isDigits name.toList = false) :
    Address.read count name line = .ok (.label name) := by
  unfold Address.read
  rw [if_neg (by simp [hd])]
  rcases hi : indirectDigits? name.toList with _ | digits
  · rfl
  · obtain ⟨htoken, -⟩ := indirectDigits?_some hi
    exact absurd (by simp [htoken]) h.not_mem.2

theorem parse?_load (hr : isDigits r.toList = true) (h : IsAlphanumeric name) :
    CodeLine.parse? ("L " ++ r ++ ", " ++ name) = some ⟨"L", none, "L", [r, ",", name]⟩ := by
  have hdigits := isAlphanumeric_of_isDigits hr
  have hcomment : '#' ∉ ("L " ++ r ++ ", " ++ name).toList := by
    simp [hdigits.not_mem.1, h.not_mem.1]
  have hscan : Token.scan ("L " ++ r ++ ", " ++ name).toList
      = [['L'], r.toList, [','], name.toList] := by
    have htext : ("L " ++ r ++ ", " ++ name).toList
        = ['L'] ++ ' ' :: (r.toList ++ ',' :: ' ' :: name.toList) := by simp
    rw [htext, Token.scan_word_blank (Token.isWord_singleton (by decide)) (by decide),
      Token.scan_word_comma hdigits.isWord, Token.scan_blank (by decide), Token.scan_word h.isWord]
  unfold CodeLine.parse?
  rw [tokens_of_no_comment hcomment, hscan]
  simp [CodeLine.ofTokens?, isMnemonic_of_isDigits hr]

theorem parse?_jump (h : IsAlphanumeric name) (hm : isMnemonic name = false) :
    CodeLine.parse? ("J " ++ name) = some ⟨"J", none, "J", [name]⟩ := by
  have hcomment : '#' ∉ ("J " ++ name).toList := by simp [h.not_mem.1]
  have hscan : Token.scan ("J " ++ name).toList = [['J'], name.toList] := by
    have htext : ("J " ++ name).toList = ['J'] ++ ' ' :: name.toList := by simp
    rw [htext, Token.scan_word_blank (Token.isWord_singleton (by decide)) (by decide),
      Token.scan_word h.isWord]
  unfold CodeLine.parse?
  rw [tokens_of_no_comment hcomment, hscan]
  simp [CodeLine.ofTokens?, hm]

end Read

/-- The address that the name of a label is read as. A name that is all digits is read as the
address that it spells, wherever the label stands. -/
def Label.operand (label : Label) : Except Failure Int :=
  if isDigits label.name.toList then (readNumber label.name.toList).map Int.ofNat
  else .ok label.address

namespace Machine

variable {m : Machine} {s : Statement} {name : String} {a : Address} {address : Int}

theorem resolve_of_label {label : Label} (h : IsAlphanumeric label.name)
    (hfind : m.symbols.find? label.name = some label) (hoperand : label.operand = .ok address)
    (line : Int) :
    ∃ a, Address.read m.registers.count label.name line = .ok a
      ∧ m.resolve a line = .ok address := by
  unfold Label.operand at hoperand
  split at hoperand
  · rename_i hd
    obtain ⟨n, hn, rfl⟩ := map_eq_ok.1 hoperand
    refine ⟨.absolute n, ?_, rfl⟩
    unfold Address.read
    rw [if_pos hd, hn]
    rfl
  · rename_i hd
    cases hoperand
    refine ⟨.label label.name, Address.read_of_name h (by simpa using hd), ?_⟩
    have haddress : m.symbols.addressOf? label.name = some label.address := by
      unfold Symbols.addressOf?
      rw [hfind]
      rfl
    unfold resolve
    simp only [haddress]

section Execute

variable (h : IsAlphanumeric name) (hread : Address.read m.registers.count name s.line = .ok a)
  (hresolve : m.resolve a s.line = .ok address)
include h hread hresolve

theorem execute_load {r : String} {n : Nat}
    (hr : readRegister m.registers.count r.toList s.line = .ok n)
    (hw : (Cause.memoryAccess address m.memory.size).isWritable = true)
    (htext : s.text = "L " ++ r ++ ", " ++ name) :
    m.execute s = if m.memory.Covers address then
        .ok ({ m with
          registers := m.registers.assign n (Word.decode (m.memory.bytesAt address.toNat)) }.advance
            s)
      else .error (.atLine s.line (.memoryAccess address m.memory.size)) := by
  have hdecode : m.decode s ⟨"L", none, "L", [r, ",", name]⟩ = .ok (.memory .load n a) := by
    unfold decode
    rw [show CodeLine.mnemonic? ⟨"L", none, "L", [r, ",", name]⟩
      = some (.memory .load) from Mnemonic.ofName?_name (.memory .load)]
    simp only [Instruction.decode, readPair, if_true, hr, hread, bind, Except.bind, pure,
      Except.pure]
  unfold execute
  rw [htext, parse?_load (isDigits_of_readRegister hr) h]
  simp only [hdecode, perform, hresolve, access, Memory.readWord, bind, Except.bind]
  by_cases hc : m.memory.Covers address
  · simp only [if_pos hc]
    rfl
  · simp only [if_neg hc, m.memory.outside_of_isWritable hw]
    rfl

theorem execute_jump {k : Nat} (hm : isMnemonic name = false)
    (ht : target? m.program address = some k) (htext : s.text = "J " ++ name) :
    m.execute s = .ok { m with line := k, address := address } := by
  have hdecode : m.decode s ⟨"J", none, "J", [name]⟩ = .ok (.jump .always a) := by
    unfold decode
    rw [show CodeLine.mnemonic? ⟨"J", none, "J", [name]⟩
      = some (.jump .always) from Mnemonic.ofName?_name (.jump .always)]
    simp only [Instruction.decode, hread, bind, Except.bind, pure, Except.pure]
  unfold execute
  rw [htext, parse?_jump h hm]
  simp only [hdecode, perform, hresolve, jumpTarget, ht, bind, Except.bind]
  rfl

end Execute

end Machine

namespace Engine

variable {source : String} {l : Layout}

/-- Every label of a layout can be used wherever the program has come to. A load finds the word at
the label, and a jump its line if that takes room; unless the name, as an operand, is a number, or,
after a jump, an instruction. -/
theorem label_usable (h : Layout.build (statements source) = .ok l) (config : Config)
    (calls : List Call) (hlaid : ((load config source).afterAll calls).laidOut = true)
    (label : Label) (hlabel : label ∈ l.symbols.labels) :
    let m := ((load config source).afterAll calls).machine
    ∃ (k : Nat) (st : Statement), l.statements[k]? = some st ∧ label.line = k
      ∧ labelOf? st.text = some label.name ∧ st.address = label.address
      ∧ (∀ (s : Statement) (r : String) (n : Nat) (address : Int), label.operand = .ok address →
        readRegister m.registers.count r.toList s.line = .ok n →
        s.text = "L " ++ r ++ ", " ++ label.name →
        m.execute s = if m.memory.Covers address then
            .ok ({ m with registers :=
              m.registers.assign n (Word.decode (m.memory.bytesAt address.toNat)) }.advance s)
          else .error (.atLine s.line (.memoryAccess address m.memory.size)))
      ∧ ∀ s : Statement, label.operand = .ok label.address → isMnemonic label.name = false →
        0 < st.size → s.text = "J " ++ label.name →
        m.execute s = .ok { m with line := k, address := label.address } := by
  intro m
  have hname := isAlphanumeric_of_build h hlabel
  have hsettled : m.Settled l := settled_afterAll h config calls hlaid
  have hfind : m.symbols.find? label.name = some label := by
    rw [hsettled.symbols]
    exact find?_of_build h hlabel
  obtain ⟨k, st, hst, hline, hdefines, haddress⟩ := line_of_label h hlabel
  refine ⟨k, st, hst, hline, hdefines, haddress, ?_, ?_⟩
  · intro s r n address hoperand hr htext
    obtain ⟨a, hread, hresolve⟩ := Machine.resolve_of_label hname hfind hoperand s.line
    have hw := hsettled.isWritable h (Address.read_inBounds hread) hresolve
    exact Machine.execute_load hname hread hresolve hr hw htext
  · intro s hoperand hm hpos htext
    obtain ⟨a, hread, hresolve⟩ := Machine.resolve_of_label hname hfind hoperand s.line
    refine Machine.execute_jump hname hread hresolve hm ?_ htext
    rw [hsettled.positioned.program, ← haddress]
    exact target?_of_label h hst hpos

/-- A loop in which the next line jumps back to the one before it. -/
theorem label_usable_loop :
    let m := ((load ⟨10, 2⟩ "X DC 7\nAGAIN L 1, X\nJ AGAIN").afterAll
      [.prepare, .step, .step]).machine
    m.current? = some ⟨"J AGAIN", 2, 8, 4⟩
      ∧ m.execute ⟨"J AGAIN", 2, 8, 4⟩ = .ok { m with line := 1, address := 4 }
      ∧ m.execute ⟨"L 0, X", 2, 8, 4⟩
        = .ok ({ m with registers := m.registers.assign 0 7 }.advance ⟨"L 0, X", 2, 8, 4⟩) := by
  intro m
  have hm : m.current? = some ⟨"J AGAIN", 2, 8, 4⟩ ∧ m.memory.Covers 0
      ∧ Word.decode (m.memory.bytesAt 0) = 7
      ∧ readRegister m.registers.count "0".toList 3 = .ok 0 := by
    decide +kernel
  have hbuild : (Layout.build (statements "X DC 7\nAGAIN L 1, X\nJ AGAIN")).map
      (fun l => (l.symbols.labels, l.statements[1]?))
      = .ok ([⟨"X", 0, 0⟩, ⟨"AGAIN", 1, 4⟩], some ⟨"AGAIN L 1, X", 1, 4, 4⟩) := by
    decide +kernel
  obtain ⟨l, hl, hparts⟩ := map_eq_ok.1 hbuild
  obtain ⟨hlabels, hsecond⟩ := Prod.mk.inj hparts
  have huse := label_usable hl ⟨10, 2⟩ [.prepare, .step, .step] (by decide +kernel)
  refine ⟨hm.1, ?_, ?_⟩
  · obtain ⟨k, st, hst, hline, -, -, -, hjump⟩ := huse ⟨"AGAIN", 1, 4⟩ (by simp [hlabels])
    obtain rfl : 1 = k := Int.ofNat.inj hline
    rw [hsecond] at hst
    cases hst
    exact hjump ⟨"J AGAIN", 2, 8, 4⟩ (by decide +kernel) (by decide +kernel) (by decide) rfl
  · obtain ⟨-, -, -, -, -, -, hload, -⟩ := huse ⟨"X", 0, 0⟩ (by simp [hlabels])
    have hword := hload ⟨"L 0, X", 2, 8, 4⟩ "0" 0 0 (by decide +kernel) hm.2.2.2 rfl
    rw [if_pos hm.2.1] at hword
    exact hm.2.2.1 ▸ hword

/-- A load at a label that is a number goes elsewhere, and a jump to a label that is an instruction
is not one. -/
theorem label_usable_misread :
    (let m := ((load ⟨10, 2⟩ "7 DC 5\nL 1, 7").afterAll [.prepare, .step]).machine
    m.symbols.find? "7" = some ⟨"7", 0, 0⟩ ∧ m.memory.Covers 0
      ∧ m.current? = some ⟨"L 1, 7", 1, 4, 4⟩
      ∧ m.execute ⟨"L 1, 7", 1, 4, 4⟩ = .error (.atLine 2 (.memoryAccess 7 8)))
    ∧ let m := ((load ⟨10, 2⟩ "A LR 0,0\nJ A").afterAll [.prepare, .step]).machine
    m.symbols.find? "A" = some ⟨"A", 0, 0⟩ ∧ m.program[0]? = some ⟨"A LR 0,0", 0, 0, 2⟩
      ∧ m.current? = some ⟨"J A", 1, 2, 4⟩
      ∧ m.execute ⟨"J A", 1, 2, 4⟩ = .error (.atLine 2 (.operand (.notTwoArguments "A"))) := by
  decide +kernel

end Engine

end WordMachine
