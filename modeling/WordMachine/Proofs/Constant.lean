import WordMachine.Proofs.Lexemes
import WordMachine.Proofs.Padding
import WordMachine.Proofs.Search
import WordMachine.Proofs.SymbolTable
import WordMachine.Proofs.WordAccess

/-!
# A constant from its line to memory

A number written in base ten is read back (`isNumeral_toString`), and so is one with its sign and in
what may stand around the value of a constant (`value_wrapped`). Since a declaration is taken as its
tokens run together, blanks in it are of no account (`flatMap_tokens`), and an operand that asks for
words of a value declares them (`constant_of_asks`). After lines without an instruction, a line that
declares a constant adds its words at the end of the image and its label to the table
(`build_constant`), and from there they are read back (`readWord_append_words`).
-/

namespace WordMachine

open Text

/-! ## Numbers written out -/

namespace Text

theorem decimalDigit?_of_isDigit {c : Char} (h : c.isDigit = true) :
    decimalDigit? c = some (c.toNat - 48) := by
  have hc : 0x30 ≤ c.toNat ∧ c.toNat < 0x30 + 10 := by
    simp only [Char.isDigit, Bool.and_eq_true, decide_eq_true_eq, ge_iff_le,
      UInt32.le_iff_toNat_le] at h
    change 48 ≤ c.toNat ∧ c.toNat ≤ 57 at h
    omega
  simp [decimalDigit?, decimalZeros, hc]

theorem toList_toString (n : Nat) : (toString n).toList = Nat.toDigits 10 n := by
  rw [Nat.toString_eq_ofList_toDigits, String.toList_ofList]

theorem isDigit_of_mem_toString {n : Nat} {c : Char} (h : c ∈ (toString n).toList) :
    c.isDigit = true := by
  rw [toList_toString] at h
  exact Nat.isDigit_of_mem_toDigits (by decide) (by decide) h

theorem ofDigits_toString (n : Nat) :
    Numeral.ofDigits ((toString n).toList.filterMap decimalDigit?) = n := by
  have hdigits : (toString n).toList.filterMap decimalDigit?
      = (toString n).toList.map fun c => c.toNat - 48 := by
    rw [← List.filterMap_eq_map]
    exact List.filterMap_congr fun c hc => decimalDigit?_of_isDigit (isDigit_of_mem_toString hc)
  rw [hdigits, Numeral.ofDigits, List.foldl_map, toList_toString]
  exact Nat.ofDigitChars_eq_foldl.symm.trans Nat.ofDigitChars_ten_toDigits

/-- A number written in base ten is a numeral that stands for it. -/
theorem isNumeral_toString {n : Nat} (h : (toString n).length ≤ Numeral.maxDigits) :
    IsNumeral (toString n).toList n where
  ne_nil := by
    rw [toList_toString]
    exact Nat.toDigits_ne_nil
  decimal c hc := isDecimal_of_isDigit (isDigit_of_mem_toString hc)
  length_le := by rwa [String.length_toList]
  value := (ofDigits_toString n).symm

theorem length_toString_le {n k : Nat} (hk : 0 < k) (h : n < 10 ^ k) :
    (toString n).length ≤ k := by
  rw [← String.length_toList, toList_toString]
  exact (Nat.length_toDigits_le_iff (by decide) hk).2 h

end Text

/-! ## Operands that ask for a constant -/

namespace Literal

def signOf (v : Int) : List Char := if v < 0 then ['-'] else []

/-- What may stand around the value of a constant. -/
def wrappers : List (String × String) := [("INTEGER(", ")"), ("(", ")"), ("", "")]

/-- An operand that asks for so many words of a value, both numbers written in base ten, with blanks
anywhere in it. The count can be left out where it is one. -/
def Asks (n : Nat) (v : Int) (operand : String) : Prop :=
  ∃ w ∈ wrappers, ∃ text, text = (w.1 ++ toString v ++ w.2).toList
    ∧ (operand.toList.filter (!isBlank ·) = (toString n).toList ++ '*' :: text
      ∨ n = 1 ∧ operand.toList.filter (!isBlank ·) = text)

section Value

variable {v : Int} {t : String}

theorem toList_toString_int (v : Int) :
    (toString v).toList = signOf v ++ (toString v.natAbs).toList := by
  rw [Int.toString_eq_repr, Int.repr_eq_if, signOf]
  by_cases hv : 0 ≤ v
  · rw [if_pos hv, if_neg (by omega), show v.toNat = v.natAbs by omega]
    rfl
  · rw [if_neg hv, if_pos (by omega), show (-v).toNat = v.natAbs by omega, String.toList_append]
    rfl

theorem decimalValue_toString (v : Int) :
    decimalValue (signOf v) (toString v.natAbs).toList = v := by
  rw [decimalValue, ← ofDigits_eq, ofDigits_toString, signOf]
  by_cases hv : v < 0
  · simp only [if_pos hv, List.cons_ne_nil, if_false]
    omega
  · simp only [if_neg hv, if_true]
    omega

/-- A value in its wrapper is the first number there. -/
theorem parted_wrapped {w : String × String} (hw : w ∈ wrappers) (v : Int) :
    Parted (w.1 ++ toString v ++ w.2).toList w.1.toList (signOf v) (toString v.natAbs).toList
      w.2.toList := by
  have hwrappers : ∀ w ∈ wrappers, (∀ c ∈ w.1.toList, isDecimal c = false)
      ∧ w.1.toList.getLast? ≠ some '-' ∧ ∀ c ∈ w.2.toList.head?, isDecimal c = false := by
    simp [wrappers]
    decide
  obtain ⟨hfront, hlast, hback⟩ := hwrappers w hw
  refine ⟨?_, hfront, ?_, fun c hc => isDecimal_of_isDigit (isDigit_of_mem_toString hc), hback, ?_⟩
  · rw [String.toList_append, String.toList_append, toList_toString_int, ← List.append_assoc]
  · rw [toList_toString]
    exact Nat.toDigits_ne_nil
  · unfold signOf
    by_cases hv : v < 0
    · simp [hv]
    · simpa [hv] using hlast

theorem value_wrapped {w : String × String} (hw : w ∈ wrappers) {v : Int}
    (hv : (toString v.natAbs).length ≤ Numeral.maxDigits) (line : Int) :
    value (w.1 ++ toString v ++ w.2).toList line
      = if Word.Fits v then .ok v else .error (fault line (.outOfRange v)) := by
  rw [value_of_parted (parted_wrapped hw v), decimalValue_toString, String.length_toList, if_pos hv]

theorem plain_of_mem_toString {n : Nat} {c : Char} (hc : c ∈ (toString n).toList) :
    c ≠ '*' ∧ c ≠ '#' := by
  have hdigit := isDigit_of_mem_toString hc
  refine ⟨?_, ?_⟩ <;> rintro rfl <;> cases hdigit

theorem plain_of_mem_wrapped {w : String × String} (hw : w ∈ wrappers) {v : Int} {c : Char}
    (hc : c ∈ (w.1 ++ toString v ++ w.2).toList) : c ≠ '*' ∧ c ≠ '#' := by
  have hwrappers : ∀ w ∈ wrappers, (∀ c ∈ w.1.toList, c ≠ '*' ∧ c ≠ '#')
      ∧ ∀ c ∈ w.2.toList, c ≠ '*' ∧ c ≠ '#' := by
    simp [wrappers]
  rw [(parted_wrapped hw v).text_eq] at hc
  simp only [List.mem_append] at hc
  rcases hc with ((hc | hc) | hc) | hc
  · exact (hwrappers w hw).1 c hc
  · unfold signOf at hc
    split_ifs at hc
    · rw [List.mem_singleton.1 hc]
      decide
    · cases hc
  · exact plain_of_mem_toString hc
  · exact (hwrappers w hw).2 c hc

end Value

section Asks

variable {n : Nat} {v : Int} {operand : String}

theorem Asks.not_comment (h : Asks n v operand) : '#' ∉ operand.toList := by
  intro hc
  obtain ⟨w, hw, text, rfl, h⟩ := h
  have hbare : '#' ∈ operand.toList.filter (!isBlank ·) :=
    List.mem_filter.2 ⟨hc, by decide⟩
  rcases h with h | ⟨-, h⟩ <;> rw [h] at hbare
  · rcases List.mem_append.1 hbare with hbare | hbare
    · exact (plain_of_mem_toString hbare).2 rfl
    · rcases List.mem_cons.1 hbare with hstar | hbare
      · cases hstar
      · exact (plain_of_mem_wrapped hw hbare).2 rfl
  · exact (plain_of_mem_wrapped hw hbare).2 rfl

/-- An operand that asks for words of a value has them for a chunk if the value is a word. -/
theorem constant_of_asks (h : Asks n v operand) (hn : n < indexLimit)
    (hv : (toString v.natAbs).length ≤ Numeral.maxDigits) (line : Int) :
    constant (operand.toList.filter (!isBlank ·)) line
      = if Word.Fits v then .ok (.words n v) else .error (fault line (.outOfRange v)) := by
  obtain ⟨w, hw, text, rfl, h⟩ := h
  have hvalue := value_wrapped hw hv line
  have hstar : '*' ∉ (w.1 ++ toString v ++ w.2).toList :=
    fun hc => (plain_of_mem_wrapped hw hc).1 rfl
  unfold constant
  rcases h with h | ⟨rfl, h⟩
  · have hlen : (toString n).length ≤ 19 := length_toString_le (by decide) (by
      unfold indexLimit at hn
      omega)
    have hcount : count (toString n).toList line = .ok n :=
      count_eq_ok_iff.2 (isNumeral_toString (hlen.trans (by decide)))
    rw [h, parts_append (fun hc => (plain_of_mem_toString hc).1 rfl) hstar]
    simp only [hcount, hvalue, bind, Except.bind]
    split_ifs <;> rfl
  · have hne : (w.1 ++ toString v ++ w.2).toList ≠ [] := by
      rw [(parted_wrapped hw v).text_eq]
      simp
    rw [h, parts_of_not_mem hne hstar]
    simp only [hvalue]
    split_ifs <;> rfl

end Asks

end Literal

/-! ## The line of a constant -/

section Line

variable {name operand : String}

theorem parse?_constant (hname : IsAlphanumeric name) (hsign : '#' ∉ operand.toList) :
    CodeLine.parse? (name ++ " DC " ++ operand)
      = some ⟨name, some name, "DC", tokens operand⟩ := by
  have hcomment : '#' ∉ (name ++ " DC " ++ operand).toList := by
    simp [hname.not_mem.1, hsign]
  have hscan : Token.scan (name ++ " DC " ++ operand).toList
      = name.toList :: ['D', 'C'] :: Token.scan operand.toList := by
    have htext : (name ++ " DC " ++ operand).toList
        = name.toList ++ ' ' :: (['D', 'C'] ++ ' ' :: operand.toList) := by simp
    have hword : Token.IsWord ['D', 'C'] := Token.isWord_of_isAlphanum (by decide) (by simp)
    rw [htext, Token.scan_word_blank hname.isWord (by decide),
      Token.scan_word_blank hword (by decide)]
  have hmnemonic : isMnemonic "DC" = true := by decide
  unfold CodeLine.parse?
  rw [tokens_of_no_comment hcomment, hscan, tokens_of_no_comment hsign]
  simp [CodeLine.ofTokens?, hmnemonic]

theorem flatMap_tokens (hsign : '#' ∉ operand.toList) :
    (tokens operand).flatMap String.toList = operand.toList.filter (!isBlank ·) := by
  rw [tokens_of_no_comment hsign, List.flatMap_map]
  simp only [String.toList_ofList, List.flatMap_id', Token.flatten_scan]

end Line

namespace Layout

/-- A draft that has gone on to the end of its image. -/
theorem address_of_draft {program : List Statement} {d : Draft}
    (h : program.foldlM Draft.add {} = .ok d) : d.address = d.memory.size :=
  foldlM_induct (P := fun _ d => d.address = d.memory.size)
    (fun _ _ _ _ hd ha => Draft.address_add ha hd) program [] rfl h

theorem inCode_of_draft {program : List Statement} {d : Draft}
    (h : program.foldlM Draft.add {} = .ok d)
    (hdata : ∀ s ∈ program, tokens s.text = [] ∨ IsDeclaration s.text) : d.inCode = false := by
  rw [← Bool.not_eq_true, (rules_of_draft h).1.inCode]
  rintro ⟨t, ht, l, m, hl, hm, hnot⟩
  obtain ⟨s, hs, rfl⟩ := List.mem_map.1 ht
  rcases hdata s hs with hblank | ⟨l', op, hl', hm'⟩
  · rw [CodeLine.parse?, CodeLine.ofTokens?_eq_none_iff.2 hblank] at hl
    cases hl
  · rw [hl] at hl'
    cases hl'
    rw [hm] at hm'
    cases hm'
    exact hnot op rfl

/-- The layout with one more constant, which has a label of its own. -/
def withConstant (l : Layout) (s : Statement) (name : String) (c : Chunk) : Layout where
  statements := l.statements ++ [{ s with address := l.memory.size, size := c.size }]
  symbols := ⟨l.symbols.labels ++ [⟨name, s.index, l.memory.size⟩]⟩
  memory := l.memory.append c.cells

theorem build_constant {program : List Statement} {l : Layout} {s : Statement}
    {name operand : String} (h : build program = .ok l)
    (hdata : ∀ s ∈ program, tokens s.text = [] ∨ IsDeclaration s.text)
    (hname : IsAlphanumeric name) (hnew : l.symbols.find? name = none)
    (hsign : '#' ∉ operand.toList) (hs : s.text = name ++ " DC " ++ operand) :
    build (program ++ [s])
      = (Literal.constant (operand.toList.filter (!isBlank ·)) s.line >>= Chunk.granted).map
        (l.withConstant s name) := by
  unfold build at h
  obtain ⟨d, hd, h⟩ := bind_eq_ok.1 h
  cases h
  have haddress := address_of_draft hd
  generalize hx : (Literal.constant (operand.toList.filter (!isBlank ·)) s.line
    >>= Chunk.granted) = x
  have hadd : d.add s = x.map fun c =>
      (({ d with symbols := ⟨d.symbols.labels ++ [⟨name, s.index, d.address⟩]⟩ } :
        Draft).holding c).push s c.size := by
    have hdefine : d.define s (some name)
        = .ok { d with symbols := ⟨d.symbols.labels ++ [⟨name, s.index, d.address⟩]⟩ } := by
      simp only [Draft.define, Symbols.define, hnew]
      rw [if_pos (isLabelName_iff.2 hname)]
    have hmnemonic : Mnemonic.ofName? "DC" = some (.data .constant) := by decide
    rw [Draft.add_of_parse (hs ▸ parse?_constant hname hsign), hdefine]
    show Draft.grant _ _ _ >>= _ = _
    simp only [Draft.grant, Draft.chunk, CodeLine.mnemonic?, hmnemonic, inCode_of_draft hd hdata,
      DataOp.chunk, flatMap_tokens hsign, Bool.false_eq_true, if_false, hx]
    rcases x with f | c <;> rfl
  unfold build
  rw [List.foldlM_append, hd]
  simp only [bind, Except.bind, List.foldlM_cons, List.foldlM_nil, hadd]
  rcases x with f | c
  · rfl
  · simp [Except.map, withConstant, Draft.push, Draft.holding, haddress, pure, Except.pure]

end Layout

/-! ## Words in memory -/

section Words

variable {m : Memory} {n i : Nat} {v : Int}

theorem drop_flatten_replicate {α : Type} (xs : List α) (h : i ≤ n) :
    (List.replicate n xs).flatten.drop (i * xs.length) = (List.replicate (n - i) xs).flatten := by
  have hlen : (List.replicate i xs).flatten.length = i * xs.length := by simp
  rw [show n = i + (n - i) by omega, List.replicate_add, List.flatten_append, ← hlen,
    List.drop_left, Nat.add_sub_cancel_left]

theorem values_words (n : Nat) (v : Int) :
    (Chunk.words n v).cells.map Cell.value = (List.replicate n (Word.encode v)).flatten := by
  simp [Chunk.cells, List.map_flatten, Cell.ofWord, Function.comp_def]

theorem kinds_words (n : Nat) (v : Int) :
    (Chunk.words n v).cells.map Cell.kind = List.replicate (4 * n) .data := by
  rw [List.eq_replicate_iff]
  refine ⟨by simp [Chunk.size, Word.bytes, Nat.mul_comm], fun kind hkind => ?_⟩
  obtain ⟨x, hx, rfl⟩ := List.mem_map.1 hkind
  simp only [Chunk.cells, List.mem_flatten, List.mem_replicate] at hx
  obtain ⟨word, ⟨-, rfl⟩, hx⟩ := hx
  obtain ⟨b, -, rfl⟩ := List.mem_map.1 hx
  rfl

/-- Each of the words at the end of an image is read back. -/
theorem readWord_append_words (hi : i < n) (line : Option Int) :
    (m.append (Chunk.words n v).cells).readWord ((m.size + 4 * i : Nat) : Int) line
      = .ok (Word.wrap v) := by
  have hcovers : (m.append (Chunk.words n v).cells).Covers ((m.size + 4 * i : Nat) : Int) := by
    rw [Memory.covers_iff, Memory.size_append, Chunk.length_cells, Chunk.size, Word.bytes]
    omega
  have hvalues : (m.append (Chunk.words n v).cells).values
      = m.values ++ (List.replicate n (Word.encode v)).flatten := by
    rw [Memory.values, Memory.toList_append, List.map_append, values_words]
    rfl
  have hbytes : (m.append (Chunk.words n v).cells).bytesAt (m.size + 4 * i) = Word.encode v := by
    have hdrop := drop_flatten_replicate (Word.encode v) hi.le
    rw [Word.length_encode, Nat.mul_comm] at hdrop
    rw [Memory.bytesAt_eq, hvalues, ← Memory.length_values, ← List.drop_drop, List.drop_left, hdrop,
      show n - i = n - i - 1 + 1 by omega, List.replicate_succ, List.flatten_cons]
    exact List.take_left' (Word.length_encode v)
  rw [Memory.readWord_of_covers hcovers, Int.toNat_natCast, hbytes, Word.decode_encode]

theorem kinds_append_words {k : Nat} (hi : i < n) (hk : k < 4) :
    (m.append (Chunk.words n v).cells).kinds[m.size + 4 * i + k]? = some .data := by
  have hkinds : (m.append (Chunk.words n v).cells).kinds
      = m.kinds ++ List.replicate (4 * n) .data := by
    rw [Memory.kinds, Memory.toList_append, List.map_append, kinds_words]
    rfl
  have hlen := Memory.length_kinds m
  rw [hkinds, List.getElem?_append_right (by omega), List.getElem?_replicate_of_lt (by omega)]

end Words

/-! ## From the line to memory -/

theorem numberFrom_concat (ls : List String) (t : String) :
    numberFrom 0 (ls ++ [t]) = numberFrom 0 ls ++ [{ text := t, index := ls.length }] := by
  simp [numberFrom, List.zipIdx_append]

theorem text_mem_of_mem_numberFrom {a : Nat} {ls : List String} {s : Statement}
    (h : s ∈ numberFrom a ls) : s.text ∈ ls := by
  obtain ⟨p, hp, rfl⟩ := List.mem_map.1 h
  exact List.fst_mem_of_mem_zipIdx hp

theorem Layout.addressOf?_withConstant {l : Layout} {name : String}
    (hnew : l.symbols.find? name = none) (s : Statement) (c : Chunk) :
    (l.withConstant s name c).symbols.addressOf? name = some (l.memory.size : Int) := by
  unfold Symbols.find? at hnew
  simp [Symbols.addressOf?, Symbols.find?, withConstant, hnew]

section Source

variable {before : List String} {l : Layout} {name operand source : String} {n : Nat} {v : Int}

theorem build_of_asks (h : Layout.build (numberFrom 0 before) = .ok l)
    (hdata : ∀ t ∈ before, tokens t = [] ∨ IsDeclaration t) (hname : IsAlphanumeric name)
    (hnew : l.symbols.find? name = none) (hn : n < indexLimit)
    (hv : (toString v.natAbs).length ≤ Numeral.maxDigits) (hasks : Literal.Asks n v operand)
    (hsource : lines source = before ++ [name ++ " DC " ++ operand]) :
    Layout.build (statements source) = if Word.Fits v then
        .ok (l.withConstant { text := name ++ " DC " ++ operand, index := before.length } name
          (.words n v))
      else .error (.atLine (before.length + 1) (.literal (.outOfRange v))) := by
  have hstatements : statements source = numberFrom 0 before
      ++ [{ text := name ++ " DC " ++ operand, index := before.length }] := by
    rw [← numberFrom_concat, ← hsource]
    rfl
  rw [hstatements, Layout.build_constant h
    (fun s hs => hdata s.text (text_mem_of_mem_numberFrom hs)) hname hnew hasks.not_comment rfl,
    Literal.constant_of_asks hasks hn hv]
  have hgranted : (Chunk.words n v).granted = .ok (.words n v) :=
    Chunk.granted_eq_ok_iff.2 ⟨Chunk.refusal?_words.2 hn, rfl⟩
  split_ifs
  · show (Chunk.granted _).map _ = _
    rw [hgranted]
    rfl
  · rfl

/-- A line that asks for words of a value, with a new label, after lines that are blank or declare
data: the words are added to the image as data and are read back from where the label stands, and
the image is the same however the operand is written. A value that is no word is refused as an error
of the literal, charged to the line. -/
theorem constant_round_trip (h : Layout.build (numberFrom 0 before) = .ok l)
    (hdata : ∀ t ∈ before, tokens t = [] ∨ IsDeclaration t) (hname : IsAlphanumeric name)
    (hnew : l.symbols.contains name = false) (hn : n < 2 ^ 63) :
    (-2 ^ 31 ≤ v ∧ v ≤ 2 ^ 31 - 1 → ∃ added : List Cell, added.length = 4 * n
        ∧ ∀ (operand source : String), Literal.Asks n v operand →
          lines source = before ++ [name ++ " DC " ++ operand] →
          ∃ l', Layout.build (statements source) = .ok l' ∧ l'.memory = l.memory.append added
            ∧ ∃ a : Nat, l'.symbols.addressOf? name = some (a : Int) ∧ a = l.memory.size
              ∧ ∀ i < n, (∀ line, l'.memory.readWord ((a + 4 * i : Nat) : Int) line = .ok v)
                ∧ ∀ k < 4, l'.memory.kinds[a + 4 * i + k]? = some .data)
      ∧ (¬ (-2 ^ 31 ≤ v ∧ v ≤ 2 ^ 31 - 1) → (toString v.natAbs).length ≤ 4300 →
        ∀ (operand source : String), Literal.Asks n v operand →
          lines source = before ++ [name ++ " DC " ++ operand] →
          Layout.build (statements source)
            = .error (.atLine (before.length + 1) (.literal (.outOfRange v)))) := by
  have hnew : l.symbols.find? name = none := by simpa [Symbols.contains] using hnew
  refine ⟨fun hfits => ⟨(Chunk.words n v).cells, ?_, fun operand source hasks hs => ?_⟩,
    fun hfits hv operand source hasks hs => ?_⟩
  · simp [Chunk.size, Word.bytes, Nat.mul_comm]
  · have hdigits : (toString v.natAbs).length ≤ 10 := length_toString_le (by decide) (by omega)
    have hbuild := build_of_asks h hdata hname hnew hn (hdigits.trans (by decide)) hasks hs
    rw [if_pos (show Word.Fits v from hfits)] at hbuild
    refine ⟨_, hbuild, rfl, l.memory.size, Layout.addressOf?_withConstant hnew _ _, rfl,
      fun i hi => ⟨fun line => ?_, fun k hk => kinds_append_words hi hk⟩⟩
    have hread := readWord_append_words (m := l.memory) (v := v) hi line
    rwa [Word.wrap_of_fits hfits] at hread
  · have hbuild := build_of_asks h hdata hname hnew hn hv hasks hs
    rwa [if_neg (show ¬ Word.Fits v from hfits)] at hbuild

/-- The least word, three times, in an operand full of blanks, after a line that takes no room; and
one less than it. -/
theorem constant_round_trip_least :
    (∃ l', Layout.build (statements "K DC 0*1\n\nX DC 3 * INT EGER( - 2147483648 )") = .ok l'
        ∧ l'.memory.size = 12 ∧ ∃ a : Nat, l'.symbols.addressOf? "X" = some (a : Int)
          ∧ l'.memory.readWord ((a + 8 : Nat) : Int) none = .ok (-2147483648)
          ∧ l'.memory.kinds[a + 11]? = some .data)
      ∧ Layout.build (statements "K DC 0*1\n\nX DC -2147483649")
        = .error (.atLine 3 (.literal (.outOfRange (-2147483649)))) := by
  have hbefore : (Layout.build (numberFrom 0 ["K DC 0*1", ""])).map
      (fun l => (l.memory.size, l.symbols.contains "X")) = .ok (0, false) := by
    decide +kernel
  obtain ⟨l, hl, hsize⟩ := map_eq_ok.1 hbefore
  simp only [Prod.mk.injEq] at hsize
  have hdata : ∀ t ∈ ["K DC 0*1", ""], tokens t = [] ∨ IsDeclaration t := by
    intro t ht
    simp only [List.mem_cons, List.not_mem_nil, or_false] at ht
    rcases ht with rfl | rfl
    · exact .inr ⟨⟨"K", some "K", "DC", ["0*1"]⟩, .constant, by decide +kernel, by decide⟩
    · exact .inl (by decide +kernel)
  have hname : IsAlphanumeric "X" := isLabelName_iff.1 (by decide)
  refine ⟨?_, ?_⟩
  · have hasks : Literal.Asks 3 (-2147483648) "3 * INT EGER( - 2147483648 )" :=
      ⟨_, List.mem_cons_self, _, rfl, .inl (by decide +kernel)⟩
    obtain ⟨added, hadded, hall⟩ := (constant_round_trip (n := 3) (v := -2147483648) hl hdata hname
      hsize.2 (by decide)).1 (by decide)
    obtain ⟨l', hl', hmemory, a, ha, -, hwords⟩ := hall "3 * INT EGER( - 2147483648 )"
      "K DC 0*1\n\nX DC 3 * INT EGER( - 2147483648 )" hasks (by decide +kernel)
    obtain ⟨hread, hkinds⟩ := hwords 2 (by decide)
    refine ⟨l', hl', ?_, a, ha, hread none, hkinds 3 (by decide)⟩
    rw [hmemory, Memory.size_append, hadded, hsize.1]
  · have hasks : Literal.Asks 1 (-2147483649) "-2147483649" :=
      ⟨("", ""), by decide, _, rfl, .inr ⟨rfl, by decide +kernel⟩⟩
    exact (constant_round_trip (n := 1) (v := -2147483649) hl hdata hname hsize.2 (by decide)).2
      (by decide) (by decide +kernel) _ "K DC 0*1\n\nX DC -2147483649" hasks (by decide +kernel)

end Source

end WordMachine
