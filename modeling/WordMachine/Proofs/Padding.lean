import WordMachine.Proofs.Announced

/-!
# Lines without code in a layout

Lines that are blank or all comment can be put in anywhere between the lines of a text. A map tells
where each line has gone (`Padding`), and the statements follow it (`Spread`). A statement without
code takes no room and defines nothing, so the layout goes through as before and ends up with the
same memory and the same labels on other lines (`build_spread`). A jump finds the statement that it
found before, where that has gone (`target?_spread`): among statements at one address only the one
that takes room is ever found.
-/

namespace WordMachine

open Text

/-- The second list is the first with lines without code put in, and each line of the first has gone
where the map tells. -/
structure Padding (f : Nat → Nat) (ls ls' : List String) : Prop where
  mono : ∀ i j, i < j → j < ls.length → f i < f j
  kept : ∀ i < ls.length, ls'[f i]? = ls[i]?
  blank : ∀ j t, ls'[j]? = some t → (∀ i < ls.length, f i ≠ j) → tokens t = []

namespace Padding

variable {f : Nat → Nat} {ls ls' : List String} {t t' : String}

theorem refl (ls : List String) : Padding id ls ls where
  mono _ _ h _ := h
  kept _ _ := rfl
  blank j t h hne := by
    have hj := (List.getElem?_eq_some_iff.1 h).1
    exact absurd rfl (hne j hj)

/-- One more line without code, put in anywhere. -/
theorem insert (front back : List String) (h : Padding f ls (front ++ back)) (ht : tokens t = []) :
    Padding (fun i => if f i < front.length then f i else f i + 1) ls (front ++ t :: back) where
  mono i j hij hj := by
    have := h.mono i j hij hj
    split_ifs <;> omega
  kept i hi := by
    rw [← h.kept i hi]
    split_ifs with hf
    · rw [List.getElem?_append_left hf, List.getElem?_append_left hf]
    · rw [List.getElem?_append_right (by omega), List.getElem?_append_right (by omega),
        show f i + 1 - front.length = f i - front.length + 1 by omega, List.getElem?_cons_succ]
  blank j u hu hne := by
    rcases Nat.lt_trichotomy j front.length with hj | hj | hj
    · rw [List.getElem?_append_left hj] at hu
      refine h.blank j u (by rw [List.getElem?_append_left hj, hu]) fun i hi hfi => ?_
      exact hne i hi (by simp [hfi, hj])
    · subst hj
      rw [List.getElem?_append_right le_rfl, Nat.sub_self, List.getElem?_cons_zero] at hu
      cases hu
      exact ht
    · obtain ⟨k, rfl⟩ : ∃ k, j = k + 1 := ⟨j - 1, by omega⟩
      rw [List.getElem?_append_right (by omega),
        show k + 1 - front.length = k - front.length + 1 by omega, List.getElem?_cons_succ] at hu
      refine h.blank k u (by rw [List.getElem?_append_right (by omega), hu]) fun i hi hfi => ?_
      exact hne i hi (by simp [hfi, show ¬ k < front.length by omega])

theorem tail (h : Padding f (t :: ls) (t' :: ls')) (h₀ : f 0 = 0) :
    t' = t ∧ Padding (fun i => f (i + 1) - 1) ls ls' := by
  have hpos : ∀ i < ls.length, 0 < f (i + 1) := fun i hi => by
    have := h.mono 0 (i + 1) (by omega) (by simp; omega)
    omega
  refine ⟨by simpa [h₀] using h.kept 0 (by simp), ⟨fun i j hij hj => ?_, fun i hi => ?_, ?_⟩⟩
  · have := h.mono (i + 1) (j + 1) (by omega) (by simp; omega)
    have := hpos i (by omega)
    omega
  · have hk := h.kept (i + 1) (by simp; omega)
    rwa [show f (i + 1) = f (i + 1) - 1 + 1 by have := hpos i hi; omega, List.getElem?_cons_succ,
      List.getElem?_cons_succ] at hk
  · intro j u hu hne
    refine h.blank (j + 1) u (by simpa using hu) fun i hi hfi => ?_
    cases i with
    | zero => omega
    | succ i => exact hne i (by simpa using hi) (by omega)

theorem skip (h : Padding f ls (t' :: ls')) (h₀ : ∀ i < ls.length, f i ≠ 0) :
    tokens t' = [] ∧ Padding (fun i => f i - 1) ls ls' := by
  refine ⟨h.blank 0 t' rfl h₀, ⟨fun i j hij hj => ?_, fun i hi => ?_, ?_⟩⟩
  · have := h.mono i j hij hj
    have := h₀ i (by omega)
    omega
  · have hk := h.kept i hi
    rwa [show f i = f i - 1 + 1 by have := h₀ i hi; omega, List.getElem?_cons_succ] at hk
  · intro j u hu hne
    refine h.blank (j + 1) u (by simpa using hu) fun i hi hfi => ?_
    exact hne i hi (by omega)

end Padding

/-- A statement on the line to which its own has gone. -/
def Statement.moved (f : Nat → Nat) (s : Statement) : Statement :=
  { s with index := f s.index.toNat }

theorem Statement.index_moved {s : Statement} {n : Nat} (h : s.index = n) (f : Nat → Nat) :
    (s.moved f).index = f n := by
  simp [moved, h]

def Label.moved (f : Nat → Nat) (b : Label) : Label := { b with line := f b.line.toNat }

def Symbols.moved (f : Nat → Nat) (t : Symbols) : Symbols := ⟨t.labels.map (Label.moved f)⟩

/-- The second program is the first, moved, with statements without code among the others. -/
inductive Spread (f : Nat → Nat) : List Statement → List Statement → Prop
  | nil : Spread f [] []
  | keep {p p' : List Statement} (s : Statement) (h : Spread f p p') :
    Spread f (s :: p) (s.moved f :: p')
  | blank {p p' : List Statement} {t : Statement} (hcode : CodeLine.parse? t.text = none)
    (hsize : t.size = 0) (h : Spread f p p') : Spread f p (t :: p')

/-- Lines as statements, numbered from the given place on. -/
def numberFrom (a : Nat) (ls : List String) : List Statement :=
  (ls.zipIdx a).map fun (text, index) => { text, index }

theorem numberFrom_cons (a : Nat) (t : String) (ls : List String) :
    numberFrom a (t :: ls) = { text := t, index := a } :: numberFrom (a + 1) ls := rfl

/-- Statements are spread as their lines are padded. -/
theorem Padding.spread {g : Nat → Nat} : ∀ {ls' ls : List String} {f : Nat → Nat} {a b : Nat},
    Padding f ls ls' → (∀ i < ls.length, g (a + i) = b + f i) →
      Spread g (numberFrom a ls) (numberFrom b ls')
  | [], [], _, _, _, _, _ => .nil
  | [], _ :: _, _, _, _, h, _ => by simpa using h.kept 0 (by simp)
  | t' :: ls', ls, f, a, b, h, hg => by
    -- a line that has gone to the front can only be the first
    by_cases h₀ : ∃ i < ls.length, f i = 0
    · obtain ⟨i, hi, hfi⟩ := h₀
      have hi₀ : i = 0 := by
        by_contra hne
        have := h.mono 0 i (by omega) hi
        omega
      subst hi₀
      cases ls with
      | nil => simp at hi
      | cons t ls =>
        obtain ⟨rfl, htail⟩ := h.tail hfi
        have hrest : Spread g (numberFrom (a + 1) ls) (numberFrom (b + 1) ls') := by
          refine htail.spread fun i hi => ?_
          have := hg (i + 1) (by simpa using hi)
          rw [Nat.add_right_comm, Nat.add_assoc]
          have := h.mono 0 (i + 1) (by omega) (by simpa using hi)
          omega
        have hhead : Statement.moved g { text := t', index := a } = { text := t', index := b } := by
          have := hg 0 (by simp)
          simp only [Nat.add_zero, hfi] at this
          simp [Statement.moved, this]
        rw [numberFrom_cons, numberFrom_cons, ← hhead]
        exact .keep _ hrest
    · have hne : ∀ i < ls.length, f i ≠ 0 := fun i hi hfi => h₀ ⟨i, hi, hfi⟩
      obtain ⟨ht, htail⟩ := h.skip hne
      refine .blank (CodeLine.ofTokens?_eq_none_iff.2 ht) rfl (htail.spread fun i hi => ?_)
      have := hg i hi
      have := hne i hi
      omega

namespace Spread

variable {f : Nat → Nat} {p p' q q' : List Statement}

theorem append (h : Spread f p p') (hq : Spread f q q') : Spread f (p ++ q) (p' ++ q') := by
  induction h with
  | nil => exact hq
  | keep s _ ih => exact .keep s ih
  | blank hcode hsize _ ih => exact .blank hcode hsize ih

theorem moved_mem (h : Spread f p p') {s : Statement} (hs : s ∈ p) : s.moved f ∈ p' := by
  induction h with
  | nil => cases hs
  | keep s' _ ih =>
    rcases List.mem_cons.1 hs with rfl | hs
    · exact List.mem_cons_self
    · exact List.mem_cons_of_mem _ (ih hs)
  | blank _ _ _ ih => exact List.mem_cons_of_mem _ (ih hs)

theorem mem_cases (h : Spread f p p') {t : Statement} (ht : t ∈ p') :
    (∃ s ∈ p, t = s.moved f) ∨ CodeLine.parse? t.text = none ∧ t.size = 0 := by
  induction h with
  | nil => cases ht
  | keep s _ ih =>
    rcases List.mem_cons.1 ht with rfl | ht
    · exact .inl ⟨s, List.mem_cons_self, rfl⟩
    · exact (ih ht).imp_left fun ⟨s', hs', hm⟩ => ⟨s', List.mem_cons_of_mem _ hs', hm⟩
  | blank hcode hsize _ ih =>
    rcases List.mem_cons.1 ht with rfl | ht
    · exact .inr ⟨hcode, hsize⟩
    · exact ih ht

end Spread

section Target

variable {f : Nat → Nat} {p p' : List Statement} {address boundary : Int}

theorem targetFrom?_of_lt (h : address < boundary) (place : Nat) :
    targetFrom? address boundary place p = none := by
  cases p with
  | nil => rfl
  | cons s p => simp [targetFrom?, h, Int.ne_of_lt h]

/-- Statements carry the places at which they stand, from the given one on. -/
def NumberedFrom (a : Nat) (p : List Statement) : Prop :=
  ∀ (k : Nat) (s : Statement), p[k]? = some s → s.index = a + k

theorem NumberedFrom.head {a : Nat} {s : Statement} (h : NumberedFrom a (s :: p)) :
    s.index = a := by
  simpa using h 0 s rfl

theorem NumberedFrom.tail {a : Nat} {s : Statement} (h : NumberedFrom a (s :: p)) :
    NumberedFrom (a + 1) p := by
  intro k t ht
  have := h (k + 1) t (by simpa using ht)
  omega

/-- A statement put in is passed over by the search: it takes no room, and what starts at the same
address comes after it. -/
theorem targetFrom?_spread (h : Spread f p p') : ∀ (boundary : Int) {a b : Nat}, NumberedFrom a p →
    NumberedFrom b p' →
      targetFrom? address boundary b p' = (targetFrom? address boundary a p).map f := by
  induction h with
  | nil => intros; rfl
  | keep s _ ih =>
    intro boundary a b ha hb
    have hab : f a = b := by
      have hmoved := Statement.index_moved ha.head f
      have hs : (s.moved f).index = b := hb.head
      omega
    have hrest := ih (boundary + s.size) ha.tail hb.tail
    rw [targetFrom?, targetFrom?, show (s.moved f).size = s.size from rfl, hrest]
    split_ifs
    · simp [hab]
    · rfl
    · rfl
  | blank _ hsize _ ih =>
    intro boundary a b ha hb
    have hrest := ih boundary ha hb.tail
    simp only [targetFrom?, hsize, Int.lt_irrefl, false_and, if_false, Int.add_zero]
    -- an address already passed is given up here, and the other search finds nothing either
    split_ifs with hlt
    · rw [targetFrom?_of_lt hlt]
      rfl
    · exact hrest

theorem target?_spread (h : Spread f p p') (hp : NumberedFrom 0 p) (hp' : NumberedFrom 0 p') :
    target? p' address = (target? p address).map f :=
  targetFrom?_spread h 0 hp hp'

end Target

namespace Symbols

variable (f : Nat → Nat) (t : Symbols) (name : String)

theorem find?_moved : (t.moved f).find? name = (t.find? name).map (Label.moved f) := by
  simp [find?, moved, List.find?_map, Function.comp_def, Label.moved]

theorem addressOf?_moved : (t.moved f).addressOf? name = t.addressOf? name := by
  simp [addressOf?, find?_moved, Function.comp_def, Label.moved]

end Symbols

namespace Layout

/-- The layout of a program and of the one in which it is spread. -/
structure SpreadTo (f : Nat → Nat) (l l' : Layout) : Prop where
  statements : Spread f l.statements l'.statements
  symbols : l'.symbols = l.symbols.moved f
  memory : l'.memory = l.memory

namespace Draft

structure SpreadTo (f : Nat → Nat) (d d' : Draft) : Prop where
  statements : Spread f d.statements.toList d'.statements.toList
  symbols : d'.symbols = d.symbols.moved f
  memory : d'.memory = d.memory
  address : d'.address = d.address
  inCode : d'.inCode = d.inCode

variable {f : Nat → Nat} {d d' : Draft}

theorem define_spread (h : SpreadTo f d d') (s : Statement) (label : Option String) :
    Alike (fun _ _ => True) (SpreadTo f) (d.define s label) (d'.define (s.moved f) label) := by
  cases label with
  | none => exact .ok h
  | some name =>
    have hfind := Symbols.find?_moved f d.symbols name
    simp only [define, Symbols.define, h.symbols, h.address]
    rcases hf : d.symbols.find? name with _ | first <;> simp only [hfind, hf]
    · by_cases hn : isLabelName name = true
      · simp only [hn]
        exact .ok ⟨h.statements, by simp [Symbols.moved, Label.moved, Statement.moved], h.memory,
          rfl, h.inCode⟩
      · simp only [hn]
        exact .error trivial
    · exact .error trivial

theorem grant_spread (h : d'.inCode = d.inCode) (s : Statement) (l : CodeLine) :
    Alike (fun _ _ => True) Eq (d.grant s l) (d'.grant (s.moved f) l) := by
  have hdata : ∀ op : DataOp, Alike (fun _ _ => True) Eq (op.grant l.operands s.line)
      (op.grant l.operands (s.moved f).line) := fun op =>
    alike_of_ok_iff fun c => DataOp.grant_eq_ok_iff.trans DataOp.grant_eq_ok_iff.symm
  unfold grant chunk
  rw [h]
  split
  · exact .error trivial
  · rename_i op _
    split_ifs
    · exact .error trivial
    · exact hdata op
  · rename_i m _ _
    rw [show (.ok (.code m.size) >>= Chunk.granted) = _ from granted_code m]
    exact .ok rfl

theorem SpreadTo.holding (h : SpreadTo f d d') (c : Chunk) :
    SpreadTo f (d.holding c) (d'.holding c) :=
  ⟨h.statements, h.symbols, by simp [Draft.holding, h.memory], h.address,
    by simp [Draft.holding, h.inCode]⟩

theorem SpreadTo.push (h : SpreadTo f d d') (s : Statement) (size : Int) :
    SpreadTo f (d.push s size) (d'.push (s.moved f) size) := by
  refine ⟨?_, h.symbols, h.memory, by simp [Draft.push, h.address], h.inCode⟩
  simp only [Draft.push, Array.toList_push, h.address]
  exact h.statements.append (.keep _ .nil)

theorem SpreadTo.push_blank (h : SpreadTo f d d') {t : Statement}
    (ht : CodeLine.parse? t.text = none) : SpreadTo f d (d'.push t 0) := by
  refine ⟨?_, h.symbols, h.memory, by simp [Draft.push, h.address], h.inCode⟩
  have hlast := h.statements.append
    (.blank (t := { t with address := d'.address, size := 0 }) ht rfl .nil)
  simpa [Draft.push] using hlast

theorem add_spread (h : SpreadTo f d d') (s : Statement) :
    Alike (fun _ _ => True) (SpreadTo f) (d.add s) (d'.add (s.moved f)) := by
  have htext : (s.moved f).text = s.text := rfl
  rcases hp : CodeLine.parse? s.text with _ | l
  · rw [add_of_blank hp, add_of_blank (htext ▸ hp)]
    exact .ok (h.push s 0)
  · rw [add_of_parse hp, add_of_parse (htext ▸ hp)]
    refine (define_spread h s l.label).bind fun d₁ d₁' h₁ => ?_
    refine (grant_spread h₁.inCode s l).bind_eq fun c => ?_
    exact .ok ((h₁.holding c).push s c.size)

end Draft

open Draft in
theorem foldlM_spread {f : Nat → Nat} {p p' : List Statement} (h : Spread f p p') :
    ∀ {d d' : Draft}, Draft.SpreadTo f d d' →
      Alike (fun _ _ => True) (Draft.SpreadTo f) (p.foldlM Draft.add d)
        (p'.foldlM Draft.add d') := by
  induction h with
  | nil => exact fun hd => .ok hd
  | keep s _ ih =>
    intro d d' hd
    rw [List.foldlM_cons, List.foldlM_cons]
    exact (add_spread hd s).bind fun _ _ => ih
  | blank hcode _ _ ih =>
    intro d d' hd
    rw [List.foldlM_cons, add_of_blank hcode]
    exact ih (hd.push_blank hcode)

theorem build_spread {f : Nat → Nat} {p p' : List Statement} (h : Spread f p p') :
    Alike (fun _ _ => True) (SpreadTo f) (build p) (build p') := by
  have hstart : Draft.SpreadTo f {} {} := ⟨.nil, rfl, rfl, rfl, rfl⟩
  refine (foldlM_spread h hstart).bind fun d d' hd => ?_
  exact .ok ⟨hd.statements, hd.symbols, hd.memory⟩

end Layout

end WordMachine
