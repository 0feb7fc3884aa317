import WordMachine.Proofs.Operand

/-!
# The first number of a text

A pattern matches at the front of a text in some ways, the preferred one first, and a search tries
it at every place from left to right. The value of a constant can be found by searching its text for
an optional minus sign and digits (`value_eq_searchedValue`): the search and the reading that takes
the text apart at its first digit go through the characters in the same manner
(`search_number_cons`, `find?_cons`).

What is found is the first run of digits, whole, with the sign right before it (`Parted`). A text
with a digit can be taken apart in this way, and its value depends on nothing else
(`value_of_parted`); a minus sign elsewhere is like any other character (`find?_replace_minus`).
-/

namespace WordMachine

open Text

/-! ## Patterns -/

inductive Pattern where
  | one (p : Char → Bool)
  | optional (r : Pattern)
  | repeated (p : Char → Bool)
  | seq (r s : Pattern)

namespace Pattern

/-- Runs at the front of a text, the longest first: what is matched and what is left. -/
def runs (p : Char → Bool) : List Char → List (List Char × List Char)
  | [] => []
  | c :: cs => if p c then (runs p cs).map (fun m => (c :: m.1, m.2)) ++ [([c], cs)] else []

/-- The ways to match a pattern at the front of a text, the preferred first. A part that may be left
out is rather matched, and one that may be repeated is matched as often as it can be. -/
def ways : Pattern → List Char → List (List Char × List Char)
  | one _, [] => []
  | one p, c :: cs => if p c then [([c], cs)] else []
  | optional r, cs => r.ways cs ++ [([], cs)]
  | repeated p, cs => runs p cs
  | seq r s, cs => (r.ways cs).flatMap fun m => (s.ways m.2).map fun m' => (m.1 ++ m'.1, m'.2)

/-- What the pattern matches at the first place where it matches at all. -/
def search (r : Pattern) : List Char → Option (List Char)
  | [] => (r.ways []).head?.map Prod.fst
  | c :: cs => ((r.ways (c :: cs)).head?.map Prod.fst).or (search r cs)

/-- An optional minus sign and digits, at least one. -/
def number : Pattern := seq (optional (one (· == '-'))) (repeated isDecimal)

section Match

variable {p : Char → Bool} {c : Char} {cs : List Char}

theorem runs_eq_nil (h : cs.head?.any p = false) : runs p cs = [] := by
  cases cs with
  | nil => rfl
  | cons c cs => simp [runs, show p c = false from h]

/-- The preferred run is as long as it can be. -/
theorem head?_runs (h : p c = true) (cs : List Char) :
    (runs p (c :: cs)).head?.map Prod.fst = some ((c :: cs).takeWhile p) := by
  induction cs generalizing c with
  | nil => simp [runs, h]
  | cons d cs ih =>
    rw [runs, if_pos h, List.takeWhile_cons_of_pos h]
    by_cases hd : p d = true
    · have hrest := ih hd
      rcases hr : runs p (d :: cs) with _ | ⟨m, ms⟩ <;> rw [hr] at hrest
      · cases hrest
      · simpa using hrest
    · have hd : p d = false := by simpa using hd
      have hnone : runs p (d :: cs) = [] := runs_eq_nil hd
      simp [hnone, hd]

theorem not_isDecimal_minus : isDecimal '-' = false := by decide

theorem ways_number_of_ne {c : Char} (hc : c ≠ '-') (cs : List Char) :
    number.ways (c :: cs) = runs isDecimal (c :: cs) := by
  simp [number, ways, hc]

/-- With its sign a number is preferred to one without, which there is not at a sign. -/
theorem ways_number_minus (cs : List Char) :
    number.ways ('-' :: cs) = (runs isDecimal cs).map fun m => ('-' :: m.1, m.2) := by
  have hnone : runs isDecimal ('-' :: cs) = [] := runs_eq_nil not_isDecimal_minus
  simp [number, ways, hnone]

/-- A search for a number stops at a digit, or at a minus sign with a digit behind it. -/
theorem search_number_cons (c : Char) (cs : List Char) :
    number.search (c :: cs) = if isDecimal c then some ((c :: cs).takeWhile isDecimal)
      else if c = '-' ∧ cs.head?.any isDecimal = true then some ('-' :: cs.takeWhile isDecimal)
      else number.search cs := by
  rw [search]
  split_ifs with hdec hsign
  · have hc : c ≠ '-' := by
      rintro rfl
      rw [not_isDecimal_minus] at hdec
      cases hdec
    rw [ways_number_of_ne hc, head?_runs hdec]
    rfl
  · obtain ⟨rfl, hhead⟩ := hsign
    cases cs with
    | nil => cases hhead
    | cons d cs =>
      have hd : isDecimal d = true := hhead
      obtain ⟨m, hm, hfound⟩ := Option.map_eq_some_iff.1 (head?_runs hd cs)
      rw [ways_number_minus, List.head?_map, hm, ← hfound]
      rfl
  · have hdec : isDecimal c = false := by simpa using hdec
    have hnone : number.ways (c :: cs) = [] := by
      by_cases hc : c = '-'
      · subst hc
        have hhead : cs.head?.any isDecimal = false := by simpa using hsign
        rw [ways_number_minus, runs_eq_nil hhead]
        rfl
      · rw [ways_number_of_ne hc]
        exact runs_eq_nil hdec
    rw [hnone]
    rfl

end Match

end Pattern

namespace Literal

/-- A text converted to a number, a minus sign before its digits or not. -/
def convert : List Char → Except Numeral.Fault Int
  | '-' :: digits => (Numeral.read digits).map fun n => -(n : Int)
  | digits => (Numeral.read digits).map fun n => (n : Int)

/-- The value of a constant by way of a search. -/
def searchedValue (text : List Char) (line : Int) : Except Failure Int :=
  match Pattern.number.search text with
  | none => .error (fault line (.noNumber (String.ofList text)))
  | some found =>
    match convert found with
    | .error e => .error (.refusal (.numeral e))
    | .ok v => if Word.Fits v then .ok v else .error (fault line (.outOfRange v))

section Find

variable {c : Char} {cs : List Char}

theorem find?_cons (c : Char) (cs : List Char) :
    find? (c :: cs) = if isDecimal c then some (false, (c :: cs).takeWhile isDecimal)
      else if c = '-' ∧ cs.head?.any isDecimal = true then some (true, cs.takeWhile isDecimal)
      else find? cs := by
  split_ifs with hdec hsign
  · simp [find?, hdec]
  · obtain ⟨rfl, hhead⟩ := hsign
    cases cs with
    | nil => cases hhead
    | cons d cs =>
      have hd : isDecimal d = true := hhead
      simp [find?, hd, Pattern.not_isDecimal_minus]
  · have hdec : isDecimal c = false := by simpa using hdec
    unfold find?
    rw [List.takeWhile_cons_of_pos (by simp [hdec]), List.dropWhile_cons_of_pos (by simp [hdec])]
    rcases hbefore : cs.takeWhile (!isDecimal ·) with _ | ⟨b, bs⟩
    · -- nothing stands between the character and the digits, so it is no sign or there are none
      cases cs with
      | nil => rfl
      | cons d cs =>
        have hd : isDecimal d = true := by
          by_contra hd
          simp [hd] at hbefore
        have hc : c ≠ '-' := fun hc => hsign ⟨hc, hd⟩
        simp [hd, hc]
    · simp

theorem search_number_eq (text : List Char) :
    Pattern.number.search text
      = (find? text).map fun m => if m.1 then '-' :: m.2 else m.2 := by
  induction text with
  | nil => rfl
  | cons c cs ih =>
    rw [Pattern.search_number_cons, find?_cons, ih]
    split_ifs <;> rfl

end Find

theorem convert_of_digits {digits : List Char} (h : ∀ c ∈ digits, isDecimal c = true) :
    convert digits = (Numeral.read digits).map fun n => (n : Int) := by
  unfold convert
  split
  · have := h '-' List.mem_cons_self
    rw [Pattern.not_isDecimal_minus] at this
    cases this
  · rfl

theorem value_eq_searchedValue (text : List Char) (line : Int) :
    value text line = searchedValue text line := by
  unfold value searchedValue
  rw [search_number_eq]
  rcases hf : find? text with _ | ⟨negative, digits⟩
  · rfl
  · obtain ⟨-, -, -, -, -, -, hdigits, -⟩ := find?_eq_some_iff.1 hf
    cases negative with
    | true =>
      simp only [Option.map_some, if_true, convert]
      rcases Numeral.read digits with e | n <;> rfl
    | false =>
      simp only [Option.map_some, Bool.false_eq_true, if_false, convert_of_digits hdigits]
      rcases Numeral.read digits with e | n <;> rfl

theorem find?_eq_none_iff {text : List Char} :
    find? text = none ↔ ∀ c ∈ text, isDecimal c = false := by
  induction text with
  | nil => simp [find?]
  | cons c cs ih =>
    rw [find?_cons, List.forall_mem_cons, ← ih]
    split_ifs with hdec hsign
    · simp [hdec]
    · obtain ⟨d, hd, hdec'⟩ := (Option.any_eq_true _ _).1 hsign.2
      have hmem : d ∈ cs := List.mem_of_mem_head? hd
      have hsome : find? cs ≠ none := fun hnone => by
        rw [ih.1 hnone d hmem] at hdec'
        cases hdec'
      simp [hsome]
    · simp [hdec]

/-! ## Around the first number -/

/-- A text taken apart around its first number: no digit before it, its sign if it has one, all its
digits, and what comes after them. The sign is there when a minus sign stands right before the
digits. -/
structure Parted (text front sign digits back : List Char) : Prop where
  text_eq : text = front ++ sign ++ digits ++ back
  no_digit : ∀ c ∈ front, isDecimal c = false
  ne_nil : digits ≠ []
  decimal : ∀ c ∈ digits, isDecimal c = true
  stop : ∀ c, back.head? = some c → isDecimal c = false
  sign_eq : sign = if (front ++ sign).getLast? = some '-' then ['-'] else []

/-- The number that digits stand for in base ten, negative behind a sign. -/
def decimalValue (sign digits : List Char) : Int :=
  let n : Int := (Nat.ofDigits 10 (digits.filterMap decimalDigit?).reverse : Nat)
  if sign = [] then n else -n

theorem read_of_decimal {digits : List Char} (hne : digits ≠ [])
    (hdec : ∀ c ∈ digits, isDecimal c = true) :
    Numeral.read digits = if digits.length ≤ Numeral.maxDigits then
        .ok (Numeral.ofDigits (digits.filterMap decimalDigit?))
      else .error (.tooManyDigits digits.length) := by
  split_ifs with hlen
  · exact read_eq_ok_iff.2 ⟨hne, hdec, hlen, rfl⟩
  · unfold Numeral.read
    rw [List.takeWhile_eq_self_iff.2 hdec]
    exact if_pos (by omega)

section Parted

variable {text front sign digits back : List Char} {line : Int}

theorem Parted.find?_eq (h : Parted text front sign digits back) :
    find? text = some (decide (sign ≠ []), digits) := by
  have hsign := h.sign_eq
  refine find?_eq_some_iff.2
    ⟨front ++ sign, back, h.text_eq, fun c hc => ?_, h.stop, h.ne_nil, h.decimal, ?_⟩
  · rcases List.mem_append.1 hc with hc | hc
    · exact h.no_digit c hc
    · rw [hsign] at hc
      split_ifs at hc
      · rw [List.mem_singleton.1 hc]
        exact Pattern.not_isDecimal_minus
      · cases hc
  · split_ifs at hsign with hlast
    · simp [hsign]
    · rw [Bool.eq_iff_iff]
      simpa [hsign] using hlast

/-- A text with a digit can be taken apart. -/
theorem exists_parted {negative : Bool} (h : find? text = some (negative, digits)) :
    ∃ front sign back, Parted text front sign digits back := by
  obtain ⟨before, back, htext, hbefore, hback, hne, hdigits, -⟩ := find?_eq_some_iff.1 h
  by_cases hlast : before.getLast? = some '-'
  · obtain ⟨front, rfl⟩ := List.getLast?_eq_some_iff.1 hlast
    refine ⟨front, ['-'], back, htext, fun c hc => hbefore c ?_, hne, hdigits, hback, ?_⟩
    · exact List.mem_append_left _ hc
    · rw [if_pos hlast]
  · refine ⟨before, [], back, by simpa using htext, hbefore, hne, hdigits, hback, ?_⟩
    rw [List.append_nil, if_neg hlast]

/-- The value of a text depends on its first number alone. -/
theorem value_of_parted (h : Parted text front sign digits back) (line : Int) :
    value text line = if digits.length ≤ Numeral.maxDigits then
        if Word.Fits (decimalValue sign digits) then .ok (decimalValue sign digits)
        else .error (fault line (.outOfRange (decimalValue sign digits)))
      else .error (.refusal (.numeral (.tooManyDigits digits.length))) := by
  have hsigned : (if decide (sign ≠ []) then
      -((Numeral.ofDigits (digits.filterMap decimalDigit?) : Nat) : Int)
      else (Numeral.ofDigits (digits.filterMap decimalDigit?) : Nat))
      = decimalValue sign digits := by
    rw [decimalValue, ofDigits_eq]
    by_cases hs : sign = [] <;> simp [hs]
  unfold value
  simp only [h.find?_eq, read_of_decimal h.ne_nil h.decimal]
  by_cases hlen : digits.length ≤ Numeral.maxDigits
  · rw [if_pos hlen, if_pos hlen, ← hsigned]
  · rw [if_neg hlen, if_neg hlen]

theorem value_of_no_digit (h : ∀ c ∈ text, isDecimal c = false) (line : Int) :
    value text line = .error (fault line (.noNumber (String.ofList text))) := by
  unfold value
  rw [find?_eq_none_iff.2 h]

theorem no_digit_or_parted (text : List Char) :
    (∀ c ∈ text, isDecimal c = false)
      ∨ ∃ front sign digits back, Parted text front sign digits back := by
  rcases hf : find? text with _ | ⟨negative, digits⟩
  · exact .inl (find?_eq_none_iff.1 hf)
  · obtain ⟨front, sign, back, h⟩ := exists_parted hf
    exact .inr ⟨front, sign, digits, back, h⟩

end Parted

/-! ## Signs elsewhere -/

section Sign

variable {c : Char} {front back : List Char}

theorem takeWhile_append_stop (hc : isDecimal c = false) (front back : List Char) :
    (front ++ c :: back).takeWhile isDecimal = front.takeWhile isDecimal := by
  induction front with
  | nil => simp [hc]
  | cons d front ih =>
    rw [List.cons_append, List.takeWhile_cons, List.takeWhile_cons, ih]

theorem head?_append_stop (hc : isDecimal c = false) (front back : List Char) :
    (front ++ c :: back).head?.any isDecimal = front.head?.any isDecimal := by
  cases front with
  | nil => exact hc
  | cons d front => rfl

/-- Whether a minus sign stands there or another character that is no digit makes no difference
unless the first number begins right after it. -/
theorem find?_replace_minus (hc : isDecimal c = false) (hne : c ≠ '-')
    (hnot : ¬ ((∀ d ∈ front, isDecimal d = false) ∧ back.head?.any isDecimal = true)) :
    find? (front ++ c :: back) = find? (front ++ '-' :: back) := by
  induction front with
  | nil =>
    have hback : ¬ back.head?.any isDecimal = true := fun h => hnot ⟨by simp, h⟩
    rw [List.nil_append, List.nil_append, find?_cons, find?_cons,
      if_neg (by simp [hc]), if_neg (by simp [hne]),
      if_neg (by simp [Pattern.not_isDecimal_minus]), if_neg (by simp [hback])]
  | cons d front ih =>
    rw [List.cons_append, List.cons_append, find?_cons, find?_cons, ← List.cons_append,
      ← List.cons_append, takeWhile_append_stop hc, takeWhile_append_stop hc,
      takeWhile_append_stop Pattern.not_isDecimal_minus,
      takeWhile_append_stop Pattern.not_isDecimal_minus, head?_append_stop hc,
      head?_append_stop Pattern.not_isDecimal_minus]
    split_ifs with hd hsign
    · rfl
    · rfl
    · refine ih fun h => hnot ⟨List.forall_mem_cons.2 ⟨by simpa using hd, h.1⟩, h.2⟩

theorem value_of_find?_eq {text text' : List Char} (h : find? text = find? text')
    (hdigit : ∃ d ∈ text, isDecimal d = true) (line : Int) :
    value text line = value text' line := by
  rcases hf : find? text with _ | m
  · obtain ⟨d, hd, hdec⟩ := hdigit
    rw [find?_eq_none_iff.1 hf d hd] at hdec
    cases hdec
  · unfold value
    rw [← h, hf]

end Sign

/-- The value of a constant is what a search for an optional minus sign and digits finds. It is the
number of the first run of digits, taken whole, and of the sign right before it, if they are not too
many and it is a word. A text without a digit is an error of the literal, and so is a number that is
no word. A minus sign elsewhere might as well be another character. -/
theorem value_leftmost (text : List Char) (line : Int) :
    value text line = searchedValue text line
      ∧ (∀ v, value text line = .ok v ↔ ∃ front sign digits back,
        Parted text front sign digits back ∧ digits.length ≤ 4300
          ∧ v = decimalValue sign digits ∧ Word.Fits v)
      ∧ ((∃ f, value text line = .error (.atLine line (.literal f)))
        ↔ (∀ c ∈ text, isDecimal c = false) ∨ ∃ front sign digits back,
          Parted text front sign digits back ∧ digits.length ≤ 4300
            ∧ ¬ Word.Fits (decimalValue sign digits))
      ∧ ∀ front back c, text = front ++ '-' :: back → isDecimal c = false → c ≠ '-' →
        ¬ ((∀ d ∈ front, isDecimal d = false) ∧ back.head?.any isDecimal = true) →
        (∃ d ∈ text, isDecimal d = true) → value (front ++ c :: back) line = value text line := by
  refine ⟨value_eq_searchedValue text line, fun v => ⟨fun h => ?_, ?_⟩, ⟨?_, ?_⟩, ?_⟩
  · rcases no_digit_or_parted text with hnone | ⟨front, sign, digits, back, hp⟩
    · rw [value_of_no_digit hnone] at h
      cases h
    · rw [value_of_parted hp] at h
      split_ifs at h with hlen hfits
      cases h
      exact ⟨front, sign, digits, back, hp, hlen, rfl, hfits⟩
  · rintro ⟨front, sign, digits, back, hp, hlen, rfl, hfits⟩
    have hlen : digits.length ≤ Numeral.maxDigits := hlen
    rw [value_of_parted hp, if_pos hlen, if_pos hfits]
  · rintro ⟨f, hf⟩
    rcases no_digit_or_parted text with hnone | ⟨front, sign, digits, back, hp⟩
    · exact .inl hnone
    · rw [value_of_parted hp] at hf
      split_ifs at hf with hlen hfits
      · exact .inr ⟨front, sign, digits, back, hp, hlen, hfits⟩
      · cases hf
  · rintro (hnone | ⟨front, sign, digits, back, hp, hlen, hfits⟩)
    · exact ⟨_, value_of_no_digit hnone line⟩
    · have hlen : digits.length ≤ Numeral.maxDigits := hlen
      rw [value_of_parted hp, if_pos hlen, if_neg hfits]
      exact ⟨_, rfl⟩
  · rintro front back c rfl hc hne hnot ⟨d, hd, hdec⟩
    exact (value_of_find?_eq (find?_replace_minus hc hne hnot).symm ⟨d, hd, hdec⟩ line).symm

/-- Of two signs the second counts, and of two numbers the first; the digits are of two scripts. -/
theorem value_leftmost_signs :
    Parted "x-y-0٧z9".toList "x-y".toList ['-'] "0٧".toList "z9".toList
      ∧ value "x-y-0٧z9".toList 3 = .ok (-7)
      ∧ value ("x".toList ++ '+' :: "y-0٧z9".toList) 3 = value "x-y-0٧z9".toList 3 := by
  obtain ⟨-, hok, -, hsign⟩ := value_leftmost "x-y-0٧z9".toList 3
  have hparted : Parted "x-y-0٧z9".toList "x-y".toList ['-'] "0٧".toList "z9".toList :=
    ⟨by decide, by simp; decide, by decide, by simp; decide, by simp; decide, by decide⟩
  refine ⟨hparted, (hok _).2 ⟨_, _, _, _, hparted, by decide, by decide, by decide⟩, ?_⟩
  have hletter : ("y-0٧z9".toList.head?.any isDecimal) = false := by decide
  exact hsign "x".toList "y-0٧z9".toList '+' (by decide) (by decide) (by decide)
    (fun h => by rw [hletter] at h; cases h.2) ⟨'٧', by decide, by decide⟩

end Literal

end WordMachine
