import Mathlib.Data.List.Induction
import Mathlib.Data.List.TakeWhile
import WordMachine.Text.Lines
import WordMachine.Token

/-!
# Scanning a line

A word is a run of characters that are neither blanks nor commas. What is scanned up to the end of
a word is that word and, at a comma, the comma (`scan_word_blank`, `scan_word_comma`). Blanks at
either end make no difference (`scan_trim`), so a line without a comment has the tokens that all its
characters have (`tokens_of_no_comment`). Every token is a word or a comma
(`isToken_of_mem_tokens`), and such tokens with a space between any two are scanned as they are
(`tokens_intercalate`). Scanning comes to the same as putting a space on either side of every comma
and splitting at blanks (`tokens_eq_split`).
-/

namespace WordMachine

open Text

theorem plain_of_isAlphanum {c : Char} (h : c.isAlphanum = true) :
    isBlank c = false ∧ c ≠ ',' ∧ c ≠ '#' ∧ c ≠ '(' := by
  change ((decide (65 ≤ c.val ∧ c.val ≤ 90) || (decide (97 ≤ c.val) && decide (c.val ≤ 122)))
    || (decide (48 ≤ c.val) && decide (c.val ≤ 57))) = true at h
  simp only [Bool.or_eq_true, Bool.and_eq_true, decide_eq_true_eq, UInt32.le_iff_toNat_le] at h
  change ((65 ≤ c.toNat ∧ c.toNat ≤ 90) ∨ 97 ≤ c.toNat ∧ c.toNat ≤ 122)
    ∨ 48 ≤ c.toNat ∧ c.toNat ≤ 57 at h
  refine ⟨?_, ?_, ?_, ?_⟩
  · rw [Bool.eq_false_iff]
    intro hb
    simp only [isBlank, inRanges, blankRanges, List.any_cons, List.any_nil, Bool.or_eq_true,
      Bool.and_eq_true, decide_eq_true_eq, Bool.false_eq_true, or_false] at hb
    omega
  all_goals
    rintro rfl
    revert h
    decide

namespace Token

/-- A run of characters that scanning leaves in one piece. -/
structure IsWord (w : List Char) : Prop where
  ne_nil : w ≠ []
  plain : ∀ c ∈ w, isBlank c = false ∧ c ≠ ','

theorem isWord_singleton {c : Char} (h : isBlank c = false ∧ c ≠ ',') : IsWord [c] :=
  ⟨List.cons_ne_nil c [], List.forall_mem_singleton.2 h⟩

theorem isWord_of_isAlphanum {w : List Char} (hne : w ≠ [])
    (h : ∀ c ∈ w, c.isAlphanum = true) : IsWord w :=
  ⟨hne, fun c hc => ⟨(plain_of_isAlphanum (h c hc)).1, (plain_of_isAlphanum (h c hc)).2.1⟩⟩

section Word

variable {w cs : List Char} {b : Char}

theorem scan_blank (hb : isBlank b = true) (cs : List Char) : scan (b :: cs) = scan cs := by
  simp [scan, scanChar, hb, push]

theorem foldr_scanChar : ∀ {w : List Char}, (∀ c ∈ w, isBlank c = false ∧ c ≠ ',') →
    ∀ p, w.foldr scanChar p = (w ++ p.1, p.2)
  | [], _, p => rfl
  | c :: w, h, p => by
    obtain ⟨hblank, hcomma⟩ := h c List.mem_cons_self
    rw [List.foldr_cons, foldr_scanChar fun d hd => h d (List.mem_cons_of_mem c hd)]
    simp [scanChar, hblank, hcomma]

theorem scan_word (hw : IsWord w) : scan w = [w] := by
  unfold scan
  rw [foldr_scanChar hw.plain]
  simp [push, hw.ne_nil]

theorem scan_word_blank (hw : IsWord w) (hb : isBlank b = true) (cs : List Char) :
    scan (w ++ b :: cs) = w :: scan cs := by
  unfold scan
  rw [List.foldr_append, foldr_scanChar hw.plain, List.foldr_cons]
  simp [scanChar, hb, push, hw.ne_nil]

theorem scan_word_comma (hw : IsWord w) (cs : List Char) :
    scan (w ++ ',' :: cs) = w :: [','] :: scan cs := by
  have hcomma : isBlank ',' = false := by decide
  unfold scan
  rw [List.foldr_append, foldr_scanChar hw.plain, List.foldr_cons]
  simp [scanChar, hcomma, push, hw.ne_nil]

end Word

theorem scan_dropWhile : ∀ cs : List Char, scan (cs.dropWhile isBlank) = scan cs
  | [] => rfl
  | c :: cs => by
    rw [List.dropWhile_cons]
    split
    · rename_i hc
      rw [scan_dropWhile cs, scan_blank hc]
    · rfl

theorem scan_append_blank {b : Char} (hb : isBlank b = true) (cs : List Char) :
    scan (cs ++ [b]) = scan cs := by
  unfold scan
  rw [List.foldr_append]
  simp [scanChar, hb, push]

theorem scan_rdropWhile (cs : List Char) :
    scan (cs.reverse.dropWhile isBlank).reverse = scan cs := by
  induction cs using List.reverseRecOn with
  | nil => rfl
  | append_singleton cs c ih =>
    rw [List.reverse_append, List.reverse_singleton, List.singleton_append, List.dropWhile_cons]
    split
    · rename_i hc
      rw [ih, scan_append_blank hc]
    · simp

theorem scan_trim (cs : List Char) : scan (trim isBlank cs) = scan cs := by
  unfold trim
  rw [scan_rdropWhile, scan_dropWhile]

theorem mem_of_mem_trim {cs : List Char} {c : Char} (h : c ∈ trim isBlank cs) : c ∈ cs := by
  unfold trim at h
  rw [List.mem_reverse] at h
  have h := (List.dropWhile_sublist _).subset h
  rw [List.mem_reverse] at h
  exact (List.dropWhile_sublist _).subset h

/-- What scanning leaves in one piece. -/
def IsToken (w : List Char) : Prop := w = [','] ∨ IsWord w

/-- What the scan of a text comes to: a run of plain characters at the front and tokens after it,
with no character that the text does not have. -/
structure Scanned (cs : List Char) (p : List Char × List (List Char)) : Prop where
  run : ∀ c ∈ p.1, c ∈ cs ∧ isBlank c = false ∧ c ≠ ','
  later : ∀ w ∈ p.2, IsToken w ∧ ∀ c ∈ w, c ∈ cs

theorem Scanned.push {cs : List Char} {p : List Char × List (List Char)} (h : Scanned cs p) :
    ∀ w ∈ push p.1 p.2, IsToken w ∧ ∀ c ∈ w, c ∈ cs := by
  intro w hw
  unfold Token.push at hw
  split_ifs at hw with hnil
  · exact h.later w hw
  · rcases List.mem_cons.1 hw with rfl | hw
    · exact ⟨.inr ⟨by simpa using hnil, fun c hc => (h.run c hc).2⟩, fun c hc => (h.run c hc).1⟩
    · exact h.later w hw

theorem Scanned.mono {cs : List Char} {p : List Char × List (List Char)} (h : Scanned cs p)
    (c : Char) : Scanned (c :: cs) p :=
  ⟨fun d hd => ⟨List.mem_cons_of_mem c (h.run d hd).1, (h.run d hd).2⟩,
    fun w hw => ⟨(h.later w hw).1, fun d hd => List.mem_cons_of_mem c ((h.later w hw).2 d hd)⟩⟩

theorem scanned_foldr : ∀ cs : List Char, Scanned cs (cs.foldr scanChar ([], []))
  | [] => ⟨by simp, by simp⟩
  | c :: cs => by
    have ih := (scanned_foldr cs).mono c
    rw [List.foldr_cons, scanChar]
    split_ifs with hblank hcomma
    · exact ⟨by simp, ih.push⟩
    · exact ⟨by simp, List.forall_mem_cons.2 ⟨⟨.inl rfl, by simp [hcomma]⟩, ih.push⟩⟩
    · have hc : c ∈ c :: cs ∧ isBlank c = false ∧ c ≠ ',' :=
        ⟨List.mem_cons_self, by simpa using hblank, hcomma⟩
      exact ⟨List.forall_mem_cons.2 ⟨hc, ih.run⟩, ih.later⟩

theorem mem_scan {cs w : List Char} (h : w ∈ scan cs) : IsToken w ∧ ∀ c ∈ w, c ∈ cs :=
  (scanned_foldr cs).push w h

theorem scan_comma (cs : List Char) : scan (',' :: cs) = [','] :: scan cs := by
  have hcomma : isBlank ',' = false := by decide
  simp [scan, scanChar, hcomma, push]

theorem scan_token_blank {w : List Char} {b : Char} (hw : IsToken w) (hb : isBlank b = true)
    (cs : List Char) : scan (w ++ b :: cs) = w :: scan cs := by
  rcases hw with rfl | hw
  · rw [List.singleton_append, scan_comma, scan_blank hb]
  · exact scan_word_blank hw hb cs

/-- Tokens with a space between any two are scanned one by one. -/
theorem scan_intercalate : ∀ {ws : List (List Char)}, (∀ w ∈ ws, IsToken w) →
    scan ([' '].intercalate ws) = ws
  | [], _ => rfl
  | [w], h => by
    have hw := scan_token_blank (b := ' ') (h w List.mem_cons_self) (by decide) []
    rw [scan_append_blank (by decide)] at hw
    rw [List.intercalate_singleton, hw]
    rfl
  | w :: w' :: ws, h => by
    rw [List.intercalate_cons_cons, List.append_assoc, List.singleton_append,
      scan_token_blank (h w List.mem_cons_self) (by decide),
      scan_intercalate fun v hv => h v (List.mem_cons_of_mem w hv)]

/-! ## Splitting at blanks -/

/-- The part of a line before its comment: nothing if the line, without the blanks around it, begins
with the comment, and else the first of the pieces around the number signs. -/
def uncommented (line : List Char) : List Char :=
  let code := trim isBlank line
  if code.head? = some '#' then [] else (splitAtChar '#' code).headD []

/-- A text with a space on either side of every comma. -/
def spaced (cs : List Char) : List Char :=
  cs.flatMap fun c => if c = ',' then [' ', ',', ' '] else [c]

/-- The pieces between the blanks of a text, without the empty ones. -/
def pieces (cs : List Char) : List (List Char) := (cs.splitOnP isBlank).filter (· ≠ [])

theorem headD_splitAtChar (sep : Char) : ∀ cs : List Char,
    (splitAtChar sep cs).headD [] = cs.takeWhile (· ≠ sep)
  | [] => rfl
  | c :: cs => by
    have ih := headD_splitAtChar sep cs
    by_cases hc : c = sep
    · subst hc
      simp [splitAtChar_cons_self]
    · rw [List.takeWhile_cons_of_pos (by simpa using hc), ← ih]
      simp [splitAtChar, hc]

theorem uncommented_eq_code (line : List Char) : uncommented line = code line := by
  simp only [uncommented, code, headD_splitAtChar]
  rcases trim isBlank line with _ | ⟨c, cs⟩
  · rfl
  · by_cases hc : c = '#' <;> simp [hc]

theorem filter_ne_nil_cons (run : List Char) (rest : List (List Char)) :
    (run :: rest).filter (· ≠ []) = push run (rest.filter (· ≠ [])) := by
  cases run <;> rfl

/-- Between the blanks stand the run at the front and, where they are not empty, the tokens. -/
theorem splitOnP_spaced (cs : List Char) :
    ∃ rest, (spaced cs).splitOnP isBlank = (cs.foldr scanChar ([], [])).1 :: rest
      ∧ rest.filter (· ≠ []) = (cs.foldr scanChar ([], [])).2 := by
  induction cs with
  | nil => exact ⟨[], rfl, rfl⟩
  | cons c cs ih =>
    obtain ⟨rest, hsplit, hrest⟩ := ih
    have hspace : isBlank ' ' = true := by decide
    have hcomma : isBlank ',' = false := by decide
    rw [List.foldr_cons, scanChar, spaced, List.flatMap_cons, ← spaced]
    by_cases hblank : isBlank c = true
    · have hne : c ≠ ',' := by
        rintro rfl
        rw [hcomma] at hblank
        cases hblank
      refine ⟨(cs.foldr scanChar ([], [])).1 :: rest, ?_, ?_⟩
      · simp [hne, hblank, List.splitOnP_cons_eq_if_modifyHead, hsplit]
      · rw [if_pos hblank, filter_ne_nil_cons, hrest]
    · by_cases hc : c = ','
      · subst hc
        refine ⟨[','] :: (cs.foldr scanChar ([], [])).1 :: rest, ?_, ?_⟩
        · simp [hspace, hcomma, List.splitOnP_cons_eq_if_modifyHead, hsplit]
        · rw [if_neg hblank, if_pos rfl, filter_ne_nil_cons, filter_ne_nil_cons, hrest]
          rfl
      · refine ⟨rest, ?_, ?_⟩
        · simp [hc, hblank, List.splitOnP_cons_eq_if_modifyHead, hsplit]
        · rw [if_neg hblank, if_neg hc, hrest]

theorem pieces_spaced (cs : List Char) : pieces (spaced cs) = scan cs := by
  obtain ⟨rest, hsplit, hrest⟩ := splitOnP_spaced cs
  rw [pieces, hsplit, filter_ne_nil_cons, hrest, scan]

end Token

/-- The tokens of a line are the pieces between blanks of what stands before the comment, once every
comma has been spaced. -/
theorem tokens_eq_split (line : String) :
    tokens line
      = (Token.pieces (Token.spaced (Token.uncommented line.toList))).map String.ofList := by
  rw [Token.uncommented_eq_code, Token.pieces_spaced]
  rfl

theorem tokens_of_no_comment {text : String} (h : '#' ∉ text.toList) :
    tokens text = (Token.scan text.toList).map String.ofList := by
  have hcode : Token.code text.toList = trim isBlank text.toList := by
    unfold Token.code
    rw [List.takeWhile_eq_self_iff]
    intro c hc
    have hmem := Token.mem_of_mem_trim hc
    simp only [decide_eq_true_eq]
    rintro rfl
    exact h hmem
  unfold tokens
  rw [hcode, Token.scan_trim]

/-- A token of a line is a word or a comma, and holds no part of a comment. -/
theorem isToken_of_mem_tokens {text t : String} (h : t ∈ tokens text) :
    Token.IsToken t.toList ∧ '#' ∉ t.toList := by
  obtain ⟨w, hw, rfl⟩ := List.mem_map.1 h
  obtain ⟨hword, hchars⟩ := Token.mem_scan hw
  rw [String.toList_ofList]
  refine ⟨hword, fun hc => ?_⟩
  have := List.mem_takeWhile_imp (hchars _ hc)
  simp at this

theorem mem_of_mem_intercalate {c : Char} {sep : List Char} :
    ∀ {ws : List (List Char)}, c ∈ sep.intercalate ws → c ∈ sep ∨ ∃ w ∈ ws, c ∈ w
  | [], h => by simp [List.intercalate] at h
  | [w], h => by
    rw [List.intercalate_singleton] at h
    exact .inr ⟨w, List.mem_cons_self, h⟩
  | w :: w' :: ws, h => by
    rw [List.intercalate_cons_cons, List.mem_append, List.mem_append] at h
    rcases h with (h | h) | h
    · exact .inr ⟨w, List.mem_cons_self, h⟩
    · exact .inl h
    · refine (mem_of_mem_intercalate h).imp_right ?_
      rintro ⟨v, hv, hc⟩
      exact ⟨v, List.mem_cons_of_mem w hv, hc⟩

theorem tokens_intercalate {ts : List String}
    (h : ∀ t ∈ ts, Token.IsToken t.toList ∧ '#' ∉ t.toList) : tokens (" ".intercalate ts) = ts := by
  have hcomment : '#' ∉ (" ".intercalate ts).toList := by
    rw [String.toList_intercalate]
    intro hc
    rcases mem_of_mem_intercalate hc with hc | ⟨w, hw, hc⟩
    · simp at hc
    · obtain ⟨t, ht, rfl⟩ := List.mem_map.1 hw
      exact (h t ht).2 hc
  have hwords : ∀ w ∈ ts.map String.toList, Token.IsToken w := by
    simpa using fun t ht => (h t ht).1
  rw [tokens_of_no_comment hcomment, String.toList_intercalate]
  show (Token.scan ([' '].intercalate (ts.map String.toList))).map String.ofList = ts
  rw [Token.scan_intercalate hwords, List.map_map]
  simp [Function.comp_def]

end WordMachine
