import WordMachine.Proofs.Tokens

/-!
# Tokens at their places

A lexeme is a token at its place in a text: a comma, or a word that stands between characters which
are not plain, so that it is as long as it can be (`IsLexeme`). A text begins with a blank, a comma
or a whole word (`piece_induct`), and behind such a piece the lexemes are those of the rest, moved
by its length (`isLexeme_append_iff`). So scanning finds all lexemes and nothing else, from left to
right (`exists_listed`). Blanks that are trimmed and a comment that is cut off make no difference
(`scan_code`), and what is scanned behind a blank does not depend on what stands before it
(`scan_append_cons_blank`).
-/

namespace WordMachine

open Text

namespace Token

/-- A character that can stand in a word. -/
def isPlain (c : Char) : Bool := !isBlank c && c != ','

/-- A token that is as long as it can be between what stands before and after it. -/
def StandsBetween (before w after : List Char) : Prop :=
  w = [','] ∨ IsWord w ∧ (∀ c, before.getLast? = some c → isPlain c = false)
    ∧ ∀ c, after.head? = some c → isPlain c = false

/-- A token that begins at the given place of a text. -/
def IsLexeme (cs : List Char) (i : Nat) (w : List Char) : Prop :=
  ∃ before after, cs = before ++ w ++ after ∧ before.length = i ∧ StandsBetween before w after

/-- All lexemes of a text, each with its place, from left to right. -/
structure Listed (cs : List Char) (ls : List (Nat × List Char)) : Prop where
  ordered : ls.Pairwise fun p q => p.1 + p.2.length ≤ q.1
  complete : ∀ i w, (i, w) ∈ ls ↔ IsLexeme cs i w

section Plain

variable {c : Char} {w cs : List Char}

theorem isPlain_iff : isPlain c = true ↔ isBlank c = false ∧ c ≠ ',' := by
  simp [isPlain]

theorem isPlain_eq_false_iff : isPlain c = false ↔ isBlank c = true ∨ c = ',' := by
  rw [← Bool.not_eq_true, isPlain_iff]
  by_cases hb : isBlank c = true <;> simp [hb]

theorem IsWord.isPlain (hw : IsWord w) (hc : c ∈ w) : isPlain c = true :=
  isPlain_iff.2 (hw.plain c hc)

theorem isWord_iff : IsWord w ↔ w ≠ [] ∧ ∀ c ∈ w, Token.isPlain c = true :=
  ⟨fun hw => ⟨hw.ne_nil, fun _ hc => hw.isPlain hc⟩,
    fun hw => ⟨hw.1, fun c hc => isPlain_iff.1 (hw.2 c hc)⟩⟩

/-- A word that the next character does not make longer is what plain characters a text begins
with. -/
theorem takeWhile_word_append (hw : IsWord w)
    (hcs : ∀ c, cs.head? = some c → Token.isPlain c = false) :
    (w ++ cs).takeWhile Token.isPlain = w := by
  rw [List.takeWhile_append_of_pos fun c hc => hw.isPlain hc]
  cases cs with
  | nil => simp
  | cons c cs => simp [hcs c rfl]

theorem IsToken.ne_nil (h : IsToken w) : w ≠ [] := by
  rcases h with rfl | hw
  · exact List.cons_ne_nil _ _
  · exact hw.ne_nil

theorem IsToken.not_blank (h : IsToken w) (hc : c ∈ w) : isBlank c = false := by
  rcases h with rfl | hw
  · obtain rfl := List.mem_singleton.1 hc
    decide
  · exact (hw.plain c hc).1

theorem IsToken.eq_comma (h : IsToken w) (hc : ',' ∈ w) : w = [','] :=
  h.resolve_right fun hw => (hw.plain ',' hc).2 rfl

theorem StandsBetween.isToken {before after : List Char} (h : StandsBetween before w after) :
    IsToken w := h.imp_right And.left

end Plain

/-- Texts by the piece that they begin with. -/
theorem piece_induct {P : List Char → Prop} (nil : P [])
    (blank : ∀ b cs, isBlank b = true → P cs → P (b :: cs)) (comma : ∀ cs, P cs → P (',' :: cs))
    (word : ∀ w cs, IsWord w → (∀ c, cs.head? = some c → isPlain c = false) → P cs → P (w ++ cs))
    (cs : List Char) : P cs := by
  induction hn : cs.length using Nat.strong_induction_on generalizing cs with
  | _ n ih =>
    cases cs with
    | nil => exact nil
    | cons c cs =>
      subst hn
      have hrest : P cs := ih cs.length (by simp) cs rfl
      by_cases hc : isPlain c = true
      · have hlen : ((c :: cs).dropWhile isPlain).length < (c :: cs).length := by
          rw [List.dropWhile_cons_of_pos hc, List.length_cons]
          exact Nat.lt_succ_of_le (List.dropWhile_sublist _).length_le
        rw [← List.takeWhile_append_dropWhile (p := isPlain) (l := c :: cs)]
        refine word _ _ (isWord_iff.2 ⟨?_, fun d hd => List.mem_takeWhile_imp hd⟩) (fun d hd => ?_)
          (ih _ hlen _ rfl)
        · rw [List.takeWhile_cons_of_pos hc]
          simp
        · simpa [hd] using List.head?_dropWhile_not isPlain (c :: cs)
      · rcases isPlain_eq_false_iff.1 (by simpa using hc) with hb | rfl
        · exact blank c cs hb hrest
        · exact comma cs hrest

section Append

variable {u cs w : List Char} {i : Nat}

/-- No word goes on from the end of one text into the other. -/
def Apart (u cs : List Char) : Prop :=
  ∀ c d, u.getLast? = some c → cs.head? = some d → isPlain c = true → isPlain d = false

theorem isLexeme_append_iff (h : Apart u cs) :
    IsLexeme (u ++ cs) (u.length + i) w ↔ IsLexeme cs i w := by
  constructor
  · rintro ⟨before, after, hcs, hlen, hbetween⟩
    have hprefix : u <+: before := by
      refine List.prefix_of_prefix_length_le (List.prefix_append u cs) ?_ (by omega)
      rw [hcs, List.append_assoc]
      exact List.prefix_append _ _
    obtain ⟨before, rfl⟩ := hprefix
    rw [List.append_assoc, List.append_assoc, List.append_cancel_left_eq] at hcs
    rw [List.length_append] at hlen
    refine ⟨before, after, by rw [hcs, List.append_assoc], by omega,
      hbetween.imp_right fun ⟨hw, hleft, hright⟩ => ⟨hw, fun c hc => hleft c ?_, hright⟩⟩
    rw [List.getLast?_append, hc]
    rfl
  · rintro ⟨before, after, rfl, rfl, hbetween⟩
    refine ⟨u ++ before, after, by simp, by simp,
      hbetween.imp_right fun ⟨hw, hleft, hright⟩ => ⟨hw, fun c hc => ?_, hright⟩⟩
    rw [List.getLast?_append] at hc
    rcases hlast : before.getLast? with _ | d
    · -- the word begins where the first text ends, so the character there is not plain
      rw [hlast, Option.none_or] at hc
      obtain rfl : before = [] := List.getLast?_eq_none_iff.1 hlast
      obtain ⟨d, w, rfl⟩ := List.exists_cons_of_ne_nil hw.ne_nil
      by_contra hplain
      have hd := h c d hc rfl (by simpa using hplain)
      rw [hw.isPlain List.mem_cons_self] at hd
      cases hd
    · rw [hlast, Option.some_or] at hc
      exact hleft c (hlast.trans hc)

/-- The lexemes of a text are those that begin in its first piece and, moved, those of the rest. -/
theorem Listed.append {ls : List (Nat × List Char)} (h : Listed cs ls)
    (front : List (Nat × List Char)) (hapart : Apart u cs)
    (hordered : front.Pairwise fun p q => p.1 + p.2.length ≤ q.1)
    (hfront : ∀ p ∈ front, p.1 < u.length ∧ p.1 + p.2.length ≤ u.length)
    (hcomplete : ∀ i < u.length, ∀ w, (i, w) ∈ front ↔ IsLexeme (u ++ cs) i w) :
    Listed (u ++ cs) (front ++ ls.map fun p => (u.length + p.1, p.2)) where
  ordered := by
    refine List.pairwise_append.2 ⟨hordered, ?_, ?_⟩
    · rw [List.pairwise_map]
      exact h.ordered.imp fun hpq => by simp only; omega
    · intro p hp q hq
      obtain ⟨q, -, rfl⟩ := List.mem_map.1 hq
      have := (hfront p hp).2
      simp only
      omega
  complete i w := by
    rw [List.mem_append]
    rcases Nat.lt_or_ge i u.length with hi | hi
    · have hnot : (i, w) ∉ ls.map fun p => (u.length + p.1, p.2) := by
        intro hmem
        obtain ⟨p, -, hp⟩ := List.mem_map.1 hmem
        have := (Prod.mk.inj hp).1
        omega
      rw [hcomplete i hi w, or_iff_left hnot]
    · obtain ⟨i, rfl⟩ : ∃ k, i = u.length + k := ⟨i - u.length, by omega⟩
      have hnot : (u.length + i, w) ∉ front := fun hmem => by
        have := (hfront _ hmem).1
        omega
      rw [isLexeme_append_iff hapart, ← h.complete, or_iff_right hnot]
      simp

end Append

section Pieces

variable {cs w : List Char} {i : Nat}

theorem not_isLexeme_blank {b : Char} (hb : isBlank b = true) : ¬ IsLexeme ([b] ++ cs) 0 w := by
  rintro ⟨before, after, hcs, hlen, hbetween⟩
  obtain rfl := List.length_eq_zero_iff.1 hlen
  obtain ⟨c, w, rfl⟩ := List.exists_cons_of_ne_nil hbetween.isToken.ne_nil
  obtain ⟨rfl, -⟩ := List.cons.inj hcs
  rw [hbetween.isToken.not_blank List.mem_cons_self] at hb
  cases hb

theorem isLexeme_comma_iff : IsLexeme ([','] ++ cs) 0 w ↔ w = [','] := by
  constructor
  · rintro ⟨before, after, hcs, hlen, rfl | ⟨hw, -⟩⟩
    · rfl
    · obtain rfl := List.length_eq_zero_iff.1 hlen
      obtain ⟨c, w, rfl⟩ := List.exists_cons_of_ne_nil hw.ne_nil
      obtain ⟨rfl, -⟩ := List.cons.inj hcs
      exact absurd rfl (hw.plain _ List.mem_cons_self).2
  · rintro rfl
    exact ⟨[], cs, rfl, rfl, .inl rfl⟩

theorem isLexeme_word_iff {u : List Char} (hu : IsWord u)
    (hcs : ∀ c, cs.head? = some c → isPlain c = false) (hi : i < u.length) :
    IsLexeme (u ++ cs) i w ↔ i = 0 ∧ w = u := by
  constructor
  · rintro ⟨before, after, hsplit, rfl, hbetween⟩
    have hprefix : before <+: u := by
      refine List.prefix_of_prefix_length_le ?_ (List.prefix_append u cs) hi.le
      rw [hsplit, List.append_assoc]
      exact List.prefix_append _ _
    obtain ⟨rest, rfl⟩ := hprefix
    rw [List.append_assoc, List.append_assoc, List.append_cancel_left_eq] at hsplit
    rcases hbetween with rfl | ⟨hw, hleft, hright⟩
    · obtain ⟨c, rest, rfl⟩ := List.exists_cons_of_ne_nil (l := rest) (by rintro rfl; simp at hi)
      obtain ⟨rfl, -⟩ := List.cons.inj hsplit
      exact absurd rfl (hu.plain ',' (by simp)).2
    · -- what stands before the word would be plain, being part of the first piece
      have hnil : before = [] := by
        by_contra hne
        have hlast := List.getLast?_eq_some_getLast hne
        have hplain := hu.isPlain (List.mem_append_left rest (List.getLast_mem hne))
        rw [hleft _ hlast] at hplain
        cases hplain
      subst hnil
      refine ⟨rfl, ?_⟩
      rw [← takeWhile_word_append hw hright, ← hsplit]
      exact takeWhile_word_append hu hcs
  · rintro ⟨rfl, rfl⟩
    exact ⟨[], cs, rfl, rfl, .inr ⟨hu, by simp, hcs⟩⟩

theorem scan_word_append {u : List Char} (hu : IsWord u)
    (hcs : ∀ c, cs.head? = some c → isPlain c = false) : scan (u ++ cs) = u :: scan cs := by
  cases cs with
  | nil => rw [List.append_nil, scan_word hu]; rfl
  | cons c cs =>
    rcases isPlain_eq_false_iff.1 (hcs c rfl) with hb | rfl
    · rw [scan_word_blank hu hb, scan_blank hb]
    · rw [scan_word_comma hu, scan_comma]

theorem Listed.lt {ls : List (Nat × List Char)} (h : Listed cs ls) :
    ls.Pairwise fun p q => p.1 < q.1 := by
  refine h.ordered.imp_of_mem fun {p q} hp _ hpq => ?_
  obtain ⟨_, _, -, -, hbetween⟩ := (h.complete p.1 p.2).1 hp
  have := List.length_pos_iff.2 hbetween.isToken.ne_nil
  omega

/-- There is one list of all lexemes. -/
theorem Listed.unique {ls ls' : List (Nat × List Char)} (h : Listed cs ls) (h' : Listed cs ls') :
    ls = ls' := by
  have hnodup : ∀ {ls}, Listed cs ls → ls.Nodup := fun h =>
    h.lt.imp fun hlt heq => by
      rw [heq] at hlt
      exact Nat.lt_irrefl _ hlt
  have hperm : ls.Perm ls' := (List.perm_ext_iff_of_nodup (hnodup h) (hnodup h')).2
    fun p => (h.complete p.1 p.2).trans (h'.complete p.1 p.2).symm
  exact hperm.eq_of_pairwise (fun p q _ _ hpq hqp => absurd hpq (Nat.lt_asymm hqp)) h.lt h'.lt

/-- Scanning finds the lexemes of a text. -/
theorem exists_listed (cs : List Char) :
    ∃ ls, Listed cs ls ∧ scan cs = ls.map Prod.snd := by
  induction cs using piece_induct with
  | nil =>
    refine ⟨[], ⟨.nil, fun i w => ?_⟩, rfl⟩
    simp only [List.not_mem_nil, false_iff]
    rintro ⟨before, after, hcs, -, hbetween⟩
    exact hbetween.isToken.ne_nil (by simp_all)
  | blank b cs hb ih =>
    obtain ⟨ls, hls, hscan⟩ := ih
    have hapart : Apart [b] cs := by
      intro c d hc _ hplain
      obtain rfl : b = c := by simpa using hc
      rw [isPlain_iff, hb] at hplain
      cases hplain.1
    refine ⟨_, hls.append [] hapart .nil (by simp) fun i hi w => ?_, ?_⟩
    · obtain rfl : i = 0 := by simpa using hi
      simpa using not_isLexeme_blank hb
    · rw [scan_blank hb, hscan]
      simp
  | comma cs ih =>
    obtain ⟨ls, hls, hscan⟩ := ih
    have hapart : Apart [','] cs := by
      intro c d hc _ hplain
      obtain rfl : ',' = c := by simpa using hc
      exact absurd hplain (by decide)
    refine ⟨_, hls.append [(0, [','])] hapart (by simp) (by simp) fun i hi w => ?_, ?_⟩
    · obtain rfl : i = 0 := by simpa using hi
      rw [isLexeme_comma_iff]
      simp
    · rw [scan_comma, hscan]
      simp
  | word u cs hu hcs ih =>
    obtain ⟨ls, hls, hscan⟩ := ih
    have hapart : Apart u cs := fun c d _ hd _ => hcs d hd
    refine ⟨_, hls.append [(0, u)] hapart (by simp)
      (by simpa using List.length_pos_iff.2 hu.ne_nil) fun i hi w => ?_, ?_⟩
    · rw [isLexeme_word_iff hu hcs hi]
      simp
    · rw [scan_word_append hu hcs, hscan]
      simp

end Pieces

/-! ## Comments and blanks -/

/-- The part of a line before its first number sign, or all of it. -/
def beforeComment (cs : List Char) : List Char := cs.takeWhile (· ≠ '#')

section Comment

variable {b : Char}

theorem ne_comment_of_isBlank (hb : isBlank b = true) : b ≠ '#' := by
  rintro rfl
  exact absurd hb (by decide)

theorem scan_beforeComment_dropWhile : ∀ cs : List Char,
    scan (beforeComment (cs.dropWhile isBlank)) = scan (beforeComment cs)
  | [] => rfl
  | c :: cs => by
    by_cases hc : isBlank c = true
    · have hcut : beforeComment (c :: cs) = c :: beforeComment cs :=
        List.takeWhile_cons_of_pos (by simpa using ne_comment_of_isBlank hc)
      rw [List.dropWhile_cons_of_pos hc, scan_beforeComment_dropWhile cs, hcut, scan_blank hc]
    · rw [List.dropWhile_cons_of_neg hc]

theorem scan_beforeComment_append_blank (hb : isBlank b = true) (cs : List Char) :
    scan (beforeComment (cs ++ [b])) = scan (beforeComment cs) := by
  unfold beforeComment
  rw [List.takeWhile_append]
  split_ifs with hall
  · have hcs : cs.takeWhile (· ≠ '#') = cs := (List.takeWhile_prefix _).eq_of_length hall
    have hb' : [b].takeWhile (· ≠ '#') = [b] :=
      List.takeWhile_cons_of_pos (by simpa using ne_comment_of_isBlank hb)
    rw [hb', scan_append_blank hb, hcs]
  · rfl

theorem scan_beforeComment_rdropWhile (cs : List Char) :
    scan (beforeComment (cs.reverse.dropWhile isBlank).reverse) = scan (beforeComment cs) := by
  induction cs using List.reverseRecOn with
  | nil => rfl
  | append_singleton cs c ih =>
    rw [List.reverse_append, List.reverse_singleton, List.singleton_append]
    by_cases hc : isBlank c = true
    · rw [List.dropWhile_cons_of_pos hc, ih, scan_beforeComment_append_blank hc]
    · rw [List.dropWhile_cons_of_neg hc]
      simp

/-- Blanks can be trimmed before the comment is cut off. -/
theorem scan_code (cs : List Char) : scan (code cs) = scan (beforeComment cs) := by
  show scan (beforeComment (trim isBlank cs)) = _
  unfold trim
  rw [scan_beforeComment_rdropWhile, scan_beforeComment_dropWhile]

theorem beforeComment_append_comment (cs comment : List Char) :
    beforeComment (cs ++ '#' :: comment) = beforeComment cs := by
  have hsign : ('#' :: comment).takeWhile (· ≠ '#') = [] := by simp
  unfold beforeComment
  rw [List.takeWhile_append, hsign, List.append_nil]
  split_ifs with hall
  · exact ((List.takeWhile_prefix _).eq_of_length hall).symm
  · rfl

theorem beforeComment_append {cs : List Char} (h : '#' ∉ cs) (rest : List Char) :
    beforeComment (cs ++ rest) = cs ++ beforeComment rest :=
  List.takeWhile_append_of_pos fun c hc => by
    simp only [decide_eq_true_eq]
    rintro rfl
    exact h hc

end Comment

section Fold

theorem push_append (run : List Char) (ts us : List (List Char)) :
    push run (ts ++ us) = push run ts ++ us := by
  unfold push
  split <;> rfl

/-- What is scanned after a text is left as it is. -/
theorem foldr_scanChar_append (ts : List (List Char)) : ∀ cs : List Char,
    cs.foldr scanChar ([], ts)
      = ((cs.foldr scanChar ([], [])).1, (cs.foldr scanChar ([], [])).2 ++ ts)
  | [] => rfl
  | c :: cs => by
    rw [List.foldr_cons, foldr_scanChar_append ts cs, List.foldr_cons]
    unfold scanChar
    split_ifs
    · rw [push_append]
    · rw [push_append]
      rfl
    · rfl

theorem scan_append_cons_blank {b : Char} (hb : isBlank b = true) (cs rest : List Char) :
    scan (cs ++ b :: rest) = scan cs ++ scan rest := by
  have hrest : (b :: rest).foldr scanChar ([], []) = ([], scan rest) := by
    simp [scanChar, hb, scan]
  unfold scan
  rw [List.foldr_append, hrest, foldr_scanChar_append, push_append]
  rfl

theorem flatten_push (run : List Char) (ts : List (List Char)) :
    (push run ts).flatten = run ++ ts.flatten := by
  unfold push
  split_ifs with hrun
  · rw [List.isEmpty_iff.1 hrun, List.nil_append]
  · rfl

theorem flatten_scanChar (c : Char) (p : List Char × List (List Char)) :
    (scanChar c p).1 ++ (scanChar c p).2.flatten
      = (if isBlank c then [] else [c]) ++ (p.1 ++ p.2.flatten) := by
  by_cases hb : isBlank c = true
  · simp [scanChar, hb, flatten_push]
  · by_cases hcomma : c = ','
    · subst hcomma
      simp [scanChar, hb, flatten_push]
    · simp [scanChar, hb, hcomma]

/-- All that scanning drops are the blanks. -/
theorem flatten_scan (cs : List Char) : (scan cs).flatten = cs.filter (!isBlank ·) := by
  unfold scan
  rw [flatten_push]
  induction cs with
  | nil => rfl
  | cons c cs ih =>
    rw [List.foldr_cons, flatten_scanChar, ih, List.filter_cons]
    by_cases hb : isBlank c = true <;> simp [hb]

end Fold

end Token

theorem tokens_eq_scan (text : String) :
    tokens text = (Token.scan (Token.beforeComment text.toList)).map String.ofList := by
  unfold tokens
  rw [Token.scan_code]

/-- The tokens of a line are the lexemes of the part before its first number sign, from left to
right. None is empty or holds a blank or a number sign, and one that holds a comma is a comma;
together they are that part without its blanks. A comment adds nothing, and a space between two
lines, of which the first has no comment, keeps their tokens apart. They are found by putting spaces
around the commas and splitting at blanks. -/
theorem tokens_of_lexemes (line : String) :
    let part := Token.beforeComment line.toList
    (∃! ls, Token.Listed part ls)
      ∧ (∀ ls, Token.Listed part ls → tokens line = ls.map fun p => String.ofList p.2)
      ∧ (∀ t ∈ tokens line, t ≠ "" ∧ (∀ c ∈ t.toList, isBlank c = false ∧ c ≠ '#')
        ∧ (',' ∈ t.toList → t = ","))
      ∧ (String.join (tokens line)).toList = part.filter (!isBlank ·)
      ∧ (∀ comment, tokens (line ++ "#" ++ comment) = tokens line)
      ∧ ('#' ∉ line.toList →
        ∀ rest, tokens (line ++ " " ++ rest) = tokens line ++ tokens rest)
      ∧ tokens line
        = (Token.pieces (Token.spaced (Token.uncommented line.toList))).map String.ofList := by
  intro part
  obtain ⟨ls, hls, hscan⟩ := Token.exists_listed part
  refine ⟨⟨ls, hls, fun ls' h' => h'.unique hls⟩, fun ls' h' => ?_, fun t ht => ?_, ?_,
    fun comment => ?_, fun hline rest => ?_, tokens_eq_split line⟩
  · rw [tokens_eq_scan, h'.unique hls, hscan, List.map_map]
    rfl
  · obtain ⟨htoken, hsign⟩ := isToken_of_mem_tokens ht
    refine ⟨?_, fun c hc => ⟨htoken.not_blank hc, ?_⟩, fun hc => ?_⟩
    · rintro rfl
      exact htoken.ne_nil rfl
    · rintro rfl
      exact hsign hc
    · exact String.toList_inj.1 (htoken.eq_comma hc)
  · rw [tokens_eq_scan, String.toList_join, List.flatMap_map]
    simp only [String.toList_ofList, List.flatMap_id', Token.flatten_scan]
    rfl
  · have hpart : Token.beforeComment (line ++ "#" ++ comment).toList = part := by
      simpa using Token.beforeComment_append_comment line.toList comment.toList
    rw [tokens_eq_scan, tokens_eq_scan, hpart]
  · have hwhole : part = line.toList := by
      have := Token.beforeComment_append hline []
      rwa [List.append_nil, show Token.beforeComment [] = [] from rfl, List.append_nil] at this
    have hsplit : Token.beforeComment (line ++ " " ++ rest).toList
        = line.toList ++ ' ' :: Token.beforeComment rest.toList := by
      rw [String.toList_append, String.toList_append, List.append_assoc,
        Token.beforeComment_append hline]
      rfl
    rw [tokens_eq_scan, hsplit, Token.scan_append_cons_blank (by decide), List.map_append,
      tokens_eq_scan line, tokens_eq_scan rest]
    show _ = (Token.scan part).map String.ofList ++ _
    rw [hwhole]

/-- Commas beside each other and at both ends of a word, a control that separates records, and a
line after it with a comment that has commas of its own. -/
theorem tokens_of_lexemes_mixed :
    ∃ ls, Token.Listed (Token.beforeComment ",,A,\x1cB".toList) ls
      ∧ (ls.map fun p => String.ofList p.2) = [",", ",", "A", ",", "B"]
      ∧ "," ∈ tokens ",,A,\x1cB" ∧ '#' ∉ ",,A,\x1cB".toList
      ∧ tokens (",,A,\x1cB" ++ " " ++ "C#, D") = [",", ",", "A", ",", "B", "C"] := by
  have htokens : tokens ",,A,\x1cB" = [",", ",", "A", ",", "B"] ∧ tokens "C#, D" = ["C"] := by
    decide +kernel
  have hsign : '#' ∉ ",,A,\x1cB".toList := by decide
  obtain ⟨⟨ls, hls, -⟩, hall, -, -, -, happend, -⟩ := tokens_of_lexemes ",,A,\x1cB"
  refine ⟨ls, hls, (hall ls hls).symm.trans htokens.1, ?_, hsign, ?_⟩
  · rw [htokens.1]
    exact List.mem_cons_self
  · rw [happend hsign, htokens.1, htokens.2]
    rfl

end WordMachine
