import PageBinding.Proofs.Expression.Scan

/-!
This module contains how far a token reaches in a text, and what can follow it. Past the end of a
token only the next code point matters.
-/

namespace PageBinding

namespace Expression

theorem nameLength_append_eq_iff {t rest : Text} (ht : t ≠ []) :
    nameLength (t ++ rest) = t.length ↔
      IsWord t ∧ ∀ c ∈ rest.head?, isNamePart c = false := by
  obtain ⟨x, tail, rfl⟩ := List.exists_cons_of_ne_nil ht
  have hword : IsWord (x :: tail) ↔ isNameStart x = true ∧ ∀ d ∈ tail, isNamePart d = true := by
    constructor
    . rintro ⟨c, rest, heq, h⟩
      cases heq
      exact h
    . exact fun h => ⟨x, tail, rfl, h⟩
  rw [hword, List.cons_append, nameLength, List.length_cons]
  cases hstart : isNameStart x with
  | false => simp
  | true =>
    simp only [if_true, true_and]
    rw [List.takeWhile_append]
    split
    . next hall =>
      have hprefix := (List.takeWhile_prefix isNamePart (l := tail)).eq_of_length hall
      have hmem := List.takeWhile_eq_self_iff.mp hprefix
      rw [List.length_append]
      rw [and_iff_right hmem]
      cases rest with
      | nil => simp [Nat.add_comm]
      | cons c rest =>
        cases hc : isNamePart c with
        | true => simp [hc, Nat.add_comm]
        | false => simp [hc, Nat.add_comm]
    . next hpart =>
      constructor
      . intro h
        omega
      . rintro ⟨hmem, -⟩
        rw [List.takeWhile_eq_self_iff.mpr hmem] at hpart
        exact absurd rfl hpart

theorem isWord_iff {t : Text} : IsWord t ↔ t ≠ [] ∧ nameLength t = t.length := by
  have hword (hne : t ≠ []) : nameLength t = t.length ↔ IsWord t := by
    have hiff : nameLength (t ++ []) = t.length ↔ _ := nameLength_append_eq_iff hne
    rw [List.append_nil] at hiff
    rw [hiff]
    exact and_iff_left nofun
  constructor
  . intro h
    have hne : t ≠ [] := by
      obtain ⟨c, rest, rfl, -⟩ := h
      exact List.cons_ne_nil c rest
    exact ⟨hne, (hword hne).mpr h⟩
  . rintro ⟨hne, hlength⟩
    exact (hword hne).mp hlength

instance (t : Text) : Decidable (IsWord t) :=
  decidable_of_iff' _ isWord_iff

theorem isName_iff {t : Text} :
    IsName t ↔ IsWord t ∧ (∀ keyword ∈ Keyword.all, keyword.text ≠ t) ∧ isReserved t = false := by
  constructor
  . intro h
    exact ⟨h.start, fun keyword _ => h.keyword keyword, h.reserved⟩
  . rintro ⟨hstart, hkeyword, hreserved⟩
    exact ⟨hstart, fun keyword => hkeyword keyword (Terminal.mem_keywords keyword), hreserved⟩

instance (t : Text) : Decidable (IsName t) :=
  decidable_of_iff' _ isName_iff

theorem isNamePart_of_isNameStart {c : CodePoint} (h : isNameStart c = true) :
    isNamePart c = true := by
  rw [isNamePart, h, Bool.true_or]

theorem closingLength?_quote (quote : CodePoint) (rest : Text) :
    closingLength? quote (quote :: rest) = some 1 := by
  cases rest <;> simp [closingLength?]

theorem closingLength?_escape {quote c : CodePoint} (hne : c ≠ quote) (hslash : c.is '\\' = true)
    (d : CodePoint) (rest : Text) :
    closingLength? quote (c :: d :: rest) = (closingLength? quote rest).map (· + 2) := by
  simp [closingLength?, hne, hslash]

theorem closingLength?_cons {quote c : CodePoint} (hne : c ≠ quote) (hslash : c.is '\\' = false)
    (rest : Text) :
    closingLength? quote (c :: rest) =
      if c.is '\n' then none else (closingLength? quote rest).map (· + 1) := by
  cases rest <;> simp [closingLength?, hne, hslash]

theorem closingLength?_append {quote : CodePoint} {a u : Text} {n : Nat}
    (h : closingLength? quote (a ++ u) = some n) (hn : n ≤ a.length) (u' : Text) :
    closingLength? quote (a ++ u') = some n := by
  fun_induction closingLength? quote a generalizing n with
  | case1 =>
    have := (closingLength?_le h).1
    rw [List.length_nil] at hn
    omega
  | case2 rest =>
    rw [List.cons_append, closingLength?_quote] at h ⊢
    exact h
  | case3 c hne hslash =>
    -- A backslash at the end would take the next code point into the literal.
    cases u with
    | nil => simp [closingLength?, hne, hslash] at h
    | cons d u =>
      rw [List.singleton_append, closingLength?_escape hne hslash] at h
      obtain ⟨m, -, rfl⟩ := Option.map_eq_some_iff.mp h
      simp at hn
  | case4 c hne hslash d rest ih =>
    rw [List.cons_append, List.cons_append, closingLength?_escape hne hslash] at h ⊢
    obtain ⟨m, hm, rfl⟩ := Option.map_eq_some_iff.mp h
    rw [ih hm (by simpa using hn)]
    rfl
  | case5 c rest hne hslash hline =>
    rw [List.cons_append, closingLength?_cons hne (by simpa using hslash), if_pos hline] at h
    cases h
  | case6 c rest hne hslash hline ih =>
    rw [List.cons_append, closingLength?_cons hne (by simpa using hslash), if_neg hline] at h ⊢
    obtain ⟨m, hm, rfl⟩ := Option.map_eq_some_iff.mp h
    rw [ih hm (by simpa using hn)]
    rfl

theorem stringLength_append {a u : Text} (ha : a ≠ []) (h : stringLength (a ++ u) = a.length)
    (u' : Text) : stringLength (a ++ u') = a.length := by
  obtain ⟨quote, a, rfl⟩ := List.exists_cons_of_ne_nil ha
  simp only [List.cons_append, stringLength, List.length_cons] at h ⊢
  split at h
  . next hquote =>
    rw [if_pos hquote]
    cases hclosing : closingLength? quote (a ++ u) with
    | none => simp [hclosing] at h
    | some n =>
      simp only [hclosing] at h
      rw [closingLength?_append hclosing (by omega) u']
      exact h
  . omega

namespace Terminal

theorem length_le_of_prefix : ∀ terminal ∈ order, ∀ w ∈ terminal.spellings,
    ∀ s ∈ terminal.spellings, w.isPrefixOf s = true → s.length ≤ w.length + 1 := by
  decide

theorem isNameStart_of_mem_spellings : ∀ terminal ∈ order, ∀ s ∈ terminal.spellings,
    s.all (fun c => !isNameStart c) = true := by
  decide

theorem lengthAt_congr {terminal : Terminal} (hspelled : terminal ∉ [name, number, string])
    {t u : Text} (h : ∀ s ∈ terminal.spellings, s <+: t ↔ s <+: u) :
    terminal.lengthAt t = terminal.lengthAt u := by
  have hfind : terminal.spellings.find? t.startsWith = terminal.spellings.find? u.startsWith := by
    apply find?_congr
    intro s hs
    rw [Bool.eq_iff_iff, Text.startsWith, Text.startsWith, List.isPrefixOf_iff_prefix,
      List.isPrefixOf_iff_prefix]
    exact h s hs
  cases terminal with
  | name | number | string => exact absurd (by decide) hspelled
  | _ => simp only [lengthAt, hfind]

theorem lengthAt_append_cons {terminal : Terminal} (hspelled : terminal ∉ [name, number, string])
    {w : Text} (h : ∀ s ∈ terminal.spellings, w <+: s → s.length ≤ w.length + 1) (c : CodePoint)
    (r : Text) : terminal.lengthAt (w ++ c :: r) = terminal.lengthAt (w ++ [c]) := by
  apply lengthAt_congr hspelled
  intro s hs
  have happend : w ++ c :: r = (w ++ [c]) ++ r := by simp
  constructor
  . intro hprefix
    have hlength : s.length ≤ (w ++ [c]).length := by
      rw [List.length_append, List.length_singleton]
      by_cases hle : s.length ≤ w.length
      . omega
      . exact h s hs (List.prefix_of_prefix_length_le (List.prefix_append w _) hprefix (by omega))
    rw [happend] at hprefix
    exact List.prefix_of_prefix_length_le hprefix (List.prefix_append _ r) hlength
  . intro hprefix
    rw [happend]
    exact hprefix.trans (List.prefix_append _ r)

theorem lengthAt_append_nameStart {terminal : Terminal} (hmem : terminal ∈ order)
    (hspelled : terminal ∉ [name, number, string]) {c : CodePoint} (hc : isNameStart c = true)
    (w : Text) : terminal.lengthAt (w ++ [c]) = terminal.lengthAt w := by
  apply lengthAt_congr hspelled
  intro s hs
  rw [List.prefix_concat_iff, or_iff_right]
  rintro rfl
  have hall := isNameStart_of_mem_spellings terminal hmem _ hs
  simp [hc] at hall

theorem mem_spellings_of_lengthAt {terminal : Terminal}
    (hspelled : terminal ∉ [name, number, string]) {w rest : Text} (hw : w ≠ [])
    (h : terminal.lengthAt (w ++ rest) = w.length) :
    w ∈ terminal.spellings := by
  have hpos : 0 < terminal.lengthAt (w ++ rest) := by
    rw [h]
    exact List.length_pos_iff.mpr hw
  obtain ⟨s, hs, hlength, hprefix⟩ := eq_spelling_of_lengthAt_pos hspelled hpos
  have hsame : s.length = w.length := by omega
  have heq := (List.prefix_of_prefix_length_le hprefix (List.prefix_append w rest)
    (by omega)).eq_of_length hsame
  rwa [← heq]

end Terminal

theorem opensGap_append_cons {w : Text} (hw : w ≠ []) (c : CodePoint) (r : Text) :
    opensGap (w ++ c :: r) = opensGap (w ++ [c]) := by
  match w with
  | [] => exact absurd rfl hw
  | [x] => rfl
  | x :: y :: v => rfl

theorem opensGap_append_nameStart {w : Text} (hw : w ≠ []) {c d : CodePoint}
    (hc : isNameStart c = true) (hd : isNameStart d = true) :
    opensGap (w ++ [c]) = opensGap (w ++ [d]) := by
  have hslash {e : CodePoint} (he : isNameStart e = true) : (e.is '/' || e.is '*') = false := by
    have hval := val_of_isNameStart he
    simp only [CodePoint.is, Bool.or_eq_false_iff, beq_eq_false_iff_ne, Char.reduceToNat]
    omega
  obtain ⟨x, v, rfl⟩ := List.exists_cons_of_ne_nil hw
  cases v with
  | nil => simp only [List.singleton_append, opensGap, hslash hc, hslash hd]
  | cons y v => rfl

namespace Lexeme.Fits

variable {lexeme : Lexeme} {c d : CodePoint} {r : Text}

theorem lengthAt_mark (h : lexeme.Fits (c :: r)) {mark : Terminal}
    (hmark : mark = .coalescing ∨ mark = .optionalDot) (d : CodePoint) (r' : Text) :
    mark.lengthAt (lexeme.text ++ d :: r') = mark.lengthAt (lexeme.text ++ [d]) := by
  have hpos := List.length_pos_iff.mpr h.ne_nil
  have hshort : ∀ s ∈ mark.spellings, s.length ≤ lexeme.text.length + 1 := by
    intro s hs
    have htwo : s.length = 2 := by
      rcases hmark with rfl | rfl
      all_goals
        rw [List.mem_singleton.mp hs]
        rfl
    omega
  apply Terminal.lengthAt_append_cons
  . rcases hmark with rfl | rfl <;> decide
  . exact fun s hs _ => hshort s hs

theorem lengthAt_append_cons (h : lexeme.Fits (c :: r))
    (hspelled : lexeme.terminal.base ∉ [.name, .number, .string]) (d : CodePoint) (r' : Text) :
    lexeme.terminal.base.lengthAt (lexeme.text ++ d :: r') =
      lexeme.terminal.base.lengthAt (lexeme.text ++ [d]) := by
  apply Terminal.lengthAt_append_cons hspelled
  intro s hs hprefix
  apply Terminal.length_le_of_prefix _ (Terminal.base_mem_order _) _ _ s hs
  . exact List.isPrefixOf_iff_prefix.mpr hprefix
  . exact Terminal.mem_spellings_of_lengthAt hspelled h.ne_nil h.length

/--
Only the next code point matters, unless it could start an exponent.
-/
theorem of_head (h : lexeme.Fits (c :: r))
    (hnumber : lexeme.terminal = .number → c.is 'e' = false ∧ c.is 'E' = false) (r' : Text) :
    lexeme.Fits (c :: r') := by
  constructor
  . exact h.ne_nil
  . rw [opensGap_append_cons h.ne_nil, ← opensGap_append_cons h.ne_nil c r]
    exact h.gap
  . have hlength := h.length
    have hspelled := h.lengthAt_append_cons (d := c)
    cases hterminal : lexeme.terminal with
    | name | word =>
      rw [hterminal] at hlength
      have hword := (nameLength_append_eq_iff h.ne_nil).mp hlength
      exact (nameLength_append_eq_iff h.ne_nil).mpr hword
    | number =>
      rw [hterminal] at hlength
      apply Numeral.length_congr h.ne_nil hlength
      rintro _ ⟨⟩
      exact ⟨rfl, hnumber hterminal⟩
    | string =>
      rw [hterminal] at hlength
      exact stringLength_append h.ne_nil hlength (c :: r')
    | _ =>
      rw [hterminal] at hlength hspelled
      rw [hspelled (by decide) r', ← hspelled (by decide) r]
      exact hlength
  . exact h.keyword
  . intro hquestion
    rw [h.lengthAt_mark (.inl rfl), h.lengthAt_mark (.inr rfl), ← h.lengthAt_mark (.inl rfl) c r,
      ← h.lengthAt_mark (.inr rfl) c r]
    exact h.question hquestion

theorem of_nameStart (h : lexeme.Fits (c :: r)) (hnumber : lexeme.terminal ≠ .number)
    (hc : isNameStart c = true) (hd : isNameStart d = true) (r' : Text) :
    lexeme.Fits (d :: r') := by
  have hmark {mark : Terminal} (hmark : mark = .coalescing ∨ mark = .optionalDot) :
      mark.lengthAt (lexeme.text ++ d :: r') = mark.lengthAt (lexeme.text ++ c :: r) := by
    have hspelled : mark ∉ [.name, .number, .string] := by rcases hmark with rfl | rfl <;> decide
    have hmem : mark ∈ Terminal.order := by rcases hmark with rfl | rfl <;> decide
    rw [h.lengthAt_mark hmark d r', h.lengthAt_mark hmark c r,
      Terminal.lengthAt_append_nameStart hmem hspelled hc,
      Terminal.lengthAt_append_nameStart hmem hspelled hd]
  constructor
  . exact h.ne_nil
  . rw [opensGap_append_cons h.ne_nil, opensGap_append_nameStart h.ne_nil hd hc,
      ← opensGap_append_cons h.ne_nil c r]
    exact h.gap
  . have hlength := h.length
    have hspelled (hspelled : lexeme.terminal.base ∉ [.name, .number, .string]) :
        lexeme.terminal.base.lengthAt (lexeme.text ++ d :: r') =
          lexeme.terminal.base.lengthAt (lexeme.text ++ c :: r) := by
      rw [h.lengthAt_append_cons hspelled d r', h.lengthAt_append_cons hspelled c r,
        Terminal.lengthAt_append_nameStart (Terminal.base_mem_order _) hspelled hc,
        Terminal.lengthAt_append_nameStart (Terminal.base_mem_order _) hspelled hd]
    cases hterminal : lexeme.terminal with
    | name | word =>
      -- A name cannot be followed by another one.
      rw [hterminal] at hlength
      have hword := (nameLength_append_eq_iff h.ne_nil).mp hlength
      have hpart := hword.2 c rfl
      rw [isNamePart_of_isNameStart hc] at hpart
      cases hpart
    | number => exact absurd hterminal hnumber
    | string =>
      rw [hterminal] at hlength
      exact stringLength_append h.ne_nil hlength (d :: r')
    | _ =>
      rw [hterminal] at hlength hspelled
      rw [hspelled (by decide)]
      exact hlength
  . exact h.keyword
  . intro hquestion
    rw [hmark (.inl rfl), hmark (.inr rfl)]
    exact h.question hquestion

end Lexeme.Fits

theorem opensGap_cons {c : CodePoint} (hblank : isBlank c = false) (hslash : c.is '/' = false)
    (rest : Text) : opensGap (c :: rest) = false := by
  cases rest with
  | nil => exact hblank
  | cons d rest => simp [opensGap, hblank, hslash]

namespace Lexeme

variable {lexeme : Lexeme} {text rest : Text}

theorem fits_iff : lexeme.Fits rest ↔
    lexeme.text ≠ [] ∧ opensGap (lexeme.text ++ rest) = false ∧
      lexeme.terminal.base.lengthAt (lexeme.text ++ rest) = lexeme.text.length ∧
      (∀ keyword ∈ Keyword.all, lexeme.terminal = .word keyword → lexeme.text = keyword.text) ∧
      (lexeme.terminal = .question → Terminal.coalescing.lengthAt (lexeme.text ++ rest) = 0 ∧
        Terminal.optionalDot.lengthAt (lexeme.text ++ rest) = 0) := by
  constructor
  . intro h
    exact ⟨h.ne_nil, h.gap, h.length, fun keyword _ => h.keyword keyword, h.question⟩
  . rintro ⟨hne, hgap, hlength, hkeyword, hquestion⟩
    exact ⟨hne, hgap, hlength, fun keyword => hkeyword keyword (Terminal.mem_keywords keyword),
      hquestion⟩

instance : Decidable (lexeme.Fits rest) := decidable_of_iff' _ fits_iff

theorem Fits.isWord (h : lexeme.Fits rest) (hname : lexeme.terminal.base = .name) :
    IsWord lexeme.text ∧ ∀ c ∈ rest.head?, isNamePart c = false := by
  have hlength := h.length
  rw [hname] at hlength
  exact (nameLength_append_eq_iff h.ne_nil).mp hlength

theorem fits_of_isWord (hword : IsWord lexeme.text) (hname : lexeme.terminal.base = .name)
    (hkeyword : ∀ keyword, lexeme.terminal = .word keyword → lexeme.text = keyword.text)
    (hrest : ∀ c ∈ rest.head?, isNamePart c = false) : lexeme.Fits rest := by
  have hne : lexeme.text ≠ [] := by
    obtain ⟨c, tail, htext, -⟩ := hword
    rw [htext]
    exact List.cons_ne_nil c tail
  constructor
  . exact hne
  . obtain ⟨c, tail, htext, hstart, -⟩ := hword
    obtain ⟨hblank, hslash, -⟩ := not_space_of_isNameStart hstart
    rw [htext]
    exact opensGap_cons hblank hslash _
  . rw [hname]
    exact (nameLength_append_eq_iff hne).mpr ⟨hword, hrest⟩
  . exact hkeyword
  . intro hquestion
    rw [hquestion] at hname
    cases hname

theorem fits_of_numeral (hne : text ≠ [])
    (hlength : Numeral.length (text ++ rest) = text.length) : Fits ⟨.number, text⟩ rest := by
  constructor
  . exact hne
  . obtain ⟨c, tail, rfl⟩ := List.exists_cons_of_ne_nil hne
    have hpos : 0 < Numeral.length (c :: (tail ++ rest)) := by
      rw [← List.cons_append, hlength]
      exact Nat.succ_pos _
    rcases Numeral.exists_of_length_pos hpos with hdecimal | hdot
    . have hval : ¬ c.val < 48 := by
        intro hlt
        rw [CodePoint.isDecimal_eq_false_of_gap (.inl hlt)] at hdecimal
        cases hdecimal
      apply opensGap_cons
      . simp only [isBlank, CodePoint.is, Char.reduceToNat, Bool.or_eq_false_iff,
          beq_eq_false_iff_ne, decide_eq_false_iff_not]
        omega
      . simp only [CodePoint.is, Char.reduceToNat, beq_eq_false_iff_ne]
        omega
    . rw [CodePoint.eq_ofChar_of_is hdot]
      exact opensGap_cons (by decide) (by decide) _
  . exact hlength
  . intro keyword hkeyword
    cases hkeyword
  . intro hquestion
    cases hquestion

theorem fits_of_all_isDecimal (hne : text ≠ []) (hall : text.all CodePoint.isDecimal = true)
    (hrest : ∀ c ∈ rest.head?,
      c.isDecimal = false ∧ c.is '.' = false ∧ c.is 'e' = false ∧ c.is 'E' = false) :
    Fits ⟨.number, text⟩ rest :=
  fits_of_numeral hne (Numeral.length_of_all_isDecimal hne hall hrest)

theorem fits_of_stringLength (hne : text ≠ []) (hlength : stringLength text = text.length)
    (rest : Text) : Fits ⟨.string, text⟩ rest := by
  constructor
  . exact hne
  . obtain ⟨c, tail, rfl⟩ := List.exists_cons_of_ne_nil hne
    have hquote : (c.is '\x22' || c.is '\x27') = true := by
      cases hquote : c.is '\x22' || c.is '\x27' with
      | true => rfl
      | false => simp [stringLength, hquote] at hlength
    rw [Bool.or_eq_true] at hquote
    rcases hquote with hquote | hquote
    all_goals
      rw [CodePoint.eq_ofChar_of_is hquote]
      exact opensGap_cons (by decide) (by decide) _
  . have happend : stringLength (text ++ []) = text.length := by rwa [List.append_nil]
    exact stringLength_append hne happend rest
  . intro _ hword
    cases hword
  . intro hquestion
    cases hquestion

end Lexeme

/--
The code points that can follow every token: white space, and what separates or closes operands.
-/
def stops : List CodePoint :=
  Text.ofString "\t\n\x0c\r ,:]\x7d"

theorem forall_mem_stops {p : CodePoint → Prop} [DecidablePred p]
    (h : stops.all (fun c => decide (p c)) = true) : ∀ c ∈ stops, p c :=
  fun c hc => of_decide_eq_true (List.all_eq_true.mp h c hc)

theorem mem_stops_of_isBlank {c : CodePoint} (h : isBlank c = true) : c ∈ stops := by
  unfold isBlank at h
  simp only [Bool.or_eq_true, decide_eq_true_eq] at h
  obtain (((hspace | htab) | hline) | hreturn) | hfeed := h
  . rw [CodePoint.eq_ofChar_of_is hspace]
    decide
  . rw [CodePoint.eq_ofChar_of_is htab]
    decide
  . rw [CodePoint.eq_ofChar_of_is hline]
    decide
  . rw [CodePoint.eq_ofChar_of_is hreturn]
    decide
  . have hfeed : c.is '\x0c' = true := beq_iff_eq.mpr hfeed
    rw [CodePoint.eq_ofChar_of_is hfeed]
    decide

theorem isWord_text (keyword : Keyword) : IsWord keyword.text := by
  cases keyword <;> decide

namespace Lexeme

/--
A token can stand at the end of a text and in front of every stop.
-/
def IsClosed (lexeme : Lexeme) : Prop :=
  ∀ rest : Text, (∀ c ∈ rest.head?, c ∈ stops) → lexeme.Fits rest

theorem isClosed_of_fits {lexeme : Lexeme} (hnil : lexeme.Fits [])
    (hstop : ∀ c ∈ stops, lexeme.Fits [c]) : lexeme.IsClosed := by
  intro rest hrest
  cases rest with
  | nil => exact hnil
  | cons c rest =>
    have hmem := hrest c rfl
    have hletters : ∀ c ∈ stops, c.is 'e' = false ∧ c.is 'E' = false :=
      forall_mem_stops (by decide)
    exact (hstop c hmem).of_head (fun _ => hletters c hmem) rest

/--
The tokens of the language that are always spelled the same, but for the words.
-/
def marks : List Lexeme :=
  [leftParen, rightParen, leftBracket, rightBracket, leftBrace, rightBrace, comma, colon, question,
    dot, optionalDot] ++ [UnaryOp.not, .plus, .minus].map unary ++ BinaryOp.all.map binary

theorem isClosed_of_mem_marks {lexeme : Lexeme} (h : lexeme ∈ marks) : lexeme.IsClosed := by
  have hnil : ∀ lexeme ∈ marks, lexeme.Fits [] := by decide
  have hstop : ∀ lexeme ∈ marks, stops.all (fun c => decide (lexeme.Fits [c])) = true := by
    decide
  exact isClosed_of_fits (hnil lexeme h) (forall_mem_stops (hstop lexeme h))

theorem fits_of_mem_punctuation {lexeme : Lexeme}
    (h : lexeme ∈ [leftParen, rightParen, leftBracket, rightBracket, leftBrace, rightBrace, comma,
      colon, semicolon]) (rest : Text) : lexeme.Fits rest := by
  simp only [List.mem_cons, List.not_mem_nil, or_false] at h
  rcases h with rfl | rfl | rfl | rfl | rfl | rfl | rfl | rfl | rfl
  all_goals
    constructor
    . exact List.cons_ne_nil _ _
    . exact opensGap_cons (by decide) (by decide) rest
    . rfl
    . exact nofun
    . exact nofun

theorem isClosed_of_isWord {lexeme : Lexeme} (hword : IsWord lexeme.text)
    (hname : lexeme.terminal.base = .name)
    (hkeyword : ∀ keyword, lexeme.terminal = .word keyword → lexeme.text = keyword.text) :
    lexeme.IsClosed := by
  have hstop : ∀ c ∈ stops, isNamePart c = false := forall_mem_stops (by decide)
  intro rest hrest
  exact fits_of_isWord hword hname hkeyword fun c hc => hstop c (hrest c hc)

theorem isClosed_of_all_isDecimal {text : Text} (hne : text ≠ [])
    (hall : text.all CodePoint.isDecimal = true) : IsClosed ⟨.number, text⟩ := by
  have hstop : ∀ c ∈ stops,
      c.isDecimal = false ∧ c.is '.' = false ∧ c.is 'e' = false ∧ c.is 'E' = false :=
    forall_mem_stops (by decide)
  intro rest hrest
  exact fits_of_all_isDecimal hne hall fun c hc => hstop c (hrest c hc)

theorem isClosed_word (keyword : Keyword) : IsClosed ⟨.word keyword, keyword.text⟩ := by
  apply isClosed_of_isWord
  . exact isWord_text keyword
  . rfl
  . rintro _ ⟨⟩
    rfl

theorem isClosed_bool (b : Bool) : IsClosed (.bool b) := by
  cases b with
  | true => exact isClosed_word .trueWord
  | false => exact isClosed_word .falseWord

theorem isClosed_unary (op : UnaryOp) : IsClosed (.unary op) := by
  cases op with
  | typeof => exact isClosed_word .typeofWord
  | _ => exact isClosed_of_mem_marks (by decide)

theorem isClosed_binary (op : BinaryOp) : IsClosed (.binary op) :=
  isClosed_of_mem_marks (by cases op <;> decide)

theorem isClosed_access (optional : Bool) : IsClosed (.access optional) :=
  isClosed_of_mem_marks (by cases optional <;> decide)

theorem isClosed_name {text : Text} (h : IsWord text) : IsClosed ⟨.name, text⟩ := by
  apply isClosed_of_isWord
  . exact h
  . rfl
  . exact nofun

end Lexeme

end Expression

end PageBinding
