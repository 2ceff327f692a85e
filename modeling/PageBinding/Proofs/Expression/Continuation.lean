import PageBinding.Proofs.Expression.Denotation
import PageBinding.Proofs.Expression.Refusal

/-!
This module contains what a backslash at the end of a line does in a string literal. In front of a
line feed it joins the lines, whatever stands before and after it. In front of a carriage return
with a line feed it does not: the backslash takes the carriage return alone, and a line feed on its
own cannot stand in a literal, so the escape for the two of them is never met.
-/

namespace PageBinding

namespace Expression

def isQuote (c : CodePoint) : Bool :=
  c.is '\x22' || c.is '\x27'

namespace Literal

/--
What can stand between the quotes of a string literal: a backslash with one code point of any kind
behind it, and every other code point apart from the quote and the line feed.
-/
inductive Inside (quote : CodePoint) : Text → Prop where
  | nil : Inside quote []
  | plain {c : CodePoint} {t : Text} : c ≠ quote → c.is '\\' = false → c.is '\n' = false →
      Inside quote t → Inside quote (c :: t)
  | escaped (c : CodePoint) {t : Text} :
      Inside quote t → Inside quote (CodePoint.ofChar '\\' :: c :: t)

def quoted (quote : CodePoint) (t : Text) : Text :=
  quote :: (t ++ [quote])

section Inside

variable {quote c : CodePoint} {a b t rest : Text}

theorem ne_of_isQuote (hquote : isQuote quote = true) : CodePoint.ofChar '\\' ≠ quote := by
  rintro rfl
  exact absurd hquote (by decide)

namespace Inside

theorem append (ha : Inside quote a) (hb : Inside quote b) : Inside quote (a ++ b) := by
  induction ha with
  | nil => exact hb
  | plain hne hslash hline _ ih => exact .plain hne hslash hline ih
  | escaped c _ ih => exact .escaped c ih

theorem of_cons (h : Inside quote (c :: t)) (hslash : c.is '\\' = false) : Inside quote t := by
  cases h with
  | plain _ _ _ h => exact h
  | escaped d _ => exact absurd hslash (by decide)

theorem of_append (h : Inside quote (a ++ t)) (hslash : ∀ c ∈ a, c.is '\\' = false) :
    Inside quote t := by
  induction a with
  | nil => exact h
  | cons c a ih =>
    obtain ⟨hc, ha⟩ := List.forall_mem_cons.mp hslash
    exact ih (of_cons h hc) ha

theorem closingLength?_append (h : Inside quote a) (hquote : isQuote quote = true) (rest : Text) :
    closingLength? quote (a ++ rest) = (closingLength? quote rest).map (· + a.length) := by
  induction h with
  | nil => simp
  | @plain c t hne hslash hline _ ih =>
    rw [List.cons_append, closingLength?_cons hne hslash, hline, if_neg Bool.false_ne_true, ih,
      Option.map_map]
    rfl
  | @escaped c t _ ih =>
    rw [List.cons_append, List.cons_append,
      closingLength?_escape (ne_of_isQuote hquote) (by decide), ih, Option.map_map]
    rfl

end Inside

theorem inside_of_closingLength? (h : closingLength? quote (a ++ [quote]) = some (a.length + 1)) :
    Inside quote a := by
  fun_induction closingLength? quote a with
  | case1 => exact .nil
  | case2 rest =>
    rw [List.cons_append, closingLength?_quote] at h
    simp at h
  | case3 c hne hslash =>
    rw [List.singleton_append, closingLength?_escape hne hslash] at h
    simp [closingLength?] at h
  | case4 c hne hslash d rest ih =>
    rw [List.cons_append, List.cons_append, closingLength?_escape hne hslash] at h
    obtain ⟨m, hm, hlength⟩ := Option.map_eq_some_iff.mp h
    rw [CodePoint.eq_ofChar_of_is hslash]
    apply Inside.escaped d
    apply ih
    rw [hm]
    simp only [List.length_cons] at hlength
    exact congrArg some (by omega)
  | case5 c rest hne hslash hline =>
    rw [List.cons_append, closingLength?_cons hne (by simpa using hslash), if_pos hline] at h
    cases h
  | case6 c rest hne hslash hline ih =>
    rw [List.cons_append, closingLength?_cons hne (by simpa using hslash), if_neg hline] at h
    obtain ⟨m, hm, hlength⟩ := Option.map_eq_some_iff.mp h
    apply Inside.plain hne (by simpa using hslash) (by simpa using hline)
    apply ih
    rw [hm]
    simp only [List.length_cons] at hlength
    exact congrArg some (by omega)

theorem stringLength_cons (hquote : isQuote quote = true) (t : Text) :
    stringLength (quote :: t) = ((closingLength? quote t).map (· + 1)).getD 0 := by
  unfold isQuote at hquote
  simp only [stringLength, hquote, if_true]
  cases closingLength? quote t <;> rfl

theorem stringLength_quoted_iff (hquote : isQuote quote = true) :
    stringLength (quoted quote a) = (quoted quote a).length ↔ Inside quote a := by
  rw [quoted, stringLength_cons hquote, List.length_cons, List.length_append,
    List.length_singleton]
  constructor
  . intro h
    apply inside_of_closingLength?
    cases hclosing : closingLength? quote (a ++ [quote]) with
    | none => simp [hclosing] at h
    | some n =>
      simp only [hclosing, Option.map_some, Option.getD_some] at h
      exact congrArg some (by omega)
  . intro h
    rw [h.closingLength?_append hquote, closingLength?_quote, Option.map_some, Option.map_some,
      Option.getD_some]
    omega

end Inside

section Seam

variable {quote c : CodePoint} {a t piece : Text} {n : Nat}

theorem bracedDigits?_append (t rest : Text) :
    bracedDigits? (t ++ CodePoint.ofChar '\\' :: rest) = bracedDigits? t := by
  have hbrace : (CodePoint.ofChar '\\').is '\x7d' = false := by decide
  cases t with
  | nil =>
    simp only [List.nil_append, bracedDigits?]
    split
    . rw [show (CodePoint.ofChar '\\').is '\x7b' = false by decide]
      rfl
    . rfl
  | cons c t =>
    have htake : (t ++ CodePoint.ofChar '\\' :: rest).takeWhile isHex = t.takeWhile isHex := by
      rw [List.takeWhile_append, List.takeWhile_cons_of_neg (by decide), List.append_nil]
      split
      . next hlength => exact ((List.takeWhile_prefix isHex).eq_of_length hlength).symm
      . rfl
    have hle : (t.takeWhile isHex).length ≤ t.length := (List.takeWhile_prefix isHex).length_le
    simp only [List.cons_append, bracedDigits?, htake, List.drop_append_of_le_length hle]
    cases t.drop (t.takeWhile isHex).length with
    | nil => simp [hbrace]
    | cons d tail => rfl

theorem fixedDigits?_append (count : Nat) (t rest : Text) :
    fixedDigits? count (t ++ CodePoint.ofChar '\\' :: rest) = fixedDigits? count t := by
  by_cases hle : count ≤ t.length
  . simp only [fixedDigits?, List.take_append_of_le_length hle]
  . have hshort : (t.take count).length ≠ count := by
      rw [List.length_take]
      omega
    have hslash : ((t ++ CodePoint.ofChar '\\' :: rest).take count).all isHex = false := by
      obtain ⟨k, hk⟩ := Nat.exists_eq_add_of_lt (Nat.lt_of_not_le hle)
      have htake : (t ++ CodePoint.ofChar '\\' :: rest).take count =
          t ++ CodePoint.ofChar '\\' :: rest.take k := by
        rw [hk, Nat.add_assoc, List.take_length_add_append, List.take_succ_cons]
      have hhex : isHex (CodePoint.ofChar '\\') = false := by decide
      rw [htake, List.all_append, List.all_cons, hhex, Bool.false_and, Bool.and_false]
    simp only [fixedDigits?, hshort, hslash, decide_false, Bool.and_false, Bool.false_and,
      Bool.false_eq_true, if_false]

theorem escape_append (c : CodePoint) (t rest : Text) :
    escape c (t ++ CodePoint.ofChar '\\' :: rest) = escape c t := by
  have hline : Text.startsWith (t ++ CodePoint.ofChar '\\' :: rest) "\n" =
      Text.startsWith t "\n" := by
    cases t with
    | nil => rfl
    | cons d t => rfl
  simp only [escape, bracedDigits?_append, fixedDigits?_append, hline]

theorem is_eq_false_of_isHex {c : CodePoint} (h : isHex c = true) : c.is '\\' = false := by
  have hraw := isRaw_of_isHex h
  simp only [isRaw, Bool.and_eq_true, Bool.not_eq_true'] at hraw
  exact hraw.1.2

theorem exists_of_fixedDigits? {count : Nat} {digits : Text}
    (h : fixedDigits? count t = some digits) :
    digits = t.take count ∧ digits.length = count ∧ digits.all isHex = true := by
  unfold fixedDigits? at h
  dsimp only at h
  split at h
  . next hdigits =>
    cases h
    simp only [Bool.and_eq_true, decide_eq_true_eq] at hdigits
    exact ⟨rfl, hdigits⟩
  . cases h

theorem Inside.drop_of_fixedDigits? {count : Nat} {digits : Text} (h : Inside quote t)
    (hfixed : fixedDigits? count t = some digits) :
    count ≤ t.length ∧ Inside quote (t.drop count) := by
  obtain ⟨rfl, hlength, hall⟩ := exists_of_fixedDigits? hfixed
  rw [List.length_take] at hlength
  rw [← List.take_append_drop count t] at h
  exact ⟨by omega, h.of_append fun c hc => is_eq_false_of_isHex (List.all_eq_true.mp hall c hc)⟩

theorem Inside.drop_of_bracedDigits? {digits : Text} (h : Inside quote t)
    (hbraced : bracedDigits? t = some digits) :
    digits.length + 2 ≤ t.length ∧ Inside quote (t.drop (digits.length + 2)) := by
  obtain ⟨rest, rfl, hall⟩ := exists_of_bracedDigits? hbraced
  have hdigits : ∀ c ∈ digits, c.is '\\' = false :=
    fun c hc => is_eq_false_of_isHex (List.all_eq_true.mp hall c hc)
  have hrest := ((h.of_cons (by decide)).of_append hdigits).of_cons (by decide)
  rw [List.drop_succ_cons, List.drop_length_add_append]
  refine ⟨?_, hrest⟩
  simp only [List.length_cons, List.length_append]
  omega

theorem Inside.drop_of_escape (h : Inside quote t) (hescape : escape c t = .ok (piece, n)) :
    n ≤ t.length ∧ Inside quote (t.drop n) := by
  have hnumber {m : Nat} {value : Except EscapeFault Text}
      (heq : (do return (← value, m)) = (.ok (piece, n) : Except EscapeFault (Text × Nat))) :
      m = n := by
    cases value with
    | error fault => cases heq
    | ok t =>
      cases heq
      rfl
  unfold escape at hescape
  split at hescape
  . split at hescape
    . next digits _ hbraced =>
      obtain rfl := hnumber hescape
      exact h.drop_of_bracedDigits? hbraced
    . next digits hfixed =>
      obtain rfl := hnumber hescape
      exact h.drop_of_fixedDigits? hfixed
    . cases hescape
      exact ⟨Nat.zero_le _, h⟩
  . split at hescape
    . split at hescape
      . next digits hfixed =>
        obtain rfl := hnumber hescape
        exact h.drop_of_fixedDigits? hfixed
      . cases hescape
        exact ⟨Nat.zero_le _, h⟩
    . split at hescape
      . next hbreak =>
        -- Only behind a backslash could there be a line feed.
        simp only [Bool.and_eq_true, Text.startsWith, List.isPrefixOf_iff_prefix] at hbreak
        obtain ⟨rest, rfl⟩ := hbreak.2
        cases h with
        | plain _ _ hline _ => exact absurd hline (by decide)
      . cases hescape
        exact ⟨Nat.zero_le _, h⟩

theorem unescape_eq_error {fault : EscapeFault} (h : escape c t = .error fault) :
    unescape (CodePoint.ofChar '\\' :: c :: t) = .error fault := by
  rw [unescape, if_pos (by decide), h]
  rfl

theorem Inside.unescape_append (h : Inside quote a) (rest : Text) :
    unescape (a ++ CodePoint.ofChar '\\' :: rest) =
      (unescape a).bind fun u => (unescape (CodePoint.ofChar '\\' :: rest)).map (u ++ ·) := by
  have hmap (piece : Text) (x y : Except EscapeFault Text) :
      (x.bind fun u => y.map (u ++ ·)).map (piece ++ ·) =
        (x.map (piece ++ ·)).bind fun u => y.map (u ++ ·) := by
    cases x with
    | error fault => rfl
    | ok u =>
      cases y with
      | error fault => rfl
      | ok v => exact congrArg Except.ok (List.append_assoc piece u v).symm
  have hplain {c : CodePoint} {t : Text} (hslash : c.is '\\' = false)
      (ih : unescape (t ++ CodePoint.ofChar '\\' :: rest) =
        (unescape t).bind fun u => (unescape (CodePoint.ofChar '\\' :: rest)).map (u ++ ·)) :
      unescape (c :: t ++ CodePoint.ofChar '\\' :: rest) = (unescape (c :: t)).bind fun u =>
        (unescape (CodePoint.ofChar '\\' :: rest)).map (u ++ ·) := by
    rw [List.cons_append, unescape_cons hslash, unescape_cons hslash, ih]
    exact hmap [c] _ _
  have hnil : unescape ([] ++ CodePoint.ofChar '\\' :: rest) = (unescape []).bind fun u =>
      (unescape (CodePoint.ofChar '\\' :: rest)).map (u ++ ·) := by
    rw [unescape]
    cases hrest : unescape (CodePoint.ofChar '\\' :: rest) with
    | error fault => exact hrest
    | ok v => exact hrest
  -- An escape can take several code points, so the induction follows the unescaper.
  induction a using unescape.induct with
  | case1 => exact hnil
  | case2 c =>
    cases h with
    | plain _ hslash _ _ => exact hplain hslash hnil
  | case3 c d t hslash ih =>
    rw [CodePoint.eq_ofChar_of_is hslash] at h ⊢
    have ht : Inside quote t := by
      cases h with
      | plain _ hslash _ _ => exact absurd hslash (by decide)
      | escaped _ ht => exact ht
    have happend := escape_append d t rest
    rw [List.cons_append, List.cons_append]
    cases hescape : escape d t with
    | error fault =>
      rw [hescape] at happend
      rw [unescape_eq_error happend, unescape_eq_error hescape]
      rfl
    | ok result =>
      obtain ⟨piece, n⟩ := result
      obtain ⟨hle, hdrop⟩ := ht.drop_of_escape hescape
      rw [hescape] at happend
      rw [unescape_escape happend, unescape_escape hescape, List.drop_append_of_le_length hle,
        ih n hdrop, hmap]
  | case4 c d t hslash ih =>
    have hslash : c.is '\\' = false := by simpa using hslash
    exact hplain hslash (ih (h.of_cons hslash))

end Seam

section Continued

variable {quote : CodePoint} {a b : Text}

theorem Inside.unescape_continued (h : Inside quote a) (rest : Text) :
    unescape (a ++ ("\\\n" : Text) ++ rest) =
      (unescape a).bind fun u => (unescape rest).map (u ++ ·) := by
  have hline : unescape (("\\\n" : Text) ++ rest) = unescape rest := by
    have hescape : escape (CodePoint.ofChar '\n') rest = .ok ([], 0) :=
      escape_simple (by decide) (by decide) (by decide) rest
    have hmap : (unescape rest).map ([] ++ ·) = unescape rest := by cases unescape rest <;> rfl
    exact (unescape_escape hescape).trans hmap
  rw [List.append_assoc, ← hline]
  exact h.unescape_append _

theorem Inside.continued (ha : Inside quote a) (hb : Inside quote b) :
    Inside quote (a ++ ("\\\n" : Text) ++ b) := by
  rw [List.append_assoc]
  exact ha.append (.escaped (CodePoint.ofChar '\n') hb)

/--
A backslash takes the carriage return alone, and the line feed behind it cannot stand there.
-/
theorem Inside.closingLength?_eq_none (h : Inside quote a) (hquote : isQuote quote = true)
    (rest : Text) : closingLength? quote (a ++ ("\\\r\n" : Text) ++ rest) = none := by
  have hline : CodePoint.ofChar '\n' ≠ quote := by
    rintro rfl
    exact absurd hquote (by decide)
  have hnone : closingLength? quote (("\\\r\n" : Text) ++ rest) = none := by
    show closingLength? quote
      (CodePoint.ofChar '\\' :: CodePoint.ofChar '\r' :: CodePoint.ofChar '\n' :: rest) = none
    rw [closingLength?_escape (ne_of_isQuote hquote) (by decide),
      closingLength?_cons hline (by decide), if_pos (by decide)]
    rfl
  rw [List.append_assoc, h.closingLength?_append hquote, hnone]
  rfl

end Continued

end Literal

open Literal

section Quoted

variable {quote : CodePoint} {a b t : Text} {d e : Expr}

theorem opensGap_quote (hquote : isQuote quote = true) (t : Text) :
    opensGap (quote :: t) = false := by
  rw [isQuote, Bool.or_eq_true] at hquote
  rcases hquote with hquote | hquote
  all_goals
    rw [CodePoint.eq_ofChar_of_is hquote]
    exact opensGap_cons (by decide) (by decide) _

theorem read_quoted (hquote : isQuote quote = true) (h : Inside quote t) :
    Phrase.read (quoted quote t) = .ok (.string ⟨.string, quoted quote t, .start⟩) := by
  have hfits : Lexeme.Fits ⟨.string, quoted quote t⟩ [] :=
    Lexeme.fits_of_stringLength (List.cons_ne_nil _ _) ((stringLength_quoted_iff hquote).mpr h) []
  have hlayout := @Layout.token ⟨.string, quoted quote t, .start⟩ _ _ hfits (.nil _)
  rw [List.append_nil] at hlayout
  exact read_eq_ok_iff.mpr ⟨_, _, [], [], hlayout, .single rfl nofun rfl, rfl⟩

theorem parse_quoted_eq_ok_iff [Limits] (hquote : isQuote quote = true) (h : Inside quote t) :
    parse (quoted quote t) = .ok e ↔ ∃ u, unescape t = .ok u ∧ e = .literal (.text u) := by
  have hparse : parse (quoted quote t) =
      (do return .literal (.text (← Token.string ⟨.string, quoted quote t, .start⟩ false))) := by
    obtain ⟨room, hroom⟩ := Limits.exists_maxDepth_eq
    simp only [parse, read_quoted hquote h, bind, Except.bind, hroom, Phrase.resolve]
  have hstring : Literal.string (quoted quote t) = unescape t := by
    rw [string, quoted, List.drop_succ_cons, List.drop_zero, List.dropLast_concat]
  rw [hparse, Token.string, hstring]
  cases unescape t with
  | ok u =>
    simp only [Except.ok.injEq, exists_eq_left']
    exact ⟨fun heq => (Except.ok.inj heq).symm, fun heq => congrArg Except.ok heq.symm⟩
  | error fault =>
    constructor
    . intro heq
      cases fault <;> cases heq
    . rintro ⟨u, hu, -⟩
      cases hu

theorem scan?_quote (hquote : isQuote quote = true) (h : closingLength? quote t = none)
    (accepts : Terminal → Bool) : Terminal.scan? accepts (quote :: t) = none := by
  have hstring : ∀ found ∈ Terminal.order,
      '\x22'.toNat ∈ found.heads ∨ '\x27'.toNat ∈ found.heads → found = .string := by
    decide
  have hclass : headClass quote = '\x22'.toNat ∨ headClass quote = '\x27'.toNat := by
    rw [isQuote, Bool.or_eq_true] at hquote
    rcases hquote with hquote | hquote
    . rw [CodePoint.eq_ofChar_of_is hquote]
      exact .inl (by decide)
    . rw [CodePoint.eq_ofChar_of_is hquote]
      exact .inr (by decide)
  cases hscan : Terminal.scan? accepts (quote :: t) with
  | none => rfl
  | some result =>
    obtain ⟨found, hfind, -⟩ := Terminal.exists_of_scan? hscan
    obtain ⟨hmem, -, hlength⟩ := Terminal.of_find? hfind
    have hheads := Terminal.headClass_mem_heads hmem hlength
    obtain rfl : found = .string := hstring found hmem (by
      rcases hclass with hclass | hclass
      . exact .inl (hclass ▸ hheads)
      . exact .inr (hclass ▸ hheads))
    have hzero : Terminal.string.lengthAt (quote :: t) = 0 := by
      show stringLength (quote :: t) = 0
      rw [stringLength_cons hquote, h]
      rfl
    omega

theorem parse_of_closingLength? [Limits] (hquote : isQuote quote = true)
    (h : closingLength? quote t = none) :
    parse (quote :: t) = .error (.parse (.character quote) Position.start.place) := by
  have hscan := scan?_quote hquote h
  rw [parse, Phrase.read, Config.run, gapLength_eq_zero (opensGap_quote hquote t)]
  simp only [hscan, Config.stray]
  rfl

/--
A backslash and a line feed between the insides of two literals join what they denote. A backslash
and a carriage return with a line feed cannot stand there.
-/
theorem parse_continued [Limits] (hquote : isQuote quote = true) (ha : Inside quote a)
    (hb : Inside quote b) (hd : parse (quoted quote a) = .ok d)
    (he : parse (quoted quote b) = .ok e) :
    (∃ u v, d = .literal (.text u) ∧ e = .literal (.text v) ∧
      parse (quoted quote (a ++ ("\\\n" : Text) ++ b)) = .ok (.literal (.text (u ++ v)))) ∧
    parse (quoted quote (a ++ ("\\\r\n" : Text) ++ b)) =
      .error (.parse (.character quote) Position.start.place) := by
  obtain ⟨u, hu, rfl⟩ := (parse_quoted_eq_ok_iff hquote ha).mp hd
  obtain ⟨v, hv, rfl⟩ := (parse_quoted_eq_ok_iff hquote hb).mp he
  constructor
  . refine ⟨u, v, rfl, rfl, (parse_quoted_eq_ok_iff hquote (ha.continued hb)).mpr ?_⟩
    refine ⟨u ++ v, ?_, rfl⟩
    rw [ha.unescape_continued, hu, hv]
    rfl
  . apply parse_of_closingLength? hquote
    rw [List.append_assoc]
    exact ha.closingLength?_eq_none hquote _

end Quoted

/--
Two halves of an escape that make none together: the continuation between them keeps them apart.
-/
theorem parse_continued_halves :
    isQuote doubleQuote = true ∧ Inside doubleQuote "\\u\x7b1F" ∧ Inside doubleQuote "60\x7d" ∧
      parse "\"\\u\x7b1F\"" = .ok (.literal (.text "u\x7b1F")) ∧
      parse "\"60\x7d\"" = .ok (.literal (.text "60\x7d")) ∧
      parse "\"\\u\x7b1F\\\n60\x7d\"" = .ok (.literal (.text "u\x7b1F60\x7d")) ∧
      parse "\"\\u\x7b1F\\\r\n60\x7d\"" =
        .error (.parse (.character doubleQuote) Position.start.place) := by
  have hquote : isQuote doubleQuote = true := by decide
  have ha : Inside doubleQuote "\\u\x7b1F" := (stringLength_quoted_iff hquote).mp (by decide)
  have hb : Inside doubleQuote "60\x7d" := (stringLength_quoted_iff hquote).mp (by decide)
  have hd : parse (quoted doubleQuote "\\u\x7b1F") = .ok (.literal (.text "u\x7b1F")) :=
    (parse_quoted_eq_ok_iff hquote ha).mpr ⟨_, by decide +kernel, rfl⟩
  have he : parse (quoted doubleQuote "60\x7d") = .ok (.literal (.text "60\x7d")) :=
    (parse_quoted_eq_ok_iff hquote hb).mpr ⟨_, by decide +kernel, rfl⟩
  obtain ⟨⟨u, v, hu, hv, hjoined⟩, hrefused⟩ := parse_continued hquote ha hb hd he
  cases hu
  cases hv
  exact ⟨hquote, ha, hb, hd, he, hjoined, hrefused⟩

theorem not_forall_parse_continued :
    ¬ ∀ (quote : CodePoint) (a b u v lineEnd : Text), isQuote quote = true → Inside quote a →
      Inside quote b → parse (quoted quote a) = .ok (.literal (.text u)) →
      parse (quoted quote b) = .ok (.literal (.text v)) →
      lineEnd ∈ [Text.ofString "\n", Text.ofString "\r\n"] →
        parse (quoted quote (a ++ ("\\" : Text) ++ lineEnd ++ b)) =
          .ok (.literal (.text (u ++ v))) := by
  intro h
  have hquote : isQuote doubleQuote = true := by decide
  have hnil : parse (quoted doubleQuote []) = .ok (.literal (.text [])) :=
    (parse_quoted_eq_ok_iff hquote .nil).mpr ⟨[], by rw [unescape], rfl⟩
  have hjoined := h doubleQuote [] [] [] [] "\r\n" hquote .nil .nil hnil hnil
    (List.mem_cons_of_mem _ List.mem_cons_self)
  have hopen : closingLength? doubleQuote (("\\\r\n" : Text) ++ [doubleQuote]) = none :=
    Inside.nil.closingLength?_eq_none hquote _
  cases (parse_of_closingLength? hquote hopen).symm.trans hjoined

end Expression

end PageBinding
