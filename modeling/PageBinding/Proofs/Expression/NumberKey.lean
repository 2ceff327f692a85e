import PageBinding.Proofs.Decimal
import PageBinding.Proofs.Expression.Enclosed

/-!
This module contains the three ways in which a number is a key: as the literal key of an entry, as a
computed key and as an index. A literal key is the text that the number has in data, the other two
are its text in string concatenation.
-/

namespace PageBinding

theorem CodePoint.digitValue?_lt {c : CodePoint} {n : Nat} (h : c.digitValue? = some n) :
    n < 10 := by
  obtain ⟨start, hstart, rfl⟩ := Option.map_eq_some_iff.mp h
  have hrange := List.find?_some hstart
  simp only [Bool.and_eq_true, decide_eq_true_eq] at hrange
  omega

theorem Text.decimalValue_lt (t : Text) : decimalValue t < 10 ^ t.length := by
  induction t using List.reverseRecOn with
  | nil => exact Nat.one_pos
  | append_singleton t c ih =>
    have hdigit : c.digitValue?.getD 0 < 10 := by
      cases hc : c.digitValue? with
      | none => exact Nat.succ_pos 9
      | some n => exact CodePoint.digitValue?_lt hc
    rw [decimalValue_append_singleton, List.length_append, List.length_singleton, Nat.pow_succ]
    omega

namespace Expression

def namedText (numeral value : Text) : Text :=
  Text.concat ["\x7b", numeral, ": ", value, "\x7d"]

def computedText (numeral value : Text) : Text :=
  Text.concat ["\x7b[", numeral, "]: ", value, "\x7d"]

def lookupText (numeral value : Text) : Text :=
  Text.concat [namedText numeral value, "[", numeral, "]"]

def numberKey (numeral : Text) : Text :=
  (Literal.number numeral).dataText?.getD numeral

section Numeral

variable {numeral t : Text}

theorem isKey_numeral (numeral : Text) : Lexeme.IsKey ⟨.number, numeral⟩ (numberKey numeral) :=
  fun _ => ⟨.inr (.inr rfl), rfl⟩

theorem fitsText_decimalValue (h : t.length ≤ Number.maxDigits) :
    Number.fitsText (Text.decimalValue t) = true := by
  have hlt := Text.decimalValue_lt t
  rw [Number.fitsText, decide_eq_true_eq]
  generalize Number.maxDigits = digits at h ⊢
  exact Nat.lt_of_lt_of_le hlt (Nat.pow_le_pow_right (by decide) h)

theorem dataText?_number (numeral : Text) :
    (Literal.number numeral).dataText? = some (numberKey numeral) := by
  have hsome : (Literal.number numeral).dataText?.isSome = true := by
    unfold Literal.number
    dsimp only
    split
    . split
      . next hlength =>
        rw [Number.dataText?, Int.natAbs_natCast, if_pos (fitsText_decimalValue hlength)]
        rfl
      . rfl
    . split
      . next i _ =>
        split
        . next hlt =>
          have hbound : Number.wholeBound ≤ 10 ^ 21 := by decide
          rw [Number.dataText?, if_pos (Number.fitsText_of_lt (Nat.lt_of_lt_of_le hlt hbound))]
          rfl
        . rfl
      . rfl
  obtain ⟨text, htext⟩ := Option.isSome_iff_exists.mp hsome
  rw [numberKey, htext, Option.getD_some]

end Numeral

theorem fits_rightBrace (rest : Text) : Lexeme.rightBrace.Fits rest := by
  constructor
  . exact List.cons_ne_nil _ _
  . exact opensGap_cons (by decide) (by decide) rest
  . rfl
  . exact nofun
  . exact nofun

section Lexes

variable {numeral t u : Text} {us vs ws : List Lexeme}

theorem lexes_value (h : Lexes u vs) :
    Lexes ((": " : Text) ++ u) (.colon :: vs) := by
  have hspace : ∀ c ∈ (" " : Text), isBlank c = true :=
    List.all_eq_true.mp (show (" " : Text).all isBlank = true by decide)
  have hcolon : Lexeme.colon.Fits ((" " : Text) ++ u) :=
    Lexeme.fits_of_mem_punctuation (by decide) _
  exact .token hcolon (.blanks hspace h)

theorem lexes_named (hnumeral : IsNumeral numeral) (h : Lexes u vs) :
    Lexes (("\x7b" : Text) ++ (numeral ++ ((": " : Text) ++ u)))
      (.leftBrace :: ⟨.number, numeral⟩ :: .colon :: vs) := by
  have hstop : CodePoint.ofChar ':' ∈ stops := by decide
  have hkey := isClosed_numeral hnumeral ((": " : Text) ++ u) (by rintro _ ⟨⟩; exact hstop)
  have hbrace (rest : Text) : Lexeme.leftBrace.Fits rest :=
    Lexeme.fits_of_mem_punctuation (by decide) rest
  exact .token (hbrace _) (.token hkey (lexes_value h))

theorem lexes_bracketed (hnumeral : IsNumeral numeral) (hu : ∀ c ∈ u.head?, c ∈ stops)
    (h : Lexes u vs) : Lexes (("[" : Text) ++ (numeral ++ (("]" : Text) ++ u)))
      (.leftBracket :: ⟨.number, numeral⟩ :: .rightBracket :: vs) := by
  have hstop : CodePoint.ofChar ']' ∈ stops := by decide
  have hright : Lexeme.IsClosed .rightBracket := Lexeme.isClosed_of_mem_marks (by decide)
  have hkey := isClosed_numeral hnumeral (("]" : Text) ++ u) (by rintro _ ⟨⟩; exact hstop)
  have hleft (rest : Text) : Lexeme.leftBracket.Fits rest :=
    Lexeme.fits_of_mem_punctuation (by decide) rest
  exact .token (hleft _) (.token hkey (.token (hright u hu) h))

theorem lexes_namedText (hnumeral : IsNumeral numeral) (ht : Writes t ws) (h : Lexes u vs) :
    Lexes (namedText numeral t ++ u)
      (.leftBrace :: ⟨.number, numeral⟩ :: .colon :: (ws ++ .rightBrace :: vs)) := by
  have hstop : CodePoint.ofChar '\x7d' ∈ stops := by decide
  have hclose : Lexes (("\x7d" : Text) ++ u) (.rightBrace :: vs) := .token (fits_rightBrace u) h
  have hvalue := ht _ _ (by rintro _ ⟨⟩; exact hstop) hclose
  simpa [namedText, Text.concat] using lexes_named hnumeral hvalue

theorem lexes_unclosed (hnumeral : IsNumeral numeral) (ht : EndsInComment t ws) :
    Lexes (namedText numeral t) (.leftBrace :: ⟨.number, numeral⟩ :: .colon :: ws) := by
  have hstop : CodePoint.ofChar '\x7d' ∈ stops := by decide
  have hline : ∀ c ∈ ("\x7d" : Text), c.is '\n' = false := List.forall_mem_singleton.mpr rfl
  have hclose := ht ("\x7d" : Text) (by rintro _ ⟨⟩; exact hstop) hline
  simpa [namedText, Text.concat] using lexes_named hnumeral hclose

theorem lexes_computedText (hnumeral : IsNumeral numeral) (ht : Writes t ws) :
    Lexes (computedText numeral t) (.leftBrace :: .leftBracket :: ⟨.number, numeral⟩ ::
      .rightBracket :: .colon :: (ws ++ [.rightBrace])) := by
  have hstop : CodePoint.ofChar '\x7d' ∈ stops := by decide
  have hcolon : CodePoint.ofChar ':' ∈ stops := by decide
  have hclose : Lexes (("\x7d" : Text) ++ []) [.rightBrace] := .token (fits_rightBrace []) .nil
  have hvalue := lexes_value (ht _ _ (by rintro _ ⟨⟩; exact hstop) hclose)
  have hkey := lexes_bracketed hnumeral (by rintro _ ⟨⟩; exact hcolon) hvalue
  have hbrace (rest : Text) : Lexeme.leftBrace.Fits rest :=
    Lexeme.fits_of_mem_punctuation (by decide) rest
  have hall : Lexes (("\x7b" : Text) ++ _) _ := .token (hbrace _) hkey
  have hsplit : ("\x7b[" : Text) = ("\x7b" : Text) ++ ("[" : Text) := rfl
  have hsplit' : ("]: " : Text) = ("]" : Text) ++ (": " : Text) := rfl
  simpa [computedText, Text.concat, hsplit, hsplit'] using hall

theorem lexes_lookupText (hnumeral : IsNumeral numeral) (ht : Writes t ws) :
    Lexes (lookupText numeral t)
      (.leftBrace :: ⟨.number, numeral⟩ :: .colon :: (ws ++ [.rightBrace]) ++
        [.leftBracket, ⟨.number, numeral⟩, .rightBracket]) := by
  have hkey := lexes_bracketed (u := []) hnumeral nofun .nil
  simpa [lookupText, Text.concat] using lexes_namedText hnumeral ht hkey

end Lexes

def namedExpr (numeral : Text) (e : Expr) : Expr :=
  .object [.named (numberKey numeral) e]

def computedExpr (numeral : Text) (e : Expr) : Expr :=
  .object [.computed (.literal (.number (Literal.number numeral))) e]

def lookupExpr (numeral : Text) (e : Expr) : Expr :=
  .index (namedExpr numeral e) (.literal (.number (Literal.number numeral))) false

section Expr

variable (numeral : Text) (e : Expr)

theorem depth_namedExpr : (namedExpr numeral e).depth = e.depth + 1 := by
  simp only [namedExpr, Expr.depth, depthOfEntries, depthOfEntry, Nat.max_zero]

theorem identifiers_namedExpr : (namedExpr numeral e).identifiers = e.identifiers := by
  simp only [namedExpr, Expr.identifiers, identifiersOfEntries, identifiersOfEntry,
    List.append_nil]

theorem depth_lookupExpr : (lookupExpr numeral e).depth = e.depth + 2 := by
  have hpos := e.depth_pos
  simp only [lookupExpr, Expr.depth, depth_namedExpr]
  omega

theorem identifiers_lookupExpr : (lookupExpr numeral e).identifiers = e.identifiers := by
  simp only [lookupExpr, Expr.identifiers, identifiers_namedExpr, List.append_nil]

end Expr

section Denotes

variable {g : Identifier → Identifier} {numeral : Text} {e : Expr} {ws : List Lexeme}

theorem denotes_named (h : Denotes g 0 e ws) :
    Denotes g 9 (namedExpr numeral e)
      (.leftBrace :: ⟨.number, numeral⟩ :: .colon :: (ws ++ [.rightBrace])) :=
  .object (.last (.keyed (isKey_numeral numeral) h))

theorem denotes_computed (h : Denotes g 0 e ws) :
    Denotes g 9 (computedExpr numeral e) (.leftBrace :: .leftBracket :: ⟨.number, numeral⟩ ::
      .rightBracket :: .colon :: (ws ++ [.rightBrace])) :=
  .object (.last (.computed (.weaken (Nat.zero_le 9) (.number rfl)) h))

theorem denotes_lookup (h : Denotes g 0 e ws) :
    Denotes g 9 (lookupExpr numeral e)
      (.leftBrace :: ⟨.number, numeral⟩ :: .colon :: (ws ++ [.rightBrace]) ++
        [.leftBracket, ⟨.number, numeral⟩, .rightBracket]) :=
  .index (denotes_named h) (.weaken (Nat.zero_le 9) (.number rfl))

end Denotes

section Evaluate

variable {numeral key t : Text} {e : Expr} {v : Value}

theorem evaluate_namedExpr_iff :
    (namedExpr numeral e).evaluate = .ok v ↔
      ∃ w, e.evaluate = .ok w ∧ v = .object [(numberKey numeral, w)] := by
  rw [namedExpr, Expr.evaluate, evaluateEntries, evaluateEntry, evaluateEntries]
  cases e.evaluate with
  | error failure => simp [bind, Except.bind]
  | ok w =>
    simp only [bind, Except.bind, pure, Except.pure, Except.ok.injEq, exists_eq_left']
    exact eq_comm

theorem evaluate_computedExpr_iff :
    (computedExpr numeral e).evaluate = .ok v ↔
      ∃ key w, (Literal.number numeral).plainText = .ok key ∧ e.evaluate = .ok w ∧
        v = .object [(key, w)] := by
  rw [computedExpr, Expr.evaluate, evaluateEntries, evaluateEntry, evaluateEntries, Expr.evaluate]
  simp only [bind, Except.bind, plainText]
  cases (Literal.number numeral).plainText with
  | error fault => simp [ofArithmetic, Except.mapError]
  | ok key =>
    cases e.evaluate with
    | error failure => simp [ofArithmetic, Except.mapError]
    | ok w =>
      simp only [ofArithmetic, Except.mapError, pure, Except.pure, Except.ok.injEq,
        exists_eq_left', exists_and_left]
      exact eq_comm

theorem evaluate_lookupExpr (hkey : (Literal.number numeral).plainText = .ok key)
    (he : e.evaluate = .ok v) :
    (lookupExpr numeral e).evaluate = .ok (if numberKey numeral = key then v else .null) := by
  have hnamed : (namedExpr numeral e).evaluate = .ok (.object [(numberKey numeral, v)]) :=
    evaluate_namedExpr_iff.mpr ⟨v, he, rfl⟩
  rw [lookupExpr, Expr.evaluate, hnamed, Expr.evaluate]
  simp only [bind, Except.bind, property, plainText, hkey, ofArithmetic, Except.mapError,
    Entries.lookup, reduceCtorEq, if_false]
  split
  . rfl
  . rfl

theorem checkData_object_singleton (key : Text) (v : Value) :
    checkData (.object [(key, v)]) = checkData v := by
  rw [checkData, checkEntries, checkEntries]
  cases checkData v with
  | error _ => rfl
  | ok _ => rfl

end Evaluate

section Texts

variable [Limits] {numeral t : Text} {e : Expr} {ws : List Lexeme} {v : Value}

theorem evaluate_namedText_iff (hnumeral : IsNumeral numeral)
    (hdenotes : Denotes Identifier.bare 0 e ws) (hwrites : Writes t ws) :
    evaluate (namedText numeral t) = .ok v ↔
      e.depth + 1 ≤ Limits.maxDepth ∧ e.identifiers = [] ∧ (namedExpr numeral e).evaluate = .ok v ∧
        checkData v = .ok () := by
  have hlexes := lexes_namedText hnumeral hwrites .nil
  rw [List.append_nil] at hlexes
  have hobject : Denotes Identifier.bare 0 (namedExpr numeral e) _ :=
    (denotes_named hdenotes).weaken (Nat.zero_le 9)
  rw [hobject.evaluate_eq_ok_iff hlexes, depth_namedExpr, identifiers_namedExpr]

theorem evaluate_computedText_iff (hnumeral : IsNumeral numeral)
    (hdenotes : Denotes Identifier.bare 0 e ws) (hwrites : Writes t ws) :
    evaluate (computedText numeral t) = .ok v ↔
      (computedExpr numeral e).depth ≤ Limits.maxDepth ∧ (computedExpr numeral e).identifiers = [] ∧
        (computedExpr numeral e).evaluate = .ok v ∧ checkData v = .ok () := by
  have hobject : Denotes Identifier.bare 0 (computedExpr numeral e) _ :=
    (denotes_computed hdenotes).weaken (Nat.zero_le 9)
  exact hobject.evaluate_eq_ok_iff (lexes_computedText hnumeral hwrites)

theorem evaluate_lookupText {key : Text} (hnumeral : IsNumeral numeral)
    (hdenotes : Denotes Identifier.bare 0 e ws) (hwrites : Writes t ws)
    (hnone : e.identifiers = []) (he : e.evaluate = .ok v) (hcheck : checkData v = .ok ())
    (hkey : (Literal.number numeral).plainText = .ok key) :
    evaluate (lookupText numeral t) =
      if Limits.maxDepth < e.depth + 2 then .error tooDeep
      else .ok (if numberKey numeral = key then v else .null) := by
  have hlexes := lexes_lookupText hnumeral hwrites
  have hlookup : Denotes Identifier.bare 0 (lookupExpr numeral e) _ :=
    (denotes_lookup hdenotes).weaken (Nat.zero_le 9)
  split
  . next hdeep => exact hlookup.evaluate_eq_tooDeep hlexes (by rwa [depth_lookupExpr])
  . next hfits =>
    apply (hlookup.evaluate_eq_ok_iff hlexes).mpr
    rw [depth_lookupExpr, identifiers_lookupExpr, evaluate_lookupExpr hkey he]
    refine ⟨Nat.not_lt.mp hfits, hnone, rfl, ?_⟩
    split
    . exact hcheck
    . rfl

/--
An entry with a number as its key is the same with the number as a computed key, and is found under
the number, exactly if the number has one text in data and in string concatenation. Otherwise there
is nothing under the number.
-/
theorem evaluate_numberKey {named computed : Value} (hnumeral : IsNumeral numeral)
    (ht : parse t = .ok e) (hnamed : evaluate (namedText numeral t) = .ok named)
    (hcomputed : evaluate (computedText numeral t) = .ok computed) :
    ∃ v, evaluate t = .ok v ∧ (named = computed ↔ (Literal.number numeral).PrintsAlike) ∧
      evaluate (lookupText numeral t) =
        if Limits.maxDepth < e.depth + 2 then .error tooDeep
        else .ok (if (Literal.number numeral).PrintsAlike then v else .null) := by
  obtain ⟨ws, hdenotes, hwrites | hcomment⟩ := denotes_of_parse ht
  . obtain ⟨hdepth, hnone, hnamed, hcheck⟩ :=
      (evaluate_namedText_iff hnumeral hdenotes hwrites).mp hnamed
    obtain ⟨-, -, hcomputed, -⟩ :=
      (evaluate_computedText_iff hnumeral hdenotes hwrites).mp hcomputed
    obtain ⟨v, hv, rfl⟩ := evaluate_namedExpr_iff.mp hnamed
    obtain ⟨key, w, hkey, hw, rfl⟩ := evaluate_computedExpr_iff.mp hcomputed
    rw [hv, Except.ok.injEq] at hw
    subst hw
    rw [checkData_object_singleton] at hcheck
    have halike : numberKey numeral = key ↔ (Literal.number numeral).PrintsAlike := by
      rw [← Number.dataText?_eq_some_iff hkey, dataText?_number, Option.some.injEq]
    refine ⟨v, ?_, by simp [← halike], ?_⟩
    . exact (hdenotes.evaluate_eq_ok_iff hwrites.lexes).mpr ⟨by omega, hnone, hv, hcheck⟩
    . rw [evaluate_lookupText hnumeral hdenotes hwrites hnone hv hcheck hkey]
      simp only [halike]
  . obtain ⟨_, hparse, -⟩ := evaluate_eq_ok_iff.mp hnamed
    exact absurd hparse (hdenotes.parse_ne_ok_of_unclosed (lexes_unclosed hnumeral hcomment) _)

end Texts

section Tiny

theorem isNumeral_tiny : IsNumeral "1e-7" := by
  decide

theorem plainText_tiny : (Literal.number "1e-7").plainText = .ok "1e-7" := by
  decide +kernel

theorem numberKey_tiny : numberKey "1e-7" = "1e-07" := by
  decide +kernel

theorem denotes_true :
    Denotes Identifier.bare 0 (.literal (.bool true)) [Lexeme.bool true] :=
  .weaken (Nat.zero_le 9) (.bool true)

theorem writes_true : Writes "true" [Lexeme.bool true] :=
  .token (Lexeme.isClosed_bool true)

theorem evaluate_namedText_tiny :
    evaluate (namedText "1e-7" "true") = .ok (.object [("1e-07", .bool true)]) := by
  apply (evaluate_namedText_iff isNumeral_tiny denotes_true writes_true).mpr
  refine ⟨by decide, rfl, ?_, rfl⟩
  rw [evaluate_namedExpr_iff, numberKey_tiny]
  exact ⟨_, rfl, rfl⟩

theorem evaluate_computedText_tiny :
    evaluate (computedText "1e-7" "true") = .ok (.object [("1e-7", .bool true)]) := by
  apply (evaluate_computedText_iff isNumeral_tiny denotes_true writes_true).mpr
  exact ⟨by decide, rfl, evaluate_computedExpr_iff.mpr ⟨_, _, plainText_tiny, rfl, rfl⟩, rfl⟩

theorem evaluate_lookupText_tiny : evaluate (lookupText "1e-7" "true") = .ok .null := by
  rw [evaluate_lookupText isNumeral_tiny denotes_true writes_true rfl rfl rfl plainText_tiny,
    numberKey_tiny]
  rfl

/--
A number of seven places has an exponent of two digits in data and of one digit in string
concatenation.
-/
theorem evaluate_numberKey_tiny :
    IsNumeral "1e-7" ∧ parse "true" = .ok (.literal (.bool true)) ∧
      evaluate (namedText "1e-7" "true") = .ok (.object [("1e-07", .bool true)]) ∧
        evaluate (computedText "1e-7" "true") = .ok (.object [("1e-7", .bool true)]) ∧
          evaluate (lookupText "1e-7" "true") = .ok .null := by
  have hparse : parse "true" = .ok (.literal (.bool true)) := by cbv
  have halike : ¬ (Literal.number "1e-7").PrintsAlike := by decide +kernel
  obtain ⟨v, -, -, hlookup⟩ :=
    evaluate_numberKey isNumeral_tiny hparse evaluate_namedText_tiny evaluate_computedText_tiny
  rw [if_neg (by decide), if_neg halike] at hlookup
  exact ⟨isNumeral_tiny, hparse, evaluate_namedText_tiny, evaluate_computedText_tiny, hlookup⟩

theorem not_forall_evaluate_numberKey :
    ¬ ∀ (numeral t : Text) (named computed : Value), IsNumeral numeral →
      evaluate (namedText numeral t) = .ok named →
        evaluate (computedText numeral t) = .ok computed →
          named = computed ∧ ∃ v, evaluate t = .ok v ∧ evaluate (lookupText numeral t) = .ok v := by
  intro h
  obtain ⟨-, v, ht, hlookup⟩ :=
    h "1e-7" "true" _ _ isNumeral_tiny evaluate_namedText_tiny evaluate_computedText_tiny
  have htrue := (denotes_true.evaluate_eq_ok_iff writes_true.lexes).mp ht
  rw [evaluate_lookupText_tiny, Except.ok.injEq] at hlookup
  subst hlookup
  cases htrue.2.2.1

end Tiny

end Expression

end PageBinding
