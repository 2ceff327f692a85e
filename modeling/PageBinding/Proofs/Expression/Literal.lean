import PageBinding.Expression.Literal
import PageBinding.Proofs.Expression.Lexeme
import PageBinding.Proofs.Reference
import PageBinding.Value.Json

/-!
This module contains the literals that are written for data: the digits of a natural number and the
quoted form of a text are read as tokens, and they denote that number and that text.
-/

namespace PageBinding

namespace Text

theorem ofNat_eq_if (n : Nat) :
    ofNat n = if n < 10 then [Reference.digit n]
      else ofNat (n / 10) ++ [Reference.digit (n % 10)] := by
  unfold ofNat
  rw [Nat.toDigits_eq_if (by decide)]
  split
  . rfl
  . rw [ofChars_append]
    rfl

theorem ofNat_ne_nil (n : Nat) : ofNat n ≠ [] := by
  rw [ofNat_eq_if]
  split
  . simp
  . simp

theorem length_ofNat_le_iff {n k : Nat} (hk : 0 < k) : (ofNat n).length ≤ k ↔ n < Nat.pow 10 k := by
  rw [ofNat, ofChars, List.length_map]
  exact Nat.length_toDigits_le_iff (by decide) hk

theorem digitValue?_digit : ∀ n < 10, (Reference.digit n).digitValue? = some n := by
  decide

theorem isDecimal_of_mem_ofNat {n : Nat} {c : CodePoint} (h : c ∈ ofNat n) :
    c.isDecimal = true := by
  have hdigit {d : Nat} (hd : d < 10) : (Reference.digit d).isDecimal = true := by
    rw [CodePoint.isDecimal, digitValue?_digit d hd]
    rfl
  induction n using Nat.strongRecOn with
  | ind n ih =>
    rw [ofNat_eq_if] at h
    split at h
    . next hlt =>
      rw [List.mem_singleton.mp h]
      exact hdigit hlt
    . rcases List.mem_append.mp h with hmem | hmem
      . exact ih (n / 10) (by omega) hmem
      . rw [List.mem_singleton.mp hmem]
        exact hdigit (Nat.mod_lt n (by decide))

theorem all_isDecimal_ofNat (n : Nat) : (ofNat n).all CodePoint.isDecimal = true :=
  List.all_eq_true.mpr fun _ => isDecimal_of_mem_ofNat

theorem decimalValue_append_singleton (t : Text) (c : CodePoint) :
    decimalValue (t ++ [c]) = decimalValue t * 10 + c.digitValue?.getD 0 := by
  simp [decimalValue]

theorem decimalValue_ofNat (n : Nat) : decimalValue (ofNat n) = n := by
  induction n using Nat.strongRecOn with
  | ind n ih =>
    rw [ofNat_eq_if]
    split
    . next hlt =>
      rw [← List.nil_append [_], decimalValue_append_singleton, digitValue?_digit n hlt]
      simp [decimalValue]
    . have hmod : n % 10 < 10 := Nat.mod_lt n (by decide)
      rw [decimalValue_append_singleton, ih (n / 10) (by omega), digitValue?_digit _ hmod]
      simp only [Option.getD_some]
      omega

end Text

namespace Expression

theorem Literal.number_ofNat {n : Nat} (h : Number.fitsText n = true) :
    Literal.number (Text.ofNat n) = .int n := by
  rw [Number.fitsText, decide_eq_true_eq] at h
  have hlength := (Text.length_ofNat_le_iff (show 0 < Number.maxDigits by decide)).mpr h
  have hall : (Text.ofNat n).all CodePoint.isDecimal = true :=
    List.all_eq_true.mpr fun c hc => Text.isDecimal_of_mem_ofNat hc
  simp only [Literal.number, hall, if_true, hlength, Text.decimalValue_ofNat]

theorem isClosed_number (n : Nat) : Lexeme.IsClosed ⟨.number, Text.ofNat n⟩ :=
  Lexeme.isClosed_of_all_isDecimal (Text.ofNat_ne_nil n)
    (List.all_eq_true.mpr fun _ hc => Text.isDecimal_of_mem_ofNat hc)

def doubleQuote : CodePoint :=
  CodePoint.ofChar '\x22'

def isRaw (c : CodePoint) : Bool :=
  !c.is '\x22' && !c.is '\\' && !c.is '\n'

theorem closingLength?_append_of_isRaw {piece : Text} (h : ∀ c ∈ piece, isRaw c = true)
    (rest : Text) : closingLength? doubleQuote (piece ++ rest) =
      (closingLength? doubleQuote rest).map (· + piece.length) := by
  induction piece with
  | nil => simp
  | cons c piece ih =>
    obtain ⟨hc, hpiece⟩ := List.forall_mem_cons.mp h
    simp only [isRaw, Bool.and_eq_true, Bool.not_eq_true'] at hc
    obtain ⟨⟨hquote, hslash⟩, hline⟩ := hc
    have hne : c ≠ doubleQuote := by
      rintro rfl
      exact absurd hquote (by decide)
    rw [List.cons_append, closingLength?_cons hne hslash, hline, if_neg (by decide), ih hpiece,
      Option.map_map]
    rfl

theorem jsonEscape_cases (c : CodePoint) :
    Text.jsonEscape c = [c] ∧ isRaw c = true ∨
    (∃ d, Text.jsonEscape c = [CodePoint.ofChar '\\', d] ∧
      d.is 'u' = false ∧ d.is 'x' = false ∧ d.is '\r' = false ∧
        Literal.simpleEscape d = [c]) ∨
    ∃ digits : Text, Text.jsonEscape c = CodePoint.ofChar '\\' :: CodePoint.ofChar 'u' :: digits ∧
      digits.length = 4 ∧ digits.all Literal.isHex = true ∧ Literal.hexValue digits = c.val := by
  -- The control characters are few enough to look at each one's digits.
  have hcontrol : ∀ n < 32,
      (Text.concat ["00", if n < 16 then "0" else "", Text.hex n]).length = 4 ∧
      (Text.concat ["00", if n < 16 then "0" else "", Text.hex n]).all Literal.isHex = true ∧
      Literal.hexValue (Text.concat ["00", if n < 16 then "0" else "", Text.hex n]) = n := by
    decide
  generalize hescape : Text.jsonEscape c = piece
  unfold Text.jsonEscape at hescape
  split at hescape
  . next h =>
    rw [← hescape, CodePoint.eq_ofChar_of_is h]
    exact .inr (.inl ⟨CodePoint.ofChar '\x22', by decide⟩)
  split at hescape
  . next h =>
    rw [← hescape, CodePoint.eq_ofChar_of_is h]
    exact .inr (.inl ⟨CodePoint.ofChar '\\', by decide⟩)
  split at hescape
  . next h =>
    rw [← hescape, CodePoint.eq_ofChar_of_is h]
    exact .inr (.inl ⟨CodePoint.ofChar 'n', by decide⟩)
  split at hescape
  . next h =>
    rw [← hescape, CodePoint.eq_ofChar_of_is h]
    exact .inr (.inl ⟨CodePoint.ofChar 'r', by decide⟩)
  split at hescape
  . next h =>
    rw [← hescape, CodePoint.eq_ofChar_of_is h]
    exact .inr (.inl ⟨CodePoint.ofChar 't', by decide⟩)
  split at hescape
  . next h =>
    rw [← hescape, show c = 8 from Fin.ext h]
    exact .inr (.inl ⟨CodePoint.ofChar 'b', by decide⟩)
  split at hescape
  . next h =>
    rw [← hescape, show c = 12 from Fin.ext h]
    exact .inr (.inl ⟨CodePoint.ofChar 'f', by decide⟩)
  split at hescape
  . next h => exact .inr (.inr ⟨_, hescape.symm, hcontrol c.val h⟩)
  . next hquote hslash hline _ _ _ _ _ =>
    left
    exact ⟨hescape.symm, by simp [isRaw, hquote, hslash, hline]⟩

theorem isRaw_of_isHex {c : CodePoint} (h : Literal.isHex c = true) : isRaw c = true := by
  simp only [Literal.isHex, CodePoint.hexValue?] at h
  simp only [isRaw, CodePoint.is, Char.reduceToNat, Bool.and_eq_true, Bool.not_eq_true',
    beq_eq_false_iff_ne]
  split at h
  . next hdigit =>
    simp only [CodePoint.isAsciiDigit, CodePoint.isBetween, Char.reduceToNat, Bool.and_eq_true,
      decide_eq_true_eq] at hdigit
    omega
  . split at h
    . next hletter =>
      simp only [CodePoint.isBetween, Char.reduceToNat, Bool.and_eq_true,
        decide_eq_true_eq] at hletter
      omega
    . split at h
      . next hletter =>
        simp only [CodePoint.isBetween, Char.reduceToNat, Bool.and_eq_true,
          decide_eq_true_eq] at hletter
        omega
      . cases h

namespace Literal

theorem unescape_cons {c : CodePoint} (h : c.is '\\' = false) (rest : Text) :
    unescape (c :: rest) = (unescape rest).map (c :: ·) := by
  cases rest with
  | nil =>
    rw [unescape, unescape]
    rfl
  | cons d rest =>
    rw [unescape, if_neg (by simp [h])]
    cases unescape (d :: rest) <;> rfl

theorem unescape_escape {d : CodePoint} {rest piece : Text} {n : Nat}
    (h : escape d rest = .ok (piece, n)) :
    unescape (CodePoint.ofChar '\\' :: d :: rest) =
      (unescape (rest.drop n)).map (piece ++ ·) := by
  have hslash : (CodePoint.ofChar '\\').is '\\' = true := by decide
  rw [unescape, if_pos hslash, h]
  cases hrest : unescape (rest.drop n) with
  | ok t => simp [bind, Except.bind, hrest, pure, Except.pure, Except.map]
  | error fault => simp [bind, Except.bind, hrest, Except.map]

theorem escape_simple {d : CodePoint} (hu : d.is 'u' = false) (hx : d.is 'x' = false)
    (hreturn : d.is '\r' = false) (rest : Text) : escape d rest = .ok (simpleEscape d, 0) := by
  simp [escape, hu, hx, hreturn]

theorem escape_number {c : CodePoint} {digits : Text} (hlength : digits.length = 4)
    (hhex : digits.all isHex = true) (hvalue : hexValue digits = c.val) (rest : Text) :
    escape (CodePoint.ofChar 'u') (digits ++ rest) = .ok ([c], 4) := by
  have hbraced : bracedDigits? (digits ++ rest) = none := by
    obtain ⟨d, tail, rfl⟩ := List.exists_cons_of_ne_nil (List.ne_nil_of_length_eq_add_one hlength)
    have hbrace : d.is '\x7b' = false := by
      cases hbrace : d.is '\x7b' with
      | false => rfl
      | true =>
        rw [CodePoint.eq_ofChar_of_is hbrace] at hhex
        cases hhex
    simp only [List.cons_append, bracedDigits?, hbrace, Bool.false_and, Bool.false_eq_true,
      if_false]
    split <;> rfl
  have hfixed : fixedDigits? 4 (digits ++ rest) = some digits := by
    have htake : (digits ++ rest).take 4 = digits := by rw [← hlength, List.take_left]
    simp [fixedDigits?, htake, hlength, hhex]
  have hpoint : codePoint (hexValue digits) = .ok [c] := by
    simp [codePoint, hvalue]
  simp only [escape, hbraced, hfixed, hpoint]
  rfl

structure Spells (piece : Text) (c : CodePoint) : Prop where
  closing : ∀ rest, closingLength? doubleQuote (piece ++ rest) =
    (closingLength? doubleQuote rest).map (· + piece.length)
  unescape : ∀ rest, Literal.unescape (piece ++ rest) = (Literal.unescape rest).map (c :: ·)

namespace Spells

variable {c : CodePoint}

theorem raw (h : isRaw c = true) : Spells [c] c := by
  constructor
  . exact closingLength?_append_of_isRaw (by simpa using h)
  . simp only [isRaw, Bool.and_eq_true, Bool.not_eq_true'] at h
    exact unescape_cons h.1.2

theorem simple {d : CodePoint} (hu : d.is 'u' = false) (hx : d.is 'x' = false)
    (hreturn : d.is '\r' = false) (hsimple : simpleEscape d = [c]) :
    Spells [CodePoint.ofChar '\\', d] c := by
  have hslash : CodePoint.ofChar '\\' ≠ doubleQuote := by decide
  constructor
  . exact closingLength?_escape hslash rfl d
  . intro rest
    have hread := escape_simple hu hx hreturn rest
    rw [hsimple] at hread
    exact unescape_escape hread

theorem number {digits : Text} (hlength : digits.length = 4) (hhex : digits.all isHex = true)
    (hvalue : hexValue digits = c.val) :
    Spells (CodePoint.ofChar '\\' :: CodePoint.ofChar 'u' :: digits) c := by
  have hslash : CodePoint.ofChar '\\' ≠ doubleQuote := by decide
  constructor
  . intro rest
    rw [List.cons_append, List.cons_append, closingLength?_escape hslash rfl,
      closingLength?_append_of_isRaw fun c hc => isRaw_of_isHex (List.all_eq_true.mp hhex c hc),
      Option.map_map]
    rfl
  . intro rest
    rw [List.cons_append, List.cons_append,
      unescape_escape (escape_number hlength hhex hvalue rest), ← hlength, List.drop_left]
    rfl

theorem jsonEscape (c : CodePoint) : Spells (Text.jsonEscape c) c := by
  rcases jsonEscape_cases c with ⟨hescape, hraw⟩ | ⟨d, hescape, hu, hx, hreturn, hsimple⟩ |
    ⟨digits, hescape, hlength, hhex, hvalue⟩
  . rw [hescape]
    exact raw hraw
  . rw [hescape]
    exact simple hu hx hreturn hsimple
  . rw [hescape]
    exact number hlength hhex hvalue

end Spells

section Quoted

variable {α : Type} {piece : α → Text} {denoted : α → CodePoint}

theorem closingLength?_flatMap (h : ∀ a, Spells (piece a) (denoted a)) (as : List α)
    (rest : Text) : closingLength? doubleQuote (as.flatMap piece ++ rest) =
      (closingLength? doubleQuote rest).map (· + (as.flatMap piece).length) := by
  induction as with
  | nil => simp
  | cons a as ih =>
    rw [List.flatMap_cons, List.append_assoc, (h a).closing, ih, Option.map_map,
      List.length_append]
    congr 1
    funext n
    simp only [Function.comp_apply]
    omega

theorem isClosed_quoted (h : ∀ a, Spells (piece a) (denoted a)) (as : List α) :
    Lexeme.IsClosed ⟨.string, doubleQuote :: (as.flatMap piece ++ [doubleQuote])⟩ := by
  have hclosing : closingLength? doubleQuote (as.flatMap piece ++ [doubleQuote]) =
      some (1 + (as.flatMap piece).length) := by
    rw [closingLength?_flatMap h, closingLength?_quote]
    rfl
  have hquote : (doubleQuote.is '\x22' || doubleQuote.is '\x27') = true := by decide
  intro rest _
  apply Lexeme.fits_of_stringLength (List.cons_ne_nil _ _)
  simp only [stringLength, hquote, if_true, hclosing, List.length_cons, List.length_append,
    List.length_nil]
  omega

theorem string_quoted (h : ∀ a, Spells (piece a) (denoted a)) (as : List α) :
    string (doubleQuote :: (as.flatMap piece ++ [doubleQuote])) = .ok (as.map denoted) := by
  rw [string, List.drop_succ_cons, List.drop_zero, List.dropLast_concat]
  induction as with
  | nil => rw [List.flatMap_nil, unescape, List.map_nil]
  | cons a as ih =>
    rw [List.flatMap_cons, (h a).unescape, ih]
    rfl

end Quoted

theorem jsonQuote_eq (t : Text) :
    t.jsonQuote = doubleQuote :: (t.flatMap Text.jsonEscape ++ [doubleQuote]) := by
  simp only [Text.jsonQuote, Text.concat, List.flatten_cons, List.flatten_nil, List.append_nil]
  rfl

theorem string_jsonQuote (t : Text) : string t.jsonQuote = .ok t := by
  rw [jsonQuote_eq, string_quoted Spells.jsonEscape, List.map_id']

end Literal

theorem isClosed_jsonQuote (t : Text) : Lexeme.IsClosed ⟨.string, t.jsonQuote⟩ := by
  rw [Literal.jsonQuote_eq]
  exact Literal.isClosed_quoted Literal.Spells.jsonEscape t

end Expression

end PageBinding
