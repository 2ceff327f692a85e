import PageBinding.Proofs.Expression.Format
import PageBinding.Proofs.Expression.Refusal
import PageBinding.Proofs.Json

/-!
This module contains that JSON documents are expressions, and that they evaluate to the data that
they denote, as long as no two escapes are the halves of a pair.
-/

namespace PageBinding

namespace Text

theorem concat_pair (t u : Text) : concat [t, u] = t ++ u := by
  simp [concat]

theorem concat_triple (t u w : Text) : concat [t, u, w] = t ++ (u ++ w) := by
  simp [concat]

end Text

namespace Entries

theorem mem_of_mem_ofPairs {α : Type} {pairs : List (Text × α)} {entry : Text × α}
    (h : entry ∈ ofPairs pairs) : entry ∈ pairs := by
  rw [← Collection.entries_ofPairs_eq] at h
  exact Collection.mem_of_get?_ofPairs (Collection.mem_entries_iff.mp h)

end Entries

namespace Json

theorem isBlank_of_isSpace {c : CodePoint} (h : isSpace c = true) :
    Expression.isBlank c = true := by
  rw [isSpace] at h
  rw [Expression.isBlank, h, Bool.true_or]

theorem Gap.isBlank (g : Gap) : ∀ c ∈ g.text, Expression.isBlank c = true :=
  fun c hc => isBlank_of_isSpace (List.all_eq_true.mp g.blank c hc)

theorem escape_of_mem_shortEscapes {letter c : Char} (h : (letter, c) ∈ shortEscapes) :
    (CodePoint.ofChar letter).is 'u' = false ∧ (CodePoint.ofChar letter).is 'x' = false ∧
      (CodePoint.ofChar letter).is '\r' = false ∧
        Expression.Literal.simpleEscape (.ofChar letter) = [.ofChar c] := by
  simp only [shortEscapes, List.mem_cons, List.not_mem_nil, or_false, Prod.mk.injEq] at h
  rcases h with h | h | h | h | h | h | h | h
  all_goals
    rw [h.1, h.2]
    decide

theorem Symbol.spells (s : Symbol) : Expression.Literal.Spells s.text s.codePoint := by
  match s with
  | .plain c ⟨hspace, hquote, hslash⟩ =>
    apply Expression.Literal.Spells.raw
    have hline : c.is '\n' = false := by
      rw [CodePoint.is, beq_eq_false_iff_ne]
      have hten : '\n'.toNat = 10 := rfl
      omega
    rw [Expression.isRaw, hquote, hslash, hline]
    rfl
  | .short letter c h =>
    obtain ⟨hu, hx, hreturn, hsimple⟩ := escape_of_mem_shortEscapes h
    exact .simple hu hx hreturn hsimple
  | .numbered digits ⟨hlength, hhex⟩ =>
    apply Expression.Literal.Spells.number hlength hhex
    have hlt := Expression.Literal.hexValue_lt digits
    rw [hlength] at hlt
    have hpoint : Expression.Literal.hexValue digits < 0x110000 := by omega
    rw [Symbol.codePoint, CodePoint.ofNat, dif_pos hpoint]

theorem stringText_eq (symbols : List Symbol) : stringText symbols =
    Expression.doubleQuote :: (symbols.flatMap Symbol.text ++ [Expression.doubleQuote]) := by
  simp only [stringText, Text.concat, List.flatten_cons, List.flatten_nil, List.append_nil]
  rfl

end Json

namespace Expression

theorem isClosed_stringText (symbols : List Json.Symbol) :
    Lexeme.IsClosed ⟨.string, Json.stringText symbols⟩ := by
  rw [Json.stringText_eq]
  exact Literal.isClosed_quoted Json.Symbol.spells symbols

theorem string_stringText (symbols : List Json.Symbol) :
    Literal.string (Json.stringText symbols) = .ok (Json.separate symbols) := by
  rw [Json.stringText_eq]
  exact Literal.string_quoted Json.Symbol.spells symbols

theorem checkEntries_eq_ok_iff {entries : List (Text × Value)} :
    checkEntries entries = .ok () ↔ ∀ entry ∈ entries, checkData entry.2 = .ok () := by
  induction entries with
  | nil => simp [checkEntries]
  | cons entry rest ih =>
    rw [checkEntries, List.forall_mem_cons, ← ih]
    cases hfirst : checkData entry.2 with
    | error failure => simp [bind, Except.bind]
    | ok _ => simp [bind, Except.bind]

theorem Writes.gap {g : Json.Gap} {t : Text} {ws : List Lexeme} (h : Writes t ws) :
    Writes (t ++ g.text) ws := by
  have hgap : Writes g.text [] := fun rest us _ hlexes => .blanks g.isBlank hlexes
  have hhead := head_mem_stops (t := []) g.isBlank nofun
  rw [List.append_nil] at hhead
  simpa using h.append hgap hhead

theorem isClosed_closer {w : Lexeme} (h : w ∈ [.rightBracket, .rightBrace]) : w.IsClosed :=
  have hmarks : ∀ w ∈ [Lexeme.rightBracket, .rightBrace], w ∈ Lexeme.marks := by decide
  Lexeme.isClosed_of_mem_marks (hmarks w h)

theorem head_mem_stops_of_mem {w : Lexeme} (h : w ∈ [.rightBracket, .rightBrace, .comma, .colon])
    (rest : Text) : ∀ c ∈ (w.text ++ rest).head?, c ∈ stops := by
  have hhead {char : Char} (h : .ofChar char ∈ stops) :
      ∀ c ∈ (CodePoint.ofChar char :: rest).head?, c ∈ stops := by
    rintro _ ⟨⟩
    exact h
  simp only [List.mem_cons, List.not_mem_nil, or_false] at h
  rcases h with rfl | rfl | rfl | rfl
  . exact @hhead ']' (by decide)
  . exact @hhead '\x7d' (by decide)
  . exact @hhead ',' (by decide)
  . exact @hhead ':' (by decide)

/--
A text is that of an expression without identifiers, which evaluates to data. It may be one level
deeper than the data, since the minus sign of a number is an operator.
-/
def Yields (depth : Nat) (t : Text) (v : Value) : Prop :=
  ∃ e : Expr, Written (Denotes id 8) t e ∧ e.depth ≤ depth + 1 ∧ e.identifiers = [] ∧
    e.evaluate = .ok v ∧ checkData v = .ok ()

/--
A text is that of items which evaluate to data, up to the bracket that closes the array.
-/
def YieldsItems (depth : Nat) (t : Text) (vs : List Value) : Prop :=
  ∃ es : List Expr, Written (DenotesItems id) t es ∧ depthOfList es ≤ depth + 1 ∧
    identifiersOfList es = [] ∧ evaluateList es = .ok vs ∧ checkItems vs = .ok ()

def YieldsEntry (depth : Nat) (t : Text) (entry : Text × Value) : Prop :=
  ∃ e : Entry, Written (DenotesEntry id) t e ∧ depthOfEntry e ≤ depth + 1 ∧
    identifiersOfEntry e = [] ∧ evaluateEntry e = .ok entry ∧ checkData entry.2 = .ok ()

/--
A text is that of entries which evaluate to keys and data, up to the brace that closes the object.
-/
def YieldsEntries (depth : Nat) (t : Text) (entries : List (Text × Value)) : Prop :=
  ∃ es : List Entry, Written (DenotesEntries id) t es ∧ depthOfEntries es ≤ depth + 1 ∧
    identifiersOfEntries es = [] ∧ evaluateEntries es = .ok entries ∧ checkEntries entries = .ok ()

variable {depth low high : Nat} {t u : Text} {v : Value} {vs : List Value}
variable {member : Text × Value} {entries : List (Text × Value)}

namespace YieldsItems

theorem empty (gap : Json.Gap) : YieldsItems depth (Text.concat [gap.text, "]"]) [] := by
  have hwrites := Writes.blanks gap.isBlank (.token (@isClosed_closer .rightBracket (by decide)))
  refine ⟨[], ⟨_, ?_, .close⟩, Nat.zero_le _, rfl, rfl, rfl⟩
  rw [Text.concat_pair]
  exact hwrites

theorem last (h : Yields depth t v) : YieldsItems depth (Text.concat [t, "]"]) [v] := by
  obtain ⟨e, ⟨ws, hwrites, hdenotes⟩, hdepth, hids, hevaluate, hcheck⟩ := h
  have hall := hwrites.append (.token (@isClosed_closer .rightBracket (by decide)))
    (@head_mem_stops_of_mem .rightBracket (by decide) [])
  refine ⟨[e], ⟨_, ?_, .last (.weaken (Nat.zero_le 8) hdenotes)⟩, ?_, ?_, ?_, ?_⟩
  . rw [Text.concat_pair]
    exact hall
  . simpa [depthOfList] using hdepth
  . rw [identifiersOfList, hids]
    rfl
  . rw [evaluateList, hevaluate]
    rfl
  . rw [checkItems, hcheck]
    rfl

theorem more (h : Yields low t v) (hrest : YieldsItems high u vs) :
    YieldsItems (max low high) (Text.concat [t, ",", u]) (v :: vs) := by
  obtain ⟨e, ⟨ws, hwrites, hdenotes⟩, hdepth, hids, hevaluate, hcheck⟩ := h
  obtain ⟨es, ⟨us, hwrites', hdenotes'⟩, hdepth', hids', hevaluate', hcheck'⟩ := hrest
  have hcomma := hwrites'.cons (@Lexeme.fits_of_mem_punctuation .comma (by decide))
  have hall := hwrites.append hcomma (@head_mem_stops_of_mem .comma (by decide) u)
  refine ⟨e :: es, ⟨_, ?_, .more (.weaken (Nat.zero_le 8) hdenotes) hdenotes'⟩, ?_, ?_, ?_, ?_⟩
  . rw [Text.concat_triple]
    exact hall
  . rw [depthOfList]
    omega
  . rw [identifiersOfList, hids, hids']
    rfl
  . rw [evaluateList, hevaluate, hevaluate']
    rfl
  . rw [checkItems, hcheck]
    exact hcheck'

end YieldsItems

namespace YieldsEntries

theorem empty (gap : Json.Gap) : YieldsEntries depth (Text.concat [gap.text, "\x7d"]) [] := by
  have hwrites := Writes.blanks gap.isBlank (.token (@isClosed_closer .rightBrace (by decide)))
  refine ⟨[], ⟨_, ?_, .close⟩, Nat.zero_le _, rfl, rfl, rfl⟩
  rw [Text.concat_pair]
  exact hwrites

theorem last (h : YieldsEntry depth t member) :
    YieldsEntries depth (Text.concat [t, "\x7d"]) [member] := by
  obtain ⟨e, ⟨ws, hwrites, hdenotes⟩, hdepth, hids, hevaluate, hcheck⟩ := h
  have hall := hwrites.append (.token (@isClosed_closer .rightBrace (by decide)))
    (@head_mem_stops_of_mem .rightBrace (by decide) [])
  refine ⟨[e], ⟨_, ?_, .last hdenotes⟩, ?_, ?_, ?_, ?_⟩
  . rw [Text.concat_pair]
    exact hall
  . simpa [depthOfEntries] using hdepth
  . rw [identifiersOfEntries, hids]
    rfl
  . rw [evaluateEntries, hevaluate]
    rfl
  . rw [checkEntries, hcheck]
    rfl

theorem more (h : YieldsEntry low t member) (hrest : YieldsEntries high u entries) :
    YieldsEntries (max low high) (Text.concat [t, ",", u]) (member :: entries) := by
  obtain ⟨e, ⟨ws, hwrites, hdenotes⟩, hdepth, hids, hevaluate, hcheck⟩ := h
  obtain ⟨es, ⟨us, hwrites', hdenotes'⟩, hdepth', hids', hevaluate', hcheck'⟩ := hrest
  have hcomma := hwrites'.cons (@Lexeme.fits_of_mem_punctuation .comma (by decide))
  have hall := hwrites.append hcomma (@head_mem_stops_of_mem .comma (by decide) u)
  refine ⟨e :: es, ⟨_, ?_, .more hdenotes hdenotes'⟩, ?_, ?_, ?_, ?_⟩
  . rw [Text.concat_triple]
    exact hall
  . rw [depthOfEntries]
    omega
  . rw [identifiersOfEntries, hids, hids']
    rfl
  . rw [evaluateEntries, hevaluate, hevaluate']
    rfl
  . rw [checkEntries, hcheck]
    exact hcheck'

end YieldsEntries

namespace Yields

theorem spaced (before after : Json.Gap) (h : Yields depth t v) :
    Yields depth (Text.concat [before.text, t, after.text]) v := by
  obtain ⟨e, ⟨ws, hwrites, hdenotes⟩, h⟩ := h
  refine ⟨e, ⟨ws, ?_, hdenotes⟩, h⟩
  rw [Text.concat_triple]
  exact .blanks before.isBlank hwrites.gap

theorem null : Yields 1 "null" .null :=
  ⟨.literal .null, ⟨_, .token (Lexeme.isClosed_word .nullWord), .weaken (by decide) .null⟩,
    Nat.le_succ 1, rfl, rfl, rfl⟩

theorem bool (b : Bool) : Yields 1 (if b then "true" else "false") (.bool b) := by
  have hwrites := Writes.token (Lexeme.isClosed_bool b)
  refine ⟨.literal (.bool b), ⟨[.bool b], ?_, .weaken (by decide) (.bool b)⟩, Nat.le_succ 1, rfl,
    rfl, rfl⟩
  cases b with
  | true => exact hwrites
  | false => exact hwrites

theorem string (symbols : List Json.Symbol) :
    Yields 1 (Json.stringText symbols) (.text (Json.separate symbols)) :=
  ⟨.literal (.text _), ⟨_, .token (isClosed_stringText symbols),
    .weaken (by decide) (.string (string_stringText symbols))⟩, Nat.le_succ 1, rfl, rfl, rfl⟩

theorem number (negative : Bool) {magnitude : Nat} (h : Number.fitsText magnitude = true) :
    Yields 1 (Text.concat [if negative then "-" else "", Text.ofNat magnitude])
      (.number (.int (if negative then -magnitude else magnitude))) := by
  have hwrites := Writes.token (isClosed_number magnitude)
  have hnumber := Denotes.number (g := id) (Literal.number_ofNat h)
  simp only [Text.concat, List.flatten_cons, List.flatten_nil, List.append_nil]
  cases negative with
  | false =>
    refine ⟨_, ⟨_, hwrites, .weaken (by decide) hnumber⟩, Nat.le_succ 1, rfl, rfl, ?_⟩
    exact checkData_eq_ok (v := .number (.int magnitude)) h
  | true =>
    refine ⟨_, ⟨_, writes_minus hwrites, .unary .minus (.weaken (by decide) hnumber)⟩,
      Nat.le_refl 2, rfl, rfl, ?_⟩
    have hfits : Number.fitsText (-(magnitude : Int)).natAbs = true := by
      rwa [Int.natAbs_neg, Int.natAbs_natCast]
    exact checkData_eq_ok (v := .number (.int (-magnitude))) hfits

theorem array (h : YieldsItems depth t vs) :
    Yields (depth + 1) (Text.concat ["[", t]) (.list vs) := by
  obtain ⟨es, ⟨ws, hwrites, hdenotes⟩, hdepth, hids, hevaluate, hcheck⟩ := h
  have hopening := hwrites.cons (@Lexeme.fits_of_mem_punctuation .leftBracket (by decide))
  refine ⟨.array es, ⟨_, ?_, .weaken (by decide) (.array hdenotes)⟩, Nat.succ_le_succ hdepth, hids,
    ?_, hcheck⟩
  . rw [Text.concat_pair]
    exact hopening
  . rw [Expr.evaluate, hevaluate]
    rfl

theorem object (h : YieldsEntries depth t entries) :
    Yields (depth + 1) (Text.concat ["\x7b", t]) (.object (Entries.ofPairs entries)) := by
  obtain ⟨es, ⟨ws, hwrites, hdenotes⟩, hdepth, hids, hevaluate, hcheck⟩ := h
  have hopening := hwrites.cons (@Lexeme.fits_of_mem_punctuation .leftBrace (by decide))
  refine ⟨.object es, ⟨_, ?_, .weaken (by decide) (.object hdenotes)⟩, Nat.succ_le_succ hdepth,
    hids, ?_, ?_⟩
  . rw [Text.concat_pair]
    exact hopening
  . rw [Expr.evaluate, hevaluate]
    rfl
  . -- An entry whose key comes again is not among those that are left.
    rw [checkEntries_eq_ok_iff] at hcheck
    exact checkEntries_eq_ok_iff.mpr fun entry hentry =>
      hcheck entry (Entries.mem_of_mem_ofPairs hentry)

theorem entry (before : Json.Gap) (key : List Json.Symbol) (after : Json.Gap)
    (h : Yields depth t v) :
    YieldsEntry depth (Json.memberText before key after t) (Json.separate key, v) := by
  obtain ⟨e, ⟨ws, hwrites, hdenotes⟩, hdepth, hids, hevaluate, hcheck⟩ := h
  have hkey := (Writes.token (isClosed_stringText key)).gap (g := after)
  have hcolon := hwrites.cons (@Lexeme.fits_of_mem_punctuation .colon (by decide))
  have hall := hkey.append hcolon (@head_mem_stops_of_mem .colon (by decide) t)
  refine ⟨.named (Json.separate key) e, ⟨_, ?_, .keyed (isKey_string (string_stringText key))
    (.weaken (Nat.zero_le 8) hdenotes)⟩, hdepth, hids, ?_, hcheck⟩
  . have htext : Json.memberText before key after t =
        before.text ++ (Json.stringText key ++ after.text ++ ((":" : Text) ++ t)) := by
      simp [Json.memberText, Text.concat]
    rw [htext]
    exact .blanks before.isBlank hall
  . rw [evaluateEntry, hevaluate]
    rfl

theorem evaluate [Limits] (h : Yields depth t v) (hdepth : depth < Limits.maxDepth) :
    Expression.evaluate t = .ok v := by
  obtain ⟨e, ⟨ws, hwrites, hdenotes⟩, hle, hids, hevaluate, hcheck⟩ := h
  obtain ⟨e', hparse, heq⟩ :=
    (hdenotes.weaken (Nat.zero_le 8)).parse hwrites.lexes (Nat.le_trans hle hdepth)
  rw [Expr.mapIdentifiers_id, Expr.mapIdentifiers_id] at heq
  subst heq
  rw [Expression.evaluate, isBlank_eq_false_of_parse hparse, hparse]
  simp only [bind, Except.bind, Bool.false_eq_true, if_false, hids, hevaluate, hcheck]
  rfl

end Yields

mutual

theorem yields_element (e : Json.Element) : Yields e.depth e.text (e.data Json.separate) := by
  match e with
  | .mk before content after => exact (yields_content content).spaced before after

theorem yields_content (content : Json.Content) :
    Yields content.depth content.text (content.data Json.separate) := by
  match content with
  | .null => exact .null
  | .bool b => exact .bool b
  | .number negative magnitude h => exact .number negative h
  | .string symbols => exact .string symbols
  | .emptyArray gap =>
    rw [Json.Content.text, Text.concat_triple, ← Text.concat_pair gap.text, ← Text.concat_pair]
    exact .array (.empty gap)
  | .array items => exact .array (yields_items items)
  | .emptyObject gap =>
    rw [Json.Content.text, Text.concat_triple, ← Text.concat_pair gap.text, ← Text.concat_pair]
    exact .object (.empty gap)
  | .object members => exact .object (yields_members members)

theorem yields_items (items : Json.Items) :
    YieldsItems items.depth items.text (items.data Json.separate) := by
  match items with
  | .last item => exact .last (yields_element item)
  | .more item rest => exact .more (yields_element item) (yields_items rest)

theorem yields_members (members : Json.Members) :
    YieldsEntries members.depth members.text (members.data Json.separate) := by
  match members with
  | .last before key after value => exact .last ((yields_element value).entry before key after)
  | .more before key after value rest =>
    exact .more ((yields_element value).entry before key after) (yields_members rest)

end

/--
A document evaluates to the data that it denotes, but for pairs of escapes that denote a single
character: each of the two denotes a code point of its own.
-/
theorem evaluate_document [Limits] (document : Json.Element)
    (hdepth : document.depth < Limits.maxDepth) :
    evaluate document.text = .ok (document.data Json.separate) ∧
      ((∀ symbols ∈ document.strings, symbols.IsChain fun s s' => s.pair? s' = none) →
        evaluate document.text = .ok (document.data Json.joined)) := by
  have hseparate := (yields_element document).evaluate hdepth
  refine ⟨hseparate, fun hstrings => ?_⟩
  have hdata : document.data Json.joined = document.data Json.separate :=
    document.data_congr fun symbols hmem => Json.joined_eq_separate_iff.mpr (hstrings symbols hmem)
  rw [hseparate, hdata]

/--
An object with a key that comes twice, written once with escapes and once without.
-/
def sampleDocument : Json.Element :=
  let key : List Json.Symbol :=
    [.plain (CodePoint.ofChar 'a') (by decide), .short '/' '/' (by decide),
      .numbered "00E9" (by decide)]
  let key' : List Json.Symbol :=
    [.numbered "0061" (by decide), .plain (CodePoint.ofChar '/') (by decide),
      .plain (CodePoint.ofChar 'é') (by decide)]
  let items : Json.Items :=
    .more (.mk .empty (.number true 1 (by decide +kernel)) .empty)
      (.last (.mk ⟨" ", by decide⟩ (.bool true) .empty))
  .mk ⟨"\t", by decide⟩
    (.object (.more .empty key .empty (.mk ⟨" ", by decide⟩ .null ⟨"\n", by decide⟩)
      (.last .empty key' .empty (.mk .empty (.array items) .empty)))) .empty

theorem evaluate_sampleDocument :
    sampleDocument.text = "\t\x7b\"a\\/\\u00E9\": null\n,\"\\u0061/é\":[-1, true]\x7d" ∧
      evaluate sampleDocument.text =
        .ok (.object [("a/é", .list [.number (.int (-1)), .bool true])]) := by
  have hdepth : sampleDocument.depth < Limits.maxDepth := by decide
  have hstrings : ∀ symbols ∈ sampleDocument.strings,
      symbols.IsChain fun s s' => s.pair? s' = none := by decide
  exact ⟨by decide, (evaluate_document sampleDocument hdepth).2 hstrings⟩

/--
The two escapes of a character beyond U+FFFF.
-/
def pairedDocument : Json.Element :=
  .mk .empty (.string [.numbered "d83d" (by decide), .numbered "de00" (by decide)]) .empty

theorem not_forall_evaluate_document :
    ¬ ∀ document : Json.Element, document.depth < Limits.maxDepth →
      evaluate document.text = .ok (document.data Json.joined) := by
  intro h
  have hjoined := h pairedDocument (by decide)
  rw [(yields_element pairedDocument).evaluate (by decide)] at hjoined
  have htexts : Json.separate [.numbered "d83d" (by decide), .numbered "de00" (by decide)] =
      Json.joined [.numbered "d83d" (by decide), .numbered "de00" (by decide)] :=
    Value.text.inj (Except.ok.inj hjoined)
  exact absurd htexts (by decide)

end Expression

end PageBinding
