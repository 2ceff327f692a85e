import Mathlib
import PageBinding.Expression.Evaluate
import PageBinding.Proofs.Collection
import PageBinding.Proofs.Expression.Denotation

/-!
This module contains that the text of a piece of data evaluates to that data. As an expression, a
negative number is a minus sign in front of a literal; lists and objects are spread over lines.
-/

namespace PageBinding

namespace Value

mutual

/--
Data that its text says all about: there are no floating point numbers in it, its integers have a
text, and the keys of an object are distinct.
-/
def IsExact (v : Value) : Prop :=
  match v with
  | .null | .bool _ | .text _ => True
  | .number (.int i) => Number.fitsText i.natAbs = true
  | .number (.float _) => False
  | .list items => AreExact items
  | .object entries => (Entries.keys entries).Nodup ∧ EntriesExact entries

def AreExact (items : List Value) : Prop :=
  match items with
  | [] => True
  | v :: rest => v.IsExact ∧ AreExact rest

def EntriesExact (entries : List (Text × Value)) : Prop :=
  match entries with
  | [] => True
  | (_, v) :: rest => v.IsExact ∧ EntriesExact rest

end

mutual

/--
The number of pieces of data that stand inside of one another. A number stands inside of its minus
sign.
-/
def depth (v : Value) : Nat :=
  match v with
  | .null | .bool _ | .text _ | .number (.float _) => 1
  | .number (.int i) => if i < 0 then 2 else 1
  | .list items => depthOfItems items + 1
  | .object entries => depthOfEntries entries + 1

def depthOfItems (items : List Value) : Nat :=
  match items with
  | [] => 0
  | v :: rest => max v.depth (depthOfItems rest)

def depthOfEntries (entries : List (Text × Value)) : Nat :=
  match entries with
  | [] => 0
  | (_, v) :: rest => max v.depth (depthOfEntries rest)

end

def exprOfInt (i : Int) : Expression.Expr :=
  if i < 0 then .unary .minus (.literal (.number (.int i.natAbs)))
  else .literal (.number (.int i.natAbs))

mutual

def expr (v : Value) : Expression.Expr :=
  match v with
  | .null => .literal .null
  | .bool b => .literal (.bool b)
  | .number (.int i) => exprOfInt i
  | .number (.float x) => .literal (.number (.float x))
  | .text t => .literal (.text t)
  | .list items => .array (exprsOfItems items)
  | .object entries => .object (exprsOfEntries entries)

def exprsOfItems (items : List Value) : List Expression.Expr :=
  match items with
  | [] => []
  | v :: rest => v.expr :: exprsOfItems rest

def exprsOfEntries (entries : List (Text × Value)) : List Expression.Entry :=
  match entries with
  | [] => []
  | (key, v) :: rest => .named key v.expr :: exprsOfEntries rest

end

theorem depth_exprOfInt (i : Int) : (exprOfInt i).depth = if i < 0 then 2 else 1 := by
  unfold exprOfInt
  split
  . rfl
  . rfl

mutual

theorem depth_expr (v : Value) : v.expr.depth = v.depth := by
  match v with
  | .null | .bool _ | .text _ | .number (.float _) => rfl
  | .number (.int i) => exact depth_exprOfInt i
  | .list items => simp only [expr, Expression.Expr.depth, depth, depth_exprsOfItems items]
  | .object entries => simp only [expr, Expression.Expr.depth, depth, depth_exprsOfEntries entries]

theorem depth_exprsOfItems (items : List Value) :
    Expression.depthOfList (exprsOfItems items) = depthOfItems items := by
  match items with
  | [] => rfl
  | v :: rest =>
    simp only [exprsOfItems, Expression.depthOfList, depthOfItems, depth_expr v,
      depth_exprsOfItems rest]

theorem depth_exprsOfEntries (entries : List (Text × Value)) :
    Expression.depthOfEntries (exprsOfEntries entries) = depthOfEntries entries := by
  match entries with
  | [] => rfl
  | (_, v) :: rest =>
    simp only [exprsOfEntries, Expression.depthOfEntries, Expression.depthOfEntry, depthOfEntries,
      depth_expr v, depth_exprsOfEntries rest]

end

mutual

theorem identifiers_expr (v : Value) : v.expr.identifiers = [] := by
  match v with
  | .null | .bool _ | .text _ | .number (.float _) => rfl
  | .number (.int i) =>
    simp only [expr, exprOfInt]
    split
    . rfl
    . rfl
  | .list items => exact identifiers_exprsOfItems items
  | .object entries => exact identifiers_exprsOfEntries entries

theorem identifiers_exprsOfItems (items : List Value) :
    Expression.identifiersOfList (exprsOfItems items) = [] := by
  match items with
  | [] => rfl
  | v :: rest =>
    rw [exprsOfItems, Expression.identifiersOfList, identifiers_expr v,
      identifiers_exprsOfItems rest, List.append_nil]

theorem identifiers_exprsOfEntries (entries : List (Text × Value)) :
    Expression.identifiersOfEntries (exprsOfEntries entries) = [] := by
  match entries with
  | [] => rfl
  | (_, v) :: rest =>
    rw [exprsOfEntries, Expression.identifiersOfEntries, Expression.identifiersOfEntry,
      identifiers_expr v, identifiers_exprsOfEntries rest, List.append_nil]

end

end Value

namespace Expression

theorem evaluate_exprOfInt (i : Int) :
    (Value.exprOfInt i).evaluate = .ok (.number (.int i)) := by
  rw [Value.exprOfInt]
  split
  . -- The minus sign is applied to what is left of the number.
    have hneg : -(i.natAbs : Int) = i := by omega
    rw [Expr.evaluate]
    simp only [Expr.evaluate, bind, Except.bind, applyUnary, Number.neg, hneg]
  . have hself : (i.natAbs : Int) = i := by omega
    rw [Expr.evaluate, hself]

mutual

theorem evaluate_expr {v : Value} (h : v.IsExact) : v.expr.evaluate = .ok v := by
  match v with
  | .null | .bool _ | .text _ | .number (.float _) => rfl
  | .number (.int i) => exact evaluate_exprOfInt i
  | .list items =>
    rw [Value.expr, Expr.evaluate, evaluate_exprsOfItems (show Value.AreExact items from h)]
    rfl
  | .object entries =>
    obtain ⟨hnodup, hentries⟩ : (Entries.keys entries).Nodup ∧ Value.EntriesExact entries := h
    rw [Value.expr, Expr.evaluate, evaluate_exprsOfEntries hentries]
    simp only [bind, Except.bind, pure, Except.pure, Entries.ofPairs_eq_self hnodup]

theorem evaluate_exprsOfItems {items : List Value} (h : Value.AreExact items) :
    evaluateList (Value.exprsOfItems items) = .ok items := by
  match items with
  | [] => rfl
  | v :: rest =>
    rw [Value.exprsOfItems, evaluateList, evaluate_expr h.1, evaluate_exprsOfItems h.2]
    rfl

theorem evaluate_exprsOfEntries {entries : List (Text × Value)} (h : Value.EntriesExact entries) :
    evaluateEntries (Value.exprsOfEntries entries) = .ok entries := by
  match entries with
  | [] => rfl
  | (key, v) :: rest =>
    rw [Value.exprsOfEntries, evaluateEntries, evaluateEntry, evaluate_expr h.1,
      evaluate_exprsOfEntries h.2]
    rfl

end

mutual

theorem checkData_eq_ok {v : Value} (h : v.IsExact) : checkData v = .ok () := by
  match v with
  | .null | .bool _ | .text _ => rfl
  | .number (.int i) =>
    have hfits : Number.fitsText i.natAbs = true := h
    rw [checkData, if_pos hfits]
  | .number (.float _) => exact h.elim
  | .list items => exact checkItems_eq_ok (show Value.AreExact items from h)
  | .object entries => exact checkEntries_eq_ok h.2

theorem checkItems_eq_ok {items : List Value} (h : Value.AreExact items) :
    checkItems items = .ok () := by
  match items with
  | [] => rfl
  | v :: rest =>
    rw [checkItems, checkData_eq_ok h.1]
    exact checkItems_eq_ok h.2

theorem checkEntries_eq_ok {entries : List (Text × Value)} (h : Value.EntriesExact entries) :
    checkEntries entries = .ok () := by
  match entries with
  | [] => rfl
  | (_, v) :: rest =>
    rw [checkEntries, checkData_eq_ok h.1]
    exact checkEntries_eq_ok h.2

end

/--
A text is made of tokens wherever a stop or the end follows it.
-/
def Writes (t : Text) (ws : List Lexeme) : Prop :=
  ∀ rest us, (∀ c ∈ rest.head?, c ∈ stops) → Lexes rest us → Lexes (t ++ rest) (ws ++ us)

namespace Writes

variable {t u g : Text} {us vs ws : List Lexeme}

theorem token {w : Lexeme} (h : w.IsClosed) : Writes w.text [w] := by
  intro rest us hrest hlexes
  exact .token (h rest hrest) hlexes

theorem append (ht : Writes t us) (hu : Writes u vs) (hhead : ∀ c ∈ u.head?, c ∈ stops) :
    Writes (t ++ u) (us ++ vs) := by
  intro rest ws hrest hlexes
  have hnext : ∀ c ∈ (u ++ rest).head?, c ∈ stops := by
    cases u with
    | nil => exact hrest
    | cons c u => exact hhead
  rw [List.append_assoc, List.append_assoc]
  exact ht _ _ hnext (hu _ _ hrest hlexes)

theorem cons {w : Lexeme} (hw : ∀ rest, w.Fits rest) (h : Writes t ws) :
    Writes (w.text ++ t) (w :: ws) := by
  intro rest us hrest hlexes
  rw [List.append_assoc, List.cons_append]
  exact .token (hw _) (h _ _ hrest hlexes)

theorem blanks (hall : ∀ c ∈ g, isBlank c = true) (h : Writes t ws) : Writes (g ++ t) ws := by
  intro rest us hrest hlexes
  rw [List.append_assoc]
  exact .blanks hall (h _ _ hrest hlexes)

theorem lexes (h : Writes t ws) : Lexes t ws := by
  have hlexes := h [] [] nofun .nil
  rwa [List.append_nil, List.append_nil] at hlexes

end Writes

theorem fits_minus (rest : Text) : (Lexeme.unary .minus).Fits rest := by
  constructor
  . exact List.cons_ne_nil _ _
  . exact opensGap_cons (by decide) (by decide) rest
  . rfl
  . exact nofun
  . exact nofun

theorem writes_minus {t : Text} {ws : List Lexeme} (h : Writes t ws) :
    Writes (("-" : Text) ++ t) (.unary .minus :: ws) :=
  Writes.cons fits_minus h

def Written {α : Type} (P : α → List Lexeme → Prop) (t : Text) (a : α) : Prop :=
  ∃ ws, Writes t ws ∧ P a ws

theorem exists_spacing (level : Nat) : ∃ inner outer : Text,
    Value.Spacing.at? (some level) = ⟨inner, ("," : Text) ++ inner, outer⟩ ∧
      (∀ c ∈ inner, isBlank c = true) ∧ inner ≠ [] ∧ ∀ c ∈ outer, isBlank c = true := by
  let outer : Text := CodePoint.ofChar '\n' :: List.replicate (2 * level) (CodePoint.ofChar ' ')
  have houter : ∀ c ∈ outer, isBlank c = true := by
    intro c hc
    rcases List.mem_cons.mp hc with rfl | hmem
    . decide
    . rw [List.eq_of_mem_replicate hmem]
      decide
  refine ⟨outer ++ ("  " : Text), outer, ?_, ?_, ?_, houter⟩
  . simp only [Value.Spacing.at?, Text.concat, List.flatten_cons, List.flatten_nil,
      List.append_nil, outer]
  . intro c hc
    rcases List.mem_append.mp hc with hmem | hmem
    . exact houter c hmem
    . exact List.all_eq_true.mp (show ("  " : Text).all isBlank = true by decide) c hmem
  . exact List.cons_ne_nil _ _

theorem head_mem_stops {g t : Text} (hall : ∀ c ∈ g, isBlank c = true)
    (ht : g = [] → ∀ c ∈ t.head?, c ∈ stops) : ∀ c ∈ (g ++ t).head?, c ∈ stops := by
  cases g with
  | nil => exact ht rfl
  | cons c g =>
    rintro _ ⟨⟩
    exact mem_stops_of_isBlank (hall c List.mem_cons_self)

section Bracket

variable {α : Type} {P : α → List Lexeme → Prop} {Q : List α → List Lexeme → Prop}
variable {left right : Lexeme} {as : List α} {parts : List Text}

theorem written_join (hlast : ∀ a ws, P a ws → Q [a] (ws ++ [right]))
    (hmore : ∀ a as us vs, P a us → Q as vs → Q (a :: as) (us ++ .comma :: vs))
    {inner closing : Text} (hinner : ∀ c ∈ inner, isBlank c = true) (hne : inner ≠ [])
    (hclosing : Writes closing [right]) (hhead : ∀ c ∈ closing.head?, c ∈ stops)
    (hparts : List.Forall₂ (Written P) parts as) (has : as ≠ []) :
    Written Q (Text.join (("," : Text) ++ inner) parts ++ closing) as := by
  -- What is left behind a comma is written in the same way, up to the closing bracket.
  induction hparts with
  | nil => exact absurd rfl has
  | @cons part a parts as hpart hparts ih =>
    obtain ⟨us, hwrites, hpart⟩ := hpart
    by_cases hnil : as = []
    . subst hnil
      cases hparts
      rw [Text.join, List.intercalate_singleton]
      exact ⟨us ++ [right], hwrites.append hclosing hhead, hlast a us hpart⟩
    . obtain ⟨vs, hrest, hparts'⟩ := ih hnil
      have hparts_ne : parts ≠ [] := by
        rintro rfl
        cases hparts
        exact hnil rfl
      have hcomma : Writes ("," : Text) [.comma] :=
        .token (@Lexeme.isClosed_of_mem_marks .comma (by decide))
      have hblank : ∀ c ∈ (inner ++ (Text.join (("," : Text) ++ inner) parts ++ closing)).head?,
          c ∈ stops :=
        head_mem_stops hinner fun hnil => absurd hnil hne
      have htail := hcomma.append (hrest.blanks hinner) hblank
      have hstop : CodePoint.ofChar ',' ∈ stops := by decide
      refine ⟨us ++ .comma :: vs, ?_, hmore a as us vs hpart hparts'⟩
      have hall := hwrites.append htail (by rintro _ ⟨⟩; exact hstop)
      have hjoin : Text.join (("," : Text) ++ inner) (part :: parts) =
          part ++ (("," : Text) ++ inner) ++ Text.join (("," : Text) ++ inner) parts :=
        List.intercalate_cons_of_ne_nil hparts_ne
      rw [hjoin]
      simpa only [List.append_assoc, List.singleton_append] using hall

theorem written_bracket (hleft : left.IsClosed) (hright : right.IsClosed)
    (hstop : ∀ c ∈ right.text.head?, c ∈ stops) (hnil : Q [] [right])
    (hlast : ∀ a ws, P a ws → Q [a] (ws ++ [right]))
    (hmore : ∀ a as us vs, P a us → Q as vs → Q (a :: as) (us ++ .comma :: vs)) (level : Nat)
    (hparts : List.Forall₂ (Written P) parts as) :
    ∃ ws, Writes (Value.bracket (some level) left.text right.text parts) (left :: ws) ∧
      Q as ws := by
  cases hparts with
  | nil =>
    have hwrites := (Writes.token hleft).append (.token hright) hstop
    refine ⟨[right], ?_, hnil⟩
    simpa [Value.bracket, Text.concat] using hwrites
  | @cons part a parts as hpart hparts =>
    obtain ⟨inner, outer, hspacing, hinner, hne, houter⟩ := exists_spacing level
    have hclosing : Writes (outer ++ right.text) [right] := .blanks houter (.token hright)
    obtain ⟨ws, hwrites, hall⟩ := written_join hlast hmore hinner hne hclosing
      (head_mem_stops houter fun _ => hstop) (.cons hpart hparts) (List.cons_ne_nil _ _)
    have hopening := (Writes.token hleft).append (hwrites.blanks hinner)
      (head_mem_stops hinner fun hnil => absurd hnil hne)
    refine ⟨ws, ?_, hall⟩
    simpa [Value.bracket, Text.concat, hspacing] using hopening

end Bracket

theorem written_int {i : Int} (h : Number.fitsText i.natAbs = true) :
    ∃ t, (Number.int i).dataText? = some t ∧ Written (Denotes id 8) t (Value.exprOfInt i) := by
  have hnumber := Denotes.number (g := id) (Literal.number_ofNat h)
  have hwrites := Writes.token (isClosed_number i.natAbs)
  refine ⟨Text.ofInt i, by rw [Number.dataText?, if_pos h], ?_⟩
  unfold Text.ofInt Value.exprOfInt
  split
  . refine ⟨_, ?_, .unary .minus (.weaken (by decide) hnumber)⟩
    simpa only [Text.concat, List.flatten_cons, List.flatten_nil, List.append_nil] using
      writes_minus hwrites
  . exact ⟨_, hwrites, .weaken (by decide) hnumber⟩

theorem written_entry {key t : Text} {e : Expr} (h : Written (Denotes id 8) t e) :
    Written (DenotesEntry id) (Text.concat [key.jsonQuote, ": ", t]) (.named key e) := by
  obtain ⟨ws, hwrites, hdenotes⟩ := h
  have hkey := Writes.token (isClosed_jsonQuote key)
  have hcolon : Writes (":" : Text) [.colon] :=
    .token (@Lexeme.isClosed_of_mem_marks .colon (by decide))
  have hspace : ∀ c ∈ (" " : Text), isBlank c = true :=
    List.all_eq_true.mp (show (" " : Text).all isBlank = true by decide)
  have hstop : CodePoint.ofChar ':' ∈ stops := by decide
  have htail := hcolon.append (hwrites.blanks hspace) (head_mem_stops hspace nofun)
  have hall := hkey.append htail (by rintro _ ⟨⟩; exact hstop)
  refine ⟨_, ?_, .keyed (isKey_jsonQuote key) (.weaken (Nat.zero_le 8) hdenotes)⟩
  have hsplit : (": " : Text) = (":" : Text) ++ (" " : Text) := rfl
  simpa [Text.concat, hsplit] using hall

theorem written_bool (b : Bool) :
    Written (Denotes id 8) (if b then "true" else "false") (.literal (.bool b)) := by
  have hwrites := Writes.token (Lexeme.isClosed_bool b)
  refine ⟨[.bool b], ?_, .weaken (by decide) (.bool b)⟩
  cases b with
  | true => exact hwrites
  | false => exact hwrites

theorem written_list (level : Nat) {parts : List Text} {es : List Expr}
    (hparts : List.Forall₂ (Written (Denotes id 0)) parts es) :
    Written (Denotes id 8) (Value.bracket (some level) "[" "]" parts) (.array es) := by
  have hleft : Lexeme.IsClosed .leftBracket := Lexeme.isClosed_of_mem_marks (by decide)
  have hright : Lexeme.IsClosed .rightBracket := Lexeme.isClosed_of_mem_marks (by decide)
  have hstop : CodePoint.ofChar ']' ∈ stops := by decide
  obtain ⟨ws, hwrites, hdenotes⟩ := written_bracket hleft hright
    (by rintro _ ⟨⟩; exact hstop) DenotesItems.close (fun _ _ => DenotesItems.last)
    (fun _ _ _ _ => DenotesItems.more) level hparts
  exact ⟨_, hwrites, .weaken (by decide) (.array hdenotes)⟩

theorem written_object (level : Nat) {parts : List Text} {es : List Entry}
    (hparts : List.Forall₂ (Written (DenotesEntry id)) parts es) :
    Written (Denotes id 8) (Value.bracket (some level) "\x7b" "\x7d" parts) (.object es) := by
  have hleft : Lexeme.IsClosed .leftBrace := Lexeme.isClosed_of_mem_marks (by decide)
  have hright : Lexeme.IsClosed .rightBrace := Lexeme.isClosed_of_mem_marks (by decide)
  have hstop : CodePoint.ofChar '\x7d' ∈ stops := by decide
  obtain ⟨ws, hwrites, hdenotes⟩ := written_bracket hleft hright
    (by rintro _ ⟨⟩; exact hstop) DenotesEntries.close (fun _ _ => DenotesEntries.last)
    (fun _ _ _ _ => DenotesEntries.more) level hparts
  exact ⟨_, hwrites, .weaken (by decide) (.object hdenotes)⟩

mutual

theorem written_json {v : Value} (h : v.IsExact) (level : Nat) :
    ∃ t, v.json? (some level) = some t ∧ Written (Denotes id 8) t v.expr := by
  match v with
  | .null => exact ⟨_, rfl, _, .token (Lexeme.isClosed_word .nullWord), .weaken (by decide) .null⟩
  | .bool b => exact ⟨_, rfl, written_bool b⟩
  | .text t =>
    exact ⟨_, rfl, _, .token (isClosed_jsonQuote t),
      .weaken (by decide) (.string (Literal.string_jsonQuote t))⟩
  | .number (.int i) =>
    have hfits : Number.fitsText i.natAbs = true := h
    rw [Value.json?, Value.expr]
    exact written_int hfits
  | .number (.float _) => exact h.elim
  | .list items =>
    obtain ⟨parts, hjson, hparts⟩ :=
      written_jsonItems (show Value.AreExact items from h) (level + 1)
    refine ⟨_, ?_, written_list level hparts⟩
    rw [Value.json?, Option.map_some, hjson]
    rfl
  | .object entries =>
    obtain ⟨parts, hjson, hparts⟩ := written_jsonEntries h.2 (level + 1)
    refine ⟨_, ?_, written_object level hparts⟩
    rw [Value.json?, Option.map_some, hjson]
    rfl

theorem written_jsonItems {items : List Value} (h : Value.AreExact items) (level : Nat) :
    ∃ parts, Value.jsonItems? (some level) items = some parts ∧
      List.Forall₂ (Written (Denotes id 0)) parts (Value.exprsOfItems items) := by
  match items with
  | [] => exact ⟨_, rfl, .nil⟩
  | v :: rest =>
    obtain ⟨t, hjson, ws, hwrites, hdenotes⟩ := written_json h.1 level
    obtain ⟨parts, hrest, hparts⟩ := written_jsonItems h.2 level
    refine ⟨t :: parts, ?_, .cons ⟨ws, hwrites, .weaken (Nat.zero_le 8) hdenotes⟩ hparts⟩
    rw [Value.jsonItems?, hjson, hrest]
    rfl

theorem written_jsonEntries {entries : List (Text × Value)} (h : Value.EntriesExact entries)
    (level : Nat) :
    ∃ parts, Value.jsonEntries? (some level) entries = some parts ∧
      List.Forall₂ (Written (DenotesEntry id)) parts (Value.exprsOfEntries entries) := by
  match entries with
  | [] => exact ⟨_, rfl, .nil⟩
  | (key, v) :: rest =>
    obtain ⟨t, hjson, hwritten⟩ := written_json h.1 level
    obtain ⟨parts, hrest, hparts⟩ := written_jsonEntries h.2 level
    refine ⟨_ :: parts, ?_, .cons (written_entry hwritten) hparts⟩
    rw [Value.jsonEntries?, hjson, hrest]
    rfl

end

/--
Data without floating point numbers has a text, and the text evaluates to that data.
-/
theorem evaluate_format [Limits] {v : Value} (h : v.IsExact) (hdepth : v.depth ≤ Limits.maxDepth) :
    ∃ t, format v = .ok t ∧ evaluate t = .ok v := by
  obtain ⟨t, hjson, ws, hwrites, hdenotes⟩ := written_json h 0
  have hfits : v.expr.depth ≤ Limits.maxDepth := by rwa [Value.depth_expr]
  obtain ⟨e, hparse, heq⟩ := (hdenotes.weaken (Nat.zero_le 8)).parse hwrites.lexes hfits
  rw [Expr.mapIdentifiers_id, Expr.mapIdentifiers_id] at heq
  subst heq
  refine ⟨t, by rw [format, hjson], ?_⟩
  rw [evaluate, isBlank_eq_false_of_parse hparse, hparse]
  simp only [bind, Except.bind, Bool.false_eq_true, if_false, Value.identifiers_expr,
    evaluate_expr h, checkData_eq_ok h]
  rfl

/--
An object with a list under an empty key, and with a text that cannot be encoded and holds what must
be escaped.
-/
def sampleValue : Value :=
  .object [("", .list [.number (.int (-1)), .bool true, .null]),
    ("a\n", .text [.ofNat 0xd800, CodePoint.ofChar '\x22', CodePoint.ofChar '\\', .ofNat 0x2028])]

theorem evaluate_format_sampleValue :
    sampleValue.IsExact ∧ sampleValue.depth ≤ Limits.maxDepth ∧
      ∃ t, format sampleValue = .ok t ∧ evaluate t = .ok sampleValue := by
  have hnodup : (Entries.keys [(("" : Text), ()), (("a\n" : Text), ())]).Nodup := by decide
  have hfits : Number.fitsText 1 = true := by decide +kernel
  have hexact : sampleValue.IsExact :=
    ⟨hnodup, ⟨hfits, trivial, trivial, trivial⟩, trivial, trivial⟩
  have hdepth : sampleValue.depth ≤ Limits.maxDepth := by decide
  exact ⟨hexact, hdepth, evaluate_format hexact hdepth⟩

end Expression

end PageBinding
