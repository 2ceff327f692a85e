import PageBinding.Proofs.Expression.Layout
import PageBinding.Proofs.Expression.Literal
import PageBinding.Proofs.Expression.Reading
import PageBinding.Proofs.Expression.Resolve

/-!
This module contains which expression the tokens of a text stand for, rule by rule. Where the tokens
stand is of no account: they are taken without their positions, and identifiers are compared up to a
map.
-/

namespace PageBinding

namespace Expression

/--
Tokens stand for an expression where an operand of the given level is to come.
-/
def Denotes (g : Identifier → Identifier) (level : Nat) (e : Expr) (ws : List Lexeme) : Prop :=
  ∀ ts : List Token, ts.map Token.lexeme = ws → ∃ p, Parses level p ts ∧ p.Resolves g e

/--
Tokens stand for the items that are left of an array, up to its closing bracket.
-/
def DenotesItems (g : Identifier → Identifier) (es : List Expr) (ws : List Lexeme) : Prop :=
  ∀ ts : List Token, ts.map Token.lexeme = ws → ∃ ps, ParsesItems ps ts ∧ ItemsResolve g ps es

def DenotesEntry (g : Identifier → Identifier) (entry : Entry) (ws : List Lexeme) : Prop :=
  ∀ ts : List Token, ts.map Token.lexeme = ws → ∃ p, ParsesEntry p ts ∧ p.Resolves g entry

/--
Tokens stand for the entries that are left of an object, up to its closing brace.
-/
def DenotesEntries (g : Identifier → Identifier) (es : List Entry) (ws : List Lexeme) : Prop :=
  ∀ ts : List Token, ts.map Token.lexeme = ws → ∃ ps, ParsesEntries ps ts ∧ EntriesResolve g ps es

def Lexeme.IsLabel (lexeme : Lexeme) : Prop :=
  ∀ start, (lexeme.token start).IsLabel

def Lexeme.IsKey (lexeme : Lexeme) (key : Text) : Prop :=
  ∀ start, (lexeme.token start).IsKey ∧ (lexeme.token start).key = .ok key

theorem isKey_string {text key : Text} (h : Literal.string text = .ok key) :
    Lexeme.IsKey ⟨.string, text⟩ key := by
  intro start
  refine ⟨.inr (.inl rfl), ?_⟩
  simp only [Lexeme.token, Token.key, Token.string, h]

theorem isKey_jsonQuote (key : Text) : Lexeme.IsKey ⟨.string, key.jsonQuote⟩ key :=
  isKey_string (Literal.string_jsonQuote key)

theorem map_lexeme_eq_cons {ts : List Token} {w : Lexeme} {ws : List Lexeme}
    (h : ts.map Token.lexeme = w :: ws) :
    ∃ start us, ts = w.token start :: us ∧ us.map Token.lexeme = ws := by
  obtain ⟨token, us, rfl, rfl, hus⟩ := List.map_eq_cons_iff.mp h
  exact ⟨token.start, us, rfl, hus⟩

theorem map_lexeme_eq_singleton {ts : List Token} {w : Lexeme} (h : ts.map Token.lexeme = [w]) :
    ∃ start, ts = [w.token start] := by
  obtain ⟨start, us, rfl, hus⟩ := map_lexeme_eq_cons h
  exact ⟨start, by rw [List.map_eq_nil_iff.mp hus]⟩

variable {g : Identifier → Identifier} {level : Nat} {a b c : Expr} {us vs ws : List Lexeme}

namespace Denotes

theorem weaken {low high : Nat} (hle : low ≤ high) (h : Denotes g high a ws) :
    Denotes g low a ws := by
  intro ts hts
  obtain ⟨p, hparses, hresolves⟩ := h ts hts
  exact ⟨p, hparses.mono hle, hresolves⟩

theorem number {text : Text} {n : Number} (htext : Literal.number text = n) :
    Denotes g 9 (.literal (.number n)) [⟨.number, text⟩] := by
  intro tokens htokens
  obtain ⟨start, rfl⟩ := map_lexeme_eq_singleton htokens
  refine ⟨_, .number text start, .leaf rfl fun room => ?_⟩
  rw [← htext]
  exact ⟨_, rfl, rfl⟩

theorem string {text t : Text} (htext : Literal.string text = .ok t) :
    Denotes g 9 (.literal (.text t)) [⟨.string, text⟩] := by
  intro tokens htokens
  obtain ⟨start, rfl⟩ := map_lexeme_eq_singleton htokens
  refine ⟨_, .string text start, .leaf rfl fun room => ⟨.literal (.text t), ?_, rfl⟩⟩
  simp only [Phrase.resolve, Token.string, htext]
  rfl

theorem bool (b : Bool) : Denotes g 9 (.literal (.bool b)) [.bool b] := by
  intro tokens htokens
  obtain ⟨start, rfl⟩ := map_lexeme_eq_singleton htokens
  exact ⟨_, .bool b start, .leaf rfl fun room => ⟨_, rfl, rfl⟩⟩

theorem null : Denotes g 9 (.literal .null) [.null] := by
  intro tokens htokens
  obtain ⟨start, rfl⟩ := map_lexeme_eq_singleton htokens
  exact ⟨_, .null start, .leaf rfl fun room => ⟨_, rfl, rfl⟩⟩

theorem identifier {id : Identifier} (hname : IsName id.name)
    (hid : ∀ start stop, g ⟨id.name, start, stop, false⟩ = g id) :
    Denotes g 9 (.identifier id) [⟨.name, id.name⟩] := by
  intro tokens htokens
  obtain ⟨start, rfl⟩ := map_lexeme_eq_singleton htokens
  have hidentifier : Token.identifier ⟨.name, id.name, start⟩ false =
      .ok ⟨id.name, start.offset, start.offset + id.name.length, false⟩ := by
    simp only [Token.identifier, hname.reserved, Bool.false_eq_true, if_false]
    rfl
  refine ⟨_, .name hname.keyword start, .leaf rfl fun room =>
    ⟨.identifier ⟨id.name, start.offset, start.offset + id.name.length, false⟩, ?_, ?_⟩⟩
  . rw [Phrase.resolve, hidentifier]
    rfl
  . simp only [Expr.mapIdentifiers, hid]

theorem group (h : Denotes g 0 a ws) :
    Denotes g 9 a (.leftParen :: (ws ++ [.rightParen])) := by
  intro tokens htokens
  obtain ⟨start, tail, rfl, htail⟩ := map_lexeme_eq_cons htokens
  obtain ⟨ts, right, rfl, hts, hright⟩ := List.map_eq_append_iff.mp htail
  obtain ⟨stop, rfl⟩ := map_lexeme_eq_singleton hright
  obtain ⟨p, hparses, hresolves⟩ := h ts hts
  exact ⟨p, hparses.group start stop, hresolves⟩

theorem unary (op : UnaryOp) (h : Denotes g 8 a ws) :
    Denotes g 8 (.unary op a) (.unary op :: ws) := by
  intro tokens htokens
  obtain ⟨start, ts, rfl, hts⟩ := map_lexeme_eq_cons htokens
  obtain ⟨p, hparses, hresolves⟩ := h ts hts
  exact ⟨.unary op p, hparses.unary op start, hresolves.unary op⟩

theorem binary (op : BinaryOp) (hleft : Denotes g op.level a us)
    (hright : Denotes g (op.level + 1) b vs) :
    Denotes g op.level (.binary op a b) (us ++ .binary op :: vs) := by
  intro tokens htokens
  obtain ⟨ts, tail, rfl, hts, htail⟩ := List.map_eq_append_iff.mp htokens
  obtain ⟨start, ts', rfl, hts'⟩ := map_lexeme_eq_cons htail
  obtain ⟨p, hparses, hresolves⟩ := hleft ts hts
  obtain ⟨q, hparses', hresolves'⟩ := hright ts' hts'
  exact ⟨.binary op p q, .binary op hparses hparses' start, .binary op hresolves hresolves'⟩

theorem conditional (htest : Denotes g 1 a us) (hconsequent : Denotes g 0 b vs)
    (halternate : Denotes g 0 c ws) :
    Denotes g 0 (.conditional a b c) (us ++ .question :: (vs ++ .colon :: ws)) := by
  intro tokens htokens
  obtain ⟨ts, tail, rfl, hts, htail⟩ := List.map_eq_append_iff.mp htokens
  obtain ⟨start, rest, rfl, hrest⟩ := map_lexeme_eq_cons htail
  obtain ⟨ts', last, rfl, hts', hlast⟩ := List.map_eq_append_iff.mp hrest
  obtain ⟨start', ts'', rfl, hts''⟩ := map_lexeme_eq_cons hlast
  obtain ⟨p, hparses, hresolves⟩ := htest ts hts
  obtain ⟨q, hparses', hresolves'⟩ := hconsequent ts' hts'
  obtain ⟨r, hparses'', hresolves''⟩ := halternate ts'' hts''
  exact ⟨.conditional p q r, .conditional hparses hparses' hparses'' start start',
    .conditional hresolves hresolves' hresolves''⟩

theorem member (h : Denotes g 9 a ws) (optional : Bool) {word : Lexeme} (hword : word.IsLabel) :
    Denotes g 9 (.member a word.text optional) (ws ++ [.access optional, word]) := by
  intro tokens htokens
  obtain ⟨ts, tail, rfl, hts, htail⟩ := List.map_eq_append_iff.mp htokens
  obtain ⟨start, rest, rfl, hrest⟩ := map_lexeme_eq_cons htail
  obtain ⟨start', rfl⟩ := map_lexeme_eq_singleton hrest
  obtain ⟨p, hparses, hresolves⟩ := h ts hts
  exact ⟨.member p word.text optional, hparses.member optional (hword start') start,
    hresolves.member word.text optional⟩

theorem index (h : Denotes g 9 a us) (hkey : Denotes g 0 b vs) :
    Denotes g 9 (.index a b false) (us ++ .leftBracket :: (vs ++ [.rightBracket])) := by
  intro tokens htokens
  obtain ⟨ts, tail, rfl, hts, htail⟩ := List.map_eq_append_iff.mp htokens
  obtain ⟨start, rest, rfl, hrest⟩ := map_lexeme_eq_cons htail
  obtain ⟨ts', right, rfl, hts', hright⟩ := List.map_eq_append_iff.mp hrest
  obtain ⟨stop, rfl⟩ := map_lexeme_eq_singleton hright
  obtain ⟨p, hparses, hresolves⟩ := h ts hts
  obtain ⟨q, hparses', hresolves'⟩ := hkey ts' hts'
  exact ⟨.index p q false, hparses.index hparses' start stop, hresolves.index hresolves' false⟩

theorem optionalIndex (h : Denotes g 9 a us) (hkey : Denotes g 0 b vs) :
    Denotes g 9 (.index a b true)
      (us ++ .optionalDot :: .leftBracket :: (vs ++ [.rightBracket])) := by
  intro tokens htokens
  obtain ⟨ts, tail, rfl, hts, htail⟩ := List.map_eq_append_iff.mp htokens
  obtain ⟨start, rest, rfl, hrest⟩ := map_lexeme_eq_cons htail
  obtain ⟨start', last, rfl, hlast⟩ := map_lexeme_eq_cons hrest
  obtain ⟨ts', right, rfl, hts', hright⟩ := List.map_eq_append_iff.mp hlast
  obtain ⟨stop, rfl⟩ := map_lexeme_eq_singleton hright
  obtain ⟨p, hparses, hresolves⟩ := h ts hts
  obtain ⟨q, hparses', hresolves'⟩ := hkey ts' hts'
  exact ⟨.index p q true, hparses.optionalIndex hparses' start start' stop,
    hresolves.index hresolves' true⟩

theorem array {es : List Expr} (h : DenotesItems g es ws) :
    Denotes g 9 (.array es) (.leftBracket :: ws) := by
  intro tokens htokens
  obtain ⟨start, ts, rfl, hts⟩ := map_lexeme_eq_cons htokens
  obtain ⟨ps, hparses, hresolves⟩ := h ts hts
  exact ⟨.array ps, hparses.array start, .array hresolves⟩

theorem object {es : List Entry} (h : DenotesEntries g es ws) :
    Denotes g 9 (.object es) (.leftBrace :: ws) := by
  intro tokens htokens
  obtain ⟨start, ts, rfl, hts⟩ := map_lexeme_eq_cons htokens
  obtain ⟨ps, hparses, hresolves⟩ := h ts hts
  exact ⟨.object ps, hparses.object start, .object hresolves⟩

theorem parse [Limits] {t : Text} (h : Denotes g 0 a ws) (hlexes : Lexes t ws)
    (hdepth : a.depth ≤ Limits.maxDepth) :
    ∃ e, Expression.parse t = .ok e ∧ e.mapIdentifiers g = a.mapIdentifiers g := by
  obtain ⟨ts, hlayout, hts⟩ := hlexes .start
  obtain ⟨p, hparses, hresolves⟩ := h ts hts
  obtain ⟨e, rest, hsteps, -, hsettle⟩ := hparses [] [] (.nil 0)
  obtain ⟨e', hresolve, heq⟩ := hresolves Limits.maxDepth hdepth
  have hread : Phrase.read t = .ok p :=
    read_eq_ok_iff.mpr ⟨ts, e, rest, [], hlayout, hsteps, hsettle 0 (Nat.le_refl 0)⟩
  refine ⟨e', ?_, heq⟩
  rw [Expression.parse, hread]
  exact hresolve

end Denotes

theorem isBlank_eq_false_of_parse [Limits] {t : Text} {e : Expr} (h : parse t = .ok e) :
    t.isBlank = false := by
  rw [parse, Traversal.bind_eq_ok_iff] at h
  obtain ⟨p, hread, -⟩ := h
  obtain ⟨ts, e, frames, effects, hlayout, hsteps, -⟩ := read_eq_ok_iff.mp hread
  apply hlayout.isBlank_eq_false
  rintro rfl
  cases hsteps

namespace DenotesItems

variable {es : List Expr}

theorem close : DenotesItems g [] [.rightBracket] := by
  intro tokens htokens
  obtain ⟨start, rfl⟩ := map_lexeme_eq_singleton htokens
  exact ⟨[], .close start, .nil⟩

theorem last (h : Denotes g 0 a ws) : DenotesItems g [a] (ws ++ [.rightBracket]) := by
  intro tokens htokens
  obtain ⟨ts, right, rfl, hts, hright⟩ := List.map_eq_append_iff.mp htokens
  obtain ⟨stop, rfl⟩ := map_lexeme_eq_singleton hright
  obtain ⟨p, hparses, hresolves⟩ := h ts hts
  exact ⟨[p], .last hparses stop, .cons hresolves .nil⟩

theorem more (h : Denotes g 0 a us) (hrest : DenotesItems g es vs) :
    DenotesItems g (a :: es) (us ++ .comma :: vs) := by
  intro tokens htokens
  obtain ⟨ts, tail, rfl, hts, htail⟩ := List.map_eq_append_iff.mp htokens
  obtain ⟨start, ts', rfl, hts'⟩ := map_lexeme_eq_cons htail
  obtain ⟨p, hparses, hresolves⟩ := h ts hts
  obtain ⟨ps, hparses', hresolves'⟩ := hrest ts' hts'
  exact ⟨p :: ps, .more hparses hparses' start, .cons hresolves hresolves'⟩

end DenotesItems

namespace DenotesEntry

theorem shorthand {id : Identifier} (hname : IsName id.name)
    (hid : ∀ start stop, g ⟨id.name, start, stop, true⟩ = g id) :
    DenotesEntry g (.named id.name (.identifier id)) [⟨.name, id.name⟩] := by
  intro tokens htokens
  obtain ⟨start, rfl⟩ := map_lexeme_eq_singleton htokens
  have hidentifier : Token.identifier ⟨.name, id.name, start⟩ true =
      .ok ⟨id.name, start.offset, start.offset + id.name.length, true⟩ := by
    simp only [Token.identifier, hname.reserved, Bool.false_eq_true, if_false]
    rfl
  -- The value of a shorthand takes room of its own inside of the object.
  refine ⟨_, .shorthand hname.keyword start, ?_⟩
  intro room hroom
  obtain ⟨r, rfl, -⟩ := room_eq_succ hroom
  refine ⟨.named id.name (.identifier ⟨id.name, start.offset, start.offset + id.name.length,
    true⟩), ?_, ?_⟩
  . rw [PhraseEntry.resolve, hidentifier]
    rfl
  . simp only [mapIdentifiersOfEntry, Expr.mapIdentifiers, hid]

theorem keyed {word : Lexeme} {key : Text} (hkey : word.IsKey key) (h : Denotes g 0 a ws) :
    DenotesEntry g (.named key a) (word :: .colon :: ws) := by
  intro tokens htokens
  obtain ⟨start, tail, rfl, htail⟩ := map_lexeme_eq_cons htokens
  obtain ⟨start', ts, rfl, hts⟩ := map_lexeme_eq_cons htail
  obtain ⟨p, hparses, hresolves⟩ := h ts hts
  exact ⟨_, .keyed (hkey start).1 hparses start', .keyed (hkey start).2 hresolves⟩

theorem computed (hkey : Denotes g 0 a us) (h : Denotes g 0 b vs) :
    DenotesEntry g (.computed a b)
      (.leftBracket :: (us ++ [.rightBracket, .colon]) ++ vs) := by
  intro tokens htokens
  obtain ⟨tail, ts', rfl, htail, hts'⟩ := List.map_eq_append_iff.mp htokens
  obtain ⟨start, rest, rfl, hrest⟩ := map_lexeme_eq_cons htail
  obtain ⟨ts, last, rfl, hts, hlast⟩ := List.map_eq_append_iff.mp hrest
  obtain ⟨stop, more, rfl, hmore⟩ := map_lexeme_eq_cons hlast
  obtain ⟨start', rfl⟩ := map_lexeme_eq_singleton hmore
  obtain ⟨p, hparses, hresolves⟩ := hkey ts hts
  obtain ⟨q, hparses', hresolves'⟩ := h ts' hts'
  exact ⟨_, .computed hparses hparses' start stop start', .computed hresolves hresolves'⟩

end DenotesEntry

namespace DenotesEntries

variable {entry : Entry} {es : List Entry}

theorem close : DenotesEntries g [] [.rightBrace] := by
  intro tokens htokens
  obtain ⟨start, rfl⟩ := map_lexeme_eq_singleton htokens
  exact ⟨[], .close start, .nil⟩

theorem last (h : DenotesEntry g entry ws) : DenotesEntries g [entry] (ws ++ [.rightBrace]) := by
  intro tokens htokens
  obtain ⟨ts, right, rfl, hts, hright⟩ := List.map_eq_append_iff.mp htokens
  obtain ⟨stop, rfl⟩ := map_lexeme_eq_singleton hright
  obtain ⟨p, hparses, hresolves⟩ := h ts hts
  exact ⟨[p], .last hparses stop, .cons hresolves .nil⟩

theorem more (h : DenotesEntry g entry us) (hrest : DenotesEntries g es vs) :
    DenotesEntries g (entry :: es) (us ++ .comma :: vs) := by
  intro tokens htokens
  obtain ⟨ts, tail, rfl, hts, htail⟩ := List.map_eq_append_iff.mp htokens
  obtain ⟨start, ts', rfl, hts'⟩ := map_lexeme_eq_cons htail
  obtain ⟨p, hparses, hresolves⟩ := h ts hts
  obtain ⟨ps, hparses', hresolves'⟩ := hrest ts' hts'
  exact ⟨p :: ps, .more hparses hparses' start, .cons hresolves hresolves'⟩

end DenotesEntries

end Expression

end PageBinding
