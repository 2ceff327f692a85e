import PageBinding.Proofs.Expression.Denotation

/-!
This module contains how expressions are written, and that every way of writing one is read back as
that expression. There are parentheses where an operand does not bind tightly enough, and there may
be more of them; there may be a comma behind the last item of an array or an object; and there is
white space between the tokens, with comments if there are any.
-/

namespace PageBinding

namespace Expression

/--
Data that literals are written for. A number in front of which a minus sign stands is an expression.
-/
def IsWritableLiteral (v : Value) : Prop :=
  match v with
  | .null | .bool _ | .text _ => True
  | .number (.int i) => 0 ≤ i ∧ Number.fitsText i.natAbs = true
  | .number (.float _) | .list _ | .object _ => False

mutual

/--
Expressions that can be written: their names are names. An identifier is a shorthand only as the
value of an entry whose key is its name.
-/
def Expr.IsWritable (e : Expr) : Prop :=
  match e with
  | .literal v => IsWritableLiteral v
  | .identifier id => IsName id.name ∧ id.shorthand = false
  | .array items => AreWritable items
  | .object entries => EntriesWritable entries
  | .unary _ operand => operand.IsWritable
  | .binary _ left right => left.IsWritable ∧ right.IsWritable
  | .conditional test consequent alternate =>
    test.IsWritable ∧ consequent.IsWritable ∧ alternate.IsWritable
  | .member object name _ => object.IsWritable ∧ IsWord name
  | .index object key _ => object.IsWritable ∧ key.IsWritable

def AreWritable (es : List Expr) : Prop :=
  match es with
  | [] => True
  | e :: rest => e.IsWritable ∧ AreWritable rest

def Entry.IsWritable (entry : Entry) : Prop :=
  match entry with
  | .named key value =>
    value.IsWritable ∨
      ∃ id, value = .identifier id ∧ id.name = key ∧ IsName id.name ∧ id.shorthand = true
  | .computed key value => key.IsWritable ∧ value.IsWritable

def EntriesWritable (entries : List Entry) : Prop :=
  match entries with
  | [] => True
  | entry :: rest => entry.IsWritable ∧ EntriesWritable rest

end

/--
What is written: an expression where an operand of a level is to come, the items or the entries that
are left before a closing bracket, or one entry.
-/
inductive Fragment where
  | operand (level : Nat) (e : Expr)
  | items (es : List Expr)
  | entry (entry : Entry)
  | entries (es : List Entry)

def Lexeme.ofWord (word : Text) : Lexeme :=
  ⟨Terminal.ofName (fun _ => true) word, word⟩

/--
The tokens that an expression can be written as. The levels are those of the grammar: a conditional
is of level zero, an operator with two operands of its own level, one before its operand of level
eight, and all else of level nine.
-/
inductive Rendered : Fragment → List Lexeme → Prop where
  | number {level n : Nat} : Number.fitsText n = true →
      Rendered (.operand level (.literal (.number (.int n)))) [⟨.number, Text.ofNat n⟩]
  | text {level : Nat} (t : Text) :
      Rendered (.operand level (.literal (.text t))) [⟨.string, t.jsonQuote⟩]
  | bool {level : Nat} (b : Bool) : Rendered (.operand level (.literal (.bool b))) [.bool b]
  | null {level : Nat} : Rendered (.operand level (.literal .null)) [.null]
  | identifier {level : Nat} {id : Identifier} : IsName id.name → id.shorthand = false →
      Rendered (.operand level (.identifier id)) [⟨.name, id.name⟩]
  | parentheses {level : Nat} {a : Expr} {ws : List Lexeme} : Rendered (.operand 0 a) ws →
      Rendered (.operand level a) (.leftParen :: (ws ++ [.rightParen]))
  | array {level : Nat} {es : List Expr} {ws : List Lexeme} : Rendered (.items es) ws →
      Rendered (.operand level (.array es)) (.leftBracket :: ws)
  | object {level : Nat} {es : List Entry} {ws : List Lexeme} : Rendered (.entries es) ws →
      Rendered (.operand level (.object es)) (.leftBrace :: ws)
  | unary {level : Nat} {op : UnaryOp} {a : Expr} {ws : List Lexeme} : level ≤ 8 →
      Rendered (.operand 8 a) ws → Rendered (.operand level (.unary op a)) (.unary op :: ws)
  | binary {level : Nat} {op : BinaryOp} {a b : Expr} {us vs : List Lexeme} : level ≤ op.level →
      Rendered (.operand op.level a) us → Rendered (.operand (op.level + 1) b) vs →
      Rendered (.operand level (.binary op a b)) (us ++ .binary op :: vs)
  | conditional {a b c : Expr} {us vs ws : List Lexeme} : Rendered (.operand 1 a) us →
      Rendered (.operand 0 b) vs → Rendered (.operand 0 c) ws →
      Rendered (.operand 0 (.conditional a b c)) (us ++ .question :: (vs ++ .colon :: ws))
  | member {level : Nat} {a : Expr} {name : Text} {optional : Bool} {ws : List Lexeme} :
      IsWord name → Rendered (.operand 9 a) ws →
      Rendered (.operand level (.member a name optional)) (ws ++ [.access optional, .ofWord name])
  | index {level : Nat} {a b : Expr} {us vs : List Lexeme} : Rendered (.operand 9 a) us →
      Rendered (.operand 0 b) vs →
      Rendered (.operand level (.index a b false)) (us ++ .leftBracket :: (vs ++ [.rightBracket]))
  | optionalIndex {level : Nat} {a b : Expr} {us vs : List Lexeme} : Rendered (.operand 9 a) us →
      Rendered (.operand 0 b) vs →
      Rendered (.operand level (.index a b true))
        (us ++ .optionalDot :: .leftBracket :: (vs ++ [.rightBracket]))
  | noItems : Rendered (.items []) [.rightBracket]
  | lastItem {a : Expr} {ws : List Lexeme} : Rendered (.operand 0 a) ws →
      Rendered (.items [a]) (ws ++ [.rightBracket])
  | item {a : Expr} {es : List Expr} {us vs : List Lexeme} : Rendered (.operand 0 a) us →
      Rendered (.items es) vs → Rendered (.items (a :: es)) (us ++ .comma :: vs)
  | shorthand {id : Identifier} : IsName id.name → id.shorthand = true →
      Rendered (.entry (.named id.name (.identifier id))) [⟨.name, id.name⟩]
  | named {key : Text} {a : Expr} {ws : List Lexeme} : Rendered (.operand 0 a) ws →
      Rendered (.entry (.named key a)) (⟨.string, key.jsonQuote⟩ :: .colon :: ws)
  | computed {a b : Expr} {us vs : List Lexeme} : Rendered (.operand 0 a) us →
      Rendered (.operand 0 b) vs →
      Rendered (.entry (.computed a b)) (.leftBracket :: (us ++ [.rightBracket, .colon]) ++ vs)
  | noEntries : Rendered (.entries []) [.rightBrace]
  | lastEntry {entry : Entry} {ws : List Lexeme} : Rendered (.entry entry) ws →
      Rendered (.entries [entry]) (ws ++ [.rightBrace])
  | entry {entry : Entry} {es : List Entry} {us vs : List Lexeme} : Rendered (.entry entry) us →
      Rendered (.entries es) vs → Rendered (.entries (entry :: es)) (us ++ .comma :: vs)

/--
A text of white space and comments. The comments of a line end with the line.
-/
inductive Filler : Text → Prop where
  | nil : Filler []
  | blank {c : CodePoint} {g : Text} : isBlank c = true → Filler g → Filler (c :: g)
  | line {body g : Text} : (∀ c ∈ body, c.is '\n' = false) → Filler g →
      Filler (("//" : Text) ++ body ++ ("\n" : Text) ++ g)
  | block {body g : Text} : ¬ ("*/" : Text) <:+: body → Filler g →
      Filler (("/*" : Text) ++ body ++ ("*/" : Text) ++ g)

/--
A text of tokens with white space between each two of them, and any white space and comments behind
that.
-/
inductive Spaced : List Lexeme → Text → Prop where
  | last (w : Lexeme) : Spaced [w] w.text
  | more {w : Lexeme} {c : CodePoint} {g t : Text} {ws : List Lexeme} : isBlank c = true →
      Filler g → Spaced ws t → Spaced (w :: ws) (w.text ++ c :: (g ++ t))

theorem isLabel_ofWord (word : Text) : (Lexeme.ofWord word).IsLabel := by
  intro start
  cases hkind : Terminal.ofName (fun _ => true) word with
  | name =>
    refine .inl ⟨hkind, ?_⟩
    intro keyword htext
    exact absurd (Terminal.ofName_eq_name_iff.mp hkind keyword htext) (by decide)
  | word keyword => exact .inr ⟨keyword, hkind⟩
  | _ =>
    unfold Terminal.ofName at hkind
    split at hkind <;> cases hkind

def Fragment.Denoted (g : Identifier → Identifier) : Fragment → List Lexeme → Prop
  | .operand level e, ws => level ≤ 9 → Denotes g level e ws
  | .items es, ws => DenotesItems g es ws
  | .entry e, ws => DenotesEntry g e ws
  | .entries es, ws => DenotesEntries g es ws

theorem Rendered.denoted {fragment : Fragment} {ws : List Lexeme} (h : Rendered fragment ws) :
    fragment.Denoted Identifier.unplaced ws := by
  induction h with
  | number hfits => exact fun hlevel => .weaken hlevel (.number (Literal.number_ofNat hfits))
  | text t => exact fun hlevel => .weaken hlevel (.string (Literal.string_jsonQuote t))
  | bool b => exact fun hlevel => .weaken hlevel (.bool b)
  | null => exact fun hlevel => .weaken hlevel .null
  | @identifier level id hname hshorthand =>
    intro hlevel
    apply Denotes.weaken hlevel
    apply Denotes.identifier hname
    intro start stop
    rw [Identifier.unplaced, Identifier.unplaced, hshorthand]
  | parentheses _ ih => exact fun hlevel => .weaken hlevel (.group (ih (by decide)))
  | array _ ih => exact fun hlevel => .weaken hlevel (.array ih)
  | object _ ih => exact fun hlevel => .weaken hlevel (.object ih)
  | unary hle _ ih => exact fun _ => .weaken hle (.unary _ (ih (by decide)))
  | @binary level op a b us vs hle _ _ ihleft ihright =>
    intro _
    have hlevel : op.level + 1 ≤ 9 := by cases op <;> decide
    exact .weaken hle (.binary op (ihleft (by omega)) (ihright hlevel))
  | conditional _ _ _ ihtest ihconsequent ihalternate =>
    exact fun _ => .conditional (ihtest (by decide)) (ihconsequent (by decide))
      (ihalternate (by decide))
  | member hword _ ih =>
    exact fun hlevel => .weaken hlevel (.member (ih (by decide)) _ (isLabel_ofWord _))
  | index _ _ ih ihkey =>
    exact fun hlevel => .weaken hlevel (.index (ih (by decide)) (ihkey (by decide)))
  | optionalIndex _ _ ih ihkey =>
    exact fun hlevel => .weaken hlevel (.optionalIndex (ih (by decide)) (ihkey (by decide)))
  | noItems => exact .close
  | lastItem _ ih => exact .last (ih (by decide))
  | item _ _ ih ihrest => exact .more (ih (by decide)) ihrest
  | @shorthand id hname hshorthand =>
    apply DenotesEntry.shorthand hname
    intro start stop
    rw [Identifier.unplaced, Identifier.unplaced, hshorthand]
  | named _ ih => exact .keyed (isKey_jsonQuote _) (ih (by decide))
  | computed _ _ ihkey ih => exact .computed (ihkey (by decide)) (ih (by decide))
  | noEntries => exact .close
  | lastEntry _ ih => exact .last ih
  | entry _ _ ih ihrest => exact .more ih ihrest

theorem Lexes.filler {g rest : Text} {ws : List Lexeme} (hfiller : Filler g) (h : Lexes rest ws) :
    Lexes (g ++ rest) ws := by
  induction hfiller with
  | nil => exact h
  | @blank c g hblank _ ih => exact @Lexes.gap [c] (g ++ rest) ws (.blank hblank) ih
  | line hbody _ ih =>
    have hnewline : isBlank (CodePoint.ofChar '\n') = true := by decide
    rw [List.append_assoc, List.append_assoc]
    apply Lexes.gap (.line hbody (by rintro c ⟨⟩; decide))
    exact .gap (.blank hnewline) ih
  | block hbody _ ih =>
    rw [List.append_assoc]
    exact .gap (.block hbody) ih

theorem Spaced.lexes {ws : List Lexeme} {t : Text} (h : Spaced ws t)
    (hclosed : ∀ w ∈ ws, w.IsClosed) : Lexes t ws := by
  induction h with
  | last w =>
    have hfits : w.Fits [] := hclosed w List.mem_cons_self [] nofun
    rw [← List.append_nil w.text]
    exact .token hfits .nil
  | @more w c g t ws hblank hfiller _ ih =>
    obtain ⟨hw, hws⟩ := List.forall_mem_cons.mp hclosed
    apply Lexes.token
    . apply hw
      rintro d ⟨⟩
      exact mem_stops_of_isBlank hblank
    . exact .gap (.blank hblank) (.filler hfiller (ih hws))

theorem Lexeme.isClosed_ofWord {word : Text} (h : IsWord word) : IsClosed (.ofWord word) := by
  apply isClosed_of_isWord
  . exact h
  . unfold ofWord Terminal.ofName
    dsimp only
    split <;> rfl
  . intro keyword (hkind : Terminal.ofName (fun _ => true) word = .word keyword)
    exact (Terminal.text_of_ofName_eq_word hkind).1.symm

theorem Rendered.isClosed {fragment : Fragment} {ws : List Lexeme} (h : Rendered fragment ws) :
    ∀ w ∈ ws, w.IsClosed := by
  have hmark {w : Lexeme} (hmem : w ∈ Lexeme.marks) : w.IsClosed :=
    Lexeme.isClosed_of_mem_marks hmem
  have hright : Lexeme.IsClosed .rightBracket := hmark (by decide)
  have hbrace : Lexeme.IsClosed .rightBrace := hmark (by decide)
  have hcomma : Lexeme.IsClosed .comma := hmark (by decide)
  have hcolon : Lexeme.IsClosed .colon := hmark (by decide)
  induction h with
  | @number _ n _ => exact List.forall_mem_singleton.mpr (isClosed_number n)
  | text t => exact List.forall_mem_singleton.mpr (isClosed_jsonQuote t)
  | bool b => exact List.forall_mem_singleton.mpr (Lexeme.isClosed_bool b)
  | null => exact List.forall_mem_singleton.mpr (Lexeme.isClosed_word .nullWord)
  | identifier hname => exact List.forall_mem_singleton.mpr (Lexeme.isClosed_name hname.start)
  | parentheses _ ih =>
    rw [List.forall_mem_cons, List.forall_mem_append, List.forall_mem_singleton]
    exact ⟨hmark (by decide), ih, hmark (by decide)⟩
  | array _ ih =>
    rw [List.forall_mem_cons]
    exact ⟨hmark (by decide), ih⟩
  | object _ ih =>
    rw [List.forall_mem_cons]
    exact ⟨hmark (by decide), ih⟩
  | unary _ _ ih =>
    rw [List.forall_mem_cons]
    exact ⟨Lexeme.isClosed_unary _, ih⟩
  | binary _ _ _ ihleft ihright =>
    rw [List.forall_mem_append, List.forall_mem_cons]
    exact ⟨ihleft, Lexeme.isClosed_binary _, ihright⟩
  | conditional _ _ _ ihtest ihconsequent ihalternate =>
    rw [List.forall_mem_append, List.forall_mem_cons, List.forall_mem_append, List.forall_mem_cons]
    exact ⟨ihtest, hmark (by decide), ihconsequent, hcolon, ihalternate⟩
  | member hword _ ih =>
    rw [List.forall_mem_append, List.forall_mem_cons, List.forall_mem_singleton]
    exact ⟨ih, Lexeme.isClosed_access _, Lexeme.isClosed_ofWord hword⟩
  | index _ _ ih ihkey =>
    rw [List.forall_mem_append, List.forall_mem_cons, List.forall_mem_append,
      List.forall_mem_singleton]
    exact ⟨ih, hmark (by decide), ihkey, hright⟩
  | optionalIndex _ _ ih ihkey =>
    rw [List.forall_mem_append, List.forall_mem_cons, List.forall_mem_cons,
      List.forall_mem_append, List.forall_mem_singleton]
    exact ⟨ih, hmark (by decide), hmark (by decide), ihkey, hright⟩
  | noItems => exact List.forall_mem_singleton.mpr hright
  | lastItem _ ih =>
    rw [List.forall_mem_append, List.forall_mem_singleton]
    exact ⟨ih, hright⟩
  | item _ _ ih ihrest =>
    rw [List.forall_mem_append, List.forall_mem_cons]
    exact ⟨ih, hcomma, ihrest⟩
  | shorthand hname => exact List.forall_mem_singleton.mpr (Lexeme.isClosed_name hname.start)
  | @named key a ws _ ih =>
    rw [List.forall_mem_cons, List.forall_mem_cons]
    exact ⟨isClosed_jsonQuote key, hcolon, ih⟩
  | computed _ _ ihkey ih =>
    rw [List.forall_mem_append, List.forall_mem_cons, List.forall_mem_append,
      List.forall_mem_cons, List.forall_mem_singleton]
    exact ⟨⟨hmark (by decide), ihkey, hright, hcolon⟩, ih⟩
  | noEntries => exact List.forall_mem_singleton.mpr hbrace
  | lastEntry _ ih =>
    rw [List.forall_mem_append, List.forall_mem_singleton]
    exact ⟨ih, hbrace⟩
  | entry _ _ ih ihrest =>
    rw [List.forall_mem_append, List.forall_mem_cons]
    exact ⟨ih, hcomma, ihrest⟩

theorem exists_rendered_literal {v : Value} (h : IsWritableLiteral v) :
    ∃ ws, Rendered (.operand 0 (.literal v)) ws := by
  cases v with
  | null => exact ⟨_, .null⟩
  | bool b => exact ⟨_, .bool b⟩
  | text t => exact ⟨_, .text t⟩
  | number n =>
    cases n with
    | int i =>
      obtain ⟨n, rfl⟩ := Int.eq_ofNat_of_zero_le h.1
      exact ⟨_, .number h.2⟩
    | float x => exact h.elim
  | list items => exact h.elim
  | object entries => exact h.elim

mutual

theorem Expr.IsWritable.exists_rendered {e : Expr} (h : e.IsWritable) :
    ∃ ws, Rendered (.operand 0 e) ws := by
  match e with
  | .literal v => exact exists_rendered_literal h
  | .identifier id => exact ⟨_, .identifier h.1 h.2⟩
  | .array items =>
    obtain ⟨ws, hws⟩ := exists_rendered_items (show AreWritable items from h)
    exact ⟨_, .array hws⟩
  | .object entries =>
    obtain ⟨ws, hws⟩ := exists_rendered_entries (show EntriesWritable entries from h)
    exact ⟨_, .object hws⟩
  | .unary op operand =>
    obtain ⟨ws, hws⟩ := Expr.IsWritable.exists_rendered (show operand.IsWritable from h)
    exact ⟨_, .unary (by decide) (.parentheses hws)⟩
  | .binary op left right =>
    obtain ⟨us, hus⟩ := Expr.IsWritable.exists_rendered h.1
    obtain ⟨vs, hvs⟩ := Expr.IsWritable.exists_rendered h.2
    exact ⟨_, .binary (Nat.zero_le _) (.parentheses hus) (.parentheses hvs)⟩
  | .conditional test consequent alternate =>
    obtain ⟨us, hus⟩ := Expr.IsWritable.exists_rendered h.1
    obtain ⟨vs, hvs⟩ := Expr.IsWritable.exists_rendered h.2.1
    obtain ⟨ws, hws⟩ := Expr.IsWritable.exists_rendered h.2.2
    exact ⟨_, .conditional (.parentheses hus) hvs hws⟩
  | .member object name optional =>
    obtain ⟨ws, hws⟩ := Expr.IsWritable.exists_rendered h.1
    exact ⟨_, .member h.2 (.parentheses hws)⟩
  | .index object key optional =>
    obtain ⟨us, hus⟩ := Expr.IsWritable.exists_rendered h.1
    obtain ⟨vs, hvs⟩ := Expr.IsWritable.exists_rendered h.2
    cases optional with
    | true => exact ⟨_, .optionalIndex (.parentheses hus) hvs⟩
    | false => exact ⟨_, .index (.parentheses hus) hvs⟩

theorem exists_rendered_items {es : List Expr} (h : AreWritable es) :
    ∃ ws, Rendered (.items es) ws := by
  match es with
  | [] => exact ⟨_, .noItems⟩
  | e :: rest =>
    obtain ⟨us, hus⟩ := Expr.IsWritable.exists_rendered h.1
    obtain ⟨vs, hvs⟩ := exists_rendered_items h.2
    exact ⟨_, .item hus hvs⟩

theorem exists_rendered_entry {entry : Entry} (h : entry.IsWritable) :
    ∃ ws, Rendered (.entry entry) ws := by
  match entry with
  | .named key value =>
    rcases h with hvalue | ⟨id, rfl, rfl, hname, hshorthand⟩
    . obtain ⟨ws, hws⟩ := Expr.IsWritable.exists_rendered hvalue
      exact ⟨_, .named hws⟩
    . exact ⟨_, .shorthand hname hshorthand⟩
  | .computed key value =>
    obtain ⟨us, hus⟩ := Expr.IsWritable.exists_rendered h.1
    obtain ⟨vs, hvs⟩ := Expr.IsWritable.exists_rendered h.2
    exact ⟨_, .computed hus hvs⟩

theorem exists_rendered_entries {es : List Entry} (h : EntriesWritable es) :
    ∃ ws, Rendered (.entries es) ws := by
  match es with
  | [] => exact ⟨_, .noEntries⟩
  | entry :: rest =>
    obtain ⟨us, hus⟩ := exists_rendered_entry h.1
    obtain ⟨vs, hvs⟩ := exists_rendered_entries h.2
    exact ⟨_, .entry hus hvs⟩

end

theorem Rendered.ne_nil {fragment : Fragment} {ws : List Lexeme} (h : Rendered fragment ws) :
    ws ≠ [] := by
  cases h <;> simp

theorem exists_spaced {ws : List Lexeme} (h : ws ≠ []) : ∃ t, Spaced ws t := by
  induction ws with
  | nil => exact absurd rfl h
  | cons w ws ih =>
    cases ws with
    | nil => exact ⟨_, .last w⟩
    | cons w' ws =>
      obtain ⟨t, ht⟩ := ih (List.cons_ne_nil _ _)
      exact ⟨_, .more (show isBlank 32 = true by decide) .nil ht⟩

/--
An expression can be written, and however it is written, it is read as that expression.
-/
theorem parse_rendered [Limits] {e : Expr} (hwritable : e.IsWritable)
    (hdepth : e.depth ≤ Limits.maxDepth) :
    (∃ ws t, Rendered (.operand 0 e) ws ∧ Spaced ws t) ∧
      ∀ ws t, Rendered (.operand 0 e) ws → Spaced ws t →
        ∃ e', parse t = .ok e' ∧ e'.unplaced = e.unplaced := by
  constructor
  . obtain ⟨ws, hws⟩ := hwritable.exists_rendered
    obtain ⟨t, ht⟩ := exists_spaced hws.ne_nil
    exact ⟨ws, t, hws, ht⟩
  . intro ws t hrendered hspaced
    exact (hrendered.denoted (Nat.zero_le 9)).parse (hspaced.lexes hrendered.isClosed) hdepth

/--
An object with a shorthand, of which a property is taken that is called like a word of the language,
behind an operator without an operand in parentheses.
-/
def sampleExpr : Expr :=
  .binary .coalesce (.unary .typeof (.identifier ⟨"a", 0, 0, false⟩))
    (.member (.object [.named "b" (.identifier ⟨"b", 0, 0, true⟩)]) "null" true)

theorem parse_rendered_sampleExpr :
    sampleExpr.IsWritable ∧ sampleExpr.depth ≤ Limits.maxDepth ∧
      ∃ e', parse "typeof a ?? /* ?? */ ( \x7b b , \x7d ) ?. null" = .ok e' ∧
        e'.unplaced = sampleExpr.unplaced := by
  have hname : IsName "a" := by decide
  have hname' : IsName "b" := by decide
  have hword : IsWord "null" := by decide
  have hwritable : sampleExpr.IsWritable :=
    ⟨⟨hname, rfl⟩, ⟨.inr ⟨_, rfl, rfl, hname', rfl⟩, trivial⟩, hword⟩
  have hdepth : sampleExpr.depth ≤ Limits.maxDepth := by decide
  have hentry : Rendered (.entry (.named "b" (.identifier ⟨"b", 0, 0, true⟩))) [⟨.name, "b"⟩] :=
    @Rendered.shorthand ⟨"b", 0, 0, true⟩ hname' rfl
  have hrendered : Rendered (.operand 0 sampleExpr) _ :=
    .binary (by decide) (.unary (by decide) (.identifier hname rfl))
      (.member hword (.parentheses (.object (.entry hentry .noEntries))))
  have hblank : isBlank 32 = true := by decide
  have hspaced : Spaced [.unary .typeof, ⟨.name, "a"⟩, .binary .coalesce, .leftParen, .leftBrace,
      ⟨.name, "b"⟩, .comma, .rightBrace, .rightParen, .access true, .ofWord "null"]
      "typeof a ?? /* ?? */ ( \x7b b , \x7d ) ?. null" :=
    .more hblank .nil <| .more hblank .nil <|
      .more hblank (@Filler.block " ?? " _ (by decide) (.blank hblank .nil)) <|
      .more hblank .nil <| .more hblank .nil <| .more hblank .nil <| .more hblank .nil <|
      .more hblank .nil <| .more hblank .nil <| .more hblank .nil <| .last _
  exact ⟨hwritable, hdepth, (parse_rendered hwritable hdepth).2 _ _ hrendered hspaced⟩

end Expression

end PageBinding
