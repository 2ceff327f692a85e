import PageBinding.Proofs.Expression.Denotation
import PageBinding.Proofs.Expression.Grammar
import PageBinding.Proofs.Expression.Resolved

/-!
This module contains which tokens stand for an expression whose identifiers have got new names: the
tokens of the expression itself, with the new names in place. An entry of an object that is one name
becomes a key with its value.
-/

namespace PageBinding

namespace Expression

namespace Item

def identifiers (item : Item) : List Identifier :=
  match item.role with
  | .plain => []
  | .name => [⟨item.token.text, item.token.start.offset, item.token.stop, false⟩]
  | .shorthand => [⟨item.token.text, item.token.start.offset, item.token.stop, true⟩]

def renamed (f : Text → Text) (item : Item) : List Lexeme :=
  let name := item.token.text
  match item.role with
  | .plain => [item.token.lexeme]
  | .name => [⟨.name, f name⟩]
  | .shorthand =>
    if f name = name then [item.token.lexeme] else [item.token.lexeme, .colon, ⟨.name, f name⟩]

end Item

@[simp]
theorem Token.identifiers_plain (token : Token) : token.plain.identifiers = [] := rfl

theorem flatMap_identifiers_plain (token : Token) (is : List Item) :
    (token.plain :: is).flatMap Item.identifiers = is.flatMap Item.identifiers := rfl

@[simp]
theorem Token.renamed_plain (f : Text → Text) (token : Token) :
    token.plain.renamed f = [token.lexeme] := rfl

namespace Token

variable {token : Token}

theorem identifier_eq_ok_iff {shorthand : Bool} {id : Identifier} :
    token.identifier shorthand = .ok id ↔
      isReserved token.text = false ∧
        id = ⟨token.text, token.start.offset, token.stop, shorthand⟩ := by
  unfold identifier
  cases isReserved token.text <;> simp [eq_comm]

theorem string_eq_ok_iff {inKey : Bool} {t : Text} :
    token.string inKey = .ok t ↔ Literal.string token.text = .ok t := by
  unfold string
  split
  . next h => rw [h]; simp
  . next h => rw [h]; simp
  . next h => rw [h]; simp

theorem isKey_lexeme {key : Text} (h : token.IsKey) (hkey : token.key = .ok key) :
    token.lexeme.IsKey key := by
  intro start
  refine ⟨h, ?_⟩
  unfold Token.key at hkey ⊢
  dsimp only [lexeme, Lexeme.token]
  split
  . next hterminal =>
    simp only [hterminal] at hkey
    rw [string_eq_ok_iff] at hkey ⊢
    exact hkey
  . next hterminal =>
    simp only [hterminal] at hkey
    exact hkey
  . next hstring hnumber =>
    simpa [hstring, hnumber] using hkey

end Token

def Part.HasIdentifiers (ids : List Identifier) : Part → Prop
  | .phrase _ p => p.Gives fun e => e.identifiers = ids
  | .items ps => GivesList (fun es => identifiersOfList es = ids) ps
  | .entry p => p.Gives fun e => identifiersOfEntry e = ids
  | .entries ps => GivesEntries (fun es => identifiersOfEntries es = ids) ps

theorem Spells.hasIdentifiers {part : Part} {is : List Item} (h : Spells part is) :
    part.HasIdentifiers (is.flatMap Item.identifiers) := by
  induction h with
  | weaken _ _ ih => exact ih
  | number _ => exact .number rfl
  | string _ => exact .string fun _ _ => rfl
  | bool _ => exact .bool rfl
  | null _ => exact .null rfl
  | name _ _ =>
    refine .name fun id hid => ?_
    obtain ⟨-, rfl⟩ := Token.identifier_eq_ok_iff.mp hid
    rfl
  | group _ _ _ ih =>
    rw [flatMap_identifiers_plain, List.flatMap_append]
    exact fun room e h => (ih room e h).trans (List.append_nil _).symm
  | array _ _ ih => exact .array ih fun es h => by simp [Expr.identifiers, h]
  | object _ _ ih => exact .object ih fun es h => by simp [Expr.identifiers, h]
  | unary _ _ ih => exact .unary ih fun a ha => by simp [Expr.identifiers, ha]
  | binary _ _ _ ihleft ihright =>
    exact .binary ihleft ihright fun a b ha hb => by simp [Expr.identifiers, ha, hb]
  | conditional _ _ _ _ _ ihtest ihconsequent ihalternate =>
    exact .conditional ihtest ihconsequent ihalternate fun a b c ha hb hc => by
      simp [Expr.identifiers, ha, hb, hc]
  | member _ _ _ ih => exact .member ih fun a ha => by simp [Expr.identifiers, ha]
  | index _ _ _ _ ih ihkey =>
    exact .index ih ihkey fun a b ha hb => by simp [Expr.identifiers, ha, hb]
  | optionalIndex _ _ _ _ _ ih ihkey =>
    exact .index ih ihkey fun a b ha hb => by simp [Expr.identifiers, ha, hb]
  | closeItems _ => exact .nil rfl
  | lastItem _ _ ih => exact .singleton ih fun a ha => by simp [identifiersOfList, ha]
  | moreItems _ _ _ ih ihrest =>
    exact .cons ih ihrest fun a as ha has => by simp [identifiersOfList, ha, has]
  | shorthand _ _ =>
    refine .shorthand fun id hid => ?_
    obtain ⟨-, rfl⟩ := Token.identifier_eq_ok_iff.mp hid
    rfl
  | keyed _ _ _ ih => exact .keyed ih fun key a _ ha => by simp [identifiersOfEntry, ha]
  | computed _ _ _ _ _ ihkey ih =>
    exact .computed ihkey ih fun a b ha hb => by simp [identifiersOfEntry, ha, hb]
  | closeEntries _ => exact .nil rfl
  | lastEntry _ _ ih => exact .singleton ih fun a ha => by simp [identifiersOfEntries, ha]
  | moreEntries _ _ _ ih ihrest =>
    exact .cons ih ihrest fun a as ha has => by simp [identifiersOfEntries, ha, has]

/--
Tokens stand for every expression that a part can become, with other names for its identifiers.
-/
def Part.Renames (f : Text → Text) (ws : List Lexeme) : Part → Prop
  | .phrase level p => p.Gives fun e => Denotes Identifier.bare level (e.rename f) ws
  | .items ps => GivesList
      (fun es => DenotesItems Identifier.bare (mapIdentifiersOfList (Identifier.rename f) es) ws) ps
  | .entry p => p.Gives fun e =>
      DenotesEntry Identifier.bare (mapIdentifiersOfEntry (Identifier.rename f) e) ws
  | .entries ps => GivesEntries (fun es =>
      DenotesEntries Identifier.bare (mapIdentifiersOfEntries (Identifier.rename f) es) ws) ps

section Operand

variable {f : Text → Text} {token : Token}

theorem denotes_number (hterminal : token.terminal = .number) :
    Denotes Identifier.bare 9 (.literal (.number (Literal.number token.text))) [token.lexeme] := by
  rw [Token.lexeme, hterminal]
  exact .number rfl

theorem denotes_string {t : Text} (hterminal : token.terminal = .string)
    (ht : token.string false = .ok t) :
    Denotes Identifier.bare 9 (.literal (.text t)) [token.lexeme] := by
  rw [Token.lexeme, hterminal]
  exact .string (Token.string_eq_ok_iff.mp ht)

theorem denotes_name {id : Identifier} {shorthand : Bool}
    (hid : token.identifier shorthand = .ok id) (hname : IsName (f token.text)) :
    Denotes Identifier.bare 9 (.identifier (id.rename f)) [⟨.name, f token.text⟩] := by
  obtain ⟨-, rfl⟩ := Token.identifier_eq_ok_iff.mp hid
  exact @Denotes.identifier Identifier.bare
    ⟨f token.text, token.start.offset, token.stop, shorthand⟩ hname fun _ _ => rfl

theorem denotes_member {word : Token} {a : Expr} {ws : List Lexeme}
    (ha : Denotes Identifier.bare 9 a ws) (optional : Bool) (hword : word.IsLabel) :
    Denotes Identifier.bare 9 (.member a word.text optional)
      (ws ++ [.access optional, word.lexeme]) :=
  .member ha optional (show word.lexeme.IsLabel from fun _ => hword)

end Operand

theorem denotes_shorthand {f : Text → Text} {token : Token} {id : Identifier}
    (hterminal : token.terminal = .name) (hkeyword : ∀ keyword : Keyword, keyword.text ≠ token.text)
    (hid : token.identifier true = .ok id) (hname : IsName (f token.text)) :
    DenotesEntry Identifier.bare (.named id.name (.identifier (id.rename f)))
      (Item.renamed f ⟨token, .shorthand⟩) := by
  have hlexeme : token.lexeme = ⟨.name, token.text⟩ := by rw [Token.lexeme, hterminal]
  obtain ⟨-, rfl⟩ := Token.identifier_eq_ok_iff.mp hid
  dsimp only [Item.renamed, Identifier.rename]
  split
  . next heq =>
    rw [hlexeme, heq]
    rw [heq] at hname
    exact @DenotesEntry.shorthand Identifier.bare
      ⟨token.text, token.start.offset, token.stop, true⟩ hname fun _ _ => rfl
  . have hkey : token.lexeme.IsKey token.text := by
      apply Token.isKey_lexeme (.inl (.inl ⟨hterminal, hkeyword⟩))
      rw [Token.key, hterminal]
    exact .keyed hkey (.weaken (Nat.zero_le 9) (denotes_name hid hname))

def Named (f : Text → Text) (is : List Item) : Prop :=
  ∀ id ∈ is.flatMap Item.identifiers, IsName (f id.name)

theorem named_append {f : Text → Text} {is js : List Item} :
    Named f (is ++ js) ↔ Named f is ∧ Named f js := by
  simp only [Named, List.flatMap_append, List.forall_mem_append]

theorem named_plain {f : Text → Text} {token : Token} {is : List Item} :
    Named f (token.plain :: is) ↔ Named f is := Iff.rfl

theorem Spells.renames {f : Text → Text} {part : Part} {is : List Item} (h : Spells part is)
    (hnames : Named f is) : part.Renames f (is.flatMap (Item.renamed f)) := by
  induction h with
  | weaken hle _ ih => exact fun room e h => .weaken hle (ih hnames room e h)
  | number hterminal => exact .number (denotes_number hterminal)
  | string hterminal => exact .string fun t ht => denotes_string hterminal ht
  | name _ _ => exact .name fun id hid => denotes_name hid (hnames _ (List.mem_singleton_self _))
  | bool htoken =>
    exact .bool (by simpa [Expr.rename, Expr.mapIdentifiers, htoken] using Denotes.bool _)
  | null htoken =>
    exact .null (by simpa [Expr.rename, Expr.mapIdentifiers, htoken] using Denotes.null)
  | group hleft _ hright ih =>
    intro room e h
    have hgroup := ih (named_append.mp (named_plain.mp hnames)).1 room e h
    simpa [hleft, hright] using Denotes.group hgroup
  | array hleft _ ih =>
    refine .array (ih (named_plain.mp hnames)) fun es hes => ?_
    simpa [Expr.rename, Expr.mapIdentifiers, hleft] using Denotes.array hes
  | object hleft _ ih =>
    refine .object (ih (named_plain.mp hnames)) fun es hes => ?_
    simpa [Expr.rename, Expr.mapIdentifiers, hleft] using Denotes.object hes
  | @unary token op p is htoken _ ih =>
    refine .unary (ih (named_plain.mp hnames)) fun a ha => ?_
    simpa [Expr.rename, Expr.mapIdentifiers, htoken] using Denotes.unary op ha
  | @binary token op p q is js _ htoken _ ihleft ihright =>
    obtain ⟨hleft, hright⟩ := named_append.mp hnames
    refine .binary (ihleft hleft) (ihright (named_plain.mp hright)) fun a b ha hb => ?_
    simpa [Expr.rename, Expr.mapIdentifiers, htoken] using Denotes.binary op ha hb
  | conditional _ hquestion _ hcolon _ ihtest ihconsequent ihalternate =>
    obtain ⟨htest, hbranches⟩ := named_append.mp hnames
    obtain ⟨hconsequent, halternate⟩ := named_append.mp (named_plain.mp hbranches)
    refine .conditional (ihtest htest) (ihconsequent hconsequent)
      (ihalternate (named_plain.mp halternate)) fun a b c ha hb hc => ?_
    simpa [Expr.rename, Expr.mapIdentifiers, hquestion, hcolon] using
      Denotes.conditional ha hb hc
  | @member dot word optional p is _ hdot hword ih =>
    refine .member (ih (named_append.mp hnames).1) fun a ha => ?_
    simpa [Expr.rename, Expr.mapIdentifiers, hdot] using denotes_member ha optional hword
  | index _ hleft _ hright ih ihkey =>
    obtain ⟨hobject, hrest⟩ := named_append.mp hnames
    have hkey := (named_append.mp (named_plain.mp hrest)).1
    refine .index (ih hobject) (ihkey hkey) fun a b ha hb => ?_
    simpa [Expr.rename, Expr.mapIdentifiers, hleft, hright] using Denotes.index ha hb
  | optionalIndex _ hdot hleft _ hright ih ihkey =>
    obtain ⟨hobject, hrest⟩ := named_append.mp hnames
    have hkey := (named_append.mp (named_plain.mp (named_plain.mp hrest))).1
    refine .index (ih hobject) (ihkey hkey) fun a b ha hb => ?_
    simpa [Expr.rename, Expr.mapIdentifiers, hdot, hleft, hright] using
      Denotes.optionalIndex ha hb
  | closeItems hright =>
    exact .nil (by simpa [mapIdentifiersOfList, hright] using DenotesItems.close)
  | lastItem _ hright ih =>
    refine .singleton (ih (named_append.mp hnames).1) fun a ha => ?_
    simpa [Expr.rename, mapIdentifiersOfList, hright] using DenotesItems.last ha
  | moreItems _ hcomma _ ih ihrest =>
    obtain ⟨hfirst, hrest⟩ := named_append.mp hnames
    refine .cons (ih hfirst) (ihrest (named_plain.mp hrest)) fun a as ha has => ?_
    simpa [Expr.rename, mapIdentifiersOfList, hcomma] using DenotesItems.more ha has
  | @shorthand token hterminal hkeyword =>
    refine .shorthand fun id hid => ?_
    simpa [mapIdentifiersOfEntry, Expr.mapIdentifiers] using
      denotes_shorthand hterminal hkeyword hid (hnames _ (List.mem_singleton_self _))
  | keyed hkey hcolon _ ih =>
    refine .keyed (ih (named_plain.mp (named_plain.mp hnames))) fun key a htext ha => ?_
    simpa [Expr.rename, mapIdentifiersOfEntry, hcolon] using
      DenotesEntry.keyed (Token.isKey_lexeme hkey htext) ha
  | computed hleft _ hright hcolon _ ihkey ih =>
    obtain ⟨hbracket, hvalue⟩ := named_append.mp hnames
    have hkey := (named_append.mp (named_plain.mp hbracket)).1
    refine .computed (ihkey hkey) (ih hvalue) fun a b ha hb => ?_
    simpa [Expr.rename, mapIdentifiersOfEntry, hleft, hright, hcolon] using
      DenotesEntry.computed ha hb
  | closeEntries hright =>
    exact .nil (by simpa [mapIdentifiersOfEntries, hright] using DenotesEntries.close)
  | lastEntry _ hright ih =>
    refine .singleton (ih (named_append.mp hnames).1) fun a ha => ?_
    simpa [mapIdentifiersOfEntries, hright] using DenotesEntries.last ha
  | moreEntries _ hcomma _ ih ihrest =>
    obtain ⟨hfirst, hrest⟩ := named_append.mp hnames
    refine .cons (ih hfirst) (ihrest (named_plain.mp hrest)) fun a as ha has => ?_
    simpa [mapIdentifiersOfEntries, hcomma] using DenotesEntries.more ha has

end Expression

end PageBinding
