import Mathlib.Logic.Basic
import PageBinding.Expression.Resolve
import PageBinding.Proofs.Expression.Tree
import PageBinding.Proofs.Traversal

/-!
This module contains what the expressions are made of that phrases have become, and that they are
not too deep.
-/

namespace PageBinding

namespace Expression

inductive Phrase.Becomes : Nat → Phrase → Expr → Prop where
  | number {n : Nat} {token : Token} :
      Becomes (n + 1) (.number token) (.literal (.number (Literal.number token.text)))
  | string {n : Nat} {token : Token} {t : Text} : token.string false = .ok t →
      Becomes (n + 1) (.string token) (.literal (.text t))
  | bool {n : Nat} {b : Bool} : Becomes (n + 1) (.bool b) (.literal (.bool b))
  | null {n : Nat} : Becomes (n + 1) .null (.literal .null)
  | name {n : Nat} {token : Token} {id : Identifier} : token.identifier false = .ok id →
      Becomes (n + 1) (.name token) (.identifier id)
  | array {n : Nat} {ps : List Phrase} {es : List Expr} : resolveList n ps = .ok es →
      Becomes (n + 1) (.array ps) (.array es)
  | object {n : Nat} {ps : List PhraseEntry} {es : List Entry} : resolveEntries n ps = .ok es →
      Becomes (n + 1) (.object ps) (.object es)
  | unary {n : Nat} {op : UnaryOp} {p : Phrase} {a : Expr} : p.resolve n = .ok a →
      Becomes (n + 1) (.unary op p) (.unary op a)
  | binary {n : Nat} {op : BinaryOp} {p q : Phrase} {a b : Expr} : p.resolve n = .ok a →
      q.resolve n = .ok b → Becomes (n + 1) (.binary op p q) (.binary op a b)
  | conditional {n : Nat} {p q r : Phrase} {a b c : Expr} : p.resolve n = .ok a →
      q.resolve n = .ok b → r.resolve n = .ok c →
      Becomes (n + 1) (.conditional p q r) (.conditional a b c)
  | member {n : Nat} {p : Phrase} {a : Expr} {name : Text} {optional : Bool} :
      p.resolve n = .ok a → Becomes (n + 1) (.member p name optional) (.member a name optional)
  | index {n : Nat} {p q : Phrase} {a b : Expr} {optional : Bool} : p.resolve n = .ok a →
      q.resolve n = .ok b → Becomes (n + 1) (.index p q optional) (.index a b optional)

inductive PhraseEntry.Becomes : Nat → PhraseEntry → Entry → Prop where
  | keyed {n : Nat} {token : Token} {key : Text} {p : Phrase} {a : Expr} : token.key = .ok key →
      p.resolve n = .ok a → Becomes n (.keyed token p) (.named key a)
  | computed {n : Nat} {p q : Phrase} {a b : Expr} : p.resolve n = .ok a → q.resolve n = .ok b →
      Becomes n (.computed p q) (.computed a b)
  | shorthand {n : Nat} {token : Token} {id : Identifier} : token.identifier true = .ok id →
      Becomes (n + 1) (.shorthand token) (.named id.name (.identifier id))

section Inversion

variable {room : Nat}

theorem Phrase.becomes_of_resolve {p : Phrase} {e : Expr} (h : p.resolve room = .ok e) :
    p.Becomes room e := by
  cases room with
  | zero => simp [resolve] at h
  | succ n =>
    cases p with
    | number | bool | null =>
      simp only [resolve, Except.ok.injEq] at h
      subst h
      constructor
    | string | name | array | object | unary | member =>
      simp only [resolve, Traversal.bind_eq_ok_iff, pure, Except.pure, Except.ok.injEq] at h
      obtain ⟨a, ha, rfl⟩ := h
      constructor
      exact ha
    | binary | index =>
      simp only [resolve, Traversal.bind_eq_ok_iff, pure, Except.pure, Except.ok.injEq] at h
      obtain ⟨a, ha, b, hb, rfl⟩ := h
      constructor
      . exact ha
      . exact hb
    | conditional =>
      simp only [resolve, Traversal.bind_eq_ok_iff, pure, Except.pure, Except.ok.injEq] at h
      obtain ⟨a, ha, b, hb, c, hc, rfl⟩ := h
      exact .conditional ha hb hc

theorem PhraseEntry.becomes_of_resolve {p : PhraseEntry} {entry : Entry}
    (h : p.resolve room = .ok entry) : p.Becomes room entry := by
  cases p with
  | keyed token p =>
    simp only [resolve, Traversal.bind_eq_ok_iff, pure, Except.pure, Except.ok.injEq] at h
    obtain ⟨key, hkey, a, ha, rfl⟩ := h
    exact .keyed hkey ha
  | computed p q =>
    simp only [resolve, Traversal.bind_eq_ok_iff, pure, Except.pure, Except.ok.injEq] at h
    obtain ⟨a, ha, b, hb, rfl⟩ := h
    exact .computed ha hb
  | shorthand token =>
    cases room with
    | zero => simp [resolve] at h
    | succ n =>
      simp only [resolve, Traversal.bind_eq_ok_iff, pure, Except.pure, Except.ok.injEq] at h
      obtain ⟨id, hid, rfl⟩ := h
      exact .shorthand hid

theorem exists_of_resolveList {p : Phrase} {ps : List Phrase} {es : List Expr}
    (h : resolveList room (p :: ps) = .ok es) :
    ∃ a as, p.resolve room = .ok a ∧ resolveList room ps = .ok as ∧ a :: as = es := by
  simp only [resolveList, Traversal.bind_eq_ok_iff, pure, Except.pure, Except.ok.injEq] at h
  obtain ⟨a, ha, as, has, heq⟩ := h
  exact ⟨a, as, ha, has, heq⟩

theorem exists_of_resolveEntries {p : PhraseEntry} {ps : List PhraseEntry} {es : List Entry}
    (h : resolveEntries room (p :: ps) = .ok es) :
    ∃ a as, p.resolve room = .ok a ∧ resolveEntries room ps = .ok as ∧ a :: as = es := by
  simp only [resolveEntries, Traversal.bind_eq_ok_iff, pure, Except.pure, Except.ok.injEq] at h
  obtain ⟨a, ha, as, has, heq⟩ := h
  exact ⟨a, as, ha, has, heq⟩

end Inversion

/--
Whatever a phrase becomes has a property, in a room of any size.
-/
def Phrase.Gives (holds : Expr → Prop) (p : Phrase) : Prop :=
  ∀ room e, p.resolve room = .ok e → holds e

def GivesList (holds : List Expr → Prop) (ps : List Phrase) : Prop :=
  ∀ room es, resolveList room ps = .ok es → holds es

def PhraseEntry.Gives (holds : Entry → Prop) (p : PhraseEntry) : Prop :=
  ∀ room e, p.resolve room = .ok e → holds e

def GivesEntries (holds : List Entry → Prop) (ps : List PhraseEntry) : Prop :=
  ∀ room es, resolveEntries room ps = .ok es → holds es

namespace Phrase.Gives

variable {holds first second third : Expr → Prop} {p q r : Phrase}

theorem number {token : Token} (h : holds (.literal (.number (Literal.number token.text)))) :
    (Phrase.number token).Gives holds := by
  intro room e he
  cases Phrase.becomes_of_resolve he
  exact h

theorem string {token : Token}
    (h : ∀ t, token.string false = .ok t → holds (.literal (.text t))) :
    (Phrase.string token).Gives holds := by
  intro room e he
  cases Phrase.becomes_of_resolve he with
  | string ht => exact h _ ht

theorem bool {b : Bool} (h : holds (.literal (.bool b))) : (Phrase.bool b).Gives holds := by
  intro room e he
  cases Phrase.becomes_of_resolve he
  exact h

theorem null (h : holds (.literal .null)) : Phrase.null.Gives holds := by
  intro room e he
  cases Phrase.becomes_of_resolve he
  exact h

theorem name {token : Token}
    (h : ∀ id, token.identifier false = .ok id → holds (.identifier id)) :
    (Phrase.name token).Gives holds := by
  intro room e he
  cases Phrase.becomes_of_resolve he with
  | name hid => exact h _ hid

theorem array {ps : List Phrase} {items : List Expr → Prop} (hps : GivesList items ps)
    (h : ∀ es, items es → holds (.array es)) : (Phrase.array ps).Gives holds := by
  intro room e he
  cases Phrase.becomes_of_resolve he with
  | array hes => exact h _ (hps _ _ hes)

theorem object {ps : List PhraseEntry} {entries : List Entry → Prop} (hps : GivesEntries entries ps)
    (h : ∀ es, entries es → holds (.object es)) : (Phrase.object ps).Gives holds := by
  intro room e he
  cases Phrase.becomes_of_resolve he with
  | object hes => exact h _ (hps _ _ hes)

theorem unary {op : UnaryOp} (hp : p.Gives first) (h : ∀ a, first a → holds (.unary op a)) :
    (Phrase.unary op p).Gives holds := by
  intro room e he
  cases Phrase.becomes_of_resolve he with
  | unary ha => exact h _ (hp _ _ ha)

theorem binary {op : BinaryOp} (hp : p.Gives first) (hq : q.Gives second)
    (h : ∀ a b, first a → second b → holds (.binary op a b)) :
    (Phrase.binary op p q).Gives holds := by
  intro room e he
  cases Phrase.becomes_of_resolve he with
  | binary ha hb => exact h _ _ (hp _ _ ha) (hq _ _ hb)

theorem conditional (hp : p.Gives first) (hq : q.Gives second) (hr : r.Gives third)
    (h : ∀ a b c, first a → second b → third c → holds (.conditional a b c)) :
    (Phrase.conditional p q r).Gives holds := by
  intro room e he
  cases Phrase.becomes_of_resolve he with
  | conditional ha hb hc => exact h _ _ _ (hp _ _ ha) (hq _ _ hb) (hr _ _ hc)

theorem member {label : Text} {optional : Bool} (hp : p.Gives first)
    (h : ∀ a, first a → holds (.member a label optional)) :
    (Phrase.member p label optional).Gives holds := by
  intro room e he
  cases Phrase.becomes_of_resolve he with
  | member ha => exact h _ (hp _ _ ha)

theorem index {optional : Bool} (hp : p.Gives first) (hq : q.Gives second)
    (h : ∀ a b, first a → second b → holds (.index a b optional)) :
    (Phrase.index p q optional).Gives holds := by
  intro room e he
  cases Phrase.becomes_of_resolve he with
  | index ha hb => exact h _ _ (hp _ _ ha) (hq _ _ hb)

end Phrase.Gives

namespace GivesList

variable {holds rest : List Expr → Prop} {first : Expr → Prop} {p : Phrase} {ps : List Phrase}

theorem nil (h : holds []) : GivesList holds [] := by
  intro room es hes
  cases hes
  exact h

theorem cons (hp : p.Gives first) (hps : GivesList rest ps)
    (h : ∀ a as, first a → rest as → holds (a :: as)) : GivesList holds (p :: ps) := by
  intro room es hes
  obtain ⟨a, as, ha, has, rfl⟩ := exists_of_resolveList hes
  exact h a as (hp _ _ ha) (hps _ _ has)

theorem singleton (hp : p.Gives first) (h : ∀ a, first a → holds [a]) : GivesList holds [p] := by
  intro room es hes
  obtain ⟨a, as, ha, has, rfl⟩ := exists_of_resolveList hes
  cases has
  exact h a (hp _ _ ha)

end GivesList

namespace PhraseEntry.Gives

variable {holds : Entry → Prop} {first second : Expr → Prop} {p q : Phrase} {token : Token}

theorem shorthand
    (h : ∀ id, token.identifier true = .ok id → holds (.named id.name (.identifier id))) :
    (PhraseEntry.shorthand token).Gives holds := by
  intro room e he
  cases PhraseEntry.becomes_of_resolve he with
  | shorthand hid => exact h _ hid

theorem keyed (hp : p.Gives first)
    (h : ∀ key a, token.key = .ok key → first a → holds (.named key a)) :
    (PhraseEntry.keyed token p).Gives holds := by
  intro room e he
  cases PhraseEntry.becomes_of_resolve he with
  | keyed hkey ha => exact h _ _ hkey (hp _ _ ha)

theorem computed (hp : p.Gives first) (hq : q.Gives second)
    (h : ∀ a b, first a → second b → holds (.computed a b)) :
    (PhraseEntry.computed p q).Gives holds := by
  intro room e he
  cases PhraseEntry.becomes_of_resolve he with
  | computed ha hb => exact h _ _ (hp _ _ ha) (hq _ _ hb)

end PhraseEntry.Gives

namespace GivesEntries

variable {holds rest : List Entry → Prop} {first : Entry → Prop} {p : PhraseEntry}
  {ps : List PhraseEntry}

theorem nil (h : holds []) : GivesEntries holds [] := by
  intro room es hes
  cases hes
  exact h

theorem cons (hp : p.Gives first) (hps : GivesEntries rest ps)
    (h : ∀ a as, first a → rest as → holds (a :: as)) : GivesEntries holds (p :: ps) := by
  intro room es hes
  obtain ⟨a, as, ha, has, rfl⟩ := exists_of_resolveEntries hes
  exact h a as (hp _ _ ha) (hps _ _ has)

theorem singleton (hp : p.Gives first) (h : ∀ a, first a → holds [a]) : GivesEntries holds [p] := by
  intro room es hes
  obtain ⟨a, as, ha, has, rfl⟩ := exists_of_resolveEntries hes
  cases has
  exact h a (hp _ _ ha)

end GivesEntries

def tooDeep : Failure :=
  .parse .tooDeep none

theorem Expr.depth_pos (e : Expr) : 0 < e.depth := by
  cases e with
  | literal | identifier => exact Nat.one_pos
  | _ => exact Nat.succ_pos _

theorem bind_room {α β : Type} {c : Prop} [Decidable c] (a : α) (f : α → Except Failure β) :
    (if c then Except.ok a else .error tooDeep) >>= f = if c then f a else .error tooDeep := by
  split
  . rfl
  . rfl

mutual

theorem Phrase.resolve_eq {room : Nat} {p : Phrase} {e : Expr} (h : p.resolve room = .ok e)
    (room' : Nat) : p.resolve room' = if e.depth ≤ room' then .ok e else .error tooDeep := by
  cases room' with
  | zero =>
    rw [if_neg (Nat.not_le.mpr e.depth_pos), Phrase.resolve]
    rfl
  | succ n =>
    match p with
    | .number token | .bool b | .null =>
      cases Phrase.becomes_of_resolve h
      exact (if_pos (Nat.le_add_left 1 n)).symm
    | .string token =>
      cases Phrase.becomes_of_resolve h with
      | string ht =>
        rw [Phrase.resolve, ht]
        exact (if_pos (Nat.le_add_left 1 n)).symm
    | .name token =>
      cases Phrase.becomes_of_resolve h with
      | name hid =>
        rw [Phrase.resolve, hid]
        exact (if_pos (Nat.le_add_left 1 n)).symm
    | .array ps =>
      cases Phrase.becomes_of_resolve h with
      | array hes =>
        rw [Phrase.resolve, resolveList_eq hes n, bind_room]
        simp only [Expr.depth, Nat.add_le_add_iff_right]
        rfl
    | .object ps =>
      cases Phrase.becomes_of_resolve h with
      | object hes =>
        rw [Phrase.resolve, resolveEntries_eq hes n, bind_room]
        simp only [Expr.depth, Nat.add_le_add_iff_right]
        rfl
    | .unary op p =>
      cases Phrase.becomes_of_resolve h with
      | unary ha =>
        rw [Phrase.resolve, Phrase.resolve_eq ha n, bind_room]
        simp only [Expr.depth, Nat.add_le_add_iff_right]
        rfl
    | .binary op p q =>
      cases Phrase.becomes_of_resolve h with
      | binary ha hb =>
        rw [Phrase.resolve, Phrase.resolve_eq ha n, Phrase.resolve_eq hb n]
        simp only [bind_room, Expr.depth, Nat.add_le_add_iff_right, Nat.max_le, ite_and]
        rfl
    | .conditional p q r =>
      cases Phrase.becomes_of_resolve h with
      | conditional ha hb hc =>
        rw [Phrase.resolve, Phrase.resolve_eq ha n, Phrase.resolve_eq hb n,
          Phrase.resolve_eq hc n]
        simp only [bind_room, Expr.depth, Nat.add_le_add_iff_right, Nat.max_le, ite_and]
        rfl
    | .member p name optional =>
      cases Phrase.becomes_of_resolve h with
      | member ha =>
        rw [Phrase.resolve, Phrase.resolve_eq ha n, bind_room]
        simp only [Expr.depth, Nat.add_le_add_iff_right]
        rfl
    | .index p q optional =>
      cases Phrase.becomes_of_resolve h with
      | index ha hb =>
        rw [Phrase.resolve, Phrase.resolve_eq ha n, Phrase.resolve_eq hb n]
        simp only [bind_room, Expr.depth, Nat.add_le_add_iff_right, Nat.max_le, ite_and]
        rfl

theorem resolveList_eq {room : Nat} {ps : List Phrase} {es : List Expr}
    (h : resolveList room ps = .ok es) (room' : Nat) :
    resolveList room' ps = if depthOfList es ≤ room' then .ok es else .error tooDeep := by
  match ps with
  | [] =>
    cases h
    rfl
  | p :: ps =>
    obtain ⟨a, as, ha, has, rfl⟩ := exists_of_resolveList h
    rw [resolveList, Phrase.resolve_eq ha room', resolveList_eq has room']
    simp only [bind_room, depthOfList, Nat.max_le, ite_and]
    rfl

theorem PhraseEntry.resolve_eq {room : Nat} {p : PhraseEntry} {entry : Entry}
    (h : p.resolve room = .ok entry) (room' : Nat) :
    p.resolve room' = if depthOfEntry entry ≤ room' then .ok entry else .error tooDeep := by
  match p with
  | .keyed token p =>
    cases PhraseEntry.becomes_of_resolve h with
    | keyed hkey ha =>
      rw [PhraseEntry.resolve, hkey, Phrase.resolve_eq ha room']
      exact bind_room _ _
  | .computed p q =>
    cases PhraseEntry.becomes_of_resolve h with
    | computed ha hb =>
      rw [PhraseEntry.resolve, Phrase.resolve_eq ha room', Phrase.resolve_eq hb room']
      simp only [bind_room, depthOfEntry, Nat.max_le, ite_and]
      rfl
  | .shorthand name =>
    cases PhraseEntry.becomes_of_resolve h with
    | shorthand hid =>
      cases room' with
      | zero => rfl
      | succ n =>
        rw [PhraseEntry.resolve, hid]
        exact (if_pos (Nat.le_add_left 1 n)).symm

theorem resolveEntries_eq {room : Nat} {ps : List PhraseEntry} {es : List Entry}
    (h : resolveEntries room ps = .ok es) (room' : Nat) :
    resolveEntries room' ps = if depthOfEntries es ≤ room' then .ok es else .error tooDeep := by
  match ps with
  | [] =>
    cases h
    rfl
  | p :: ps =>
    obtain ⟨a, as, ha, has, rfl⟩ := exists_of_resolveEntries h
    rw [resolveEntries, PhraseEntry.resolve_eq ha room', resolveEntries_eq has room']
    simp only [bind_room, depthOfEntries, Nat.max_le, ite_and]
    rfl

end

theorem depth_le_of_resolve {room : Nat} {p : Phrase} {e : Expr} (h : p.resolve room = .ok e) :
    e.depth ≤ room := by
  have heq := Phrase.resolve_eq h room
  rw [h] at heq
  split at heq
  . next hle => exact hle
  . cases heq

theorem depthOfList_le_of_resolveList {room : Nat} {ps : List Phrase} {es : List Expr}
    (h : resolveList room ps = .ok es) : depthOfList es ≤ room := by
  have heq := resolveList_eq h room
  rw [h] at heq
  split at heq
  . next hle => exact hle
  . cases heq

end Expression

end PageBinding
