import PageBinding.Expression.Resolve
import PageBinding.Proofs.Expression.Tree

/-!
This module contains which phrases become which expressions. Phrases know where their names stand
and expressions of interest do not, so identifiers are compared up to a map.
-/

namespace PageBinding

namespace Expression

variable {g : Identifier → Identifier}

/--
A phrase is turned into an expression, or into one that differs in its identifiers only, wherever
there is room for it.
-/
def Phrase.Resolves (g : Identifier → Identifier) (p : Phrase) (e : Expr) : Prop :=
  ∀ room, e.depth ≤ room →
    ∃ e', p.resolve room = .ok e' ∧ e'.mapIdentifiers g = e.mapIdentifiers g

def ItemsResolve (g : Identifier → Identifier) (ps : List Phrase) (es : List Expr) : Prop :=
  ∀ room, depthOfList es ≤ room →
    ∃ es', resolveList room ps = .ok es' ∧ mapIdentifiersOfList g es' = mapIdentifiersOfList g es

def PhraseEntry.Resolves (g : Identifier → Identifier) (p : PhraseEntry) (entry : Entry) : Prop :=
  ∀ room, depthOfEntry entry ≤ room →
    ∃ e', p.resolve room = .ok e' ∧ mapIdentifiersOfEntry g e' = mapIdentifiersOfEntry g entry

def EntriesResolve (g : Identifier → Identifier) (ps : List PhraseEntry) (es : List Entry) : Prop :=
  ∀ room, depthOfEntries es ≤ room →
    ∃ es', resolveEntries room ps = .ok es' ∧
      mapIdentifiersOfEntries g es' = mapIdentifiersOfEntries g es

theorem room_eq_succ {n room : Nat} (h : n + 1 ≤ room) : ∃ r, room = r + 1 ∧ n ≤ r :=
  ⟨room - 1, by omega, by omega⟩

namespace Phrase.Resolves

variable {p q r : Phrase} {a b c : Expr}

theorem leaf {e : Expr} (hdepth : e.depth = 1)
    (h : ∀ room, ∃ e', p.resolve (room + 1) = .ok e' ∧ e'.mapIdentifiers g = e.mapIdentifiers g) :
    p.Resolves g e := by
  intro room hroom
  obtain ⟨r, rfl, -⟩ := room_eq_succ (hdepth ▸ hroom)
  exact h r

theorem unary (op : UnaryOp) (h : p.Resolves g a) :
    (Phrase.unary op p).Resolves g (.unary op a) := by
  intro room hroom
  obtain ⟨r, rfl, hr⟩ := room_eq_succ hroom
  obtain ⟨a', hresolve, heq⟩ := h r hr
  refine ⟨.unary op a', ?_, ?_⟩
  . rw [Phrase.resolve, hresolve]
    rfl
  . simp only [Expr.mapIdentifiers, heq]

theorem binary (op : BinaryOp) (hleft : p.Resolves g a) (hright : q.Resolves g b) :
    (Phrase.binary op p q).Resolves g (.binary op a b) := by
  intro room hroom
  obtain ⟨r, rfl, hr⟩ := room_eq_succ hroom
  obtain ⟨a', hresolve, heq⟩ := hleft r (by omega)
  obtain ⟨b', hresolve', heq'⟩ := hright r (by omega)
  refine ⟨.binary op a' b', ?_, ?_⟩
  . rw [Phrase.resolve, hresolve, hresolve']
    rfl
  . simp only [Expr.mapIdentifiers, heq, heq']

theorem conditional (htest : p.Resolves g a) (hconsequent : q.Resolves g b)
    (halternate : r.Resolves g c) : (Phrase.conditional p q r).Resolves g (.conditional a b c) := by
  intro room hroom
  obtain ⟨n, rfl, hn⟩ := room_eq_succ hroom
  obtain ⟨a', hresolve, heq⟩ := htest n (by omega)
  obtain ⟨b', hresolve', heq'⟩ := hconsequent n (by omega)
  obtain ⟨c', hresolve'', heq''⟩ := halternate n (by omega)
  refine ⟨.conditional a' b' c', ?_, ?_⟩
  . rw [Phrase.resolve, hresolve, hresolve', hresolve'']
    rfl
  . simp only [Expr.mapIdentifiers, heq, heq', heq'']

theorem member (h : p.Resolves g a) (name : Text) (optional : Bool) :
    (Phrase.member p name optional).Resolves g (.member a name optional) := by
  intro room hroom
  obtain ⟨r, rfl, hr⟩ := room_eq_succ hroom
  obtain ⟨a', hresolve, heq⟩ := h r hr
  refine ⟨.member a' name optional, ?_, ?_⟩
  . rw [Phrase.resolve, hresolve]
    rfl
  . simp only [Expr.mapIdentifiers, heq]

theorem index (hobject : p.Resolves g a) (hkey : q.Resolves g b) (optional : Bool) :
    (Phrase.index p q optional).Resolves g (.index a b optional) := by
  intro room hroom
  obtain ⟨r, rfl, hr⟩ := room_eq_succ hroom
  obtain ⟨a', hresolve, heq⟩ := hobject r (by omega)
  obtain ⟨b', hresolve', heq'⟩ := hkey r (by omega)
  refine ⟨.index a' b' optional, ?_, ?_⟩
  . rw [Phrase.resolve, hresolve, hresolve']
    rfl
  . simp only [Expr.mapIdentifiers, heq, heq']

theorem array {ps : List Phrase} {es : List Expr} (h : ItemsResolve g ps es) :
    (Phrase.array ps).Resolves g (.array es) := by
  intro room hroom
  obtain ⟨r, rfl, hr⟩ := room_eq_succ hroom
  obtain ⟨es', hresolve, heq⟩ := h r hr
  refine ⟨.array es', ?_, ?_⟩
  . rw [Phrase.resolve, hresolve]
    rfl
  . simp only [Expr.mapIdentifiers, heq]

theorem object {ps : List PhraseEntry} {es : List Entry} (h : EntriesResolve g ps es) :
    (Phrase.object ps).Resolves g (.object es) := by
  intro room hroom
  obtain ⟨r, rfl, hr⟩ := room_eq_succ hroom
  obtain ⟨es', hresolve, heq⟩ := h r hr
  refine ⟨.object es', ?_, ?_⟩
  . rw [Phrase.resolve, hresolve]
    rfl
  . simp only [Expr.mapIdentifiers, heq]

end Phrase.Resolves

theorem ItemsResolve.nil : ItemsResolve g [] [] :=
  fun _ _ => ⟨[], rfl, rfl⟩

theorem ItemsResolve.cons {p : Phrase} {ps : List Phrase} {e : Expr} {es : List Expr}
    (h : p.Resolves g e) (hrest : ItemsResolve g ps es) : ItemsResolve g (p :: ps) (e :: es) := by
  intro room hroom
  simp only [depthOfList] at hroom
  obtain ⟨e', hresolve, heq⟩ := h room (by omega)
  obtain ⟨es', hresolve', heq'⟩ := hrest room (by omega)
  refine ⟨e' :: es', ?_, ?_⟩
  . rw [resolveList, hresolve, hresolve']
    rfl
  . simp only [mapIdentifiersOfList, heq, heq']

theorem EntriesResolve.nil : EntriesResolve g [] [] :=
  fun _ _ => ⟨[], rfl, rfl⟩

theorem EntriesResolve.cons {p : PhraseEntry} {ps : List PhraseEntry} {e : Entry} {es : List Entry}
    (h : p.Resolves g e) (hrest : EntriesResolve g ps es) :
    EntriesResolve g (p :: ps) (e :: es) := by
  intro room hroom
  simp only [depthOfEntries] at hroom
  obtain ⟨e', hresolve, heq⟩ := h room (by omega)
  obtain ⟨es', hresolve', heq'⟩ := hrest room (by omega)
  refine ⟨e' :: es', ?_, ?_⟩
  . rw [resolveEntries, hresolve, hresolve']
    rfl
  . simp only [mapIdentifiersOfEntries, heq, heq']

namespace PhraseEntry.Resolves

variable {p q : Phrase} {a b : Expr}

theorem keyed {token : Token} {key : Text} (hkey : token.key = .ok key) (h : p.Resolves g a) :
    (PhraseEntry.keyed token p).Resolves g (.named key a) := by
  intro room hroom
  obtain ⟨a', hresolve, heq⟩ := h room hroom
  refine ⟨.named key a', ?_, ?_⟩
  . rw [PhraseEntry.resolve, hkey, hresolve]
    rfl
  . simp only [mapIdentifiersOfEntry, heq]

theorem computed (hkey : p.Resolves g a) (h : q.Resolves g b) :
    (PhraseEntry.computed p q).Resolves g (.computed a b) := by
  intro room hroom
  simp only [depthOfEntry] at hroom
  obtain ⟨a', hresolve, heq⟩ := hkey room (by omega)
  obtain ⟨b', hresolve', heq'⟩ := h room (by omega)
  refine ⟨.computed a' b', ?_, ?_⟩
  . rw [PhraseEntry.resolve, hresolve, hresolve']
    rfl
  . simp only [mapIdentifiersOfEntry, heq, heq']

end PhraseEntry.Resolves

end Expression

end PageBinding
