import Mathlib
import PageBinding.Proofs.Expression.Evaluation
import PageBinding.Proofs.Expression.Occurrences

/-!
This module contains which texts are refused for the variables that they depend on: those with an
identifier anywhere, also where evaluation would not come to it. Where there is none, evaluation
never comes to one.
-/

namespace PageBinding

theorem Text.pairwise_distinct (ts : List Text) :
    (Text.distinct ts).Pairwise fun a b =>
      ∀ before after, ts = before ++ b :: after → a ∈ before := by
  induction ts using List.reverseRecOn with
  | nil => exact .nil
  | append_singleton ts t ih =>
    have hsnoc : distinct (ts ++ [t]) =
        if t ∈ distinct ts then distinct ts else distinct ts ++ [t] := by
      rw [distinct, List.foldl_append]
      rfl
    -- An occurrence is either among the earlier texts or the last one.
    have hcases {b : Text} {before after : List Text} (h : ts ++ [t] = before ++ b :: after) :
        before = ts ∧ b = t ∨ ∃ rest, ts = before ++ b :: rest := by
      rcases List.eq_nil_or_concat after with rfl | ⟨rest, last, rfl⟩
      . obtain ⟨hbefore, hb⟩ := List.append_inj' h rfl
        exact .inl ⟨hbefore.symm, (List.cons.inj hb).1.symm⟩
      . rw [List.concat_eq_append, ← List.cons_append, ← List.append_assoc] at h
        exact .inr ⟨rest, (List.append_inj' h rfl).1⟩
    have hold : (distinct ts).Pairwise fun a b =>
        ∀ before after, ts ++ [t] = before ++ b :: after → a ∈ before := by
      refine ih.imp_of_mem fun {a b} ha _ hab before after h => ?_
      rcases hcases h with ⟨rfl, -⟩ | ⟨rest, hrest⟩
      . exact mem_distinct.mp ha
      . exact hab before rest hrest
    rw [hsnoc]
    split
    . exact hold
    . next hnew =>
      refine List.pairwise_append.mpr ⟨hold, List.pairwise_singleton _ _, ?_⟩
      intro a ha b hb before after h
      obtain rfl := List.mem_singleton.mp hb
      rcases hcases h with ⟨rfl, -⟩ | ⟨rest, hrest⟩
      . exact mem_distinct.mp ha
      . exact absurd (mem_distinct.mpr (hrest ▸ by simp)) hnew

namespace Expression

open Traversal

section Collected

variable {id : Identifier}

mutual

theorem Expr.mem_identifiers_iff (e : Expr) :
    id ∈ e.identifiers ↔ .identifier id ∈ e.parts := by
  match e with
  | .literal _ => simp [Expr.identifiers, Expr.parts]
  | .identifier _ => simp [Expr.identifiers, Expr.parts]
  | .array items => simp [Expr.identifiers, Expr.parts, mem_identifiersOfList_iff items]
  | .object entries => simp [Expr.identifiers, Expr.parts, mem_identifiersOfEntries_iff entries]
  | .unary _ operand => simp [Expr.identifiers, Expr.parts, operand.mem_identifiers_iff]
  | .binary _ left right =>
    simp [Expr.identifiers, Expr.parts, left.mem_identifiers_iff, right.mem_identifiers_iff]
  | .conditional test consequent alternate =>
    simp [Expr.identifiers, Expr.parts, test.mem_identifiers_iff,
      consequent.mem_identifiers_iff, alternate.mem_identifiers_iff]
  | .member object _ _ => simp [Expr.identifiers, Expr.parts, object.mem_identifiers_iff]
  | .index object key _ =>
    simp [Expr.identifiers, Expr.parts, object.mem_identifiers_iff, key.mem_identifiers_iff]

theorem mem_identifiersOfList_iff (es : List Expr) :
    id ∈ identifiersOfList es ↔ .identifier id ∈ partsOfList es := by
  match es with
  | [] => simp [identifiersOfList, partsOfList]
  | e :: rest =>
    simp [identifiersOfList, partsOfList, e.mem_identifiers_iff, mem_identifiersOfList_iff rest]

theorem mem_identifiersOfEntry_iff (entry : Entry) :
    id ∈ identifiersOfEntry entry ↔ .identifier id ∈ partsOfEntry entry := by
  match entry with
  | .named _ value => simp [identifiersOfEntry, partsOfEntry, value.mem_identifiers_iff]
  | .computed key value =>
    simp [identifiersOfEntry, partsOfEntry, key.mem_identifiers_iff, value.mem_identifiers_iff]

theorem mem_identifiersOfEntries_iff (entries : List Entry) :
    id ∈ identifiersOfEntries entries ↔ .identifier id ∈ partsOfEntries entries := by
  match entries with
  | [] => simp [identifiersOfEntries, partsOfEntries]
  | entry :: rest =>
    simp [identifiersOfEntries, partsOfEntries, mem_identifiersOfEntry_iff entry,
      mem_identifiersOfEntries_iff rest]

end

end Collected

/--
Names are those of the identifiers in an expression, each once and in the order in which they occur
first.
-/
structure Expr.Lists (e : Expr) (names : List Text) : Prop where
  nodup : names.Nodup
  mem_iff : ∀ name, name ∈ names ↔ ∃ id, .identifier id ∈ e.parts ∧ id.name = name
  ordered : names.Pairwise fun a b => ∀ id, .identifier id ∈ e.parts → id.name = b →
    ∃ earlier, .identifier earlier ∈ e.parts ∧ earlier.name = a ∧ earlier.start < id.start

namespace Expr.Lists

variable {e : Expr} {names names' : List Text}

theorem unique (h : e.Lists names) (h' : e.Lists names') : names = names' := by
  have hperm : names.Perm names' :=
    (List.perm_ext_iff_of_nodup h.nodup h'.nodup).mpr fun name => by rw [h.mem_iff, h'.mem_iff]
  refine List.Perm.eq_of_pairwise (fun a b ha _ hab hba => ?_) h.ordered h'.ordered hperm
  obtain ⟨id, hid, hname⟩ := (h.mem_iff a).mp ha
  exfalso
  -- Each occurrence of one name would have one of the other name before it, without end.
  induction hn : id.start using Nat.strongRecOn generalizing id with
  | ind n ih =>
    obtain ⟨other, hother, hothername, hlt⟩ := hba id hid hname
    obtain ⟨earlier, hearlier, hearliername, hlt'⟩ := hab other hother hothername
    exact ih earlier.start (by omega) earlier hearlier hearliername rfl

theorem distinct {t : Text} (h : Placed t e.identifiers) :
    e.Lists (Text.distinct (e.identifiers.map Identifier.name)) := by
  have hmem (name : Text) : name ∈ Text.distinct (e.identifiers.map Identifier.name) ↔
      ∃ id, .identifier id ∈ e.parts ∧ id.name = name := by
    simp only [Text.mem_distinct, List.mem_map, e.mem_identifiers_iff]
  refine ⟨Text.nodup_distinct _, hmem,
    (Text.pairwise_distinct _).imp fun {a b} hab id hid hname => ?_⟩
  obtain ⟨before, after, hids⟩ := List.append_of_mem (e.mem_identifiers_iff.mpr hid)
  have hfirst := hab (before.map Identifier.name) (after.map Identifier.name) (by
    rw [hids, List.map_append, List.map_cons, hname])
  obtain ⟨earlier, hearlier, hearliername⟩ := List.mem_map.mp hfirst
  have hin : earlier ∈ e.identifiers := hids ▸ List.mem_append_left _ hearlier
  refine ⟨earlier, e.mem_identifiers_iff.mp hin, hearliername, ?_⟩
  have hordered := h.ordered
  rw [hids, List.pairwise_append] at hordered
  exact Nat.lt_of_lt_of_le (h.bounds earlier hin).1
    (hordered.2.2 earlier hearlier id List.mem_cons_self)

end Expr.Lists

/--
Evaluation comes to an identifier. What stands before it has been evaluated, and operators and
conditions have not left it out.
-/
inductive Expr.Reaches : Expr → Identifier → Prop where
  | identifier (id : Identifier) : Reaches (.identifier id) id
  | item {before after : List Expr} {vs : List Value} {e : Expr} {id : Identifier} :
    evaluateList before = .ok vs → Reaches e id → Reaches (.array (before ++ e :: after)) id
  | named {before after : List Entry} {vs : List (Text × Value)} {key : Text} {e : Expr}
      {id : Identifier} :
    evaluateEntries before = .ok vs → Reaches e id →
      Reaches (.object (before ++ .named key e :: after)) id
  | key {before after : List Entry} {vs : List (Text × Value)} {key e : Expr} {id : Identifier} :
    evaluateEntries before = .ok vs → Reaches key id →
      Reaches (.object (before ++ .computed key e :: after)) id
  | computed {before after : List Entry} {vs : List (Text × Value)} {key e : Expr} {v : Value}
      {name : Text} {id : Identifier} :
    evaluateEntries before = .ok vs → key.evaluate = .ok v → plainText v = .ok name →
      Reaches e id → Reaches (.object (before ++ .computed key e :: after)) id
  | operand {op : UnaryOp} {e : Expr} {id : Identifier} : Reaches e id → Reaches (.unary op e) id
  | left {op : BinaryOp} {left right : Expr} {id : Identifier} :
    Reaches left id → Reaches (.binary op left right) id
  | right {op : BinaryOp} {left right : Expr} {a : Value} {id : Identifier} :
    left.evaluate = .ok a → shortCircuits op a = .ok false → Reaches right id →
      Reaches (.binary op left right) id
  | test {test consequent alternate : Expr} {id : Identifier} :
    Reaches test id → Reaches (.conditional test consequent alternate) id
  | branch {test consequent alternate : Expr} {v : Value} {holds : Bool} {id : Identifier} :
    test.evaluate = .ok v → truthy v = .ok holds →
      Reaches (if holds then consequent else alternate) id →
      Reaches (.conditional test consequent alternate) id
  | member {e : Expr} {name : Text} {optional : Bool} {id : Identifier} :
    Reaches e id → Reaches (.member e name optional) id
  | object {e key : Expr} {optional : Bool} {id : Identifier} :
    Reaches e id → Reaches (.index e key optional) id
  | index {e key : Expr} {v : Value} {optional : Bool} {id : Identifier} :
    e.evaluate = .ok v → v ≠ .null → Reaches key id → Reaches (.index e key optional) id

section Reached

variable {id : Identifier}

theorem evaluateList_eq_error {before after : List Expr} {vs : List Value} {e : Expr}
    {failure : Failure} (hbefore : evaluateList before = .ok vs)
    (he : e.evaluate = .error failure) :
    evaluateList (before ++ e :: after) = .error failure := by
  induction before generalizing vs with
  | nil =>
    rw [List.nil_append, evaluateList, he]
    rfl
  | cons first before ih =>
    rw [evaluateList, bind_eq_ok_iff] at hbefore
    obtain ⟨v, hv, hbefore⟩ := hbefore
    obtain ⟨rest, hrest, -⟩ := bind_eq_ok_iff.mp hbefore
    rw [List.cons_append, evaluateList, hv, ih hrest]
    rfl

theorem evaluateEntries_eq_error {before after : List Entry} {vs : List (Text × Value)}
    {entry : Entry} {failure : Failure} (hbefore : evaluateEntries before = .ok vs)
    (hentry : evaluateEntry entry = .error failure) :
    evaluateEntries (before ++ entry :: after) = .error failure := by
  induction before generalizing vs with
  | nil =>
    rw [List.nil_append, evaluateEntries, hentry]
    rfl
  | cons first before ih =>
    rw [evaluateEntries, bind_eq_ok_iff] at hbefore
    obtain ⟨v, hv, hbefore⟩ := hbefore
    obtain ⟨rest, hrest, -⟩ := bind_eq_ok_iff.mp hbefore
    rw [List.cons_append, evaluateEntries, hv, ih hrest]
    rfl

theorem evaluateList_concat {before : List Expr} {vs : List Value} {e : Expr} {v : Value}
    (hbefore : evaluateList before = .ok vs) (he : e.evaluate = .ok v) :
    evaluateList (before ++ [e]) = .ok (vs ++ [v]) := by
  induction before generalizing vs with
  | nil =>
    cases hbefore
    rw [List.nil_append, evaluateList, he]
    rfl
  | cons first before ih =>
    rw [evaluateList, bind_eq_ok_iff] at hbefore
    obtain ⟨w, hw, hbefore⟩ := hbefore
    obtain ⟨rest, hrest, heq⟩ := bind_eq_ok_iff.mp hbefore
    cases heq
    rw [List.cons_append, evaluateList, hw, ih hrest]
    rfl

theorem evaluateEntries_concat {before : List Entry} {vs : List (Text × Value)} {entry : Entry}
    {v : Text × Value} (hbefore : evaluateEntries before = .ok vs)
    (hentry : evaluateEntry entry = .ok v) :
    evaluateEntries (before ++ [entry]) = .ok (vs ++ [v]) := by
  induction before generalizing vs with
  | nil =>
    cases hbefore
    rw [List.nil_append, evaluateEntries, hentry]
    rfl
  | cons first before ih =>
    rw [evaluateEntries, bind_eq_ok_iff] at hbefore
    obtain ⟨w, hw, hbefore⟩ := hbefore
    obtain ⟨rest, hrest, heq⟩ := bind_eq_ok_iff.mp hbefore
    cases heq
    rw [List.cons_append, evaluateEntries, hw, ih hrest]
    rfl

theorem Expr.Reaches.evaluate_eq {e : Expr} (h : e.Reaches id) :
    e.evaluate = .error (.dependsOnVariables [id.name]) := by
  induction h with
  | identifier => rfl
  | item hbefore _ ih =>
    rw [Expr.evaluate, evaluateList_eq_error hbefore ih]
    rfl
  | named hbefore _ ih =>
    rw [Expr.evaluate, evaluateEntries_eq_error hbefore (by rw [evaluateEntry, ih]; rfl)]
    rfl
  | key hbefore _ ih =>
    rw [Expr.evaluate, evaluateEntries_eq_error hbefore (by rw [evaluateEntry, ih]; rfl)]
    rfl
  | @computed before after vs key e v name id hbefore hkey hname _ ih =>
    have hentry : evaluateEntry (.computed key e) = .error (.dependsOnVariables [id.name]) := by
      simp only [evaluateEntry, hkey, hname, ih, bind, Except.bind]
    rw [Expr.evaluate, evaluateEntries_eq_error hbefore hentry]
    rfl
  | operand _ ih =>
    rw [Expr.evaluate, ih]
    rfl
  | left _ ih =>
    rw [Expr.evaluate, ih]
    rfl
  | right ha hshort _ ih =>
    simp only [Expr.evaluate, ha, hshort, ih, bind, Except.bind, Bool.false_eq_true, if_false]
  | test _ ih =>
    rw [Expr.evaluate, ih]
    rfl
  | @branch test consequent alternate v holds id hv hholds _ ih =>
    simp only [Expr.evaluate, hv, hholds, bind, Except.bind]
    cases holds with
    | true => exact ih
    | false => exact ih
  | member _ ih =>
    rw [Expr.evaluate, ih]
    rfl
  | object _ ih =>
    rw [Expr.evaluate, ih]
    rfl
  | index hv hne _ ih =>
    simp only [Expr.evaluate, hv, ih, bind, Except.bind, if_neg hne]

theorem mem_identifiersOfList_of_mem {es : List Expr} {e : Expr} (he : e ∈ es)
    (hid : id ∈ e.identifiers) : id ∈ identifiersOfList es := by
  induction es with
  | nil => cases he
  | cons first es ih =>
    rw [identifiersOfList, List.mem_append]
    rcases List.mem_cons.mp he with rfl | hmem
    . exact .inl hid
    . exact .inr (ih hmem)

theorem mem_identifiersOfEntries_of_mem {entries : List Entry} {entry : Entry}
    (hentry : entry ∈ entries) (hid : id ∈ identifiersOfEntry entry) :
    id ∈ identifiersOfEntries entries := by
  induction entries with
  | nil => cases hentry
  | cons first entries ih =>
    rw [identifiersOfEntries, List.mem_append]
    rcases List.mem_cons.mp hentry with rfl | hmem
    . exact .inl hid
    . exact .inr (ih hmem)

theorem Expr.Reaches.mem_identifiers {e : Expr} (h : e.Reaches id) : id ∈ e.identifiers := by
  have hmem {α : Type} (before after : List α) (a : α) : a ∈ before ++ a :: after := by simp
  induction h with
  | identifier id => exact List.mem_singleton_self id
  | item _ _ ih => exact mem_identifiersOfList_of_mem (hmem _ _ _) ih
  | named _ _ ih => exact mem_identifiersOfEntries_of_mem (hmem _ _ _) ih
  | key _ _ ih => exact mem_identifiersOfEntries_of_mem (hmem _ _ _) (List.mem_append_left _ ih)
  | computed _ _ _ _ ih =>
    exact mem_identifiersOfEntries_of_mem (hmem _ _ _) (List.mem_append_right _ ih)
  | operand _ ih => exact ih
  | left _ ih => exact List.mem_append_left _ ih
  | right _ _ _ ih => exact List.mem_append_right _ ih
  | test _ ih => exact List.mem_append_left _ (List.mem_append_left _ ih)
  | @branch test consequent alternate v holds id _ _ _ ih =>
    cases holds with
    | true => exact List.mem_append_left _ (List.mem_append_right _ ih)
    | false => exact List.mem_append_right _ ih
  | member _ ih => exact ih
  | object _ ih => exact List.mem_append_left _ ih
  | index _ _ _ ih => exact List.mem_append_right _ ih

theorem not_dependsOnVariables {α : Type} {x : Except Failure α} {names : List Text}
    (h : FailsOnly (fun failure => failure.isEvaluation = true ∨ (∃ v, Untestable v failure) ∨
      (∃ op a b, Incalculable op a b failure) ∨ ∃ key, Unreadable key failure) x) :
    x ≠ .error (.dependsOnVariables names) := by
  intro hx
  rcases h _ hx with hevaluation | ⟨v, huntestable⟩ | ⟨op, a, b, hincalculable⟩ | ⟨key, hunreadable⟩
  . cases hevaluation
  . cases huntestable
  . generalize hfailure : Failure.dependsOnVariables names = failure at hincalculable
    cases hincalculable with
    | @numbers _ _ fault => cases fault <;> cases hfailure
  . cases hunreadable

theorem truthy_ne (v : Value) (names : List Text) :
    truthy v ≠ .error (.dependsOnVariables names) :=
  not_dependsOnVariables ((failsOnly_truthy v).mono fun _ h => .inr (.inl ⟨v, h⟩))

theorem plainText_ne (v : Value) (names : List Text) :
    plainText v ≠ .error (.dependsOnVariables names) :=
  not_dependsOnVariables ((failsOnly_plainText v).mono fun _ => .inl)

theorem applyUnary_ne (op : UnaryOp) (v : Value) (names : List Text) :
    applyUnary op v ≠ .error (.dependsOnVariables names) := by
  refine not_dependsOnVariables ((failsOnly_applyUnary op v).mono ?_)
  rintro _ (h | ⟨-, h⟩)
  . exact .inl h
  . exact .inr (.inl ⟨v, h⟩)

theorem shortCircuits_ne (op : BinaryOp) (v : Value) (names : List Text) :
    shortCircuits op v ≠ .error (.dependsOnVariables names) :=
  not_dependsOnVariables ((failsOnly_shortCircuits op v).mono fun _ h => .inr (.inl ⟨v, h.2⟩))

theorem applyBinary_ne (op : BinaryOp) (a b : Value) (names : List Text) :
    applyBinary op a b ≠ .error (.dependsOnVariables names) := by
  refine not_dependsOnVariables ((failsOnly_applyBinary op a b).mono ?_)
  rintro _ (h | h)
  . exact .inl h
  . exact .inr (.inr (.inl ⟨op, a, b, h⟩))

theorem property_ne (v key : Value) (names : List Text) :
    property v key ≠ .error (.dependsOnVariables names) := by
  refine not_dependsOnVariables ((failsOnly_property v key).mono ?_)
  rintro _ (h | ⟨-, h⟩)
  . exact .inl h
  . exact .inr (.inr (.inr ⟨key, h⟩))

theorem nullProperty_ne (optional : Bool) (names : List Text) :
    Expr.evaluate.nullProperty optional ≠ .error (.dependsOnVariables names) :=
  not_dependsOnVariables ((failsOnly_nullProperty optional).mono fun _ => .inl)

theorem checkData_ne (v : Value) (names : List Text) :
    checkData v ≠ .error (.dependsOnVariables names) :=
  not_dependsOnVariables ((failsOnly_checkData v).mono fun _ => .inl)

/--
Where the value of an expression depends on a variable, evaluation has come to it.
-/
def Expr.ReachesNamed (e : Expr) : Prop :=
  ∀ names, e.evaluate = .error (.dependsOnVariables names) → ∃ id, e.Reaches id ∧ names = [id.name]

section Operands

variable {first second third : Expr}

theorem reachesNamed_unary (hfirst : first.ReachesNamed) (op : UnaryOp) :
    (Expr.unary op first).ReachesNamed := by
  intro names h
  rw [Expr.evaluate] at h
  obtain h | ⟨v, -, h⟩ := bind_eq_error_iff.mp h
  . obtain ⟨id, hreaches, rfl⟩ := hfirst _ h
    exact ⟨id, .operand hreaches, rfl⟩
  . exact absurd h (applyUnary_ne op v names)

theorem reachesNamed_binary (hfirst : first.ReachesNamed) (hsecond : second.ReachesNamed)
    (op : BinaryOp) : (Expr.binary op first second).ReachesNamed := by
  intro names h
  rw [Expr.evaluate] at h
  obtain h | ⟨a, ha, h⟩ := bind_eq_error_iff.mp h
  . obtain ⟨id, hreaches, rfl⟩ := hfirst _ h
    exact ⟨id, .left hreaches, rfl⟩
  obtain h | ⟨isShort, hshort, h⟩ := bind_eq_error_iff.mp h
  . exact absurd h (shortCircuits_ne op a names)
  cases isShort with
  | true => cases h
  | false =>
    obtain h | ⟨b, -, h⟩ := bind_eq_error_iff.mp h
    . obtain ⟨id, hreaches, rfl⟩ := hsecond _ h
      exact ⟨id, .right ha hshort hreaches, rfl⟩
    . exact absurd h (applyBinary_ne op a b names)

theorem reachesNamed_conditional (hfirst : first.ReachesNamed) (hsecond : second.ReachesNamed)
    (hthird : third.ReachesNamed) : (Expr.conditional first second third).ReachesNamed := by
  intro names h
  rw [Expr.evaluate] at h
  obtain h | ⟨v, hv, h⟩ := bind_eq_error_iff.mp h
  . obtain ⟨id, hreaches, rfl⟩ := hfirst _ h
    exact ⟨id, .test hreaches, rfl⟩
  obtain h | ⟨holds, hholds, h⟩ := bind_eq_error_iff.mp h
  . exact absurd h (truthy_ne v names)
  cases holds with
  | true =>
    obtain ⟨id, hreaches, rfl⟩ := hsecond _ h
    exact ⟨id, .branch hv hholds hreaches, rfl⟩
  | false =>
    obtain ⟨id, hreaches, rfl⟩ := hthird _ h
    exact ⟨id, .branch hv hholds hreaches, rfl⟩

theorem reachesNamed_member (hfirst : first.ReachesNamed) (name : Text) (optional : Bool) :
    (Expr.member first name optional).ReachesNamed := by
  intro names h
  rw [Expr.evaluate] at h
  obtain h | ⟨v, hv, h⟩ := bind_eq_error_iff.mp h
  . obtain ⟨id, hreaches, rfl⟩ := hfirst _ h
    exact ⟨id, .member hreaches, rfl⟩
  split at h
  . exact absurd h (nullProperty_ne optional names)
  . exact absurd h (property_ne v (.text name) names)

theorem reachesNamed_index (hfirst : first.ReachesNamed) (hsecond : second.ReachesNamed)
    (optional : Bool) : (Expr.index first second optional).ReachesNamed := by
  intro names h
  rw [Expr.evaluate] at h
  obtain h | ⟨v, hv, h⟩ := bind_eq_error_iff.mp h
  . obtain ⟨id, hreaches, rfl⟩ := hfirst _ h
    exact ⟨id, .object hreaches, rfl⟩
  split at h
  . exact absurd h (nullProperty_ne optional names)
  . next hne =>
    obtain h | ⟨k, -, h⟩ := bind_eq_error_iff.mp h
    . obtain ⟨id, hreaches, rfl⟩ := hsecond _ h
      exact ⟨id, .index hv hne hreaches, rfl⟩
    . exact absurd h (property_ne v k names)

end Operands

mutual

theorem Expr.reachesNamed (e : Expr) : e.ReachesNamed := by
  match e with
  | .literal _ =>
    intro names h
    cases h
  | .identifier id =>
    intro names h
    cases h
    exact ⟨id, .identifier id, rfl⟩
  | .array items =>
    intro names h
    rw [Expr.evaluate] at h
    obtain h | ⟨_, _, ⟨⟩⟩ := bind_eq_error_iff.mp h
    have hnone : evaluateList [] = .ok [] := rfl
    exact exists_reaches_items h hnone
  | .object entries =>
    intro names h
    rw [Expr.evaluate] at h
    obtain h | ⟨_, _, ⟨⟩⟩ := bind_eq_error_iff.mp h
    have hnone : evaluateEntries [] = .ok [] := rfl
    exact exists_reaches_entries h hnone
  | .unary op operand => exact reachesNamed_unary operand.reachesNamed op
  | .binary op left right => exact reachesNamed_binary left.reachesNamed right.reachesNamed op
  | .conditional test consequent alternate =>
    exact reachesNamed_conditional test.reachesNamed consequent.reachesNamed
      alternate.reachesNamed
  | .member object name optional => exact reachesNamed_member object.reachesNamed name optional
  | .index object key optional =>
    exact reachesNamed_index object.reachesNamed key.reachesNamed optional

theorem exists_reaches_items {es : List Expr} {names : List Text}
    (h : evaluateList es = .error (.dependsOnVariables names)) {before : List Expr}
    {vs : List Value} (hbefore : evaluateList before = .ok vs) :
    ∃ id, (Expr.array (before ++ es)).Reaches id ∧ names = [id.name] := by
  match es with
  | [] => cases h
  | e :: rest =>
    rw [evaluateList] at h
    obtain h | ⟨v, hv, h⟩ := bind_eq_error_iff.mp h
    . obtain ⟨id, hreaches, rfl⟩ := e.reachesNamed _ h
      exact ⟨id, .item hbefore hreaches, rfl⟩
    . obtain h | ⟨_, _, ⟨⟩⟩ := bind_eq_error_iff.mp h
      rw [List.append_cons]
      exact exists_reaches_items h (evaluateList_concat hbefore hv)

theorem exists_reaches_entries {es : List Entry} {names : List Text}
    (h : evaluateEntries es = .error (.dependsOnVariables names)) {before : List Entry}
    {vs : List (Text × Value)} (hbefore : evaluateEntries before = .ok vs) :
    ∃ id, (Expr.object (before ++ es)).Reaches id ∧ names = [id.name] := by
  match es with
  | [] => cases h
  | entry :: rest =>
    rw [evaluateEntries] at h
    obtain h | ⟨v, hv, h⟩ := bind_eq_error_iff.mp h
    . exact exists_reaches_entry h hbefore rest
    . obtain h | ⟨_, _, ⟨⟩⟩ := bind_eq_error_iff.mp h
      rw [List.append_cons]
      exact exists_reaches_entries h (evaluateEntries_concat hbefore hv)

theorem exists_reaches_entry {entry : Entry} {names : List Text}
    (h : evaluateEntry entry = .error (.dependsOnVariables names)) {before : List Entry}
    {vs : List (Text × Value)} (hbefore : evaluateEntries before = .ok vs) (after : List Entry) :
    ∃ id, (Expr.object (before ++ entry :: after)).Reaches id ∧ names = [id.name] := by
  match entry with
  | .named key value =>
    rw [evaluateEntry] at h
    obtain h | ⟨_, _, ⟨⟩⟩ := bind_eq_error_iff.mp h
    obtain ⟨id, hreaches, rfl⟩ := value.reachesNamed _ h
    exact ⟨id, .named hbefore hreaches, rfl⟩
  | .computed key value =>
    rw [evaluateEntry] at h
    obtain h | ⟨v, hv, h⟩ := bind_eq_error_iff.mp h
    . obtain ⟨id, hreaches, rfl⟩ := key.reachesNamed _ h
      exact ⟨id, .key hbefore hreaches, rfl⟩
    obtain h | ⟨name, hname, h⟩ := bind_eq_error_iff.mp h
    . exact absurd h (plainText_ne v names)
    . obtain h | ⟨_, _, ⟨⟩⟩ := bind_eq_error_iff.mp h
      obtain ⟨id, hreaches, rfl⟩ := value.reachesNamed _ h
      exact ⟨id, .computed hbefore hv hname hreaches, rfl⟩

end

theorem Expr.evaluate_eq_dependsOnVariables_iff {e : Expr} {names : List Text} :
    e.evaluate = .error (.dependsOnVariables names) ↔ ∃ id, e.Reaches id ∧ names = [id.name] := by
  constructor
  . exact e.reachesNamed names
  . rintro ⟨id, hreaches, rfl⟩
    exact hreaches.evaluate_eq

end Reached

theorem evaluate_ne_of_not_reaches {e : Expr} (h : ∀ id, ¬ e.Reaches id) (names : List Text) :
    (do
      let v ← e.evaluate
      checkData v
      return v) ≠ .error (.dependsOnVariables names) := by
  intro heq
  obtain heq | ⟨v, -, heq⟩ := bind_eq_error_iff.mp heq
  . obtain ⟨id, hreaches, -⟩ := e.reachesNamed _ heq
    exact h id hreaches
  . obtain heq | ⟨_, _, ⟨⟩⟩ := bind_eq_error_iff.mp heq
    exact checkData_ne v names heq

theorem parse_ne_dependsOnVariables [Limits] (t : Text) (names : List Text) :
    parse t ≠ .error (.dependsOnVariables names) :=
  fun h => nomatch failsOnly_parse t _ h

theorem evaluate_eq_dependsOnVariables_of_parse [Limits] {t : Text} {e : Expr} (h : parse t = .ok e)
    {names : List Text} :
    evaluate t = .error (.dependsOnVariables names) ↔ e.identifiers ≠ [] ∧
      names = Text.distinct (e.identifiers.map Identifier.name) := by
  have hnil : Text.distinct (e.identifiers.map Identifier.name) = [] ↔ e.identifiers = [] := by
    simp only [List.eq_nil_iff_forall_not_mem, Text.mem_distinct, List.mem_map]
    constructor
    . exact fun hnone id hid => hnone id.name ⟨id, hid, rfl⟩
    . rintro hnone name ⟨id, hid, -⟩
      exact hnone id hid
  rw [evaluate, isBlank_eq_false_of_parse h, h]
  simp only [Bool.false_eq_true, if_false, bind, Except.bind]
  by_cases hids : e.identifiers = []
  . have hnone : ∀ id, ¬ e.Reaches id := by
      intro id hreaches
      have hmem := hreaches.mem_identifiers
      rw [hids] at hmem
      cases hmem
    rw [hids]
    refine iff_of_false (evaluate_ne_of_not_reaches hnone names) ?_
    rintro ⟨hne, -⟩
    exact hne rfl
  . have hsome : (Text.distinct (e.identifiers.map Identifier.name)).isEmpty = false := by
      rw [← Bool.not_eq_true, List.isEmpty_iff, hnil]
      exact hids
    rw [hsome, and_iff_right hids]
    constructor
    . rintro ⟨⟩
      rfl
    . rintro rfl
      rfl

/--
A text fails for the variables that it depends on if and only if it is an expression with an
identifier anywhere in it, and it names all of them. Evaluation comes to an identifier in no other
expression.
-/
theorem evaluate_dependsOnVariables [Limits] (t : Text) :
    (∀ names, evaluate t = .error (.dependsOnVariables names) ↔
      t.isBlank = false ∧
        ∃ e, parse t = .ok e ∧ (∃ id, .identifier id ∈ e.parts) ∧ e.Lists names) ∧
    ∀ e, parse t = .ok e → (∀ id, .identifier id ∉ e.parts) →
      (∀ id, ¬ e.Reaches id) ∧ ∀ names, e.evaluate ≠ .error (.dependsOnVariables names) := by
  constructor
  . intro names
    constructor
    . intro h
      cases hparse : parse t with
      | error failure =>
        rw [evaluate, hparse] at h
        split at h
        . cases h
        . cases h
          exact absurd hparse (parse_ne_dependsOnVariables t names)
      | ok e =>
        obtain ⟨hids, rfl⟩ := (evaluate_eq_dependsOnVariables_of_parse hparse).mp h
        obtain ⟨id, hid⟩ := List.exists_mem_of_ne_nil _ hids
        exact ⟨isBlank_eq_false_of_parse hparse, e, rfl, ⟨id, e.mem_identifiers_iff.mp hid⟩,
          .distinct (placed_of_parse hparse)⟩
    . rintro ⟨-, e, hparse, ⟨id, hid⟩, hlists⟩
      refine (evaluate_eq_dependsOnVariables_of_parse hparse).mpr ⟨?_, ?_⟩
      . exact List.ne_nil_of_mem (e.mem_identifiers_iff.mpr hid)
      . exact hlists.unique (.distinct (placed_of_parse hparse))
  . intro e _ hnone
    have hreaches (id : Identifier) : ¬ e.Reaches id :=
      fun h => hnone id (e.mem_identifiers_iff.mp h.mem_identifiers)
    refine ⟨hreaches, fun names h => ?_⟩
    obtain ⟨id, hid, -⟩ := e.reachesNamed _ h
    exact hreaches id hid

example : (match evaluate "false && [\x7bb\x7d, a.c, b]" with
    | .error (.dependsOnVariables names) => names
    | _ => []) = [("b" : Text), "a"] := by
  decide +kernel

end Expression

end PageBinding
