import PageBinding.Expression.Expr

/-!
This module contains what is said of expressions as trees: how deeply they are nested, and what
becomes of them when their identifiers are replaced.
-/

namespace PageBinding

namespace Expression

namespace Identifier

def unplaced (id : Identifier) : Identifier :=
  { id with start := 0, stop := 0 }

def bare (id : Identifier) : Identifier :=
  ⟨id.name, 0, 0, false⟩

def rename (f : Text → Text) (id : Identifier) : Identifier :=
  { id with name := f id.name }

end Identifier

mutual

/--
The number of trees that stand inside of one another. A shorthand stands inside of its object.
-/
def Expr.depth (e : Expr) : Nat :=
  match e with
  | .literal _ => 1
  | .identifier _ => 1
  | .array items => depthOfList items + 1
  | .object entries => depthOfEntries entries + 1
  | .unary _ operand => operand.depth + 1
  | .binary _ left right => max left.depth right.depth + 1
  | .conditional test consequent alternate =>
    max test.depth (max consequent.depth alternate.depth) + 1
  | .member object _ _ => object.depth + 1
  | .index object key _ => max object.depth key.depth + 1

def depthOfList (es : List Expr) : Nat :=
  match es with
  | [] => 0
  | e :: rest => max e.depth (depthOfList rest)

def depthOfEntry (entry : Entry) : Nat :=
  match entry with
  | .named _ value => value.depth
  | .computed key value => max key.depth value.depth

def depthOfEntries (entries : List Entry) : Nat :=
  match entries with
  | [] => 0
  | entry :: rest => max (depthOfEntry entry) (depthOfEntries rest)

end

mutual

def Expr.mapIdentifiers (g : Identifier → Identifier) (e : Expr) : Expr :=
  match e with
  | .literal v => .literal v
  | .identifier id => .identifier (g id)
  | .array items => .array (mapIdentifiersOfList g items)
  | .object entries => .object (mapIdentifiersOfEntries g entries)
  | .unary op operand => .unary op (operand.mapIdentifiers g)
  | .binary op left right => .binary op (left.mapIdentifiers g) (right.mapIdentifiers g)
  | .conditional test consequent alternate =>
    .conditional (test.mapIdentifiers g) (consequent.mapIdentifiers g) (alternate.mapIdentifiers g)
  | .member object name optional => .member (object.mapIdentifiers g) name optional
  | .index object key optional => .index (object.mapIdentifiers g) (key.mapIdentifiers g) optional

def mapIdentifiersOfList (g : Identifier → Identifier) (es : List Expr) : List Expr :=
  match es with
  | [] => []
  | e :: rest => e.mapIdentifiers g :: mapIdentifiersOfList g rest

def mapIdentifiersOfEntry (g : Identifier → Identifier) (entry : Entry) : Entry :=
  match entry with
  | .named key value => .named key (value.mapIdentifiers g)
  | .computed key value => .computed (key.mapIdentifiers g) (value.mapIdentifiers g)

def mapIdentifiersOfEntries (g : Identifier → Identifier) (entries : List Entry) : List Entry :=
  match entries with
  | [] => []
  | entry :: rest => mapIdentifiersOfEntry g entry :: mapIdentifiersOfEntries g rest

end

namespace Expr

def unplaced (e : Expr) : Expr :=
  e.mapIdentifiers Identifier.unplaced

/--
The expression without the positions in it, and with no mark on the entries of objects in which key
and value are one name.
-/
def bare (e : Expr) : Expr :=
  e.mapIdentifiers Identifier.bare

/--
The expression with new names for its identifiers. Keys and the names of properties stay.
-/
def rename (f : Text → Text) (e : Expr) : Expr :=
  e.mapIdentifiers (Identifier.rename f)

end Expr

variable {g : Identifier → Identifier}

mutual

theorem Expr.depth_mapIdentifiers (e : Expr) : (e.mapIdentifiers g).depth = e.depth := by
  match e with
  | .literal v => rfl
  | .identifier id => rfl
  | .array items => simp only [Expr.mapIdentifiers, Expr.depth, depthOfList_mapIdentifiers items]
  | .object entries =>
    simp only [Expr.mapIdentifiers, Expr.depth, depthOfEntries_mapIdentifiers entries]
  | .unary op operand => simp only [Expr.mapIdentifiers, Expr.depth, operand.depth_mapIdentifiers]
  | .binary op left right =>
    simp only [Expr.mapIdentifiers, Expr.depth, left.depth_mapIdentifiers,
      right.depth_mapIdentifiers]
  | .conditional test consequent alternate =>
    simp only [Expr.mapIdentifiers, Expr.depth, test.depth_mapIdentifiers,
      consequent.depth_mapIdentifiers, alternate.depth_mapIdentifiers]
  | .member object name optional =>
    simp only [Expr.mapIdentifiers, Expr.depth, object.depth_mapIdentifiers]
  | .index object key optional =>
    simp only [Expr.mapIdentifiers, Expr.depth, object.depth_mapIdentifiers,
      key.depth_mapIdentifiers]

theorem depthOfList_mapIdentifiers (es : List Expr) :
    depthOfList (mapIdentifiersOfList g es) = depthOfList es := by
  match es with
  | [] => rfl
  | e :: rest =>
    simp only [mapIdentifiersOfList, depthOfList, e.depth_mapIdentifiers,
      depthOfList_mapIdentifiers rest]

theorem depthOfEntry_mapIdentifiers (entry : Entry) :
    depthOfEntry (mapIdentifiersOfEntry g entry) = depthOfEntry entry := by
  match entry with
  | .named key value => simp only [mapIdentifiersOfEntry, depthOfEntry, value.depth_mapIdentifiers]
  | .computed key value =>
    simp only [mapIdentifiersOfEntry, depthOfEntry, key.depth_mapIdentifiers,
      value.depth_mapIdentifiers]

theorem depthOfEntries_mapIdentifiers (entries : List Entry) :
    depthOfEntries (mapIdentifiersOfEntries g entries) = depthOfEntries entries := by
  match entries with
  | [] => rfl
  | entry :: rest =>
    simp only [mapIdentifiersOfEntries, depthOfEntries, depthOfEntry_mapIdentifiers entry,
      depthOfEntries_mapIdentifiers rest]

end

mutual

theorem Expr.identifiers_mapIdentifiers (e : Expr) :
    (e.mapIdentifiers g).identifiers = e.identifiers.map g := by
  match e with
  | .literal v => rfl
  | .identifier id => rfl
  | .array items =>
    simp only [Expr.mapIdentifiers, Expr.identifiers, identifiersOfList_mapIdentifiers items]
  | .object entries =>
    simp only [Expr.mapIdentifiers, Expr.identifiers, identifiersOfEntries_mapIdentifiers entries]
  | .unary op operand =>
    simp only [Expr.mapIdentifiers, Expr.identifiers, operand.identifiers_mapIdentifiers]
  | .binary op left right =>
    simp only [Expr.mapIdentifiers, Expr.identifiers, left.identifiers_mapIdentifiers,
      right.identifiers_mapIdentifiers, List.map_append]
  | .conditional test consequent alternate =>
    simp only [Expr.mapIdentifiers, Expr.identifiers, test.identifiers_mapIdentifiers,
      consequent.identifiers_mapIdentifiers, alternate.identifiers_mapIdentifiers, List.map_append]
  | .member object name optional =>
    simp only [Expr.mapIdentifiers, Expr.identifiers, object.identifiers_mapIdentifiers]
  | .index object key optional =>
    simp only [Expr.mapIdentifiers, Expr.identifiers, object.identifiers_mapIdentifiers,
      key.identifiers_mapIdentifiers, List.map_append]

theorem identifiersOfList_mapIdentifiers (es : List Expr) :
    identifiersOfList (mapIdentifiersOfList g es) = (identifiersOfList es).map g := by
  match es with
  | [] => rfl
  | e :: rest =>
    simp only [mapIdentifiersOfList, identifiersOfList, e.identifiers_mapIdentifiers,
      identifiersOfList_mapIdentifiers rest, List.map_append]

theorem identifiersOfEntry_mapIdentifiers (entry : Entry) :
    identifiersOfEntry (mapIdentifiersOfEntry g entry) = (identifiersOfEntry entry).map g := by
  match entry with
  | .named key value =>
    simp only [mapIdentifiersOfEntry, identifiersOfEntry, value.identifiers_mapIdentifiers]
  | .computed key value =>
    simp only [mapIdentifiersOfEntry, identifiersOfEntry, key.identifiers_mapIdentifiers,
      value.identifiers_mapIdentifiers, List.map_append]

theorem identifiersOfEntries_mapIdentifiers (entries : List Entry) :
    identifiersOfEntries (mapIdentifiersOfEntries g entries) =
      (identifiersOfEntries entries).map g := by
  match entries with
  | [] => rfl
  | entry :: rest =>
    simp only [mapIdentifiersOfEntries, identifiersOfEntries,
      identifiersOfEntry_mapIdentifiers entry, identifiersOfEntries_mapIdentifiers rest,
      List.map_append]

end

mutual

theorem Expr.mapIdentifiers_eq_self {e : Expr} (h : ∀ id ∈ e.identifiers, g id = id) :
    e.mapIdentifiers g = e := by
  match e with
  | .literal v => rfl
  | .identifier id => rw [Expr.mapIdentifiers, h id (List.mem_singleton_self id)]
  | .array items => rw [Expr.mapIdentifiers, mapIdentifiersOfList_eq_self h]
  | .object entries => rw [Expr.mapIdentifiers, mapIdentifiersOfEntries_eq_self h]
  | .unary op operand =>
    have hoperand : ∀ id ∈ operand.identifiers, g id = id := h
    rw [Expr.mapIdentifiers, Expr.mapIdentifiers_eq_self hoperand]
  | .binary op left right =>
    obtain ⟨hleft, hright⟩ := List.forall_mem_append.mp h
    rw [Expr.mapIdentifiers, Expr.mapIdentifiers_eq_self hleft, Expr.mapIdentifiers_eq_self hright]
  | .conditional test consequent alternate =>
    obtain ⟨hbefore, halternate⟩ := List.forall_mem_append.mp h
    obtain ⟨htest, hconsequent⟩ := List.forall_mem_append.mp hbefore
    rw [Expr.mapIdentifiers, Expr.mapIdentifiers_eq_self htest,
      Expr.mapIdentifiers_eq_self hconsequent, Expr.mapIdentifiers_eq_self halternate]
  | .member object name optional =>
    have hobject : ∀ id ∈ object.identifiers, g id = id := h
    rw [Expr.mapIdentifiers, Expr.mapIdentifiers_eq_self hobject]
  | .index object key optional =>
    obtain ⟨hobject, hkey⟩ := List.forall_mem_append.mp h
    rw [Expr.mapIdentifiers, Expr.mapIdentifiers_eq_self hobject, Expr.mapIdentifiers_eq_self hkey]

theorem mapIdentifiersOfList_eq_self {es : List Expr} (h : ∀ id ∈ identifiersOfList es, g id = id) :
    mapIdentifiersOfList g es = es := by
  match es with
  | [] => rfl
  | e :: rest =>
    obtain ⟨he, hrest⟩ := List.forall_mem_append.mp h
    rw [mapIdentifiersOfList, Expr.mapIdentifiers_eq_self he, mapIdentifiersOfList_eq_self hrest]

theorem mapIdentifiersOfEntry_eq_self {entry : Entry}
    (h : ∀ id ∈ identifiersOfEntry entry, g id = id) : mapIdentifiersOfEntry g entry = entry := by
  match entry with
  | .named key value => rw [mapIdentifiersOfEntry, Expr.mapIdentifiers_eq_self h]
  | .computed key value =>
    obtain ⟨hkey, hvalue⟩ := List.forall_mem_append.mp h
    rw [mapIdentifiersOfEntry, Expr.mapIdentifiers_eq_self hkey,
      Expr.mapIdentifiers_eq_self hvalue]

theorem mapIdentifiersOfEntries_eq_self {entries : List Entry}
    (h : ∀ id ∈ identifiersOfEntries entries, g id = id) :
    mapIdentifiersOfEntries g entries = entries := by
  match entries with
  | [] => rfl
  | entry :: rest =>
    obtain ⟨hentry, hrest⟩ := List.forall_mem_append.mp h
    rw [mapIdentifiersOfEntries, mapIdentifiersOfEntry_eq_self hentry,
      mapIdentifiersOfEntries_eq_self hrest]

end

theorem Expr.mapIdentifiers_id (e : Expr) : e.mapIdentifiers id = e :=
  mapIdentifiers_eq_self fun _ _ => rfl

theorem Expr.eq_of_mapIdentifiers_eq {a b : Expr} (h : a.mapIdentifiers g = b.mapIdentifiers g)
    (hnone : a.identifiers = []) : a = b := by
  have hmapped := congrArg Expr.identifiers h
  rw [a.identifiers_mapIdentifiers, b.identifiers_mapIdentifiers, hnone, List.map_nil, eq_comm,
    List.map_eq_nil_iff] at hmapped
  rwa [mapIdentifiers_eq_self (by simp [hnone]), mapIdentifiers_eq_self (by simp [hmapped])] at h

end Expression

end PageBinding
