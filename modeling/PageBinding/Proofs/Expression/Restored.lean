import PageBinding.Proofs.Expression.Enclosed
import PageBinding.Proofs.Printed
import PageBinding.Proofs.Store.Agreement

/-!
This module contains that data which evaluation lets through is restored from its text: the text
evaluates to data that is worth the same. Floating point numbers may come back as integers.
-/

namespace PageBinding

open Expression

namespace Value

mutual

def IsKeyed (v : Value) : Prop :=
  match v with
  | .null | .bool _ | .number _ | .text _ => True
  | .list items => AreKeyed items
  | .object entries => (Entries.keys entries).Nodup ∧ EntriesKeyed entries

def AreKeyed (items : List Value) : Prop :=
  match items with
  | [] => True
  | v :: rest => v.IsKeyed ∧ AreKeyed rest

def EntriesKeyed (entries : List (Text × Value)) : Prop :=
  match entries with
  | [] => True
  | (_, v) :: rest => v.IsKeyed ∧ EntriesKeyed rest

end

/--
The expression that is written for a floating point number, if it is finite.
-/
def exprOfFloat (x : Binary64) : Expr :=
  match x with
  | .finite negative rank =>
    let magnitude : Expr := .literal (.number (Literal.number (Number.magnitudeText rank)))
    if negative then .unary .minus magnitude else magnitude
  | x => .literal (.number (.float x))

mutual

/--
The expression that the text of a piece of data is read as.
-/
def spelled (v : Value) : Expr :=
  match v with
  | .null => .literal .null
  | .bool b => .literal (.bool b)
  | .number (.int i) => exprOfInt i
  | .number (.float x) => exprOfFloat x
  | .text t => .literal (.text t)
  | .list items => .array (spelledItems items)
  | .object entries => .object (spelledEntries entries)

def spelledItems (items : List Value) : List Expr :=
  match items with
  | [] => []
  | v :: rest => v.spelled :: spelledItems rest

def spelledEntries (entries : List (Text × Value)) : List Entry :=
  match entries with
  | [] => []
  | (key, v) :: rest => .named key v.spelled :: spelledEntries rest

end

/--
Data is worth as much as other data of the same kind, and evaluation lets it through.
-/
structure Restores (w v : Value) : Prop where
  agrees : w.agrees v = true
  kind : (TypedValue.ofValue w).typeName = (TypedValue.ofValue v).typeName
  check : checkData w = .ok ()

end Value

namespace Expression

theorem checkItems_cons_iff {v : Value} {rest : List Value} :
    checkItems (v :: rest) = .ok () ↔ checkData v = .ok () ∧ checkItems rest = .ok () := by
  rw [checkItems, Traversal.bind_eq_ok_iff]
  exact ⟨fun ⟨_, hv, hrest⟩ => ⟨hv, hrest⟩, fun ⟨hv, hrest⟩ => ⟨_, hv, hrest⟩⟩

theorem checkEntries_cons_iff {key : Text} {v : Value} {rest : List (Text × Value)} :
    checkEntries ((key, v) :: rest) = .ok () ↔
      checkData v = .ok () ∧ checkEntries rest = .ok () := by
  rw [checkEntries, Traversal.bind_eq_ok_iff]
  exact ⟨fun ⟨_, hv, hrest⟩ => ⟨hv, hrest⟩, fun ⟨hv, hrest⟩ => ⟨_, hv, hrest⟩⟩

section Float

open Binary64

theorem isNumeral_magnitudeText (rank : Rank) : IsNumeral (Number.magnitudeText rank) := by
  obtain ⟨hlength, hpointed, -⟩ := Number.reads_magnitudeText rank
  refine ⟨?_, hlength⟩
  intro hnil
  rw [hnil] at hpointed
  cases hpointed

theorem written_float {x : Binary64} (h : x.isFinite = true) :
    ∃ t, (Number.float x).dataText? = some t ∧ Written (Denotes id 8) t (Value.exprOfFloat x) := by
  cases x with
  | nan | infinite _ => cases h
  | finite negative rank =>
    have hnumber := @Denotes.number id (Number.magnitudeText rank) _ rfl
    have hwrites := Writes.token (isClosed_numeral (isNumeral_magnitudeText rank))
    refine ⟨_, Number.dataText?_finite negative rank, ?_⟩
    unfold Number.signed Value.exprOfFloat
    cases negative with
    | false => exact ⟨_, hwrites, .weaken (by decide) hnumber⟩
    | true =>
      refine ⟨_, ?_, .unary .minus (.weaken (by decide) hnumber)⟩
      simpa only [if_true, Text.concat, List.flatten_cons, List.flatten_nil, List.append_nil] using
        writes_minus hwrites

end Float

mutual

theorem written_spelled (v : Value) (level : Nat) : checkData v = .ok () →
    ∃ t, v.json? (some level) = some t ∧ Written (Denotes id 8) t v.spelled := by
  match v with
  | .null =>
    exact fun _ => ⟨_, rfl, _, .token (Lexeme.isClosed_word .nullWord), .weaken (by decide) .null⟩
  | .bool b => exact fun _ => ⟨_, rfl, written_bool b⟩
  | .text t =>
    exact fun _ => ⟨_, rfl, _, .token (isClosed_jsonQuote t),
      .weaken (by decide) (.string (Literal.string_jsonQuote t))⟩
  | .number (.int i) =>
    intro h
    rw [checkData] at h
    split at h
    . next hfits =>
      rw [Value.json?, Value.spelled]
      exact written_int hfits
    . cases h
  | .number (.float x) =>
    intro h
    rw [checkData] at h
    split at h
    . next hfinite =>
      rw [Value.json?, Value.spelled]
      exact written_float hfinite
    . cases h
  | .list items =>
    intro h
    obtain ⟨parts, hjson, hparts⟩ := written_spelledItems items (level + 1) h
    refine ⟨_, ?_, written_list level hparts⟩
    rw [Value.json?, Option.map_some, hjson]
    rfl
  | .object entries =>
    intro h
    obtain ⟨parts, hjson, hparts⟩ := written_spelledEntries entries (level + 1) h
    refine ⟨_, ?_, written_object level hparts⟩
    rw [Value.json?, Option.map_some, hjson]
    rfl

theorem written_spelledItems (items : List Value) (level : Nat) : checkItems items = .ok () →
    ∃ parts, Value.jsonItems? (some level) items = some parts ∧
      List.Forall₂ (Written (Denotes id 0)) parts (Value.spelledItems items) := by
  match items with
  | [] => exact fun _ => ⟨_, rfl, .nil⟩
  | v :: rest =>
    intro h
    obtain ⟨hv, hrest⟩ := checkItems_cons_iff.mp h
    obtain ⟨t, hjson, ws, hwrites, hdenotes⟩ := written_spelled v level hv
    obtain ⟨parts, hjson', hparts⟩ := written_spelledItems rest level hrest
    refine ⟨t :: parts, ?_, .cons ⟨ws, hwrites, .weaken (Nat.zero_le 8) hdenotes⟩ hparts⟩
    rw [Value.jsonItems?, hjson, hjson']
    rfl

theorem written_spelledEntries (entries : List (Text × Value)) (level : Nat) :
    checkEntries entries = .ok () →
      ∃ parts, Value.jsonEntries? (some level) entries = some parts ∧
        List.Forall₂ (Written (DenotesEntry id)) parts (Value.spelledEntries entries) := by
  match entries with
  | [] => exact fun _ => ⟨_, rfl, .nil⟩
  | (key, v) :: rest =>
    intro h
    obtain ⟨hv, hrest⟩ := checkEntries_cons_iff.mp h
    obtain ⟨t, hjson, hwritten⟩ := written_spelled v level hv
    obtain ⟨parts, hjson', hparts⟩ := written_spelledEntries rest level hrest
    refine ⟨_ :: parts, ?_, .cons (written_entry hwritten) hparts⟩
    rw [Value.jsonEntries?, hjson, hjson']
    rfl

end

section Float

open Binary64

theorem number_magnitudeText_cases (rank : Rank) :
    Literal.number (Number.magnitudeText rank) = .float (.finite false rank) ∨
      ∃ i : Int, Literal.number (Number.magnitudeText rank) = .int i ∧
        i * one = unitsAt rank.val ∧ i.natAbs < Number.wholeBound := by
  obtain ⟨-, hpointed, hbinary⟩ := Number.reads_magnitudeText rank
  simp only [Literal.number, hpointed, Bool.false_eq_true, if_false, hbinary]
  split
  . next i hint =>
    split
    . next hsmall =>
      right
      refine ⟨i, rfl, ?_, hsmall⟩
      rw [toInt?] at hint
      split at hint
      . next hwhole =>
        cases hint
        exact Int.ediv_mul_cancel (Int.natCast_dvd_natCast.mpr (Nat.dvd_of_mod_eq_zero hwhole))
      . cases hint
    . exact .inl rfl
  . exact .inl rfl

theorem restores_number {n : Number} {x : Binary64} {exact : Bool ⊕ Int}
    (hn : n.units? = some exact) (hx : (Number.float x).units? = some exact)
    (hcheck : checkData (.number n) = .ok ()) :
    Value.Restores (.number n) (.number (.float x)) := by
  refine ⟨?_, rfl, hcheck⟩
  rw [Value.agrees]
  exact Number.agrees_iff.mpr ⟨exact, hn, hx⟩

theorem checkData_int {i : Int} (h : i.natAbs < Number.wholeBound) :
    checkData (.number (.int i)) = .ok () := by
  have hbound : Number.wholeBound ≤ 10 ^ 21 := by decide
  rw [checkData, if_pos (Number.fitsText_of_lt (Nat.lt_of_lt_of_le h hbound))]

theorem evaluate_exprOfFloat {x : Binary64} (h : x.isFinite = true) :
    (Value.exprOfFloat x).identifiers = [] ∧ ∃ w, (Value.exprOfFloat x).evaluate = .ok w ∧
      w.Restores (.number (.float x)) := by
  cases x with
  | nan | infinite _ => cases h
  | finite negative rank =>
    rcases number_magnitudeText_cases rank with hfloat | ⟨i, hint, hunits, hsmall⟩
    . simp only [Value.exprOfFloat, hfloat]
      cases negative with
      | false => exact ⟨rfl, _, rfl, restores_number rfl rfl rfl⟩
      | true => exact ⟨rfl, _, rfl, restores_number rfl rfl rfl⟩
    . simp only [Value.exprOfFloat, hint]
      cases negative with
      | false =>
        refine ⟨rfl, _, rfl, restores_number ?_ rfl (checkData_int hsmall)⟩
        rw [Number.units?, hunits]
        rfl
      | true =>
        have hsmall' : (-i).natAbs < Number.wholeBound := by rwa [Int.natAbs_neg]
        refine ⟨rfl, _, rfl, restores_number ?_ rfl (checkData_int hsmall')⟩
        show (Number.int (-i)).units? = _
        rw [Number.units?, Int.neg_mul, hunits]
        rfl

end Float

theorem agreesEntries_of_forall₂ {all ws vs : List (Text × Value)}
    (hnodup : (Entries.keys all).Nodup)
    (h : List.Forall₂ (fun w v => w.1 = v.1 ∧ w.2.agrees v.2 = true) ws vs)
    (hmem : ∀ v ∈ vs, v ∈ all) : Value.agreesEntries ws all = true := by
  induction h with
  | nil => rfl
  | @cons w v ws vs hentry _ ih =>
    obtain ⟨hkey, hagrees⟩ := hentry
    obtain ⟨hv, hrest⟩ := List.forall_mem_cons.mp hmem
    have hlookup := Entries.lookup_of_mem hnodup hv
    rw [← hkey] at hlookup
    simp only [Value.agreesEntries, hlookup, hagrees, ih hrest, Bool.and_self]

theorem keys_eq_of_forall₂ {ws vs : List (Text × Value)}
    (h : List.Forall₂ (fun w v => w.1 = v.1 ∧ w.2.agrees v.2 = true) ws vs) :
    Entries.keys ws = Entries.keys vs := by
  induction h with
  | nil => rfl
  | cons hentry _ ih =>
    rw [Entries.keys, List.map_cons, hentry.1]
    exact congrArg _ ih

theorem restores_int {i : Int} (h : checkData (.number (.int i)) = .ok ()) :
    Value.Restores (.number (.int i)) (.number (.int i)) := by
  refine ⟨?_, rfl, h⟩
  rw [Value.agrees]
  exact Number.agrees_iff.mpr ⟨_, rfl, rfl⟩

theorem restores_bool (b : Bool) : Value.Restores (.bool b) (.bool b) := by
  refine ⟨?_, rfl, rfl⟩
  cases b with
  | true | false => decide

mutual

theorem evaluate_spelled (v : Value) (hkeyed : v.IsKeyed) : checkData v = .ok () →
    v.spelled.identifiers = [] ∧ ∃ w, v.spelled.evaluate = .ok w ∧ w.Restores v := by
  match v with
  | .null => exact fun _ => ⟨rfl, _, rfl, rfl, rfl, rfl⟩
  | .bool b => exact fun _ => ⟨rfl, _, rfl, restores_bool b⟩
  | .text t => exact fun _ => ⟨rfl, _, rfl, decide_eq_true rfl, rfl, rfl⟩
  | .number (.int i) =>
    have hids : (Value.exprOfInt i).identifiers = [] := Value.identifiers_expr (.number (.int i))
    exact fun h => ⟨hids, _, evaluate_exprOfInt i, restores_int h⟩
  | .number (.float x) =>
    intro h
    rw [checkData] at h
    split at h
    . next hfinite => exact evaluate_exprOfFloat hfinite
    . cases h
  | .list items =>
    intro h
    obtain ⟨hids, ws, hevaluate, hagrees, hcheck⟩ := evaluate_spelledItems items hkeyed h
    refine ⟨hids, .list ws, ?_, hagrees, rfl, hcheck⟩
    rw [Value.spelled, Expr.evaluate, hevaluate]
    rfl
  | .object entries =>
    intro h
    obtain ⟨hids, ws, hevaluate, hagrees, hcheck⟩ := evaluate_spelledEntries entries hkeyed.2 h
    have hkeys : (Entries.keys ws).Nodup := by
      rw [keys_eq_of_forall₂ hagrees]
      exact hkeyed.1
    refine ⟨hids, .object ws, ?_, ?_, rfl, hcheck⟩
    . rw [Value.spelled, Expr.evaluate, hevaluate]
      simp only [bind, Except.bind, pure, Except.pure, Entries.ofPairs_eq_self hkeys]
    . rw [Value.agrees, hagrees.length_eq, agreesEntries_of_forall₂ hkeyed.1 hagrees fun _ => id]
      simp

theorem evaluate_spelledItems (items : List Value) (hkeyed : Value.AreKeyed items) :
    checkItems items = .ok () → identifiersOfList (Value.spelledItems items) = [] ∧
      ∃ ws, evaluateList (Value.spelledItems items) = .ok ws ∧
        Value.agreesList ws items = true ∧ checkItems ws = .ok () := by
  match items with
  | [] => exact fun _ => ⟨rfl, [], rfl, rfl, rfl⟩
  | v :: rest =>
    intro h
    obtain ⟨hv, hrest⟩ := checkItems_cons_iff.mp h
    obtain ⟨hids, w, hevaluate, hrestores⟩ := evaluate_spelled v hkeyed.1 hv
    obtain ⟨hids', ws, hevaluate', hagrees, hcheck⟩ := evaluate_spelledItems rest hkeyed.2 hrest
    refine ⟨?_, w :: ws, ?_, ?_, checkItems_cons_iff.mpr ⟨hrestores.check, hcheck⟩⟩
    . rw [Value.spelledItems, identifiersOfList, hids, hids', List.append_nil]
    . rw [Value.spelledItems, evaluateList, hevaluate, hevaluate']
      rfl
    . rw [Value.agreesList, hrestores.agrees, hagrees, Bool.and_self]

theorem evaluate_spelledEntries (entries : List (Text × Value))
    (hkeyed : Value.EntriesKeyed entries) :
    checkEntries entries = .ok () → identifiersOfEntries (Value.spelledEntries entries) = [] ∧
      ∃ ws, evaluateEntries (Value.spelledEntries entries) = .ok ws ∧
        List.Forall₂ (fun w v => w.1 = v.1 ∧ w.2.agrees v.2 = true) ws entries ∧
        checkEntries ws = .ok () := by
  match entries with
  | [] => exact fun _ => ⟨rfl, [], rfl, .nil, rfl⟩
  | (key, v) :: rest =>
    intro h
    obtain ⟨hv, hrest⟩ := checkEntries_cons_iff.mp h
    obtain ⟨hids, w, hevaluate, hrestores⟩ := evaluate_spelled v hkeyed.1 hv
    obtain ⟨hids', ws, hevaluate', hagrees, hcheck⟩ := evaluate_spelledEntries rest hkeyed.2 hrest
    refine ⟨?_, (key, w) :: ws, ?_, .cons ⟨rfl, hrestores.agrees⟩ hagrees,
      checkEntries_cons_iff.mpr ⟨hrestores.check, hcheck⟩⟩
    . rw [Value.spelledEntries, identifiersOfEntries, identifiersOfEntry, hids, hids',
        List.append_nil]
    . rw [Value.spelledEntries, evaluateEntries, evaluateEntry, hevaluate, hevaluate']
      rfl

end

theorem evaluate_format_restores [Limits] {v : Value} (hkeyed : v.IsKeyed)
    (hcheck : checkData v = .ok ()) :
    ∃ t, format v = .ok t ∧
      (v.spelled.depth ≤ Limits.maxDepth → ∃ w, evaluate t = .ok w ∧ w.Restores v) ∧
      (Limits.maxDepth < v.spelled.depth → evaluate t = .error tooDeep) := by
  obtain ⟨t, hjson, ws, hwrites, hdenotes⟩ := written_spelled v 0 hcheck
  have hwhole : Denotes id 0 v.spelled ws := hdenotes.weaken (Nat.zero_le 8)
  refine ⟨t, by rw [format, hjson], ?_, hwhole.evaluate_eq_tooDeep hwrites.lexes⟩
  intro hdepth
  obtain ⟨hids, w, hevaluate, hrestores⟩ := evaluate_spelled v hkeyed hcheck
  refine ⟨w, ?_, hrestores⟩
  exact (hwhole.evaluate_eq_ok_iff hwrites.lexes).mpr ⟨hdepth, hids, hevaluate, hrestores.check⟩

end Expression

end PageBinding
