import PageBinding.Expression.Evaluate
import PageBinding.Proofs.Expression.Literal
import PageBinding.Proofs.Traversal
import PageBinding.Store

/-!
This module contains which data has a JSON text, and that this text stays on its line where it is
not indented.
-/

namespace PageBinding

namespace Value

mutual

theorem exists_json? (v : Value) (level : Option Nat) :
    Expression.checkData v = .ok () → ∃ t, v.json? level = some t := by
  match v with
  | .null | .bool _ | .text _ | .number (.float _) => exact fun _ => ⟨_, rfl⟩
  | .number (.int i) =>
    intro h
    by_cases hfits : Number.fitsText i.natAbs = true
    . exact ⟨_, by rw [json?, Number.dataText?, if_pos hfits]⟩
    . rw [Expression.checkData, if_neg hfits] at h
      cases h
  | .list items =>
    intro h
    obtain ⟨parts, hparts⟩ := exists_jsonItems? items (level.map (· + 1)) h
    exact ⟨_, by rw [json?, hparts]; rfl⟩
  | .object entries =>
    intro h
    obtain ⟨parts, hparts⟩ := exists_jsonEntries? entries (level.map (· + 1)) h
    exact ⟨_, by rw [json?, hparts]; rfl⟩

theorem exists_jsonItems? (items : List Value) (level : Option Nat) :
    Expression.checkItems items = .ok () → ∃ parts, jsonItems? level items = some parts := by
  match items with
  | [] => exact fun _ => ⟨_, rfl⟩
  | v :: rest =>
    intro h
    rw [Expression.checkItems, Traversal.bind_eq_ok_iff] at h
    obtain ⟨_, hv, hrest⟩ := h
    obtain ⟨part, hpart⟩ := exists_json? v level hv
    obtain ⟨parts, hparts⟩ := exists_jsonItems? rest level hrest
    exact ⟨_, by rw [jsonItems?, hpart, hparts]; rfl⟩

theorem exists_jsonEntries? (entries : List (Text × Value)) (level : Option Nat) :
    Expression.checkEntries entries = .ok () →
      ∃ parts, jsonEntries? level entries = some parts := by
  match entries with
  | [] => exact fun _ => ⟨_, rfl⟩
  | (key, v) :: rest =>
    intro h
    rw [Expression.checkEntries, Traversal.bind_eq_ok_iff] at h
    obtain ⟨_, hv, hrest⟩ := h
    obtain ⟨part, hpart⟩ := exists_json? v level hv
    obtain ⟨parts, hparts⟩ := exists_jsonEntries? rest level hrest
    exact ⟨_, by rw [jsonEntries?, hpart, hparts]; rfl⟩

end

end Value

theorem Expression.checkData_of_evaluate [Limits] {t : Text} {v : Value} (h : evaluate t = .ok v) :
    checkData v = .ok () := by
  unfold evaluate at h
  split at h
  . cases h
  . obtain ⟨e, -, h⟩ := Traversal.bind_eq_ok_iff.mp h
    dsimp only at h
    split at h
    . cases h
    . obtain ⟨found, -, h⟩ := Traversal.bind_eq_ok_iff.mp h
      obtain ⟨_, hcheck, h⟩ := Traversal.bind_eq_ok_iff.mp h
      cases h
      exact hcheck

theorem Expression.exists_format_of_evaluate [Limits] {t : Text} {v : Value}
    (h : evaluate t = .ok v) :
    ∃ shown, format v = .ok shown := by
  obtain ⟨shown, hjson⟩ := Value.exists_json? v (some 0) (checkData_of_evaluate h)
  exact ⟨shown, by rw [format, hjson]⟩

namespace Text

def IsLine (t : Text) : Prop :=
  ∀ c ∈ t, c.is '\n' = false

theorem isLine_of_all {t : Text} (h : t.all (fun c => !c.is '\n') = true) : t.IsLine := by
  simpa [IsLine] using h

theorem isLine_concat {pieces : List Text} (h : ∀ piece ∈ pieces, piece.IsLine) :
    (concat pieces).IsLine := by
  intro c hc
  obtain ⟨piece, hpiece, hmem⟩ := List.mem_flatten.mp hc
  exact h piece hpiece c hmem

theorem isLine_flatMap {t : Text} {f : CodePoint → Text} (h : ∀ c, (f c).IsLine) :
    IsLine (t.flatMap f) := by
  intro c hc
  obtain ⟨d, -, hmem⟩ := List.mem_flatMap.mp hc
  exact h d c hmem

theorem IsLine.sublist {t u : Text} (h : u.IsLine) (hsub : t.Sublist u) : t.IsLine :=
  fun c hc => h c (hsub.subset hc)

theorem isLine_join {separator : Text} {parts : List Text} (hseparator : separator.IsLine)
    (h : ∀ part ∈ parts, part.IsLine) : (join separator parts).IsLine := by
  rw [join]
  induction parts with
  | nil => exact nofun
  | cons part parts ih =>
    obtain ⟨hpart, hparts⟩ := List.forall_mem_cons.mp h
    cases parts with
    | nil =>
      rw [List.intercalate_singleton]
      exact hpart
    | cons other rest =>
      intro c hc
      rw [List.intercalate_cons_cons, List.mem_append, List.mem_append] at hc
      rcases hc with (hc | hc) | hc
      . exact hpart c hc
      . exact hseparator c hc
      . exact ih hparts c hc

theorem isLine_ofNat (n : Nat) : (ofNat n).IsLine := by
  intro c hc
  have hdecimal := isDecimal_of_mem_ofNat hc
  cases hline : c.is '\n' with
  | false => rfl
  | true =>
    rw [CodePoint.eq_ofChar_of_is hline] at hdecimal
    revert hdecimal
    decide

theorem isLine_ofInt (i : Int) : (ofInt i).IsLine := by
  unfold ofInt
  split
  . apply isLine_concat
    simp only [List.forall_mem_cons]
    exact ⟨isLine_of_all (by decide), isLine_ofNat _, nofun⟩
  . exact isLine_ofNat _

theorem isLine_jsonEscape (c : CodePoint) : (jsonEscape c).IsLine := by
  have hraw {d : CodePoint} (h : Expression.isRaw d = true) : d.is '\n' = false := by
    simp only [Expression.isRaw, Bool.and_eq_true, Bool.not_eq_true'] at h
    exact h.2
  rcases Expression.jsonEscape_cases c with ⟨hescape, hc⟩ | ⟨d, hescape, -, -, -, hsimple⟩ |
    ⟨digits, hescape, -, hhex, -⟩
  . rw [hescape]
    exact List.forall_mem_singleton.mpr (hraw hc)
  . rw [hescape]
    refine List.forall_mem_cons.mpr ⟨by decide, List.forall_mem_singleton.mpr ?_⟩
    cases hline : d.is '\n' with
    | false => rfl
    | true =>
      -- A backslash and a line feed stand for nothing.
      rw [CodePoint.eq_ofChar_of_is hline] at hsimple
      cases hsimple
  . rw [hescape]
    refine List.forall_mem_cons.mpr ⟨by decide, List.forall_mem_cons.mpr ⟨by decide, ?_⟩⟩
    exact fun d hd => hraw (Expression.isRaw_of_isHex (List.all_eq_true.mp hhex d hd))

theorem isLine_jsonQuote (t : Text) : t.jsonQuote.IsLine := by
  apply isLine_concat
  simp only [List.forall_mem_cons]
  exact ⟨isLine_of_all (by decide), isLine_flatMap isLine_jsonEscape, isLine_of_all (by decide),
    nofun⟩

end Text

theorem Decimal.isLine_text (layout : Layout) (d : Decimal) : (d.text layout).IsLine := by
  have hzeros (count : Int) : (zeros count).IsLine := by
    intro c hc
    rw [List.eq_of_mem_replicate hc]
    rfl
  have hdigits := Text.isLine_ofNat d.digits
  have hexponent (n : Int) : (exponentPart layout.width n).IsLine := by
    apply Text.isLine_concat
    simp only [List.forall_mem_cons]
    refine ⟨?_, hzeros _, Text.isLine_ofNat _, nofun⟩
    split
    . exact Text.isLine_of_all (by decide)
    . exact Text.isLine_of_all (by decide)
  unfold text
  dsimp only
  split
  . split
    . apply Text.isLine_concat
      simp only [List.forall_mem_cons]
      refine ⟨hdigits, hzeros _, ?_, nofun⟩
      split
      . exact Text.isLine_of_all (by decide)
      . exact nofun
    . split
      . apply Text.isLine_concat
        simp only [List.forall_mem_cons]
        exact ⟨hdigits.sublist (List.take_sublist _ _), Text.isLine_of_all (by decide),
          hdigits.sublist (List.drop_sublist _ _), nofun⟩
      . apply Text.isLine_concat
        simp only [List.forall_mem_cons]
        exact ⟨Text.isLine_of_all (by decide), hzeros _, hdigits, nofun⟩
  . apply Text.isLine_concat
    simp only [List.forall_mem_cons]
    refine ⟨hdigits.sublist (List.take_sublist _ _), ?_, hexponent _, nofun⟩
    split
    . exact nofun
    . apply Text.isLine_concat
      simp only [List.forall_mem_cons]
      exact ⟨Text.isLine_of_all (by decide), hdigits.sublist (List.drop_sublist _ _), nofun⟩

namespace Number

theorem isLine_signed (negative : Bool) {t : Text} (h : t.IsLine) : (signed negative t).IsLine := by
  cases negative with
  | false => exact h
  | true =>
    apply Text.isLine_concat
    simp only [List.forall_mem_cons]
    exact ⟨Text.isLine_of_all (by decide), h, nofun⟩

theorem isLine_dataText? {n : Number} {t : Text} (h : n.dataText? = some t) : t.IsLine := by
  cases n with
  | int i =>
    by_cases hfits : fitsText i.natAbs = true
    . rw [dataText?, if_pos hfits] at h
      cases h
      exact Text.isLine_ofInt i
    . rw [dataText?, if_neg hfits] at h
      cases h
  | float x =>
    cases h
    cases x with
    | nan => exact Text.isLine_of_all (by decide)
    | infinite negative => exact isLine_signed negative (Text.isLine_of_all (by decide))
    | finite negative rank =>
      apply isLine_signed
      split
      . exact Text.isLine_of_all (by decide)
      . exact Decimal.isLine_text _ _

end Number

namespace Value

theorem isLine_bracket {left right : Text} (hleft : left.IsLine) (hright : right.IsLine)
    {parts : List Text} (h : ∀ part ∈ parts, part.IsLine) :
    (bracket none left right parts).IsLine := by
  have hempty : ("" : Text).IsLine := nofun
  have hseparator : (", " : Text).IsLine := Text.isLine_of_all (by decide)
  unfold bracket
  split
  . apply Text.isLine_concat
    simp only [List.forall_mem_cons]
    exact ⟨hleft, hright, nofun⟩
  . apply Text.isLine_concat
    simp only [Spacing.at?, List.forall_mem_cons]
    exact ⟨hleft, hempty, Text.isLine_join hseparator h, hempty, hright, nofun⟩

mutual

theorem isLine_json? (v : Value) {t : Text} (h : v.json? none = some t) : t.IsLine := by
  match v with
  | .null =>
    cases h
    exact Text.isLine_of_all (by decide)
  | .bool b =>
    cases h
    cases b with
    | true => exact Text.isLine_of_all (by decide)
    | false => exact Text.isLine_of_all (by decide)
  | .number n => exact Number.isLine_dataText? h
  | .text u =>
    cases h
    exact Text.isLine_jsonQuote u
  | .list items =>
    obtain ⟨parts, hparts, heq⟩ := Option.bind_eq_some_iff.mp h
    cases heq
    exact isLine_bracket (Text.isLine_of_all (by decide)) (Text.isLine_of_all (by decide))
      (isLine_jsonItems? items hparts)
  | .object entries =>
    obtain ⟨parts, hparts, heq⟩ := Option.bind_eq_some_iff.mp h
    cases heq
    exact isLine_bracket (Text.isLine_of_all (by decide)) (Text.isLine_of_all (by decide))
      (isLine_jsonEntries? entries hparts)

theorem isLine_jsonItems? (items : List Value) {parts : List Text}
    (h : jsonItems? none items = some parts) : ∀ part ∈ parts, part.IsLine := by
  match items with
  | [] =>
    cases h
    exact nofun
  | v :: rest =>
    obtain ⟨part, hpart, hrest⟩ := Option.bind_eq_some_iff.mp h
    obtain ⟨others, hothers, heq⟩ := Option.bind_eq_some_iff.mp hrest
    cases heq
    exact List.forall_mem_cons.mpr ⟨isLine_json? v hpart, isLine_jsonItems? rest hothers⟩

theorem isLine_jsonEntries? (entries : List (Text × Value)) {parts : List Text}
    (h : jsonEntries? none entries = some parts) : ∀ part ∈ parts, part.IsLine := by
  match entries with
  | [] =>
    cases h
    exact nofun
  | (key, v) :: rest =>
    obtain ⟨part, hpart, hrest⟩ := Option.bind_eq_some_iff.mp h
    obtain ⟨others, hothers, heq⟩ := Option.bind_eq_some_iff.mp hrest
    cases heq
    refine List.forall_mem_cons.mpr ⟨Text.isLine_concat ?_, isLine_jsonEntries? rest hothers⟩
    simp only [List.forall_mem_cons]
    exact ⟨Text.isLine_jsonQuote key, Text.isLine_of_all (by decide), isLine_json? v hpart, nofun⟩

end

end Value

theorem Transaction.isLine_record? {t : Transaction} {line : Text} (h : t.record? = some line) :
    line.IsLine := by
  obtain ⟨hjson, -⟩ := Option.filter_eq_some_iff.mp h
  exact Value.isLine_json? _ hjson

end PageBinding
