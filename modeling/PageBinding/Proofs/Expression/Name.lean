import Mathlib.Data.List.TakeWhile
import PageBinding.Expression.Names
import PageBinding.Proofs.Reference

/-!
This module contains how a text that is nothing but a name is read: as that identifier. The
identifiers that are written for variables are such texts.
-/

namespace PageBinding

namespace Expression

def IsWord (t : Text) : Prop :=
  ∃ c rest, t = c :: rest ∧ isNameStart c = true ∧ ∀ d ∈ rest, isNamePart d = true

structure IsName (t : Text) : Prop where
  start : IsWord t
  keyword : ∀ keyword : Keyword, keyword.text ≠ t
  reserved : isReserved t = false

theorem val_of_isNameStart {c : CodePoint} (h : isNameStart c = true) :
    65 ≤ c.val ∧ c.val ≤ 122 ∨ c.val = 36 := by
  simp only [isNameStart, CodePoint.is, CodePoint.isAsciiLetter, CodePoint.isBetween,
    Bool.or_eq_true, Bool.and_eq_true, decide_eq_true_eq, beq_iff_eq, Char.reduceToNat] at h
  omega

theorem not_space_of_isNameStart {c : CodePoint} (h : isNameStart c = true) :
    isBlank c = false ∧ c.is '/' = false ∧ c.isSpace = false := by
  have hval := val_of_isNameStart h
  simp only [isBlank, CodePoint.is, CodePoint.isSpace, Char.reduceToNat, Bool.or_eq_false_iff,
    Bool.and_eq_false_iff, beq_eq_false_iff_ne, decide_eq_false_iff_not]
  omega

theorem gapLength_of_isNameStart {c : CodePoint} (h : isNameStart c = true) (rest : Text) :
    gapLength (c :: rest) = 0 := by
  obtain ⟨hblank, hslash, -⟩ := not_space_of_isNameStart h
  cases rest with
  | nil => simp [gapLength, hblank]
  | cons d rest => simp [gapLength, hblank, hslash]

namespace IsName

variable {t : Text}

theorem nameLength_eq (h : IsName t) : nameLength t = t.length := by
  obtain ⟨c, rest, rfl, hstart, hrest⟩ := h.start
  have hall : rest.takeWhile isNamePart = rest := List.takeWhile_eq_self_iff.mpr hrest
  simp only [nameLength, hstart, if_true, hall, List.length_cons]
  omega

theorem length_pos (h : IsName t) : 0 < t.length := by
  obtain ⟨c, rest, rfl, -⟩ := h.start
  simp

theorem scan?_eq (h : IsName t) (accepts : Terminal → Bool) (haccepts : accepts .name = true) :
    Terminal.scan? accepts t = some (.name, t.length) := by
  have hfound : Terminal.order.find? (fun terminal =>
      accepts terminal && 0 < terminal.lengthAt t) = some .name := by
    simp [Terminal.order, Terminal.lengthAt, haccepts, h.nameLength_eq, h.length_pos]
  have hname : Terminal.ofName accepts t = .name := by
    have hnone : Keyword.all.find? (fun keyword =>
        keyword.text = t && accepts (.word keyword)) = none := by
      rw [List.find?_eq_none]
      intro keyword _
      simp [h.keyword keyword]
    simp only [Terminal.ofName, hnone]
  simp only [Terminal.scan?, hfound, h.nameLength_eq, List.take_length, hname]

theorem run_eq (h : IsName t) (last : Place) :
    Config.expression.run .start last t =
      .ok (⟨.ended (.name ⟨.name, t, .start⟩), [], []⟩, Position.start.place) := by
  have hscan := h.scan?_eq Config.expression.accepts rfl
  obtain ⟨c, rest, rfl, hstart, -⟩ := h.start
  rw [Config.run]
  rw [gapLength_of_isNameStart hstart]
  simp only [hscan, List.length_cons, List.take_length, List.drop_length]
  simp only [Config.step, Config.expression, Config.stepOperand]
  rw [Config.run]
  rfl

theorem parse_eq [Limits] (h : IsName t) : parse t = .ok (.identifier ⟨t, 0, t.length, false⟩) := by
  have hread : Phrase.read t = .ok (.name ⟨.name, t, .start⟩) := by
    simp only [Phrase.read, h.run_eq, bind, Except.bind, Config.settle]
    rfl
  have hidentifier : Token.identifier ⟨.name, t, .start⟩ false = .ok ⟨t, 0, t.length, false⟩ := by
    simp only [Token.identifier, h.reserved, Bool.false_eq_true, if_false, Token.stop,
      Position.start, Nat.zero_add]
  obtain ⟨room, hroom⟩ := Limits.exists_maxDepth_eq
  simp only [parse, hread, bind, Except.bind, hroom, Phrase.resolve, hidentifier]
  rfl

theorem isBlank_eq_false (h : IsName t) : t.isBlank = false := by
  obtain ⟨c, rest, rfl, hstart, -⟩ := h.start
  simp [Text.isBlank, (not_space_of_isNameStart hstart).2.2]

end IsName

theorem isNamePart_of_isPlain {c : CodePoint} (h : Reference.isPlain c = true) :
    isNamePart c = true := by
  simp only [Reference.isPlain, Bool.or_eq_true] at h
  simp only [isNamePart, isNameStart, Bool.or_eq_true]
  rcases h with hletter | hdigit
  . exact .inl (.inl (.inl hletter))
  . exact .inr hdigit

theorem isNamePart_digit : ∀ n < 16, isNamePart (Reference.digit n) = true := by
  decide

theorem isNamePart_of_mem_hex {n : Nat} {c : CodePoint} (h : c ∈ Text.hex n) :
    isNamePart c = true := by
  induction n using Nat.strongRecOn with
  | ind n ih =>
    rw [Reference.hex_eq_if] at h
    split at h
    . next hlt =>
      rw [List.mem_singleton.mp h]
      exact isNamePart_digit n hlt
    . next hle =>
      rcases List.mem_append.mp h with hmem | hmem
      . exact ih (n / 16) (by omega) hmem
      . rw [List.mem_singleton.mp hmem]
        exact isNamePart_digit _ (Nat.mod_lt n (by decide))

theorem isNamePart_of_mem_escape {c d : CodePoint} (h : d ∈ Reference.escape c) :
    isNamePart d = true := by
  have hdollar : isNamePart (CodePoint.ofChar '$') = true := by decide
  unfold Reference.escape at h
  split at h
  . next hplain =>
    rw [List.mem_singleton.mp h]
    exact isNamePart_of_isPlain hplain
  . simp only [Text.concat, Text.ofString, Text.ofChars, List.flatten_cons, List.flatten_nil,
      List.append_nil, List.mem_append] at h
    rcases h with hmem | hmem | hmem
    . rw [List.mem_singleton.mp hmem]
      exact hdollar
    . exact isNamePart_of_mem_hex hmem
    . rw [List.mem_singleton.mp hmem]
      exact hdollar

theorem isNamePart_of_mem_encode (id : Text) {c : CodePoint} (h : c ∈ Reference.encode id) :
    isNamePart c = true := by
  have hmark : Reference.mark.all isNamePart = true := by decide
  rcases List.mem_append.mp h with hmem | hmem
  . exact List.all_eq_true.mp hmark c hmem
  . obtain ⟨d, -, hescape⟩ := List.mem_flatMap.mp hmem
    exact isNamePart_of_mem_escape hescape

theorem isName_encode (id : Text) : IsName (Reference.encode id) := by
  have hcons : Reference.encode id =
      CodePoint.ofChar '$' :: (Reference.mark.tail ++ id.flatMap Reference.escape) := rfl
  have hhead : (Reference.encode id).head? = some (CodePoint.ofChar '$') := by
    rw [hcons, List.head?_cons]
  constructor
  . refine ⟨_, _, hcons, by decide, ?_⟩
    intro c hmem
    apply isNamePart_of_mem_encode id
    rw [hcons]
    exact List.mem_cons_of_mem _ hmem
  . intro keyword heq
    rw [← heq] at hhead
    cases keyword <;> revert hhead <;> decide
  . have hwords : ∀ word ∈ reservedWords, word.head? ≠ some (CodePoint.ofChar '$') := by
      decide
    rw [isReserved, decide_eq_false_iff_not]
    intro hmem
    exact hwords _ hmem hhead

end Expression

end PageBinding
