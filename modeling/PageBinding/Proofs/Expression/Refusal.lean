import Mathlib
import PageBinding.Proofs.Expression.Names
import PageBinding.Proofs.Expression.Tokens

/-!
This module contains for what reasons a text is refused. Almost all of them are faults that reading
a text reports. The only other one is an escape in a string literal, with a number far beyond every
code point.
-/

namespace PageBinding

namespace Expression

namespace Literal

def HasOversizedEscape (t : Text) : Prop :=
  ∃ digits : Text, ("\\u\x7b" : Text) ++ digits ++ ("\x7d" : Text) <:+: t ∧
    digits.all isHex = true ∧ 0x80000000 ≤ hexValue digits

theorem HasOversizedEscape.mono {s t : Text} (h : HasOversizedEscape s) (hin : s <:+: t) :
    HasOversizedEscape t := by
  obtain ⟨digits, hescape, hdigits⟩ := h
  exact ⟨digits, hescape.trans hin, hdigits⟩

theorem hexValue_lt (digits : Text) : hexValue digits < 16 ^ digits.length := by
  have hdigit (c : CodePoint) : c.hexValue?.getD 0 < 16 := by
    unfold CodePoint.hexValue? CodePoint.isAsciiDigit CodePoint.isBetween
    simp only [Bool.and_eq_true, decide_eq_true_eq, Char.reduceToNat]
    split
    . simp only [Option.getD_some]
      omega
    . split
      . simp only [Option.getD_some]
        omega
      . split
        . simp only [Option.getD_some]
          omega
        . decide
  have hfold (n : Nat) : digits.foldl (fun n c => n * 16 + c.hexValue?.getD 0) n <
      (n + 1) * 16 ^ digits.length := by
    induction digits generalizing n with
    | nil => simp
    | cons c digits ih =>
      have hc := hdigit c
      have hle : n * 16 + c.hexValue?.getD 0 + 1 ≤ (n + 1) * 16 := by omega
      rw [List.foldl_cons, List.length_cons]
      calc digits.foldl (fun n c => n * 16 + c.hexValue?.getD 0) (n * 16 + c.hexValue?.getD 0)
        _ < (n * 16 + c.hexValue?.getD 0 + 1) * 16 ^ digits.length := ih _
        _ ≤ (n + 1) * 16 * 16 ^ digits.length := Nat.mul_le_mul_right _ hle
        _ = (n + 1) * 16 ^ (digits.length + 1) := by
          rw [Nat.pow_succ, Nat.mul_assoc, Nat.mul_comm 16]
  have hzero := hfold 0
  rwa [Nat.zero_add, Nat.one_mul] at hzero

theorem codePoint_eq_tooLarge {n : Nat} (h : codePoint n = .error .tooLarge) : 0x80000000 ≤ n := by
  unfold codePoint at h
  split at h
  . cases h
  . split at h
    . cases h
    . omega

theorem bind_pure_eq_tooLarge {α β : Type} {x : Except EscapeFault α} {f : α → β}
    (h : (do return f (← x)) = (.error .tooLarge : Except EscapeFault β)) :
    x = .error .tooLarge := by
  cases x with
  | error fault =>
    cases h
    rfl
  | ok a => cases h

theorem exists_of_bracedDigits? {t digits : Text} (h : bracedDigits? t = some digits) :
    ∃ rest, t = CodePoint.ofChar '\x7b' :: (digits ++ CodePoint.ofChar '\x7d' :: rest) ∧
      digits.all isHex = true := by
  unfold bracedDigits? at h
  split at h
  . next c rest =>
    obtain ⟨tail, htail⟩ := List.takeWhile_prefix (l := rest) isHex
    dsimp only at h
    generalize hdigits : rest.takeWhile isHex = found at h htail
    subst htail
    rw [List.drop_left] at h
    split at h
    . next d tail =>
      split at h
      . next hbraces =>
        simp only [Bool.and_eq_true] at hbraces
        cases h
        refine ⟨tail, ?_, hdigits ▸ List.all_takeWhile⟩
        rw [CodePoint.eq_ofChar_of_is hbraces.1.1, CodePoint.eq_ofChar_of_is hbraces.1.2]
      . cases h
    . cases h
  . cases h

theorem codePoint_of_fixedDigits? {count : Nat} {t digits : Text} (hcount : count ≤ 4)
    (h : fixedDigits? count t = some digits) : codePoint (hexValue digits) ≠ .error .tooLarge := by
  intro hlarge
  have hlower := codePoint_eq_tooLarge hlarge
  unfold fixedDigits? at h
  dsimp only at h
  split at h
  . next hdigits =>
    cases h
    simp only [Bool.and_eq_true, decide_eq_true_eq] at hdigits
    have hupper := hexValue_lt (t.take count)
    have hpow := Nat.pow_le_pow_right (show 0 < 16 by decide) hcount
    rw [hdigits.1] at hupper
    omega
  . cases h

theorem escape_eq_tooLarge {c : CodePoint} {rest : Text}
    (h : escape c rest = .error .tooLarge) :
    HasOversizedEscape (CodePoint.ofChar '\\' :: c :: rest) := by
  unfold escape at h
  split at h
  . next hu =>
    split at h
    . next digits hdigits =>
      obtain ⟨tail, rfl, hhex⟩ := exists_of_bracedDigits? hdigits
      refine ⟨digits, ⟨[], tail, ?_⟩, hhex, codePoint_eq_tooLarge (bind_pure_eq_tooLarge h)⟩
      rw [CodePoint.eq_ofChar_of_is hu]
      simp [Text.ofString, Text.ofChars]
    . next digits hdigits =>
      exact absurd (bind_pure_eq_tooLarge h) (codePoint_of_fixedDigits? (by decide) hdigits)
    . cases h
  . split at h
    . split at h
      . next digits hdigits =>
        exact absurd (bind_pure_eq_tooLarge h) (codePoint_of_fixedDigits? (by decide) hdigits)
      . cases h
    . split at h
      . cases h
      . cases h

theorem unescape_eq_tooLarge {t : Text} (h : unescape t = .error .tooLarge) :
    HasOversizedEscape t := by
  fun_induction unescape t with
  | case1 => cases h
  | case2 c => cases h
  | case3 c d rest hslash ih =>
    cases hescape : escape d rest with
    | error fault =>
      rw [hescape] at h
      cases h
      rw [CodePoint.eq_ofChar_of_is hslash]
      exact escape_eq_tooLarge hescape
    | ok result =>
      obtain ⟨piece, n⟩ := result
      rw [hescape] at h
      have hrest := ih n (bind_pure_eq_tooLarge h)
      exact hrest.mono ((List.drop_suffix n rest).trans (List.suffix_append [c, d] rest)).isInfix
  | case4 c d rest hslash ih =>
    exact (ih (bind_pure_eq_tooLarge h)).mono (List.suffix_cons c _).isInfix

theorem string_eq_tooLarge {literal : Text} (h : string literal = .error .tooLarge) :
    HasOversizedEscape literal :=
  (unescape_eq_tooLarge h).mono
    ((List.dropLast_prefix _).isInfix.trans (List.drop_suffix 1 literal).isInfix)

end Literal

/--
The reasons for which a text is refused: a fault that is reported, or an escape that is not.
-/
inductive Refuses (t : Text) : Failure → Prop where
  | parse (fault : ParseFault) (place : Option Place) : Refuses t (.parse fault place)
  | escape (inKey : Bool) : Literal.HasOversizedEscape t → Refuses t (.escapeTooLarge inKey)

open Traversal

variable {t : Text}

namespace Token

variable {token : Token}

theorem failsOnly_identifier (shorthand : Bool) :
    FailsOnly (Refuses t) (token.identifier shorthand) := by
  unfold identifier
  split
  . exact .error (.parse _ _)
  . exact .ok _

variable (h : token.text <:+: t)
include h

theorem failsOnly_string (inKey : Bool) : FailsOnly (Refuses t) (token.string inKey) := by
  unfold string
  split
  . exact .ok _
  . exact .error (.parse _ _)
  . next heq => exact .error (.escape inKey ((Literal.string_eq_tooLarge heq).mono h))

theorem failsOnly_key : FailsOnly (Refuses t) token.key := by
  unfold key
  split
  . exact failsOnly_string h true
  . exact .ok _
  . exact .ok _

end Token

mutual

theorem Phrase.failsOnly_resolve {room : Nat} {p : Phrase}
    (h : p.All fun token => token.text <:+: t) : FailsOnly (Refuses t) (p.resolve room) := by
  match room, p with
  | 0, p =>
    rw [Phrase.resolve.eq_def]
    exact .error (.parse _ _)
  | room + 1, .number token => exact .ok _
  | room + 1, .string token => exact (Token.failsOnly_string h false).bind fun _ _ => .ok _
  | room + 1, .bool b => exact .ok _
  | room + 1, .null => exact .ok _
  | room + 1, .name token => exact (Token.failsOnly_identifier false).bind fun _ _ => .ok _
  | room + 1, .array items => exact (failsOnly_resolveList h).bind fun _ _ => .ok _
  | room + 1, .object entries => exact (failsOnly_resolveEntries h).bind fun _ _ => .ok _
  | room + 1, .unary op operand =>
    have hoperand : operand.All fun token => token.text <:+: t := h
    exact (Phrase.failsOnly_resolve hoperand).bind fun _ _ => .ok _
  | room + 1, .binary op left right =>
    exact (Phrase.failsOnly_resolve h.1).bind fun _ _ =>
      (Phrase.failsOnly_resolve h.2).bind fun _ _ => .ok _
  | room + 1, .conditional test consequent alternate =>
    exact (Phrase.failsOnly_resolve h.1).bind fun _ _ =>
      (Phrase.failsOnly_resolve h.2.1).bind fun _ _ =>
        (Phrase.failsOnly_resolve h.2.2).bind fun _ _ => .ok _
  | room + 1, .member object name optional =>
    have hobject : object.All fun token => token.text <:+: t := h
    exact (Phrase.failsOnly_resolve hobject).bind fun _ _ => .ok _
  | room + 1, .index object key optional =>
    exact (Phrase.failsOnly_resolve h.1).bind fun _ _ =>
      (Phrase.failsOnly_resolve h.2).bind fun _ _ => .ok _

theorem failsOnly_resolveList {room : Nat} {ps : List Phrase}
    (h : AllOfList (fun token => token.text <:+: t) ps) :
    FailsOnly (Refuses t) (resolveList room ps) := by
  match ps with
  | [] => exact .ok []
  | p :: rest =>
    rw [resolveList]
    exact (Phrase.failsOnly_resolve h.1).bind fun _ _ =>
      (failsOnly_resolveList h.2).bind fun _ _ => .ok _

theorem PhraseEntry.failsOnly_resolve {room : Nat} {entry : PhraseEntry}
    (h : entry.All fun token => token.text <:+: t) :
    FailsOnly (Refuses t) (entry.resolve room) := by
  match room, entry with
  | room, .keyed key value =>
    rw [PhraseEntry.resolve]
    exact (Token.failsOnly_key h.1).bind fun _ _ =>
      (Phrase.failsOnly_resolve h.2).bind fun _ _ => .ok _
  | room, .computed key value =>
    rw [PhraseEntry.resolve]
    exact (Phrase.failsOnly_resolve h.1).bind fun _ _ =>
      (Phrase.failsOnly_resolve h.2).bind fun _ _ => .ok _
  | 0, .shorthand name => exact .error (.parse _ _)
  | room + 1, .shorthand name =>
    exact (Token.failsOnly_identifier true).bind fun _ _ => .ok _

theorem failsOnly_resolveEntries {room : Nat} {entries : List PhraseEntry}
    (h : AllOfEntries (fun token => token.text <:+: t) entries) :
    FailsOnly (Refuses t) (resolveEntries room entries) := by
  match entries with
  | [] => exact .ok []
  | entry :: rest =>
    rw [resolveEntries]
    exact (PhraseEntry.failsOnly_resolve h.1).bind fun _ _ =>
      (failsOnly_resolveEntries h.2).bind fun _ _ => .ok _

end

theorem Clause.failsOnly_resolve [Limits] {clause : Clause}
    (h : clause.All fun token => token.text <:+: t) : FailsOnly (Refuses t) clause.resolve := by
  cases clause with
  | assignment target operator value =>
    exact (Phrase.failsOnly_resolve h.2.2).bind fun _ _ =>
      (Token.failsOnly_identifier false).bind fun _ _ => .ok _
  | call name args =>
    refine FailsOnly.bind (failsOnly_resolveList ?_) fun _ _ => .ok _
    have hargs := all_array_reverse.mpr fun p hmem => h.2 p (List.mem_reverse.mp hmem)
    rwa [List.reverse_reverse] at hargs

theorem Config.failsOnly_run (config : Config) (position : Position) (last : Place) (s : Text) :
    FailsOnly (Refuses t) (config.run position last s) := by
  fun_induction Config.run config position last s with
  | case1 => exact .ok _
  | case2 => assumption
  | case3 => assumption
  | case4 => exact .error (.parse _ _)
  | case5 =>
    unfold Config.stray
    split
    . exact .error (.parse _ _)
    . exact .error (.parse _ _)

theorem failsOnly_read (t : Text) : FailsOnly (Refuses t) (Phrase.read t) := by
  refine (Config.failsOnly_run _ _ _ _).bind fun result _ => ?_
  obtain ⟨config, last⟩ := result
  dsimp only
  split
  . split
    . exact .ok _
    . exact .error (.parse _ _)
  . exact .error (.parse _ _)

theorem failsOnly_readAction (t : Text) : FailsOnly (Refuses t) (Clause.read t) := by
  refine (Config.failsOnly_run _ _ _ _).bind fun result _ => ?_
  obtain ⟨config, last⟩ := result
  dsimp only
  split
  . exact .ok _
  . split
    . exact .ok _
    . exact .error (.parse _ _)
  . exact .error (.parse _ _)

theorem failsOnly_parse [Limits] (t : Text) : FailsOnly (Refuses t) (parse t) :=
  (failsOnly_read t).bind fun _ hread => Phrase.failsOnly_resolve (all_of_read hread)

theorem failsOnly_parseAction [Limits] (t : Text) : FailsOnly (Refuses t) (parseAction t) :=
  (failsOnly_readAction t).bind fun _ hread =>
    .mapM fun clause hmem => Clause.failsOnly_resolve (all_of_readAction hread clause hmem)

theorem failsOnly_checkEffects (allowed : List Text) (effects : List Effect) :
    FailsOnly (Refuses t) (checkEffects allowed effects) := by
  fun_induction checkEffects allowed effects with
  | case1 => exact .ok ()
  | case2 => assumption
  | case3 => exact .error (.parse _ _)
  | case4 => assumption

variable [Limits]

theorem failsOnly_identifiers? (mode : Mode) (optional : Bool) (t : Text) :
    FailsOnly (Refuses t) (identifiers? mode optional t) := by
  unfold identifiers?
  split
  . split
    . exact .ok _
    . exact .error (.parse _ _)
  . split
    . exact (failsOnly_parse t).bind fun _ _ => .ok _
    . next allowed =>
      refine (failsOnly_parseAction t).bind fun effects _ => ?_
      have hrest : FailsOnly (Refuses t) (do
          checkEffects allowed effects
          return some (identifiersOfEffects effects)) :=
        (failsOnly_checkEffects allowed effects).bind fun _ _ => .ok _
      split
      . split
        . exact .ok _
        . exact .error (.parse _ _)
      . exact hrest

theorem failsOnly_checkNames (mode : Mode) (known : Text → Bool) (t : Text) :
    FailsOnly (fun failure => Refuses t failure ∨ ∃ name, failure = .unknownIdentifier name)
      (checkNames mode known t) := by
  have hids := failsOnly_identifiers? mode false t
  unfold checkNames replaceNames
  cases h : identifiers? mode false t with
  | error failure => exact .error (.inl (hids failure h))
  | ok ids =>
    cases ids with
    | none => exact .ok []
    | some ids =>
      refine FailsOnly.bind (.mapM fun id _ => ?_) fun _ _ => .ok _
      dsimp only
      split
      . exact .ok _
      . exact .error (.inr ⟨id.name, rfl⟩)

theorem failsOnly_referencedIds (mode : Mode) (t : Text) :
    FailsOnly (Refuses t) (referencedIds mode t) := by
  refine (failsOnly_identifiers? mode true t).bind fun ids _ => ?_
  cases ids with
  | none => exact .ok _
  | some ids => exact .ok _

end Expression

end PageBinding
