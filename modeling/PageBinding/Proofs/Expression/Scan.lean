import PageBinding.Proofs.Expression.Name
import PageBinding.Proofs.Expression.Steps
import PageBinding.Proofs.Numeral

/-!
This module contains which token is taken at the start of a text. That depends on the
configuration, but it makes no difference to a token that is admitted: no two kinds that are looked
for together fit the same text, apart from question marks.
-/

namespace PageBinding

theorem CodePoint.eq_ofChar_of_is {c : CodePoint} {char : Char} (h : c.is char = true) :
    c = CodePoint.ofChar char :=
  Fin.ext (by simpa [CodePoint.is] using h)

namespace Expression

def headClass (c : CodePoint) : Nat :=
  if isNameStart c then 0 else if c.isDecimal then 1 else c.val

namespace Terminal

/--
The kind under which a kind of tokens is looked for. Words are names at first.
-/
def base : Terminal → Terminal
  | word _ => name
  | terminal => terminal

def heads : Terminal → List Nat
  | name | word _ => [0]
  | number => [1, '.'.toNat]
  | string => ['\x22'.toNat, '\x27'.toNat]
  | terminal => terminal.spellings.filterMap fun spelling => spelling.head?.map Fin.val

theorem base_mem_order (terminal : Terminal) : terminal.base ∈ order := by
  cases terminal with
  | word keyword => exact List.mem_of_elem_eq_true rfl
  | _ => exact List.mem_of_elem_eq_true rfl

theorem eq_spelling_of_lengthAt_pos {terminal : Terminal} {t : Text}
    (hspelled : terminal ∉ [name, number, string]) (h : 0 < terminal.lengthAt t) :
    ∃ spelling ∈ terminal.spellings, terminal.lengthAt t = spelling.length ∧ spelling <+: t := by
  have hlength : terminal.lengthAt t =
      ((terminal.spellings.find? t.startsWith).map List.length).getD 0 := by
    unfold lengthAt
    split
    . exact absurd (by decide) hspelled
    . exact absurd (by decide) hspelled
    . exact absurd (by decide) hspelled
    . split
      . next hfind => rw [hfind, Option.map_some, Option.getD_some]
      . next hfind => rw [hfind, Option.map_none, Option.getD_none]
  rw [hlength] at h ⊢
  cases hfind : terminal.spellings.find? t.startsWith with
  | none => simp [hfind] at h
  | some spelling =>
    refine ⟨spelling, List.mem_of_find?_eq_some hfind, rfl, ?_⟩
    have hstarts := List.find?_some hfind
    rwa [Text.startsWith, List.isPrefixOf_iff_prefix] at hstarts

theorem headClass_of_mem_spellings : ∀ terminal ∈ order, ∀ spelling ∈ terminal.spellings,
    spelling.head?.any (fun c => headClass c ∈ terminal.heads) = true := by
  decide

theorem headClass_mem_heads {terminal : Terminal} (hmem : terminal ∈ order) {c : CodePoint}
    {rest : Text} (h : 0 < terminal.lengthAt (c :: rest)) : headClass c ∈ terminal.heads := by
  by_cases hspelled : terminal ∈ [name, number, string]
  . simp only [List.mem_cons, List.not_mem_nil, or_false] at hspelled
    rcases hspelled with rfl | rfl | rfl
    . cases hstart : isNameStart c with
      | true => simp [headClass, hstart, heads]
      | false => simp [lengthAt, nameLength, hstart] at h
    . rcases Numeral.exists_of_length_pos h with hdecimal | hdot
      . have hstart : isNameStart c = false := by
          cases hstart : isNameStart c with
          | false => rfl
          | true =>
            have hval := val_of_isNameStart hstart
            rw [CodePoint.isDecimal_eq_false_of_gap (by omega)] at hdecimal
            exact absurd hdecimal (by decide)
        simp [headClass, hstart, hdecimal, heads]
      . rw [CodePoint.eq_ofChar_of_is hdot]
        decide
    . cases hquote : c.is '\x22' || c.is '\x27' with
      | false => simp [lengthAt, stringLength, hquote] at h
      | true =>
        simp only [Bool.or_eq_true] at hquote
        rcases hquote with hquote | hquote
        all_goals
          rw [CodePoint.eq_ofChar_of_is hquote]
          decide
  . obtain ⟨spelling, hspelling, -, hstarts⟩ := eq_spelling_of_lengthAt_pos hspelled h
    have hhead := headClass_of_mem_spellings terminal hmem spelling hspelling
    cases spelling with
    | nil => simp at hhead
    | cons d tail =>
      obtain ⟨rfl, -⟩ := List.cons_prefix_cons.mp hstarts
      simpa using hhead

/--
The kinds that are looked for between operands and that no operator is among, and those that start
operands.
-/
def isPlain (terminal : Terminal) : Bool :=
  startsOperand terminal || terminal ∈ [.rightParen, .rightBracket, .rightBrace, .colon, .comma,
    .semicolon]

theorem eq_of_isPlain : ∀ s ∈ order, ∀ t ∈ order, isPlain s = true → isPlain t = true →
    (∃ n ∈ s.heads, n ∈ t.heads) → s = t := by
  decide

theorem eq_of_followsOperand : ∀ s ∈ order, ∀ t ∈ order,
    followsOperand s = true → followsOperand t = true → (∃ n ∈ s.heads, n ∈ t.heads) →
      s = t ∨
        s ∈ [coalescing, optionalDot, question] ∧ t ∈ [coalescing, optionalDot, question] := by
  decide

end Terminal

namespace Config

theorem isPlain_of_accepts {config : Config} {s : Terminal} (hended : ∀ e, config.state ≠ .ended e)
    (heffect : ∀ name, config.state ≠ .effectName name) (h : config.accepts s = true) :
    s.isPlain = true := by
  have hnames (hs : namesProperty s = true) : s.isPlain = true := by
    cases s <;> first | rfl | exact absurd hs (by decide)
  obtain ⟨state, frames, effects⟩ := config
  cases state with
  | ended e => exact absurd rfl (hended e)
  | effectName name => exact absurd rfl (heffect name)
  | operand =>
    simp only [accepts, Bool.or_eq_true] at h
    rcases h with h | h
    . simp [Terminal.isPlain, h]
    . split at h
      . simp_all [Terminal.isPlain]
      . simp_all [Terminal.isPlain]
      . simp at h
  | member object optional =>
    simp only [accepts, Bool.or_eq_true, Bool.and_eq_true, decide_eq_true_eq] at h
    rcases h with h | ⟨-, rfl⟩
    . exact hnames h
    . rfl
  | entry entries =>
    simp only [accepts, Bool.or_eq_true, decide_eq_true_eq] at h
    rcases h with (((h | rfl) | rfl) | rfl) | rfl
    . exact hnames h
    all_goals rfl
  | entryName entries name =>
    simp only [accepts, Bool.or_eq_true, decide_eq_true_eq] at h
    rcases h with (rfl | rfl) | rfl
    all_goals rfl
  | entryKey entries key => rw [of_decide_eq_true h]; rfl
  | entryBracket entries key => rw [of_decide_eq_true h]; rfl
  | effect =>
    simp only [accepts, Bool.or_eq_true, decide_eq_true_eq] at h
    rcases h with rfl | rfl
    all_goals rfl

/--
At most one of the kinds that are looked for fits the start of a text, unless it is a question mark.
-/
theorem eq_of_accepts {config : Config} {s t : Terminal} (hs : s ∈ Terminal.order)
    (ht : t ∈ Terminal.order) (has : config.accepts s = true) (hat : config.accepts t = true)
    (hheads : ∃ n ∈ s.heads, n ∈ t.heads) :
    s = t ∨ s ∈ [.coalescing, .optionalDot, .question] ∧
      t ∈ [.coalescing, .optionalDot, .question] := by
  by_cases hended : ∃ e, config.state = .ended e
  . obtain ⟨e, he⟩ := hended
    simp only [accepts, he] at has hat
    exact Terminal.eq_of_followsOperand s hs t ht has hat hheads
  . by_cases heffect : ∃ name, config.state = .effectName name
    . obtain ⟨name, hname⟩ := heffect
      simp only [accepts, hname, Bool.or_eq_true, decide_eq_true_eq] at has hat
      rcases has with rfl | rfl
      all_goals
        rcases hat with rfl | rfl
        all_goals
          revert hheads
          decide
    . left
      have hplain {u : Terminal} (h : config.accepts u = true) : u.isPlain = true :=
        isPlain_of_accepts (fun e he => hended ⟨e, he⟩) (fun name hn => heffect ⟨name, hn⟩) h
      exact Terminal.eq_of_isPlain s hs t ht (hplain has) (hplain hat) hheads

end Config

def opensGap (t : Text) : Bool :=
  match t with
  | c :: d :: _ => isBlank c || (c.is '/' && (d.is '/' || d.is '*'))
  | [c] => isBlank c
  | [] => false

theorem gapLength_eq_zero {t : Text} (h : opensGap t = false) : gapLength t = 0 := by
  match t with
  | [] => rfl
  | [c] =>
    have hblank : isBlank c = false := h
    simp [gapLength, hblank]
  | c :: d :: rest =>
    simp only [opensGap, Bool.or_eq_false_iff, Bool.and_eq_false_iff] at h
    obtain ⟨hblank, hslash⟩ := h
    rcases hslash with hslash | hslash
    . simp [gapLength, hblank, hslash]
    . simp [gapLength, hblank, hslash]

structure Lexeme.Fits (lexeme : Lexeme) (rest : Text) : Prop where
  ne_nil : lexeme.text ≠ []
  gap : opensGap (lexeme.text ++ rest) = false
  length : lexeme.terminal.base.lengthAt (lexeme.text ++ rest) = lexeme.text.length
  keyword : ∀ keyword, lexeme.terminal = .word keyword → lexeme.text = keyword.text
  question : lexeme.terminal = .question →
    Terminal.coalescing.lengthAt (lexeme.text ++ rest) = 0 ∧
      Terminal.optionalDot.lengthAt (lexeme.text ++ rest) = 0

theorem find?_congr {α : Type} {p q : α → Bool} {as : List α} (h : ∀ a ∈ as, p a = q a) :
    as.find? p = as.find? q := by
  induction as with
  | nil => rfl
  | cons a as ih =>
    rw [List.find?_cons, List.find?_cons, h a List.mem_cons_self,
      ih fun b hb => h b (List.mem_cons_of_mem a hb)]

namespace Terminal

theorem find?_order_eq {p : Terminal → Bool} {terminal : Terminal} (hmem : terminal ∈ order)
    (hp : p terminal = true)
    (hunique : ∀ s ∈ order, p s = true → s = terminal ∨
      s ∈ [coalescing, optionalDot, question] ∧ terminal ∈ [coalescing, optionalDot, question])
    (hoptional : terminal = optionalDot → p coalescing = false)
    (hquestion : terminal = question → p coalescing = false ∧ p optionalDot = false) :
    order.find? p = some terminal := by
  by_cases hmark : terminal ∈ [coalescing, optionalDot, question]
  . -- Only the three kinds of question marks are left, and they are tried in this order.
    have hfilter : order.find? p =
        (order.filter (· ∈ [coalescing, optionalDot, question])).find? p := by
      rw [List.find?_filter]
      apply find?_congr
      intro s hs
      cases hps : p s with
      | false => simp
      | true =>
        rcases hunique s hs hps with rfl | ⟨h, -⟩
        . simp [hmark]
        . simp [h]
    rw [hfilter]
    have hmarks : order.filter (· ∈ [coalescing, optionalDot, question]) =
        [coalescing, optionalDot, question] := by
      decide
    rw [hmarks]
    simp only [List.mem_cons, List.not_mem_nil, or_false] at hmark
    rcases hmark with rfl | rfl | rfl
    . simp [hp]
    . simp [hp, hoptional rfl]
    . simp [hp, hquestion rfl]
  . cases hfind : order.find? p with
    | none => exact absurd hp (by simpa using List.find?_eq_none.mp hfind terminal hmem)
    | some s =>
      rcases hunique s (List.mem_of_find?_eq_some hfind) (List.find?_some hfind) with rfl | ⟨-, h⟩
      . rfl
      . exact absurd h hmark

theorem keyword_text_injective : ∀ a ∈ Keyword.all, ∀ b ∈ Keyword.all, a.text = b.text → a = b := by
  decide

theorem mem_keywords (keyword : Keyword) : keyword ∈ Keyword.all := by
  cases keyword <;> decide

theorem ofName_eq_word {accepts : Terminal → Bool} {keyword : Keyword}
    (h : accepts (word keyword) = true) : ofName accepts keyword.text = word keyword := by
  have hfind : Keyword.all.find? (fun k => k.text = keyword.text && accepts (word k)) =
      some keyword := by
    cases hfind : Keyword.all.find? (fun k => k.text = keyword.text && accepts (word k)) with
    | none =>
      have hnone := List.find?_eq_none.mp hfind keyword (mem_keywords keyword)
      simp [h] at hnone
    | some k =>
      have htext := List.find?_some hfind
      simp only [Bool.and_eq_true, decide_eq_true_eq] at htext
      rw [keyword_text_injective k (mem_keywords k) keyword (mem_keywords keyword) htext.1]
  simp only [ofName, hfind]

theorem ofName_eq_name_iff {accepts : Terminal → Bool} {t : Text} :
    ofName accepts t = name ↔
      ∀ keyword : Keyword, keyword.text = t → accepts (word keyword) = false := by
  unfold ofName
  split
  . next keyword hfind =>
    have hfound := List.find?_some hfind
    simp only [Bool.and_eq_true, decide_eq_true_eq] at hfound
    simp only [reduceCtorEq, false_iff, not_forall]
    exact ⟨keyword, hfound.1, by simp [hfound.2]⟩
  . next hnone =>
    simp only [true_iff]
    intro keyword htext
    have hkeyword := List.find?_eq_none.mp hnone keyword (mem_keywords keyword)
    simpa [htext] using hkeyword

theorem text_of_ofName_eq_word {accepts : Terminal → Bool} {t : Text} {keyword : Keyword}
    (h : ofName accepts t = word keyword) : keyword.text = t ∧ accepts (word keyword) = true := by
  unfold ofName at h
  split at h
  . next k hfind =>
    cases h
    simpa using List.find?_some hfind
  . cases h

end Terminal

theorem Config.accepts_base {config : Config} {terminal : Terminal}
    (h : config.accepts terminal = true) : config.accepts terminal.base = true := by
  obtain ⟨state, frames, effects⟩ := config
  cases terminal with
  | word keyword => cases state <;> first | rfl | simp [accepts] at h
  | _ => exact h

namespace Terminal

variable {accepts : Terminal → Bool} {t : Text} {found : Terminal}

/--
The kind of a token that has been found as a name, or as something else. Words are told from names
by their text.
-/
def refine (accepts : Terminal → Bool) (t : Text) (found : Terminal) : Terminal :=
  if found = name then ofName accepts (t.take (nameLength t)) else found

theorem base_refine (hmem : found ∈ order) : (found.refine accepts t).base = found := by
  unfold refine
  split
  . next hname =>
    rw [hname]
    unfold ofName
    split <;> rfl
  . cases found with
    | word keyword => exact absurd hmem (by cases keyword <;> decide)
    | _ => rfl

theorem text_of_refine_eq_word (hmem : found ∈ order) {keyword : Keyword}
    (h : found.refine accepts t = word keyword) :
    keyword.text = t.take (found.lengthAt t) ∧ accepts (word keyword) = true := by
  obtain rfl : found = name := by
    rw [← base_refine hmem, h]
    rfl
  exact text_of_ofName_eq_word h

theorem scan?_of_find?
    (h : order.find? (fun found => accepts found && 0 < found.lengthAt t) = some found) :
    scan? accepts t = some (found.refine accepts t, found.lengthAt t) := by
  unfold scan?
  rw [h]
  cases found <;> rfl

theorem exists_of_scan? {result : Terminal × Nat} (h : scan? accepts t = some result) :
    ∃ found, order.find? (fun found => accepts found && 0 < found.lengthAt t) = some found ∧
      result = (found.refine accepts t, found.lengthAt t) := by
  cases hfind : order.find? (fun found => accepts found && 0 < found.lengthAt t) with
  | none =>
    rw [scan?, hfind] at h
    cases h
  | some found =>
    rw [scan?_of_find? hfind, Option.some.injEq] at h
    exact ⟨found, rfl, h.symm⟩

theorem of_find?
    (h : order.find? (fun found => accepts found && 0 < found.lengthAt t) = some found) :
    found ∈ order ∧ accepts found = true ∧ 0 < found.lengthAt t := by
  have hfound := List.find?_some h
  simp only [Bool.and_eq_true, decide_eq_true_eq] at hfound
  exact ⟨List.mem_of_find?_eq_some h, hfound⟩

end Terminal

theorem Terminal.lengthAt_coalescing_eq_zero {t : Text} (h : 0 < optionalDot.lengthAt t) :
    coalescing.lengthAt t = 0 := by
  by_contra hne
  obtain ⟨s, hs, -, hprefix⟩ := eq_spelling_of_lengthAt_pos (by decide) (Nat.pos_of_ne_zero hne)
  obtain ⟨s', hs', -, hprefix'⟩ := eq_spelling_of_lengthAt_pos (by decide) h
  rw [List.mem_singleton.mp hs] at hprefix
  rw [List.mem_singleton.mp hs'] at hprefix'
  have hboth := List.prefix_of_prefix_length_le hprefix hprefix' (by decide)
  rw [← List.isPrefixOf_iff_prefix] at hboth
  exact absurd hboth (by decide)

theorem Terminal.scan?_eq {config : Config} {token : Token} {rest : Text}
    (hadmits : config.Admits token) (hfits : token.lexeme.Fits rest) :
    scan? config.accepts (token.text ++ rest) = some (token.terminal, token.text.length) := by
  have hlength : token.terminal.base.lengthAt (token.text ++ rest) = token.text.length :=
    hfits.length
  have hpos : 0 < token.text.length := List.length_pos_iff.mpr hfits.ne_nil
  have hfind : order.find? (fun terminal => config.accepts terminal &&
      0 < terminal.lengthAt (token.text ++ rest)) = some token.terminal.base := by
    apply find?_order_eq (base_mem_order _)
    . simp [Config.accepts_base hadmits.accepts, hlength, hpos]
    . intro s hs hps
      simp only [Bool.and_eq_true, decide_eq_true_eq] at hps
      obtain ⟨c, tail, hcons⟩ := List.exists_cons_of_ne_nil hfits.ne_nil
      have htext : token.text ++ rest = c :: (tail ++ rest) := by
        rw [show token.text = c :: tail from hcons, List.cons_append]
      apply Config.eq_of_accepts hs (base_mem_order _) hps.1 (Config.accepts_base hadmits.accepts)
      refine ⟨headClass c, headClass_mem_heads hs (htext ▸ hps.2), ?_⟩
      apply headClass_mem_heads (base_mem_order _)
      rw [← htext, hlength]
      exact hpos
    . intro hoptional
      rw [hoptional] at hlength
      simp [lengthAt_coalescing_eq_zero (hlength ▸ hpos)]
    . intro hquestion
      have hterminal : token.terminal = question := by
        revert hquestion
        cases token.terminal <;> simp [base]
      obtain ⟨hcoalescing, hoptional⟩ := hfits.question hterminal
      exact ⟨by simp [show coalescing.lengthAt (token.text ++ rest) = 0 from hcoalescing],
        by simp [show optionalDot.lengthAt (token.text ++ rest) = 0 from hoptional]⟩
  -- What is found as a name is told from a word by the words that are looked for.
  rw [scan?_of_find? hfind, hlength]
  have htake : (token.text ++ rest).take token.text.length = token.text := List.take_left
  cases hterminal : token.terminal with
  | name =>
    rw [hterminal] at hlength
    have hname : nameLength (token.text ++ rest) = token.text.length := hlength
    simp only [base, refine, if_true, hname, htake]
    rw [ofName_eq_name_iff.mpr (hadmits.keyword hterminal)]
  | word keyword =>
    rw [hterminal] at hlength
    have hname : nameLength (token.text ++ rest) = token.text.length := hlength
    have htext : token.text = keyword.text := hfits.keyword keyword hterminal
    have haccepts := hadmits.accepts
    rw [hterminal] at haccepts
    simp only [base, refine, if_true, hname, htake]
    rw [htext, ofName_eq_word haccepts]
  | _ => rfl

theorem closingLength?_le {quote : CodePoint} {t : Text} {n : Nat}
    (h : closingLength? quote t = some n) : 0 < n ∧ n ≤ t.length := by
  fun_induction closingLength? quote t generalizing n with
  | case1 => simp at h
  | case2 rest =>
    cases h
    simp
  | case3 => simp at h
  | case4 c _ _ d rest ih =>
    obtain ⟨m, hm, rfl⟩ := Option.map_eq_some_iff.mp h
    have := ih hm
    simp only [List.length_cons]
    omega
  | case5 => simp at h
  | case6 c rest _ _ _ ih =>
    obtain ⟨m, hm, rfl⟩ := Option.map_eq_some_iff.mp h
    have := ih hm
    simp only [List.length_cons]
    omega

theorem Terminal.lengthAt_le (terminal : Terminal) (t : Text) : terminal.lengthAt t ≤ t.length := by
  by_cases hspelled : terminal ∈ [name, number, string]
  . simp only [List.mem_cons, List.not_mem_nil, or_false] at hspelled
    rcases hspelled with rfl | rfl | rfl
    . simp only [lengthAt, nameLength]
      split
      . exact Nat.le_refl 0
      . next c rest =>
        have hrest := (List.takeWhile_prefix isNamePart (l := rest)).length_le
        split
        . rw [List.length_cons]
          omega
        . omega
    . exact Numeral.length_le t
    . simp only [lengthAt, stringLength]
      split
      . exact Nat.le_refl 0
      . next c rest =>
        split
        . split
          . next n hclosing =>
            have := closingLength?_le hclosing
            rw [List.length_cons]
            omega
          . omega
        . omega
  . rcases Nat.eq_zero_or_pos (terminal.lengthAt t) with hzero | hpos
    . omega
    . obtain ⟨s, -, hlength, hprefix⟩ := eq_spelling_of_lengthAt_pos hspelled hpos
      rw [hlength]
      exact hprefix.length_le

theorem Terminal.find?_order_question {p : Terminal → Bool} (h : order.find? p = some question) :
    p coalescing = false ∧ p optionalDot = false := by
  have horder : order = order.take 8 ++ order.drop 8 := rfl
  rw [horder, List.find?_append] at h
  cases hfirst : (order.take 8).find? p with
  | some s =>
    rw [hfirst, Option.some_or, Option.some.injEq] at h
    rw [h] at hfirst
    exact absurd (List.mem_of_find?_eq_some hfirst) (by decide)
  | none =>
    have hnone := List.find?_eq_none.mp hfirst
    have hcoalescing := hnone coalescing (by decide)
    have hoptional := hnone optionalDot (by decide)
    exact ⟨by simpa using hcoalescing, by simpa using hoptional⟩

theorem Config.accepts_of_question {config : Config} (h : config.accepts .question = true) :
    config.accepts .coalescing = true ∧ config.accepts .optionalDot = true := by
  obtain ⟨state, frames, effects⟩ := config
  cases state with
  | ended e => exact ⟨rfl, rfl⟩
  | operand =>
    simp only [accepts, startsOperand, Bool.false_or] at h
    split at h <;> simp at h
  | _ => simp [accepts, namesProperty] at h

namespace Terminal

variable {config : Config} {t : Text} {found : Terminal}

theorem admits_of_find?
    (h : order.find? (fun found => config.accepts found && 0 < found.lengthAt t) = some found)
    (start : Position) :
    config.Admits ⟨found.refine config.accepts t, t.take (found.lengthAt t), start⟩ := by
  obtain ⟨hmem, haccepts, -⟩ := of_find? h
  have hbase := @base_refine config.accepts t found hmem
  constructor
  . dsimp only
    cases hkind : found.refine config.accepts t with
    | word keyword => exact (text_of_refine_eq_word hmem hkind).2
    | _ =>
      rw [hkind] at hbase
      rw [show found = _ from hbase.symm] at haccepts
      exact haccepts
  . intro (hname : found.refine config.accepts t = name)
    obtain rfl : found = name := by
      rw [← hbase, hname]
      rfl
    exact ofName_eq_name_iff.mp hname

theorem fits_of_find? (hgap : opensGap t = false)
    (h : order.find? (fun found => config.accepts found && 0 < found.lengthAt t) = some found) :
    Lexeme.Fits ⟨found.refine config.accepts t, t.take (found.lengthAt t)⟩
      (t.drop (found.lengthAt t)) := by
  obtain ⟨hmem, haccepts, hpos⟩ := of_find? h
  have hbase := @base_refine config.accepts t found hmem
  have htake : (t.take (found.lengthAt t)).length = found.lengthAt t := by
    rw [List.length_take, Nat.min_eq_left (lengthAt_le found t)]
  constructor
  . exact List.length_pos_iff.mp (by dsimp only; omega)
  . rw [List.take_append_drop]
    exact hgap
  . rw [List.take_append_drop, hbase]
    exact htake.symm
  . intro keyword hkeyword
    exact (text_of_refine_eq_word hmem hkeyword).1.symm
  . -- The longer kinds that start with a question mark are looked for as well, and before it.
    intro (hquestion : found.refine config.accepts t = question)
    obtain rfl : found = question := by
      rw [← hbase, hquestion]
      rfl
    obtain ⟨hcoalescing, hoptional⟩ := find?_order_question h
    obtain ⟨haccepts, haccepts'⟩ := Config.accepts_of_question haccepts
    rw [List.take_append_drop]
    exact ⟨by simpa [haccepts] using hcoalescing, by simpa [haccepts'] using hoptional⟩

end Terminal

theorem Terminal.fits_of_scan? {config : Config} {t : Text} {terminal : Terminal} {n : Nat}
    (hgap : opensGap t = false) (h : scan? config.accepts t = some (terminal, n)) :
    (∀ start, config.Admits ⟨terminal, t.take n, start⟩) ∧
      Lexeme.Fits ⟨terminal, t.take n⟩ (t.drop n) := by
  obtain ⟨found, hfind, heq⟩ := exists_of_scan? h
  cases heq
  exact ⟨admits_of_find? hfind, fits_of_find? hgap hfind⟩

end Expression

end PageBinding
