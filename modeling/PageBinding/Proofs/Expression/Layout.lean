import PageBinding.Proofs.Expression.Lexeme
import PageBinding.Proofs.Traversal

/-!
This module contains how a text is cut into tokens. A layout of tokens is the text they are written
as, with white space and comments between them; the parser reads a text as the tokens that it is a
layout of.
-/

namespace PageBinding

namespace Expression

/--
A piece of white space, or a comment, in front of the rest of a text.
-/
inductive Gap (rest : Text) : Text → Prop where
  | blank {c : CodePoint} : isBlank c = true → Gap rest [c]
  | line {body : Text} : (∀ c ∈ body, c.is '\n' = false) → (∀ c ∈ rest.head?, c.is '\n' = true) →
      Gap rest (("//" : Text) ++ body)
  | block {body : Text} : ¬ ("*/" : Text) <:+: body →
      Gap rest (("/*" : Text) ++ body ++ ("*/" : Text))

inductive Layout : Position → Text → List Token → Prop where
  | nil (pos : Position) : Layout pos [] []
  | gap {pos : Position} {g rest : Text} {ts : List Token} :
      Gap rest g → Layout (pos.advance g) rest ts → Layout pos (g ++ rest) ts
  | token {token : Token} {rest : Text} {ts : List Token} :
      token.lexeme.Fits rest → Layout (token.start.advance token.text) rest ts →
      Layout token.start (token.text ++ rest) (token :: ts)

theorem blockLength?_eq_two {t : Text} (h : ("*/" : Text) <+: t) : blockLength? t = some 2 := by
  obtain ⟨rest, rfl⟩ := h
  cases rest <;> rfl

theorem blockLength?_cons {c : CodePoint} {t : Text} (h : ¬ ("*/" : Text) <+: c :: t) :
    blockLength? (c :: t) = (blockLength? t).map (· + 1) := by
  cases t with
  | nil => simp [blockLength?]
  | cons d t =>
    rw [blockLength?]
    split
    . next hstar =>
      rw [if_neg]
      intro hslash
      apply h
      rw [CodePoint.eq_ofChar_of_is hstar, CodePoint.eq_ofChar_of_is hslash]
      exact ⟨t, rfl⟩
    . rfl

theorem blockLength?_append {body : Text} (h : ¬ ("*/" : Text) <:+: body) (rest : Text) :
    blockLength? (body ++ ("*/" : Text) ++ rest) = some (body.length + 2) := by
  induction body with
  | nil => exact blockLength?_eq_two (List.prefix_append _ rest)
  | cons c body ih =>
    have hbody : ¬ ("*/" : Text) <:+: body := fun hinfix => h (List.infix_cons hinfix)
    rw [List.cons_append, List.cons_append, blockLength?_cons, ih hbody]
    . simp [Nat.add_right_comm]
    . -- The end of the comment cannot begin inside of the body.
      intro hprefix
      cases body with
      | nil =>
        have hslash : CodePoint.ofChar '/' = CodePoint.ofChar '*' :=
          (List.cons_prefix_cons.mp (List.cons_prefix_cons.mp hprefix).2).1
        exact absurd hslash (by decide)
      | cons d body =>
        obtain ⟨rfl, htail⟩ := List.cons_prefix_cons.mp hprefix
        obtain ⟨rfl, -⟩ := List.cons_prefix_cons.mp htail
        exact h (List.IsPrefix.isInfix ⟨body, rfl⟩)

theorem exists_of_blockLength? {t : Text} {n : Nat} (h : blockLength? t = some n) :
    ∃ body rest, t = body ++ ("*/" : Text) ++ rest ∧ ¬ ("*/" : Text) <:+: body ∧
      n = body.length + 2 := by
  induction t generalizing n with
  | nil => simp [blockLength?] at h
  | cons c t ih =>
    by_cases hprefix : ("*/" : Text) <+: c :: t
    . rw [blockLength?_eq_two hprefix, Option.some.injEq] at h
      obtain ⟨rest, hrest⟩ := hprefix
      exact ⟨[], rest, hrest.symm, by decide, h.symm⟩
    . rw [blockLength?_cons hprefix, Option.map_eq_some_iff] at h
      obtain ⟨m, hm, rfl⟩ := h
      obtain ⟨body, rest, rfl, hbody, rfl⟩ := ih hm
      refine ⟨c :: body, rest, rfl, ?_, by simp [Nat.add_right_comm]⟩
      intro hinfix
      rcases List.infix_cons_iff.mp hinfix with hstart | hinner
      . apply hprefix
        rw [List.append_assoc]
        exact hstart.trans (List.prefix_append (c :: body) _)
      . exact hbody hinner

theorem gapLength_of_isBlank {c : CodePoint} (h : isBlank c = true) (rest : Text) :
    gapLength (c :: rest) = 1 + (rest.takeWhile isBlank).length := by
  cases rest with
  | nil => simp [gapLength, h]
  | cons d rest =>
    simp only [gapLength, h, if_true]
    rw [List.takeWhile_cons_of_pos h, List.length_cons, Nat.add_comm]

theorem gapLength_line (t : Text) :
    gapLength (("//" : Text) ++ t) = 2 + (t.takeWhile fun c => !c.is '\n').length :=
  rfl

theorem gapLength_block (t : Text) :
    gapLength (("/*" : Text) ++ t) = ((blockLength? t).map (2 + ·)).getD 0 := by
  change gapLength (CodePoint.ofChar '/' :: CodePoint.ofChar '*' :: t) = _
  rw [gapLength, if_neg (by decide), if_neg (by decide), if_pos (by decide)]
  cases blockLength? t <;> rfl

theorem exists_of_gapLength {t : Text} (h : 0 < gapLength t) :
    ∃ g rest, t = g ++ rest ∧ gapLength t = g.length ∧
      ((∀ c ∈ g, isBlank c = true) ∨ Gap rest g) := by
  cases t with
  | nil => simp [gapLength] at h
  | cons c t =>
    cases hblank : isBlank c with
    | true =>
      refine ⟨c :: t.takeWhile isBlank, t.dropWhile isBlank, ?_, ?_, .inl ?_⟩
      . rw [List.cons_append, List.takeWhile_append_dropWhile]
      . rw [gapLength_of_isBlank hblank, List.length_cons, Nat.add_comm]
      . exact List.forall_mem_cons.mpr ⟨hblank, fun _ => List.mem_takeWhile_imp⟩
    | false =>
      cases t with
      | nil => simp [gapLength, hblank] at h
      | cons d t =>
        cases hslash : c.is '/' with
        | false => simp [gapLength, hblank, hslash] at h
        | true =>
          obtain rfl := CodePoint.eq_ofChar_of_is hslash
          cases hline : d.is '/' with
          | true =>
            obtain rfl := CodePoint.eq_ofChar_of_is hline
            refine ⟨("//" : Text) ++ t.takeWhile fun c => !c.is '\n',
              t.dropWhile fun c => !c.is '\n', ?_, ?_, .inr (.line ?_ ?_)⟩
            . rw [List.append_assoc, List.takeWhile_append_dropWhile]
              rfl
            . rw [List.length_append]
              exact gapLength_line t
            . intro c hc
              simpa using List.mem_takeWhile_imp hc
            . intro c hc
              have hhead := List.head?_dropWhile_not (fun c => !CodePoint.is c '\n') t
              rw [Option.mem_def.mp hc] at hhead
              simpa using hhead
          | false =>
            cases hstar : d.is '*' with
            | false => simp [gapLength, hblank, hline, hstar] at h
            | true =>
              obtain rfl := CodePoint.eq_ofChar_of_is hstar
              have hlength : gapLength (CodePoint.ofChar '/' :: CodePoint.ofChar '*' :: t) =
                  ((blockLength? t).map (2 + ·)).getD 0 :=
                gapLength_block t
              rw [hlength] at h ⊢
              cases hblock : blockLength? t with
              | none => simp [hblock] at h
              | some n =>
                obtain ⟨body, rest, rfl, hbody, rfl⟩ := exists_of_blockLength? hblock
                refine ⟨("/*" : Text) ++ body ++ ("*/" : Text), rest, ?_, ?_, .inr (.block hbody)⟩
                . rw [List.append_assoc, List.append_assoc, List.append_assoc]
                  rfl
                . simp only [List.length_append]
                  rfl

theorem takeWhile_append_of_head {α : Type} {p : α → Bool} {as rest : List α}
    (has : ∀ a ∈ as, p a = true) (hrest : ∀ a ∈ rest.head?, p a = false) :
    (as ++ rest).takeWhile p = as := by
  rw [List.takeWhile_append_of_pos has]
  cases rest with
  | nil => simp
  | cons a rest => simp [hrest a rfl]

namespace Config

variable {config next last : Config} {pos : Position} {place : Place} {g rest : Text}

theorem run_of_gapLength (hne : g ≠ []) (h : gapLength (g ++ rest) = g.length) :
    config.run pos place (g ++ rest) = config.run (pos.advance g) place rest := by
  obtain ⟨c, tail, rfl⟩ := List.exists_cons_of_ne_nil hne
  rw [List.cons_append, List.length_cons] at h
  rw [List.cons_append, run, h]
  simp only [List.take_left, List.drop_left]

theorem run_blanks (hall : ∀ c ∈ g, isBlank c = true)
    (hrest : ∀ c ∈ rest.head?, isBlank c = false) :
    config.run pos place (g ++ rest) = config.run (pos.advance g) place rest := by
  cases g with
  | nil => rfl
  | cons c g =>
    apply run_of_gapLength (List.cons_ne_nil c g)
    rw [List.cons_append, gapLength_of_isBlank (hall c List.mem_cons_self),
      takeWhile_append_of_head (fun d hd => hall d (List.mem_cons_of_mem c hd)) hrest,
      List.length_cons, Nat.add_comm]

theorem run_blank {c : CodePoint} (h : isBlank c = true) :
    config.run pos place (c :: rest) = config.run (pos.step c) place rest := by
  -- All the white space is taken at once, and so is what is left of it behind its first code point.
  have hall : ∀ d ∈ rest.takeWhile isBlank, isBlank d = true := fun _ => List.mem_takeWhile_imp
  have hrest : ∀ d ∈ (rest.dropWhile isBlank).head?, isBlank d = false := by
    intro d hd
    have hhead := List.head?_dropWhile_not isBlank rest
    rw [Option.mem_def.mp hd] at hhead
    simpa using hhead
  rw [← List.takeWhile_append_dropWhile (p := isBlank) (l := rest), run_blanks hall hrest,
    ← List.cons_append, run_blanks (List.forall_mem_cons.mpr ⟨h, hall⟩) hrest]
  rfl

theorem run_of_gap (h : Gap rest g) :
    config.run pos place (g ++ rest) = config.run (pos.advance g) place rest := by
  cases h with
  | blank hblank => exact run_blank hblank
  | line hbody hrest =>
    apply run_of_gapLength
    . exact List.cons_ne_nil _ _
    . rw [List.append_assoc, gapLength_line, takeWhile_append_of_head]
      . simp only [List.length_append]
        rfl
      . simpa using hbody
      . simpa using hrest
  | block hbody =>
    apply run_of_gapLength
    . exact List.cons_ne_nil _ _
    . rw [List.append_assoc, List.append_assoc, gapLength_block, ← List.append_assoc,
        blockLength?_append hbody]
      simp only [List.length_append, Option.map_some, Option.getD_some]
      rfl

theorem run_of_token {token : Token} (hadmits : config.Admits token)
    (hfits : token.lexeme.Fits rest) (hstep : config.step token = some next) :
    config.run token.start place (token.text ++ rest) =
      next.run (token.start.advance token.text) token.place rest := by
  have hscan := Terminal.scan?_eq hadmits hfits
  have hgap := gapLength_eq_zero hfits.gap
  obtain ⟨terminal, text, start⟩ := token
  obtain ⟨c, tail, rfl⟩ := List.exists_cons_of_ne_nil (show text ≠ [] from hfits.ne_nil)
  dsimp only [Token.lexeme, List.cons_append, List.length_cons] at hscan hgap ⊢
  rw [run, hgap]
  simp only [hscan, List.take_left, List.drop_left, hstep]

theorem run_of_layout {t : Text} {ts : List Token} (hlayout : Layout pos t ts)
    (hsteps : Steps config ts next) (place : Place) :
    ∃ place', config.run pos place t = .ok (next, place') := by
  induction hlayout generalizing config place with
  | nil pos =>
    cases hsteps
    exact ⟨place, by rw [run]⟩
  | gap hgap _ ih =>
    rw [run_of_gap hgap]
    exact ih hsteps place
  | token hfits _ ih =>
    cases hsteps with
    | step hadmits hstep hrest =>
      rw [run_of_token hadmits hfits hstep]
      exact ih hrest _

end Config

namespace Layout

theorem blanks {g rest : Text} {pos : Position} {ts : List Token}
    (hall : ∀ c ∈ g, isBlank c = true) (h : Layout (pos.advance g) rest ts) :
    Layout pos (g ++ rest) ts := by
  induction g generalizing pos with
  | nil => exact h
  | cons c g ih =>
    apply gap (g := [c]) (.blank (hall c List.mem_cons_self))
    exact ih (fun d hd => hall d (List.mem_cons_of_mem c hd)) h

theorem of_gapLength {t : Text} {pos : Position} {ts : List Token} (hpos : 0 < gapLength t)
    (h : Layout (pos.advance (t.take (gapLength t))) (t.drop (gapLength t)) ts) :
    Layout pos t ts := by
  obtain ⟨g, rest, rfl, hlength, hgap⟩ := exists_of_gapLength hpos
  rw [hlength, List.take_left, List.drop_left] at h
  rcases hgap with hall | hgap
  . exact blanks hall h
  . exact gap hgap h

end Layout

def Lexes (t : Text) (ws : List Lexeme) : Prop :=
  ∀ pos, ∃ ts, Layout pos t ts ∧ ts.map Token.lexeme = ws

namespace Lexes

variable {t g rest : Text} {w : Lexeme} {ws : List Lexeme}

theorem nil : Lexes [] [] :=
  fun pos => ⟨[], .nil pos, rfl⟩

theorem token (hfits : w.Fits rest) (h : Lexes rest ws) : Lexes (w.text ++ rest) (w :: ws) := by
  intro pos
  obtain ⟨ts, hlayout, rfl⟩ := h (pos.advance w.text)
  exact ⟨w.token pos :: ts, @Layout.token (w.token pos) rest ts hfits hlayout, rfl⟩

theorem gap (hgap : Gap rest g) (h : Lexes rest ws) : Lexes (g ++ rest) ws := by
  intro pos
  obtain ⟨ts, hlayout, hts⟩ := h (pos.advance g)
  exact ⟨ts, .gap hgap hlayout, hts⟩

theorem blanks (hall : ∀ c ∈ g, isBlank c = true) (h : Lexes rest ws) : Lexes (g ++ rest) ws := by
  intro pos
  obtain ⟨ts, hlayout, hts⟩ := h (pos.advance g)
  exact ⟨ts, hlayout.blanks hall, hts⟩

end Lexes

namespace Config

variable {config last : Config} {pos : Position} {place place' : Place} {t : Text}

theorem ended_of_accepts (h : config.accepts .multiplicative = true) :
    ∃ e, config.state = .ended e := by
  obtain ⟨state, frames, effects⟩ := config
  cases state with
  | ended e => exact ⟨e, rfl⟩
  | operand =>
    simp only [accepts, startsOperand, Bool.false_or] at h
    split at h <;> simp at h
  | _ => simp [accepts, namesProperty] at h

theorem eq_of_mem_heads : ∀ found ∈ Terminal.order,
    '*'.toNat ∈ found.heads ∨ '/'.toNat ∈ found.heads →
      found = .assign ∨ found = .multiplicative := by
  decide

theorem headClass_of_mem (c : Char) (hc : c = '*' ∨ c = '/') :
    headClass (CodePoint.ofChar c) = c.toNat := by
  rcases hc with rfl | rfl <;> decide

theorem exists_of_run {result : Config × Place} (hne : t ≠ []) (hgap : gapLength t = 0)
    (h : config.run pos place t = .ok result) : ∃ terminal n next place',
      Terminal.scan? config.accepts t = some (terminal, n + 1) ∧
        config.step ⟨terminal, t.take (n + 1), pos⟩ = some next ∧
        next.run (pos.advance (t.take (n + 1))) place' (t.drop (n + 1)) = .ok result := by
  obtain ⟨c, t, rfl⟩ := List.exists_cons_of_ne_nil hne
  rw [run, hgap] at h
  simp only at h
  split at h
  . next terminal n hscan =>
    split at h
    . next next hstep => exact ⟨terminal, n, next, _, hscan, hstep, h⟩
    . cases h
  . cases h

theorem scan?_star (hstate : config.state = .operand) :
    Terminal.scan? config.accepts (CodePoint.ofChar '*' :: t) = none := by
  cases hscan : Terminal.scan? config.accepts (CodePoint.ofChar '*' :: t) with
  | none => rfl
  | some result =>
    obtain ⟨found, hfind, -⟩ := Terminal.exists_of_scan? hscan
    obtain ⟨hmem, haccepts, hlength⟩ := Terminal.of_find? hfind
    have hheads := Terminal.headClass_mem_heads hmem hlength
    rw [headClass_of_mem '*' (.inl rfl)] at hheads
    rcases eq_of_mem_heads found hmem (.inl hheads) with rfl | rfl
    . simp only [accepts, hstate, startsOperand, Bool.false_or] at haccepts
      split at haccepts <;> simp at haccepts
    . obtain ⟨e, he⟩ := ended_of_accepts haccepts
      rw [hstate] at he
      cases he

theorem scan?_slash {found : Terminal × Nat} (h : Terminal.scan? config.accepts
    (CodePoint.ofChar '/' :: CodePoint.ofChar '*' :: t) = some found) :
    found = (.multiplicative, 1) ∧ ∃ e, config.state = .ended e := by
  obtain ⟨terminal, hfind, rfl⟩ := Terminal.exists_of_scan? h
  obtain ⟨hmem, haccepts, hlength⟩ := Terminal.of_find? hfind
  have hheads : headClass (CodePoint.ofChar '/') ∈ terminal.heads :=
    Terminal.headClass_mem_heads hmem hlength
  rw [headClass_of_mem '/' (.inr rfl)] at hheads
  rcases eq_of_mem_heads terminal hmem (.inr hheads) with rfl | rfl
  . have hzero : Terminal.assign.lengthAt (CodePoint.ofChar '/' :: CodePoint.ofChar '*' :: t) = 0 :=
      rfl
    omega
  . exact ⟨rfl, ended_of_accepts haccepts⟩

theorem opensGap_of_run (hgap : gapLength t = 0)
    (h : config.run pos place t = .ok (last, place')) : opensGap t = false := by
  match t with
  | [] => rfl
  | [c] =>
    cases hblank : isBlank c with
    | false => exact hblank
    | true => simp [gapLength, hblank] at hgap
  | c :: d :: rest =>
    cases hblank : isBlank c with
    | true => simp [gapLength, hblank] at hgap
    | false =>
      cases hslash : c.is '/' with
      | false => simp [opensGap, hblank, hslash]
      | true =>
        cases hline : d.is '/' with
        | true => simp [gapLength, hblank, hslash, hline] at hgap
        | false =>
          cases hstar : d.is '*' with
          | false => simp [opensGap, hblank, hline, hstar]
          | true =>
            obtain rfl := CodePoint.eq_ofChar_of_is hslash
            obtain rfl := CodePoint.eq_ofChar_of_is hstar
            exfalso
            -- The slash could only be a division, and no operand starts with a star.
            obtain ⟨terminal, n, next, place', hscan, hstep, hrun⟩ :=
              exists_of_run (List.cons_ne_nil _ _) hgap h
            obtain ⟨hfound, e, hstate⟩ := scan?_slash hscan
            cases hfound
            have hnext : next.state = .operand := by
              have hop : BinaryOp.ofText? [CodePoint.ofChar '/'] = some .div := rfl
              simp only [step, hstate, stepEnded, Nat.zero_add, List.take_succ_cons, List.take_zero,
                hop, Option.some.injEq] at hstep
              rw [← hstep]
            have hstar : gapLength (CodePoint.ofChar '*' :: rest) = 0 :=
              gapLength_eq_zero (opensGap_cons (by decide) (by decide) rest)
            obtain ⟨terminal, n, next, place', hscan, -⟩ :=
              exists_of_run (List.cons_ne_nil _ _) hstar hrun
            rw [scan?_star hnext] at hscan
            cases hscan

theorem layout_of_run {n : Nat} (hn : t.length ≤ n)
    (h : config.run pos place t = .ok (last, place')) :
    ∃ ts, Layout pos t ts ∧ Steps config ts last := by
  -- Each gap and each token shortens what is left of the text.
  induction n generalizing config pos place t with
  | zero =>
    obtain rfl := List.eq_nil_of_length_eq_zero (Nat.le_zero.mp hn)
    rw [run] at h
    cases h
    exact ⟨[], .nil pos, .refl _⟩
  | succ n ih =>
    by_cases hne : t = []
    . rw [hne, run] at h
      cases h
      rw [hne]
      exact ⟨[], .nil pos, .refl _⟩
    . rcases Nat.eq_zero_or_pos (gapLength t) with hzero | hpos
      . have hgap := opensGap_of_run hzero h
        obtain ⟨terminal, k, next, place', hscan, hstep, hrun⟩ := exists_of_run hne hzero h
        obtain ⟨hadmits, hfits⟩ := Terminal.fits_of_scan? hgap hscan
        obtain ⟨ts, hlayout, hsteps⟩ := ih (by rw [List.length_drop]; omega) hrun
        refine ⟨⟨terminal, t.take (k + 1), pos⟩ :: ts, ?_, .step (hadmits pos) hstep hsteps⟩
        have htoken : Layout pos (t.take (k + 1) ++ t.drop (k + 1))
            (⟨terminal, t.take (k + 1), pos⟩ :: ts) :=
          @Layout.token ⟨terminal, t.take (k + 1), pos⟩ _ _ hfits hlayout
        rwa [List.take_append_drop] at htoken
      . obtain ⟨g, rest, rfl, hlength, -⟩ := exists_of_gapLength hpos
        have hne : g ≠ [] := List.length_pos_iff.mp (hlength ▸ hpos)
        rw [run_of_gapLength hne hlength] at h
        have hlt := List.length_pos_iff.mpr hne
        rw [List.length_append] at hn
        obtain ⟨ts, hlayout, hsteps⟩ := ih (by omega) h
        refine ⟨ts, .of_gapLength hpos ?_, hsteps⟩
        rwa [hlength, List.take_left, List.drop_left]

end Config

theorem read_eq_ok_iff {t : Text} {p : Phrase} :
    Phrase.read t = .ok p ↔ ∃ ts e frames effects, Layout .start t ts ∧
      Config.Steps .expression ts ⟨.ended e, frames, effects⟩ ∧
      Config.settle 0 e frames = (p, []) := by
  unfold Phrase.read
  rw [Traversal.bind_eq_ok_iff]
  constructor
  . rintro ⟨⟨⟨state, frames, effects⟩, place⟩, hrun, h⟩
    obtain ⟨ts, hlayout, hsteps⟩ := Config.layout_of_run (Nat.le_refl _) hrun
    cases state with
    | ended e =>
      dsimp only at h
      split at h
      . next e' hsettle =>
        cases h
        exact ⟨ts, e, frames, effects, hlayout, hsteps, hsettle⟩
      . cases h
    | _ => cases h
  . rintro ⟨ts, e, frames, effects, hlayout, hsteps, hsettle⟩
    obtain ⟨place, hrun⟩ := Config.run_of_layout hlayout hsteps Position.start.place
    refine ⟨_, hrun, ?_⟩
    simp only [hsettle]
    rfl

theorem not_isSpace_of_mem_heads : ∀ terminal ∈ Terminal.order, ∀ n ∈ terminal.heads,
    n ≤ 1 ∨ (CodePoint.ofNat n).isSpace = false := by
  decide

theorem isSpace_eq_false_of_isDecimal {c : CodePoint} (h : c.isDecimal = true) :
    c.isSpace = false := by
  -- Below these there are only the decimal digits of ASCII.
  have hspaces : ∀ n ∈ [0x1680, 0x2000, 0x2001, 0x2002, 0x2003, 0x2004, 0x2005, 0x2006, 0x2007,
      0x2008, 0x2009, 0x200a, 0x2028, 0x2029, 0x202f, 0x205f, 0x3000],
      (CodePoint.ofNat n).isDecimal = false := by
    decide
  have hself : CodePoint.ofNat c.val = c := dif_pos c.isLt
  cases hspace : c.isSpace with
  | false => rfl
  | true =>
    have hgap : ¬ (c.val < 48 ∨ 57 < c.val ∧ c.val < 0x660) := by
      intro hval
      rw [CodePoint.isDecimal_eq_false_of_gap hval] at h
      cases h
    have hmem := hspaces c.val (by
      simp only [CodePoint.isSpace, Bool.or_eq_true, Bool.and_eq_true, decide_eq_true_eq,
        beq_iff_eq] at hspace
      simp only [List.mem_cons, List.not_mem_nil, or_false]
      omega)
    rw [hself, h] at hmem
    cases hmem

theorem Lexeme.Fits.isSpace_eq_false {lexeme : Lexeme} {rest : Text} (h : lexeme.Fits rest) :
    ∀ c ∈ lexeme.text.head?, c.isSpace = false := by
  intro c hc
  obtain ⟨tail, htext⟩ := List.head?_eq_some_iff.mp hc
  have hlength : 0 < lexeme.terminal.base.lengthAt (c :: (tail ++ rest)) := by
    rw [← List.cons_append, ← htext, h.length]
    exact List.length_pos_iff.mpr h.ne_nil
  have hheads := Terminal.headClass_mem_heads (Terminal.base_mem_order _) hlength
  have hspace := not_isSpace_of_mem_heads _ (Terminal.base_mem_order _) _ hheads
  unfold headClass at hspace
  split at hspace
  . next hstart => exact (not_space_of_isNameStart hstart).2.2
  . split at hspace
    . next hdecimal => exact isSpace_eq_false_of_isDecimal hdecimal
    . rcases hspace with hle | hspace
      . simp only [CodePoint.isSpace, Bool.or_eq_false_iff, Bool.and_eq_false_imp,
          decide_eq_true_eq, decide_eq_false_iff_not, beq_eq_false_iff_ne]
        omega
      . rwa [CodePoint.ofNat, dif_pos c.isLt] at hspace

theorem Layout.isBlank_eq_false {pos : Position} {t : Text} {ts : List Token}
    (h : Layout pos t ts) (hne : ts ≠ []) : t.isBlank = false := by
  induction h with
  | nil => exact absurd rfl hne
  | gap _ _ ih =>
    have hrest := ih hne
    simp only [Text.isBlank, List.all_append, Bool.and_eq_false_iff] at hrest ⊢
    exact .inr hrest
  | @token token rest ts hfits _ _ =>
    obtain ⟨c, tail, htext⟩ := List.exists_cons_of_ne_nil (show token.text ≠ [] from hfits.ne_nil)
    have hspace : c.isSpace = false := hfits.isSpace_eq_false c (by
      rw [show token.lexeme.text = c :: tail from htext]
      rfl)
    rw [htext]
    simp [Text.isBlank, hspace]

end Expression

end PageBinding
