import PageBinding.Console
import PageBinding.Proofs.Traversal

/-!
This module contains which markup can be printed: texts that hold no opening bracket, around some of
which there are the tags of a colour.
-/

namespace PageBinding

namespace Markup

variable {t u : Text}

def IsPlain (t : Text) : Prop :=
  ∀ c ∈ t, c.is '[' = false

instance (t : Text) : Decidable (IsPlain t) :=
  decidable_of_iff (t.all fun c => !c.is '[') (by simp [IsPlain])

theorem isPlain_append (ht : IsPlain t) (hu : IsPlain u) : IsPlain (t ++ u) := by
  intro c hc
  exact (List.mem_append.mp hc).elim (ht c) (hu c)

theorem isPlain_concat {ts : List Text} (h : ∀ t ∈ ts, IsPlain t) : IsPlain (Text.concat ts) := by
  intro c hc
  obtain ⟨t, ht, hct⟩ := List.mem_flatten.mp hc
  exact h t ht c hct

theorem IsPlain.of_cons {c : CodePoint} (h : IsPlain (c :: t)) : IsPlain t :=
  fun d hd => h d (List.mem_cons_of_mem c hd)

def hues : List Text := ["green", "cyan"]

theorem green_mem_hues : Text.ofString "green" ∈ hues := by
  decide

theorem cyan_mem_hues : Text.ofString "cyan" ∈ hues := by
  decide

def openingTag (hue : Text) : Text :=
  Text.concat ["[", hue, "]"]

def closingTag (hue : Text) : Text :=
  Text.concat ["[/", hue, "]"]

namespace Style

def ofHue (t : Text) : Style :=
  { plain with colour := some t }

theorem ofText?_hue (h : t ∈ hues) : ofText? t = .ok (some (ofHue t)) := by
  have hhues : ∀ hue ∈ hues, hue ∈ colourNames ∧ hue.words = [hue] ∧ hue.trim = hue ∧
      hue.lower = hue ∧ feature? hue = none ∧ hue ≠ Text.ofString "none" ∧
      hue ≠ Text.ofString "on" ∧ hue ≠ Text.ofString "not" ∧ hue ≠ Text.ofString "link" := by
    decide +kernel
  obtain ⟨hcolour, hwords, htrim, hlower, hfeature, hnone, hon, hnot, hlink⟩ := hhues t h
  have hisColour : isColour t = .ok true := by
    have hcontains : colourNames.contains t = true := List.contains_iff_mem.mpr hcolour
    simp only [isColour, hcontains, Bool.or_true, Bool.true_or, if_true]
  unfold ofText?
  rw [htrim, if_neg hnone, hwords]
  simp [addWords?, hlower, hon, hnot, hlink, hfeature, hisColour, pure, Except.pure, bind,
    Except.bind, ofHue]

theorem name_ofHue (t : Text) : (ofHue t).name = t := by
  have hjoin : Text.join " " [t] = t := by
    simp [Text.join, List.intercalate]
  exact hjoin

theorem normalName_hue (h : t ∈ hues) : normalName t = .ok t := by
  unfold normalName
  rw [ofText?_hue h]
  exact congrArg Except.ok (name_ofHue t)

end Style

section Bracketed

variable {c : CodePoint} {b : Bracketed}

theorem bracketed?_backslash (hc : c.is '\\' = true) (t : Text) :
    bracketed? (c :: t) =
      (bracketed? t).map fun b => { b with backslashes := b.backslashes + 1 } := by
  unfold bracketed?
  simp only [List.takeWhile_cons, hc, if_true, List.length_cons, List.drop_succ_cons]
  split
  . split
    . split
      . split <;> rfl
      . rfl
    . rfl
  . rfl

theorem bracketed?_other (hbackslash : c.is '\\' = false) (hbracket : c.is '[' = false) (t : Text) :
    bracketed? (c :: t) = none := by
  unfold bracketed?
  rw [List.takeWhile_cons, if_neg (by simp [hbackslash])]
  cases t <;> simp [hbracket]

theorem bracketed?_append (hplain : IsPlain t)
    (hends : u = [] ∨ ∃ c ∈ t, c.is '\\' = false) : bracketed? (t ++ u) = none := by
  induction t with
  | nil =>
    rcases hends with rfl | ⟨c, hc, -⟩
    . rfl
    . cases hc
  | cons c t ih =>
    rw [List.cons_append]
    cases hbackslash : c.is '\\' with
    | false => exact bracketed?_other hbackslash (hplain c List.mem_cons_self) _
    | true =>
      rw [bracketed?_backslash hbackslash, ih hplain.of_cons, Option.map_none]
      refine hends.imp_right ?_
      rintro ⟨d, hd, hother⟩
      rcases List.mem_cons.mp hd with rfl | hd
      . rw [hbackslash] at hother
        cases hother
      . exact ⟨d, hd, hother⟩

theorem bracketed?_backslashes_append (hall : ∀ c ∈ t, c.is '\\' = true)
    (h : bracketed? u = some b) :
    bracketed? (t ++ u) = some { b with backslashes := t.length + b.backslashes } := by
  induction t with
  | nil => simpa using h
  | cons c t ih =>
    rw [List.forall_mem_cons] at hall
    rw [List.cons_append, bracketed?_backslash hall.1, ih hall.2, Option.map_some]
    simp only [List.length_cons]
    congr 2
    omega

theorem length_rest_lt (h : bracketed? t = some b) : b.rest.length < t.length := by
  unfold bracketed? at h
  extract_lets backslashes at h
  split at h
  . next bracket first rest hdrop =>
    split at h
    . extract_lets inner at h
      split at h
      . next c rest' hrest =>
        split at h
        . cases h
          have hshorter := congrArg List.length hdrop
          have hshortest := congrArg List.length hrest
          simp only [List.length_drop, List.length_cons] at hshorter hshortest ⊢
          omega
        . cases h
      . cases h
    . cases h
  . cases h

end Bracketed

def Printed.Sound (printed : Printed) : Prop :=
  ∀ style ∈ printed.styles, ∃ known, Style.ofText? style = .ok known

theorem Printed.Sound.checkStyles {printed : Printed} (h : printed.Sound) :
    printed.checkStyles = .ok () := by
  refine Traversal.forM_eq_ok fun style hstyle => ?_
  obtain ⟨known, hknown⟩ := h style hstyle
  rw [hknown]
  rfl

/--
Where some styles are open, markup can be printed, whatever has been printed before it.
-/
def Prints (opened : List Opened) (t : Text) : Prop :=
  ∀ (fuel position : Nat) (passed : Text) (printed : Printed), t.length ≤ fuel → printed.Sound →
    ∃ result, printed.add opened (pieces fuel position passed t) = .ok result ∧ result.Sound

def Leads (opened : List Opened) (inner : Text) (opened' : List Opened) : Prop :=
  ∀ (position : Nat) (printed : Printed) (rest : List Piece), printed.Sound →
    ∃ printed' : Printed, printed'.Sound ∧
      printed.add opened (.ofInner position inner :: rest) = printed'.add opened' rest

section Leads

variable {hue : Text}

theorem ofInner_eq_tag {inner name : Text} {parameters : Option Text}
    (h : Piece.ofInner 0 inner = .tag 0 name parameters) (position : Nat) :
    Piece.ofInner position inner = .tag position name parameters := by
  simp only [Piece.ofInner] at h ⊢
  split at h
  . rw [Piece.tag.injEq] at h
    simp only [h]
  . rw [Piece.tag.injEq] at h
    simp only [h]

theorem leads_opening (h : hue ∈ hues) (opened : List Opened) :
    Leads opened hue (⟨hue, none⟩ :: opened) := by
  have hhues : ∀ hue ∈ hues, Piece.ofInner 0 hue = .tag 0 hue none ∧
      hue.head?.any (·.is '/') = false := by
    decide
  obtain ⟨hpiece, hopens⟩ := hhues hue h
  intro position printed rest hsound
  refine ⟨{ printed with styles := printed.styles ++ [hue] }, ?_, ?_⟩
  . intro style hstyle
    rcases List.mem_append.mp hstyle with hbefore | hnow
    . exact hsound style hbefore
    . rw [List.mem_singleton.mp hnow]
      exact ⟨_, Style.ofText?_hue h⟩
  . rw [ofInner_eq_tag hpiece, Printed.add, if_neg (by simp [hopens]), Style.normalName_hue h]
    rfl

theorem close_hue (h : hue ∈ hues) (position : Nat) (opened : List Opened) :
    close position (Text.concat ["/", hue]) none (⟨hue, none⟩ :: opened) =
      .ok (⟨hue, none⟩, opened) := by
  have hhues : ∀ hue ∈ hues, Text.trim ((Text.concat ["/", hue]).drop 1) = hue ∧
      hue.isEmpty = false := by
    decide
  obtain ⟨htrim, hempty⟩ := hhues hue h
  unfold close
  rw [htrim]
  simp [hempty, Style.normalName_hue h, bind, Except.bind, pure, Except.pure]

theorem leads_closing (h : hue ∈ hues) (opened : List Opened) :
    Leads (⟨hue, none⟩ :: opened) (Text.concat ["/", hue]) opened := by
  have hhues : ∀ hue ∈ hues, Piece.ofInner 0 (Text.concat ["/", hue]) =
      .tag 0 (Text.concat ["/", hue]) none ∧ hue.head?.any (·.is '@') = false := by
    decide
  obtain ⟨hpiece, hhandler⟩ := hhues hue h
  have hcheck : Opened.check ⟨hue, none⟩ = .ok () := by
    rw [Opened.check, if_neg (by simp [hhandler])]
  intro position printed rest hsound
  refine ⟨printed, hsound, ?_⟩
  rw [ofInner_eq_tag hpiece, Printed.add, if_pos (by rfl), close_hue h]
  simp only [hcheck, bind, Except.bind]

end Leads

def tick : Text :=
  "[green]✓[/green]"

namespace Prints

variable {opened : List Opened} {hue : Text}

theorem nil : Prints opened [] := by
  intro fuel position passed printed _ hsound
  refine ⟨{ printed with text := printed.text ++ printedPlain passed }, ?_, hsound⟩
  cases fuel <;> rfl

theorem cons {c : CodePoint} (hnone : bracketed? (c :: t) = none) (h : Prints opened t) :
    Prints opened (c :: t) := by
  intro fuel position passed printed hfuel hsound
  cases fuel with
  | zero => cases hfuel
  | succ fuel =>
    rw [pieces, hnone]
    exact h fuel _ _ printed (Nat.le_of_succ_le_succ hfuel) hsound

theorem tagged {b : Bracketed} {opened' : List Opened} (hsome : bracketed? t = some b)
    (hodd : b.backslashes % 2 = 1 → Prints opened b.rest) (heven : Leads opened b.inner opened')
    (hrest : Prints opened' b.rest) : Prints opened t := by
  intro fuel position passed printed hfuel hsound
  have hlength := length_rest_lt hsome
  cases fuel with
  | zero => omega
  | succ fuel =>
    cases t with
    | nil => cases hsome
    | cons c t =>
      rw [pieces, hsome]
      simp only [Printed.add]
      split
      . next h => exact hodd h _ _ _ _ (by omega) hsound
      . obtain ⟨printed', hsound', hadd⟩ := heven (position + b.backslashes)
          { printed with
            text := printed.text ++ printedPlain passed ++
              printedPlain (backslashes (b.backslashes / 2)) }
          (pieces fuel (position + b.length) [] b.rest) hsound
        rw [hadd]
        exact hrest _ _ _ _ (by omega) hsound'

theorem plain (hplain : IsPlain t) : Prints opened t := by
  induction t with
  | nil => exact nil
  | cons c t ih =>
    refine cons ?_ (ih hplain.of_cons)
    rw [← List.append_nil (c :: t)]
    exact bracketed?_append hplain (.inl rfl)

theorem append {c : CodePoint} (hplain : IsPlain t) (hbracket : c.is '[' = false)
    (hbackslash : c.is '\\' = false) (h : Prints opened u) : Prints opened (t ++ c :: u) := by
  induction t with
  | nil => exact cons (bracketed?_other hbackslash hbracket u) h
  | cons d t ih =>
    refine cons ?_ (ih hplain.of_cons)
    have hc : IsPlain [c] := List.forall_mem_singleton.mpr hbracket
    have hnone := bracketed?_append (u := u) (isPlain_append hplain hc)
      (.inr ⟨c, List.mem_append_right _ List.mem_cons_self, hbackslash⟩)
    rwa [List.append_assoc] at hnone

theorem opening (hhue : hue ∈ hues) (h : Prints (⟨hue, none⟩ :: opened) u) :
    Prints opened (openingTag hue ++ u) := by
  have hsome : ∀ hue ∈ hues, bracketed? (openingTag hue ++ u) = some ⟨0, hue, u⟩ := by
    intro hue hhue
    rcases List.mem_cons.mp hhue with rfl | hhue
    . rfl
    . rw [List.mem_singleton.mp hhue]
      rfl
  exact tagged (hsome hue hhue) nofun (leads_opening hhue opened) h

/--
A tag that closes a colour is plain text where it stands after an odd number of backslashes.
-/
theorem closing (hhue : hue ∈ hues) (hbackslashes : ∀ c ∈ t, c.is '\\' = true)
    (hodd : t.length % 2 = 1 → Prints (⟨hue, none⟩ :: opened) u) (h : Prints opened u) :
    Prints (⟨hue, none⟩ :: opened) (t ++ (closingTag hue ++ u)) := by
  have hsome : ∀ hue ∈ hues, bracketed? (closingTag hue ++ u) =
      some ⟨0, Text.concat ["/", hue], u⟩ := by
    intro hue hhue
    rcases List.mem_cons.mp hhue with rfl | hhue
    . rfl
    . rw [List.mem_singleton.mp hhue]
      rfl
  exact tagged (bracketed?_backslashes_append hbackslashes (hsome hue hhue)) hodd
    (leads_closing hhue opened) h

theorem coloured (hhue : hue ∈ hues) (hplain : IsPlain t)
    (hopened : Prints (⟨hue, none⟩ :: opened) u) (h : Prints opened u) :
    Prints opened (openingTag hue ++ (t ++ (closingTag hue ++ u))) := by
  refine opening hhue ?_
  -- The text may end in backslashes that make the closing tag plain, so what follows has to be
  -- printed with the colour still open as well.
  induction t with
  | nil => exact closing hhue nofun nofun h
  | cons c t ih =>
    by_cases hall : ∀ d ∈ c :: t, d.is '\\' = true
    . exact closing hhue hall (fun _ => hopened) h
    . obtain ⟨d, hd, hother⟩ : ∃ d ∈ c :: t, d.is '\\' = false := by
        simpa only [Classical.not_forall, Bool.not_eq_true, exists_prop] using hall
      exact cons (bracketed?_append hplain (.inr ⟨d, hd, hother⟩))
        (ih hplain.of_cons)

theorem ticked (h : Prints opened u) : Prints opened (tick ++ u) := by
  have htick : tick = openingTag "green" ++ (.ofChar '✓' :: closingTag "green") := rfl
  have hclosing : Prints (⟨"green", none⟩ :: opened) (closingTag "green" ++ u) :=
    closing (t := []) green_mem_hues nofun nofun h
  rw [htick, List.append_assoc]
  exact opening green_mem_hues (append (t := []) nofun (by decide) (by decide) hclosing)

theorem exists_linesOf (h : Prints [] t) : ∃ lines, Console.linesOf t = .ok lines := by
  obtain ⟨result, hadd, hsound⟩ := h t.length 0 [] ⟨[], []⟩ (Nat.le_refl _) nofun
  have hprinted : printed t = .ok result := hadd
  unfold Console.linesOf
  rw [hprinted]
  simp only [bind, Except.bind, hsound.checkStyles]
  exact ⟨_, rfl⟩

end Prints

end Markup

def Failure.isMarkup : Failure → Bool
  | .notNumeral _ | .numeralTooLong _ | .handler .. | .nothingToClose .. | .unmatchedTag .. => true
  | _ => false

namespace Markup

open Traversal

theorem failsOnly_level (digits : Text) : FailsOnly (·.isMarkup = true) (level digits) := by
  unfold level
  split
  . exact .error rfl
  split
  . exact .error rfl
  exact .ok _

theorem failsOnly_isMixture (t : Text) : FailsOnly (·.isMarkup = true) (isMixture t) := by
  unfold isMixture
  dsimp only
  split
  . exact .ok _
  . exact .bind (.mapM fun digits _ => failsOnly_level digits) fun _ _ => .ok _

theorem failsOnly_isColour (word : Text) : FailsOnly (·.isMarkup = true) (isColour word) := by
  unfold isColour
  extract_lets isHexDigit isHex isNumbered
  split
  . exact .ok _
  split
  . exact failsOnly_isMixture _
  . exact .ok _

namespace Style

theorem failsOnly_addWords? (style : Style) (ws : List Text) :
    FailsOnly (·.isMarkup = true) (style.addWords? ws) := by
  have hcolour {coloured : Style} {rest : List Text} (word : Text)
      (h : FailsOnly (·.isMarkup = true) (coloured.addWords? rest)) :
      FailsOnly (·.isMarkup = true) (do
        let known ← isColour word
        if known then coloured.addWords? rest else return none) := by
    refine (failsOnly_isColour word).bind fun known _ => ?_
    split
    . exact h
    . exact .ok _
  fun_induction addWords? style ws with
  | case1 | case2 | case4 | case6 | case7 => exact .ok _
  | case5 | case8 | case9 => assumption
  | case3 | case10 => exact hcolour _ (by assumption)

theorem failsOnly_ofText? (t : Text) : FailsOnly (·.isMarkup = true) (ofText? t) := by
  unfold ofText?
  split
  . exact .ok _
  . exact failsOnly_addWords? _ _

theorem failsOnly_normalName (t : Text) : FailsOnly (·.isMarkup = true) (normalName t) := by
  refine (failsOnly_ofText? t).bind fun style _ => ?_
  split
  . exact .ok _
  . exact .ok _

end Style

theorem failsOnly_close (position : Nat) (name : Text) (parameters : Option Text)
    (opened : List Opened) :
    FailsOnly (·.isMarkup = true) (close position name parameters opened) := by
  unfold close
  extract_lets style
  split
  . split
    . exact .ok _
    . exact .error rfl
  . refine (Style.failsOnly_normalName style).bind fun style _ => ?_
    split
    . exact .ok _
    . exact .error rfl

theorem Opened.failsOnly_check (tag : Opened) : FailsOnly (·.isMarkup = true) tag.check := by
  unfold check
  split
  . unfold Handler.check
    split
    . exact .ok _
    . extract_lets part
      split
      . exact .ok _
      . exact .error rfl
  . exact .ok _

namespace Printed

theorem failsOnly_add (printed : Printed) (opened : List Opened) (ps : List Piece) :
    FailsOnly (·.isMarkup = true) (printed.add opened ps) := by
  induction ps generalizing printed opened with
  | nil => exact .ok _
  | cons piece rest ih =>
    cases piece with
    | plain t => exact ih _ _
    | tag position name parameters =>
      rw [add]
      split
      . refine (failsOnly_close position name parameters opened).bind fun closed _ => ?_
        exact closed.1.failsOnly_check.bind fun _ _ => ih _ _
      . exact (Style.failsOnly_normalName name).bind fun _ _ => ih _ _

theorem failsOnly_checkStyles (printed : Printed) :
    FailsOnly (·.isMarkup = true) printed.checkStyles := by
  unfold checkStyles
  induction printed.styles with
  | nil => exact .ok ()
  | cons style rest ih => exact .bind ((Style.failsOnly_ofText? style).map _) fun _ _ => ih

end Printed

theorem failsOnly_linesOf (t : Text) : FailsOnly (·.isMarkup = true) (Console.linesOf t) := by
  refine (Printed.failsOnly_add _ _ _).bind fun printed _ => ?_
  exact printed.failsOnly_checkStyles.bind fun _ _ => .ok _

end Markup

end PageBinding
