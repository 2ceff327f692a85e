import PageBinding.Proofs.Markup

/-!
This module contains which texts can be encoded when they are printed: those without surrogates,
since neither the emoji nor the blanks that printing adds to a text are surrogates.
-/

namespace PageBinding

theorem CodePoint.isSurrogate_ofChar (c : Char) : (ofChar c).isSurrogate = false := by
  have h : c.val.toNat < 0xd800 ∨ 0xdfff < c.val.toNat ∧ c.val.toNat < 0x110000 := c.valid
  have hval : (ofChar c).val = c.val.toNat := rfl
  simp only [isSurrogate, hval, Bool.and_eq_false_iff, decide_eq_false_iff_not]
  omega

theorem CodePoint.isSurrogate_ofNat {n : Nat} (h : 0xdfff < n) : (ofNat n).isSurrogate = false := by
  unfold ofNat isSurrogate
  split
  . simp only [Bool.and_eq_false_iff, decide_eq_false_iff_not]
    omega
  . rfl

namespace Text

def IsEncodable (t : Text) : Prop :=
  ∀ c ∈ t, c.isSurrogate = false

variable {t u : Text}

theorem isEncodable_nil : IsEncodable [] :=
  List.forall_mem_nil _

theorem isEncodable_ofString (s : String) : IsEncodable s := by
  intro c hc
  obtain ⟨char, -, rfl⟩ := List.mem_map.mp hc
  exact CodePoint.isSurrogate_ofChar char

theorem IsEncodable.subset (h : u.IsEncodable) (hsub : t ⊆ u) : t.IsEncodable :=
  fun c hc => h c (hsub hc)

theorem isEncodable_append (ht : t.IsEncodable) (hu : u.IsEncodable) :
    IsEncodable (t ++ u) := by
  intro c hc
  exact (List.mem_append.mp hc).elim (ht c) (hu c)

theorem isEncodable_cons {c : CodePoint} (hc : c.isSurrogate = false) (ht : t.IsEncodable) :
    IsEncodable (c :: t) :=
  List.forall_mem_cons.mpr ⟨hc, ht⟩

theorem isEncodable_concat {pieces : List Text} (h : ∀ piece ∈ pieces, piece.IsEncodable) :
    (concat pieces).IsEncodable := by
  intro c hc
  obtain ⟨piece, hpiece, hmem⟩ := List.mem_flatten.mp hc
  exact h piece hpiece c hmem

theorem subset_of_mem_splitAt (isSeparator : CodePoint → Bool) {piece : Text}
    (h : piece ∈ t.splitAt isSeparator) : piece ⊆ t := by
  induction t generalizing piece with
  | nil =>
    rw [List.mem_singleton.mp h]
    exact List.nil_subset _
  | cons c t ih =>
    unfold splitAt at h
    split at h
    . rcases List.mem_cons.mp h with rfl | hmem
      . exact List.nil_subset _
      . exact List.Subset.trans (ih hmem) (List.subset_cons_self c t)
    . rw [List.mem_singleton.mp h]
      exact List.cons_subset_cons c (List.nil_subset t)
    . next first rest _ hsplit =>
      rw [hsplit] at ih
      rcases List.mem_cons.mp h with rfl | hmem
      . exact List.cons_subset_cons c (ih List.mem_cons_self)
      . exact List.Subset.trans (ih (List.mem_cons_of_mem _ hmem)) (List.subset_cons_self c t)

theorem IsEncodable.splitAt (h : t.IsEncodable) (isSeparator : CodePoint → Bool) :
    ∀ piece ∈ t.splitAt isSeparator, piece.IsEncodable :=
  fun _ hpiece => h.subset (subset_of_mem_splitAt isSeparator hpiece)

end Text

namespace Markup

open Text

namespace Emoji

theorem mem_of_mem_pairs {words : List Text} {pair : Text × Text} (h : pair ∈ pairs words) :
    pair.2 ∈ words := by
  fun_induction pairs words with
  | case1 name meaning rest ih =>
    rcases List.mem_cons.mp h with rfl | hmem
    . exact List.mem_cons_of_mem _ List.mem_cons_self
    . exact List.mem_cons_of_mem _ (List.mem_cons_of_mem _ (ih hmem))
  | case2 => cases h

theorem isEncodable_look? {table : List String} {name emoji : Text}
    (h : look? table name = some emoji) : emoji.IsEncodable := by
  obtain ⟨pair, hfound, rfl⟩ := Option.map_eq_some_iff.mp h
  have hmem := mem_of_mem_pairs (List.mem_of_find?_eq_some hfound)
  obtain ⟨line, -, hword⟩ := List.mem_flatMap.mp hmem
  exact (isEncodable_ofString line).splitAt _ _ (List.mem_filter.mp hword).1

theorem isEncodable_withTone {tone : Nat} {emoji : Text} (htone : 0xdfff < tone)
    (h : emoji.IsEncodable) : (withTone tone emoji).IsEncodable := by
  unfold withTone
  split
  . exact isEncodable_nil
  . next c rest =>
    obtain ⟨hc, hrest⟩ := List.forall_mem_cons.mp h
    refine isEncodable_cons hc (isEncodable_cons (CodePoint.isSurrogate_ofNat htone) ?_)
    split
    . exact IsEncodable.subset hrest rest.tail_sublist.subset
    . exact hrest

theorem isEncodable_toned? {name emoji : Text} (h : toned? name = some emoji) :
    emoji.IsEncodable := by
  have htones : ∀ pair ∈ skinTones, 0xdfff < pair.2 := by decide
  obtain ⟨⟨ending, tone⟩, hmem, hfound⟩ := List.exists_of_findSome?_eq_some h
  obtain ⟨person, -, hperson⟩ := Option.bind_eq_some_iff.mp hfound
  obtain ⟨plain, hplain, rfl⟩ := Option.map_eq_some_iff.mp hperson
  exact isEncodable_withTone (htones _ hmem) (isEncodable_look? hplain)

theorem isEncodable_flag (letters : Text) : (flag letters).IsEncodable := by
  intro c hc
  obtain ⟨letter, -, rfl⟩ := List.mem_map.mp hc
  exact CodePoint.isSurrogate_ofNat (by omega)

theorem isEncodable_ofName? {name emoji : Text} (h : ofName? name = some emoji) :
    emoji.IsEncodable := by
  rcases Option.or_eq_some_iff.mp h with hobject | ⟨-, h⟩
  . exact isEncodable_look? hobject
  rcases Option.or_eq_some_iff.mp h with hperson | ⟨-, h⟩
  . exact isEncodable_look? hperson
  rcases Option.or_eq_some_iff.mp h with htoned | ⟨-, h⟩
  . exact isEncodable_toned? htoned
  . obtain ⟨letters, -, rfl⟩ := Option.map_eq_some_iff.mp h
    exact isEncodable_flag letters

theorem isEncodable_variation (code : Text) : (variation code).2.IsEncodable := by
  unfold variation
  split
  . exact isEncodable_cons rfl isEncodable_nil
  . exact isEncodable_cons rfl isEncodable_nil
  . exact isEncodable_nil

theorem isEncodable_ofCode {code : Text} (h : code.IsEncodable) : (ofCode code).IsEncodable := by
  unfold ofCode
  dsimp only
  split
  . next emoji hemoji =>
    exact isEncodable_append (isEncodable_ofName? hemoji) (isEncodable_variation code)
  . apply isEncodable_concat
    simp only [List.forall_mem_cons]
    exact ⟨isEncodable_ofString ":", h, isEncodable_ofString ":", List.forall_mem_nil _⟩

theorem isEncodable_between {pieces : List Text} (h : ∀ piece ∈ pieces, piece.IsEncodable) :
    (between pieces).IsEncodable := by
  fun_induction between pieces with
  | case1 => exact isEncodable_nil
  | case2 piece => exact h piece List.mem_cons_self
  | case3 piece last =>
    simp only [List.forall_mem_cons] at h
    apply isEncodable_concat
    simp only [List.forall_mem_cons]
    exact ⟨h.1, isEncodable_ofString ":", h.2⟩
  | case4 piece code next rest hspace ih =>
    obtain ⟨hpiece, hrest⟩ := List.forall_mem_cons.mp h
    apply isEncodable_concat
    simp only [List.forall_mem_cons]
    exact ⟨hpiece, isEncodable_ofString ":", ih hrest, List.forall_mem_nil _⟩
  | case5 piece code next rest hspace ih =>
    obtain ⟨hpiece, hcode, hrest⟩ := List.forall_mem_cons.mp h |>.imp_right List.forall_mem_cons.mp
    apply isEncodable_concat
    simp only [List.forall_mem_cons]
    exact ⟨hpiece, isEncodable_ofCode hcode, ih hrest, List.forall_mem_nil _⟩

end Emoji

variable {t : Text}

theorem unescape_subset (t : Text) : unescape t ⊆ t := by
  induction t with
  | nil => exact List.nil_subset _
  | cons c t ih =>
    unfold unescape
    split
    . exact List.Subset.trans ih (List.subset_cons_self c t)
    . exact List.cons_subset_cons c ih

theorem isEncodable_printedPlain (h : t.IsEncodable) : (printedPlain t).IsEncodable := by
  have hreplaced : (Emoji.replace (unescape t)).IsEncodable :=
    Emoji.isEncodable_between ((h.subset (unescape_subset t)).splitAt _)
  exact hreplaced.subset (List.filter_sublist.subset)

theorem isEncodable_of_bracketed? {b : Bracketed} (h : t.IsEncodable) (hb : bracketed? t = some b) :
    b.text.IsEncodable ∧ b.rest.IsEncodable := by
  unfold bracketed? at hb
  extract_lets backslashes at hb
  split at hb
  . next bracket first rest hdrop =>
    split at hb
    . extract_lets inner at hb
      split at hb
      . next c after hafter =>
        split at hb
        . cases hb
          have hdropped : IsEncodable (bracket :: first :: rest) :=
            h.subset (hdrop ▸ List.drop_subset _ _)
          have hrest : IsEncodable (first :: rest) := hdropped.subset (List.subset_cons_self _ _)
          have hinner : IsEncodable (first :: inner) :=
            hrest.subset (List.cons_subset_cons _ (List.takeWhile_subset _))
          have hclosed : IsEncodable (c :: after) :=
            hrest.subset (List.Subset.trans (hafter ▸ List.drop_subset _ _)
              (List.subset_cons_self _ _))
          refine ⟨isEncodable_concat ?_, hclosed.subset (List.subset_cons_self _ _)⟩
          simp only [List.forall_mem_cons]
          exact ⟨isEncodable_ofString "[", hinner, isEncodable_ofString "]", List.forall_mem_nil _⟩
        . cases hb
      . cases hb
    . cases hb
  . cases hb

theorem isEncodable_backslashes (n : Nat) : (backslashes n).IsEncodable := by
  intro c hc
  rw [List.eq_of_mem_replicate hc]
  rfl

theorem Piece.ofInner_ne_plain (position : Nat) (inner u : Text) :
    Piece.ofInner position inner ≠ .plain u := by
  unfold ofInner
  dsimp only
  split <;> exact nofun

theorem isEncodable_pieces {fuel position : Nat} {passed u : Text} (hpassed : passed.IsEncodable)
    (h : t.IsEncodable) (hu : Piece.plain u ∈ pieces fuel position passed t) : u.IsEncodable := by
  induction fuel generalizing position passed t with
  | zero =>
    cases List.mem_singleton.mp hu
    exact hpassed
  | succ fuel ih =>
    cases t with
    | nil =>
      cases List.mem_singleton.mp hu
      exact hpassed
    | cons c t =>
      rw [pieces] at hu
      split at hu
      . obtain ⟨hc, ht⟩ := List.forall_mem_cons.mp h
        exact ih (isEncodable_append hpassed (isEncodable_cons hc isEncodable_nil)) ht hu
      . next b hb =>
        obtain ⟨htext, hrest⟩ := isEncodable_of_bracketed? h hb
        simp only [List.mem_cons] at hu
        rcases hu with hplain | hbackslashes | hpiece | hmem
        . cases hplain
          exact hpassed
        . cases hbackslashes
          exact isEncodable_backslashes _
        . split at hpiece
          . cases hpiece
            exact htext
          . exact absurd hpiece.symm (Piece.ofInner_ne_plain _ _ u)
        . exact ih isEncodable_nil hrest hmem

theorem Printed.isEncodable_add {before after : Printed} {opened : List Opened} {ps : List Piece}
    (hbefore : before.text.IsEncodable)
    (hps : ∀ u, Piece.plain u ∈ ps → u.IsEncodable) (h : before.add opened ps = .ok after) :
    after.text.IsEncodable := by
  induction ps generalizing before opened with
  | nil =>
    cases h
    exact hbefore
  | cons piece rest ih =>
    have hrest : ∀ u, Piece.plain u ∈ rest → u.IsEncodable :=
      fun u hu => hps u (List.mem_cons_of_mem _ hu)
    cases piece with
    | plain u =>
      have hu := isEncodable_printedPlain (hps u List.mem_cons_self)
      exact ih (isEncodable_append hbefore hu) hrest h
    | tag position name parameters =>
      rw [add] at h
      split at h
      . obtain ⟨closed, -, h⟩ := Traversal.bind_eq_ok_iff.mp h
        obtain ⟨-, -, h⟩ := Traversal.bind_eq_ok_iff.mp h
        exact ih hbefore hrest h
      . obtain ⟨style, -, h⟩ := Traversal.bind_eq_ok_iff.mp h
        refine ih ?_ hrest h
        exact hbefore

end Markup

namespace Console

open Text

variable {t : Text}

theorem isEncodable_blanks (n : Nat) : (blanks n).IsEncodable := by
  intro c hc
  rw [List.eq_of_mem_replicate hc]
  rfl

theorem isEncodable_joinAtTabStops {pieces : List Text} (h : ∀ piece ∈ pieces, piece.IsEncodable) :
    (joinAtTabStops pieces).IsEncodable := by
  fun_induction joinAtTabStops pieces with
  | case1 => exact isEncodable_nil
  | case2 last => exact h last List.mem_cons_self
  | case3 piece rest hrest ih =>
    obtain ⟨hpiece, hothers⟩ := List.forall_mem_cons.mp h
    have hstop := isEncodable_append hpiece (isEncodable_blanks 1)
    exact isEncodable_append (isEncodable_append hstop (isEncodable_blanks _)) (ih hothers)

theorem isEncodable_linesOf {lines : List Text} (ht : t.IsEncodable) (h : linesOf t = .ok lines) :
    ∀ line ∈ lines, line.IsEncodable := by
  obtain ⟨printed, hprinted, h⟩ := Traversal.bind_eq_ok_iff.mp h
  obtain ⟨-, -, h⟩ := Traversal.bind_eq_ok_iff.mp h
  cases h
  have htext : printed.text.IsEncodable :=
    Markup.Printed.isEncodable_add isEncodable_nil
      (fun u hu => Markup.isEncodable_pieces isEncodable_nil ht hu) hprinted
  intro line hline
  obtain ⟨raw, hraw, rfl⟩ := List.mem_map.mp hline
  exact isEncodable_joinAtTabStops ((htext.splitAt _ raw hraw).splitAt _)

theorem encoded_eq_ok {lines : List Text} (advice : Text) (h : ∀ line ∈ lines, line.IsEncodable) :
    encoded advice (lines.map Line.text) = .ok (lines.map Line.text) := by
  have hprinted : IsEncodable ((lines.map Line.text).flatMap Line.printed) := by
    intro c hc
    obtain ⟨line, hline, hc⟩ := List.mem_flatMap.mp hc
    obtain ⟨raw, hraw, rfl⟩ := List.mem_map.mp hline
    refine isEncodable_concat ?_ c hc
    simp only [List.forall_mem_cons]
    exact ⟨h raw hraw, isEncodable_ofString "\n", List.forall_mem_nil _⟩
  unfold encoded
  rw [if_neg]
  simp only [Bool.not_eq_true, List.any_eq_false]
  exact hprinted

theorem exists_plain (ht : t.IsEncodable) : ∃ lines, plain t = .ok lines :=
  ⟨_, encoded_eq_ok [] (ht.splitAt _)⟩

theorem exists_styled (ht : t.IsEncodable) (h : Markup.Prints [] t) :
    ∃ lines, styled t = .ok lines := by
  obtain ⟨lines, hlines⟩ := h.exists_linesOf
  unfold styled
  rw [hlines]
  exact ⟨_, encoded_eq_ok encodingAdvice (isEncodable_linesOf ht hlines)⟩

theorem failsOnly_encoded (advice : Text) (lines : List Line) :
    Traversal.FailsOnly (fun failure => ∃ t, failure = unencodable t advice)
      (encoded advice lines) := by
  unfold encoded
  dsimp only
  split
  . exact .error ⟨_, rfl⟩
  . exact .ok _

end Console

end PageBinding
