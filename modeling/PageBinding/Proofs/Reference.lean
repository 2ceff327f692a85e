import PageBinding.Reference

/-!
This module contains the round trip of identifiers: the one that is written for a variable refers to
that variable and to no other one, and it is the only one that does.
-/

namespace PageBinding

namespace Reference

def digit (n : Nat) : CodePoint :=
  CodePoint.ofChar n.digitChar

theorem digit_spec : ∀ n < 16,
    ((digit n).isAsciiDigit || (digit n).isBetween 'a' 'f') = true ∧
      (digit n).hexValue? = some n ∧ (digit n).is '$' = false := by
  decide

theorem hex_eq_if (n : Nat) :
    Text.hex n = if n < 16 then [digit n] else Text.hex (n / 16) ++ [digit (n % 16)] := by
  unfold Text.hex
  rw [Nat.toDigits_eq_if (by decide)]
  split
  . rfl
  . rw [Text.ofChars_append]
    rfl

theorem extend?_none_digit {n : Nat} (h : n < 16) : extend? none (digit n) = some n := by
  obtain ⟨hdigit, hvalue, -⟩ := digit_spec n h
  simp only [extend?, hdigit, hvalue, if_true]

theorem extend?_some_digit {m n : Nat} (hm : 0 < m) (hn : n < 16) :
    extend? (some m) (digit n) = some (m * 16 + n) := by
  obtain ⟨hdigit, hvalue, -⟩ := digit_spec n hn
  cases m with
  | zero => omega
  | succ m => simp only [extend?, hdigit, hvalue, if_true, Option.map_some]

theorem decodeBody?_inside {value : Option Nat} {c : CodePoint} (hc : c.is '$' = false)
    (rest : Text) :
    decodeBody? (.inside value) (c :: rest) =
      (extend? value c).bind fun n => decodeBody? (.inside (some n)) rest := by
  simp only [decodeBody?, hc, Bool.false_eq_true, if_false]
  cases extend? value c <;> rfl

theorem decodeBody?_hex_append (n : Nat) (rest : Text) :
    decodeBody? (.inside none) (Text.hex n ++ rest) = decodeBody? (.inside (some n)) rest := by
  induction n using Nat.strongRecOn generalizing rest with
  | ind n ih =>
    rw [hex_eq_if]
    split
    . next hlt =>
      rw [List.singleton_append, decodeBody?_inside (digit_spec n hlt).2.2,
        extend?_none_digit hlt, Option.bind_some]
    . next hle =>
      have hmod : n % 16 < 16 := Nat.mod_lt n (by decide)
      have hdiv : 0 < n / 16 := by omega
      have hsum : n / 16 * 16 + n % 16 = n := by omega
      rw [List.append_assoc, ih (n / 16) (by omega), List.singleton_append,
        decodeBody?_inside (digit_spec _ hmod).2.2, extend?_some_digit hdiv hmod, hsum,
        Option.bind_some]

theorem decodeBody?_escape_append (c : CodePoint) (rest : Text) :
    decodeBody? .outside (escape c ++ rest) = (decodeBody? .outside rest).map (c :: ·) := by
  unfold escape
  split
  . next hplain => simp only [List.singleton_append, decodeBody?, hplain, if_true]
  . next hplain =>
    have hopen : isPlain (CodePoint.ofChar '$') = false := by decide
    have hdollar : (CodePoint.ofChar '$').is '$' = true := by decide
    have hunescape : unescape? (some c.val) = some c := by
      simp [unescape?, c.isLt, hplain]
    have htext : Text.concat ["$", Text.hex c.val, "$"] ++ rest =
        CodePoint.ofChar '$' :: (Text.hex c.val ++ CodePoint.ofChar '$' :: rest) := by
      simp [Text.concat, Text.ofString, Text.ofChars]
    rw [htext]
    simp only [decodeBody?, hopen, hdollar, Bool.false_eq_true, if_false, if_true]
    rw [decodeBody?_hex_append]
    simp only [decodeBody?, hdollar, if_true, hunescape]
    cases decodeBody? .outside rest <;> rfl

theorem decodeBody?_flatMap_escape (id : Text) :
    decodeBody? .outside (id.flatMap escape) = some id := by
  induction id with
  | nil => rfl
  | cons c rest ih => rw [List.flatMap_cons, decodeBody?_escape_append, ih, Option.map_some]

theorem escape_ne_nil (c : CodePoint) : escape c ≠ [] := by
  unfold escape
  split
  . simp
  . simp [Text.concat, Text.ofString, Text.ofChars]

theorem decode?_encode {id : Text} (h : id ≠ []) : decode? (encode id) = some id := by
  have hstarts : (encode id).startsWith mark = true := by
    rw [Text.startsWith, List.isPrefixOf_iff_prefix]
    exact List.prefix_append mark _
  have hbody : (encode id).drop mark.length = id.flatMap escape := List.drop_left
  unfold decode?
  rw [if_pos hstarts, hbody]
  split
  . next hnil =>
    cases id with
    | nil => exact absurd rfl h
    | cons c rest =>
      rw [List.flatMap_cons, List.append_eq_nil_iff] at hnil
      exact absurd hnil.1 (escape_ne_nil c)
  . exact decodeBody?_flatMap_escape id

theorem encode?_eq_ok_iff {id identifier : Text} :
    encode? id = .ok identifier ↔ id ≠ [] ∧ identifier = encode id := by
  unfold encode?
  cases id with
  | nil => simp
  | cons c rest => simp [eq_comm]

theorem decode?_of_encode? {id identifier : Text} (h : encode? id = .ok identifier) :
    decode? identifier = some id := by
  obtain ⟨hne, rfl⟩ := encode?_eq_ok_iff.mp h
  exact decode?_encode hne

theorem digit_of_hexValue? {c : CodePoint} {n : Nat}
    (hc : (c.isAsciiDigit || c.isBetween 'a' 'f') = true) (hn : c.hexValue? = some n) :
    n < 16 ∧ c = digit n := by
  have hval : ∀ n < 16, (digit n).val = if n < 10 then n + 48 else n + 87 := by
    decide
  simp only [CodePoint.hexValue?, CodePoint.isAsciiDigit, CodePoint.isBetween, Bool.or_eq_true,
    Bool.and_eq_true, decide_eq_true_eq, Char.reduceToNat] at hc hn
  rcases hc with hdigit | hletter
  . rw [if_pos hdigit, Option.some.injEq] at hn
    refine ⟨by omega, ?_⟩
    apply Fin.ext
    rw [hval n (by omega), if_pos (by omega)]
    omega
  . rw [if_neg (by omega), if_pos hletter, Option.some.injEq] at hn
    refine ⟨by omega, ?_⟩
    apply Fin.ext
    rw [hval n (by omega), if_neg (by omega)]
    omega

def digits (value : Option Nat) : Text :=
  value.elim [] Text.hex

def Progress.written : Progress → Text
  | .outside => []
  | .inside value => Text.concat ["$", digits value]

theorem hex_of_extend? {value : Option Nat} {c : CodePoint} {n : Nat}
    (h : extend? value c = some n) : Text.hex n = digits value ++ [c] := by
  unfold extend? at h
  split at h
  . next hc =>
    split at h
    . obtain ⟨hlt, rfl⟩ := digit_of_hexValue? hc h
      rw [hex_eq_if, if_pos hlt]
      rfl
    . simp at h
    . next m hzero =>
      -- A number other than zero moves up by one digit.
      obtain ⟨d, hd, rfl⟩ := Option.map_eq_some_iff.mp h
      obtain ⟨hlt, rfl⟩ := digit_of_hexValue? hc hd
      have hpos : m ≠ 0 := fun hm => hzero (hm ▸ rfl)
      rw [hex_eq_if, if_neg (by omega)]
      have hdiv : (m * 16 + d) / 16 = m := by omega
      have hmod : (m * 16 + d) % 16 = d := by omega
      rw [hdiv, hmod]
      rfl
  . simp at h

theorem escape_of_unescape? {value : Option Nat} {c : CodePoint} (h : unescape? value = some c) :
    escape c = Text.concat ["$", digits value, "$"] := by
  cases value with
  | none => simp [unescape?] at h
  | some n =>
    by_cases hn : n < 0x110000
    . cases hplain : isPlain ⟨n, hn⟩ with
      | true => simp [unescape?, hn, hplain] at h
      | false =>
        have hc : ⟨n, hn⟩ = c := by simpa [unescape?, hn, hplain] using h
        subst hc
        simp [escape, hplain, digits]
    . simp [unescape?, hn] at h

theorem eq_dollar_of_is {c : CodePoint} (h : c.is '$' = true) : [c] = ("$" : Text) := by
  have hval : c.val = 36 := by simpa [CodePoint.is] using h
  have hc : c = CodePoint.ofChar '$' := Fin.ext hval
  rw [hc]
  rfl

theorem flatMap_escape_of_decodeBody? {progress : Progress} {t id : Text}
    (h : decodeBody? progress t = some id) : progress.written ++ t = id.flatMap escape := by
  induction t generalizing progress id with
  | nil =>
    cases progress with
    | outside =>
      simp only [decodeBody?, Option.some.injEq] at h
      rw [← h]
      rfl
    | inside value => simp [decodeBody?] at h
  | cons c rest ih =>
    cases progress with
    | outside =>
      simp only [decodeBody?] at h
      split at h
      . next hplain =>
        obtain ⟨id, hid, rfl⟩ := Option.map_eq_some_iff.mp h
        rw [List.flatMap_cons, ← ih hid, escape, if_pos hplain]
        rfl
      . split at h
        . next hdollar =>
          rw [← ih h]
          simp [Progress.written, digits, Text.concat, ← eq_dollar_of_is hdollar]
        . simp at h
    | inside value =>
      simp only [decodeBody?] at h
      split at h
      . next hdollar =>
        obtain ⟨point, hpoint, id', hid, rfl⟩ : ∃ point, unescape? value = some point ∧
            ∃ id', decodeBody? .outside rest = some id' ∧ point :: id' = id := by
          simpa [bind, Option.bind_eq_some_iff] using h
        rw [List.flatMap_cons, escape_of_unescape? hpoint, ← ih hid]
        simp [Progress.written, Text.concat, ← eq_dollar_of_is hdollar]
      . obtain ⟨n, hn, hid⟩ : ∃ n, extend? value c = some n ∧
            decodeBody? (.inside (some n)) rest = some id := by
          simpa [bind, Option.bind_eq_some_iff] using h
        have hdigits : digits (some n) = digits value ++ [c] := hex_of_extend? hn
        rw [← ih hid]
        simp [Progress.written, Text.concat, hdigits]

theorem eq_encode_of_decode? {identifier id : Text} (h : decode? identifier = some id) :
    id ≠ [] ∧ identifier = encode id := by
  unfold decode? at h
  split at h
  . next hstarts =>
    rw [Text.startsWith, List.isPrefixOf_iff_prefix] at hstarts
    obtain ⟨body, rfl⟩ := hstarts
    rw [List.drop_left] at h
    split at h
    . simp at h
    . next hne =>
      have hbody : body = id.flatMap escape := flatMap_escape_of_decodeBody? h
      refine ⟨?_, by rw [encode, ← hbody]⟩
      rintro rfl
      exact hne hbody
  . simp at h

theorem decode?_eq_some_iff {identifier id : Text} :
    decode? identifier = some id ↔ encode? id = .ok identifier := by
  rw [encode?_eq_ok_iff]
  constructor
  . exact eq_encode_of_decode?
  . rintro ⟨hne, rfl⟩
    exact decode?_encode hne

end Reference

end PageBinding
