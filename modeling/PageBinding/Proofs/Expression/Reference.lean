import PageBinding.Proofs.Expression.Names

/-!
This module contains how the identifiers that are written for variables stand in the language: each
of them is read as itself, and refers to the one variable that it is written for.
-/

namespace PageBinding

namespace Expression

theorem IsName.referencedIds_eq [Limits] {t : Text} (h : IsName t) :
    referencedIds .expression t = .ok (Reference.decode? t).toList := by
  have hids := h.identifiers?_eq
  rw [← identifiers?_eq_some_iff] at hids
  rw [referencedIds, hids]
  cases hid : Reference.decode? t with
  | none => simp [bind, Except.bind, pure, Except.pure, hid, Text.distinct]
  | some id => simp [bind, Except.bind, pure, Except.pure, hid, Text.distinct]

/--
Encoding and decoding invert each other, and an encoded id is read as one identifier, which refers
to that id alone.
-/
theorem reference_roundTrip [Limits] :
    (∀ id : Text, id ≠ [] →
      Reference.encode? id = .ok (Reference.encode id) ∧
      Reference.decode? (Reference.encode id) = some id ∧
      parse (Reference.encode id) =
        .ok (.identifier ⟨Reference.encode id, 0, (Reference.encode id).length, false⟩) ∧
      referencedIds .expression (Reference.encode id) = .ok [id]) ∧
    ∀ t id : Text, Reference.decode? t = some id → id ≠ [] ∧ Reference.encode? id = .ok t := by
  constructor
  . intro id hne
    have hdecode := Reference.decode?_encode hne
    refine ⟨Reference.encode?_eq_ok_iff.mpr ⟨hne, rfl⟩, hdecode, (isName_encode id).parse_eq, ?_⟩
    rw [(isName_encode id).referencedIds_eq, hdecode]
    rfl
  . intro t id h
    have hencode := Reference.decode?_eq_some_iff.mp h
    exact ⟨(Reference.encode?_eq_ok_iff.mp hencode).1, hencode⟩

/--
An id of a lone surrogate and a dollar sign, and a text whose escapes stand next to one another.
-/
theorem reference_roundTrip_surrogate :
    ([⟨0xd800, by decide⟩, CodePoint.ofChar '$'] : Text) ≠ [] ∧
      referencedIds .expression (Reference.encode [⟨0xd800, by decide⟩, CodePoint.ofChar '$']) =
        .ok [[⟨0xd800, by decide⟩, CodePoint.ofChar '$']] ∧
      Reference.decode? "$ws$dataSource$$2d$2e$2f$" = some ("-2e/" : Text) ∧
      Reference.encode? "-2e/" = .ok ("$ws$dataSource$$2d$2e$2f$" : Text) := by
  have hne : ([⟨0xd800, by decide⟩, CodePoint.ofChar '$'] : Text) ≠ [] := by simp
  have hdecode : Reference.decode? "$ws$dataSource$$2d$2e$2f$" = some ("-2e/" : Text) := by
    decide
  exact ⟨hne, (reference_roundTrip.1 _ hne).2.2.2, hdecode,
    (reference_roundTrip.2 _ _ hdecode).2⟩

end Expression

end PageBinding
