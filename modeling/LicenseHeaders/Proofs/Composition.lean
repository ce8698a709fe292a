import LicenseHeaders.Proofs.Rotation

/-!
# Removing and synchronizing, one after the other

A text from which all headers have been removed contains neither the canonical
header nor a legacy one, so synchronizing puts the canonical header in front of it
and keeps all of it.

The other way round, the canonical header is the first header that removing looks
for.  The first sweep takes it out in front and goes on behind it, and from there on
a text with the header in front and the text behind it are the same
(`stripPass_front`).  No other header is looked for before, so it does not matter
whether one begins in the canonical header, ends in it or reaches over its end.

* `strip_front` — stripping a text with the first header in front;
* `operations_compose` — removing and then synchronizing, and the other way round.
-/

namespace LicenseHeaders

variable {front : Text} {headers : List Text}

/-! ## The first pass -/

/-- The loop of passes has one end. -/
theorem PassLoop.unique {s r r' : Text} {passes passes' : Nat}
    (hloop : PassLoop headers s passes r) (hother : PassLoop headers s passes' r') : r = r' := by
  induction hloop generalizing passes' with
  | settled hquiet =>
      cases hother with
      | settled => rfl
      | again hfound => simp [hquiet] at hfound
  | again hfound _ ih =>
      cases hother with
      | settled hquiet => simp [hquiet] at hfound
      | again _ hrest => exact ih hrest

/-- What is left of a text is also left of it after a pass. -/
theorem strip_stripPass (headers : List Text) (t : Text) :
    (strip headers (stripPass headers t).1).getD (stripPass headers t).1 =
      (strip headers t).getD t := by
  obtain ⟨passes, hloop⟩ := passLoop_strip headers (stripPass headers t).1
  obtain ⟨passes', hwhole⟩ := passLoop_strip headers t
  cases hfound : (stripPass headers t).2 with
  | true => exact (PassLoop.again hfound hloop).unique hwhole
  | false => rw [stripPass_eq_self hfound]

/-- A pass begins with a sweep for the first header, also if it does not occur. -/
theorem stripPass_cons (hne : front ≠ []) (headers : List Text) (t : Text) :
    (stripPass (front :: headers) t).1 = (stripPass headers (Text.deleteAll front t)).1 := by
  rw [stripPass]
  by_cases hoccurs : Text.occursIn front t = true
  · rw [if_pos ⟨hne, hoccurs⟩]
  · have habsent : ¬ (front ≠ [] ∧ Text.occursIn front t = true) := by
      intro hfound
      exact hoccurs hfound.2
    rw [if_neg habsent, Text.deleteAll_eq_self (Bool.eq_false_iff.mpr hoccurs)]

/-- **After one pass** the first header in front has left no trace. -/
theorem stripPass_front (hne : front ≠ []) (headers : List Text) (t : Text) :
    (stripPass (front :: headers) (front ++ t)).1 = (stripPass (front :: headers) t).1 := by
  rw [stripPass_cons hne, stripPass_cons hne, deleteAll_append hne]

/-- **Stripping a text with the first header in front** leaves what stripping leaves
of the text behind it. -/
theorem strip_front (hne : front ≠ []) (headers : List Text) (t : Text) :
    strip (front :: headers) (front ++ t) = some ((strip (front :: headers) t).getD t) := by
  have hfound : strip (front :: headers) (front ++ t) ≠ none := by
    intro hnone
    have hfree := strip_eq_none_iff.mp hnone
    exact hfree front List.mem_cons_self hne (List.prefix_append front t).isInfix
  obtain ⟨r, hr⟩ := Option.ne_none_iff_exists'.mp hfound
  have hleft : r = (strip (front :: headers) t).getD t := by
    calc r = (strip (front :: headers) (front ++ t)).getD (front ++ t) := by
          rw [hr, Option.getD_some]
      _ = (strip (front :: headers) (stripPass (front :: headers) (front ++ t)).1).getD
            (stripPass (front :: headers) (front ++ t)).1 := (strip_stripPass _ _).symm
      _ = (strip (front :: headers) t).getD t := by
          rw [stripPass_front hne, strip_stripPass]
  rw [hr, hleft]

/-! ## The two operations -/

/-- What removing leaves is the stripped text. -/
theorem textAfter_removeChange? (headers : HeaderSet) (t : Text) :
    textAfter t (removeChange? headers t) = (strip headers.texts t).getD t := by
  unfold removeChange?
  cases strip headers.texts t <;> rfl

/-- Removing takes the first header away in front, and changes what is behind it as it
changes that text alone. -/
theorem removeChange?_front (hne : front ≠ []) (headers : List Text) (t : Text) :
    removeChange? ⟨front :: headers⟩ (front ++ t) =
      some ⟨textAfter t (removeChange? ⟨front :: headers⟩ t), .stripped⟩ := by
  rw [textAfter_removeChange?, removeChange?, strip_front hne]
  rfl

/-- Into a text without headers the canonical one is inserted, and all is kept. -/
theorem synchronizeChange?_of_headerFree {t : Text} (hne : front ≠ [])
    (hfree : HeaderFree (front :: headers) t) :
    synchronizeChange? verbatim front headers t =
      some ⟨front ++ separator front ++ t, .inserted⟩ := by
  have habsent : ¬ verbatim front t = true := by
    intro hpresent
    exact hfree front List.mem_cons_self hne (Text.occursIn_iff.mp hpresent)
  have hlegacy : HeaderFree headers t := by
    intro h hmem
    exact hfree h (List.mem_cons_of_mem front hmem)
  rw [synchronizeChange?, if_neg habsent, insertHeader_eq, bodyBelow_of_free hlegacy]
  rfl

/-- **How removing and synchronizing compose.**  Let there be a canonical header that
is not empty.  A text from which the headers have been removed is synchronized by
inserting the canonical header, and all of it is kept.  If synchronizing changes a
text, it puts the canonical header and its separator in front of a body, and removing
then leaves exactly what it leaves of the separator and the body alone. -/
theorem operations_compose {canonical : Text} (legacy : List Text) (hne : canonical ≠ [])
    (t : Text) :
    let plan : Plan := { headers := ⟨canonical :: legacy⟩ }
    (∃ removal, plan.transform .remove t = .ok removal ∧
      plan.transform .synchronize (textAfter t removal) =
        .ok (some ⟨canonical ++ separator canonical ++ textAfter t removal, .inserted⟩)) ∧
    ∀ change, plan.transform .synchronize t = .ok (some change) →
      ∃ body removal, change.text = canonical ++ separator canonical ++ body ∧
        plan.transform .remove (separator canonical ++ body) = .ok removal ∧
        plan.transform .remove change.text =
          .ok (some ⟨textAfter (separator canonical ++ body) removal, .stripped⟩) := by
  intro plan
  constructor
  · refine ⟨removeChange? plan.headers t, rfl, ?_⟩
    apply congrArg Except.ok
    rw [textAfter_removeChange?]
    exact synchronizeChange?_of_headerFree hne (headerFree_strip _ t)
  · intro change hchange
    have hrewritten : synchronizeChange? verbatim canonical legacy t = some change :=
      Except.ok.inj hchange
    rw [synchronizeChange?] at hrewritten
    split at hrewritten
    · cases hrewritten
    · rw [insertHeader_eq] at hrewritten
      have hchanged := Option.some.inj hrewritten
      subst hchanged
      refine ⟨(bodyBelow legacy t).1, _, rfl, rfl, ?_⟩
      apply congrArg Except.ok
      rw [List.append_assoc]
      exact removeChange?_front hne legacy _

/-- A legacy header that reaches over the end of the canonical one: a sweep for it
would tear the canonical header, but the canonical header goes first. -/
theorem operations_compose_sample :
    "ab".toList ≠ [] ∧
      ∃ change, ({ headers := ⟨["ab".toList, "b\n".toList]⟩ } : Plan).transform .synchronize
          "xb\ny".toList = .ok (some change) ∧
        change.text = "ab\n\nxy".toList ∧
        ∃ removal, ({ headers := ⟨["ab".toList, "b\n".toList]⟩ } : Plan).transform .remove
            change.text = .ok (some removal) ∧ removal.text = "\n\nxy".toList := by
  have hne : "ab".toList ≠ [] := by decide
  have hchange : ({ headers := ⟨["ab".toList, "b\n".toList]⟩ } : Plan).transform .synchronize
      "xb\ny".toList = .ok (some ⟨"ab\n\nxy".toList, .replaced⟩) := by rfl
  obtain ⟨_, hsynchronized⟩ := operations_compose ["b\n".toList] hne "xb\ny".toList
  obtain ⟨body, rest, hbody, hrest, hremoved⟩ := hsynchronized _ hchange
  have hxy : body = "xy".toList := List.append_cancel_left hbody.symm
  subst hxy
  cases hrest
  exact ⟨hne, _, hchange, rfl, _, hremoved, by decide⟩

end LicenseHeaders
