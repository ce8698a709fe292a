import LicenseHeaders.Header.Change
import LicenseHeaders.Proofs.NormalForm
import Mathlib.Data.List.TakeWhile
import Mathlib.Tactic.ByContra

/-!
# What an insertion keeps

A text with a new canonical header consists of the header, the separator and the
text that is kept below.  If there was no legacy header, all of the text is kept.
Otherwise it is stripped first, and then the line breaks at its beginning go.
Either way no legacy header is left in what is kept (`headerFree_bodyBelow`), since
a part of a text without headers is one, too.  Legacy headers may still occur in
the whole, but each of them begins in the new header or its separator.

The canonical header itself is looked for before the legacy headers are cut out.
A chain of cuts never mixes what lies before a character that stays with what lies
behind it (`Reaches.split`).  So if cutting brings a copy of the canonical header
about, its first and its last character were there before, with legacy headers in
between (`TornCopy`).

* `insertHeader_parts` — what an insertion consists of, and what may occur in it;
* `synchronized_copies` — the copies of the canonical header that are kept.
-/

namespace LicenseHeaders

variable {headers legacy : List Text} {s t : Text}

/-! ## Parts of texts -/

/-- A part of a text without headers has none. -/
theorem HeaderFree.of_infix (hfree : HeaderFree headers t) (hpart : s <:+: t) :
    HeaderFree headers s :=
  fun h hmem hne hoccurs => hfree h hmem hne (hoccurs.trans hpart)

/-- A header occurs in every text that is not without headers. -/
theorem not_headerFree_iff : ¬ HeaderFree headers t ↔ ∃ h ∈ headers, h ≠ [] ∧ h <:+: t := by
  simp only [HeaderFree, not_forall, Classical.not_not, exists_prop]

/-- If only the front of a text can have headers, each of them begins there. -/
theorem HeaderFree.begins_before (hfree : HeaderFree headers t) {front u h v : Text}
    (hmem : h ∈ headers) (hne : h ≠ []) (hwhole : front ++ t = u ++ h ++ v) :
    u.length < front.length := by
  by_contra hlate
  have hu : u <+: front ++ t := by
    rw [hwhole, List.append_assoc]
    exact List.prefix_append _ _
  have hfront : front <+: u :=
    List.prefix_of_prefix_length_le (List.prefix_append _ _) hu (by omega)
  obtain ⟨middle, rfl⟩ := hfront
  have hrest : t = middle ++ h ++ v := by
    simpa only [List.append_assoc, List.append_cancel_left_eq] using hwhole
  exact hfree h hmem hne ⟨middle, v, hrest.symm⟩

/-! ## The text below the header -/

/-- Lines are broken by carriage returns and newlines. -/
theorem isBreak_iff {c : Char} : isBreak c = true ↔ c = '\r' ∨ c = '\n' := by
  simp [isBreak]

/-- A text without headers is its own body. -/
theorem bodyBelow_of_free (hfree : HeaderFree legacy t) : bodyBelow legacy t = (t, false) := by
  simp only [bodyBelow, strip_eq_none_iff.mpr hfree]

/-- What stripping leaves is the body but for the line breaks in front of it. -/
theorem bodyBelow_of_stripped (hstrip : strip legacy t = some s) :
    bodyBelow legacy t = (s.dropWhile isBreak, true) := by
  simp only [bodyBelow, hstrip]

/-- **A legacy header is reported as replaced exactly if one occurs.** -/
theorem bodyBelow_replaced_iff : (bodyBelow legacy t).2 = true ↔ ¬ HeaderFree legacy t := by
  cases hstrip : strip legacy t with
  | none =>
      have hfree := strip_eq_none_iff.mp hstrip
      simp [bodyBelow_of_free hfree, hfree]
  | some stripped =>
      have hfound : ¬ HeaderFree legacy t := fun hfree => by
        rw [strip_eq_none_iff.mpr hfree] at hstrip
        cases hstrip
      simp [bodyBelow_of_stripped hstrip, hfound]

/-- What is left of a stripped text when its first line breaks are dropped. -/
theorem bodyBelow_parts (hstrip : strip legacy t = some s) :
    ∃ breaks, s = breaks ++ (bodyBelow legacy t).1 ∧ (∀ c ∈ breaks, isBreak c = true) ∧
      ∀ c ∈ (bodyBelow legacy t).1.head?, isBreak c = false := by
  rw [bodyBelow_of_stripped hstrip]
  refine ⟨s.takeWhile isBreak, List.takeWhile_append_dropWhile.symm, fun c hc => ?_, fun c hc => ?_⟩
  · exact List.mem_takeWhile_imp hc
  · simpa [Option.mem_def.mp hc] using List.head?_dropWhile_not isBreak s

/-- **No legacy header is left below the new one.** -/
theorem headerFree_bodyBelow (legacy : List Text) (t : Text) :
    HeaderFree legacy (bodyBelow legacy t).1 := by
  cases hstrip : strip legacy t with
  | none =>
      have hfree := strip_eq_none_iff.mp hstrip
      rw [bodyBelow_of_free hfree]
      exact hfree
  | some stripped =>
      obtain ⟨breaks, hparts, _, _⟩ := bodyBelow_parts hstrip
      have hfree : HeaderFree legacy stripped := by
        have hleft := headerFree_strip legacy t
        rwa [hstrip] at hleft
      exact hfree.of_infix ⟨breaks, [], by rw [List.append_nil, ← hparts]⟩

/-- A header is inserted above the body, behind its separator. -/
theorem insertHeader_eq (canonical : Text) (legacy : List Text) (t : Text) :
    insertHeader canonical legacy t =
      (canonical ++ separator canonical ++ (bodyBelow legacy t).1, (bodyBelow legacy t).2) := rfl

/-- **What an insertion consists of.**  The header and its separator are followed by
the text that is kept.  A legacy header counts as replaced exactly if one occurs.
If none does, all of the text is kept; otherwise it is the stripped text from its
first character on that is no line break.  No legacy header occurs in what is kept,
so every legacy header in the whole begins in the header or the separator. -/
theorem insertHeader_parts (canonical : Text) (legacy : List Text) (t : Text) :
    ∃ r replaced kept, insertHeader canonical legacy t = (r, replaced) ∧
      r = canonical ++ separator canonical ++ kept ∧
      (replaced = true ↔ ∃ h ∈ legacy, h ≠ [] ∧ h <:+: t) ∧
      (replaced = false → kept = t) ∧
      (replaced = true → ∃ stripped breaks, strip legacy t = some stripped ∧
        stripped = breaks ++ kept ∧ (∀ c ∈ breaks, c = '\r' ∨ c = '\n') ∧
        ∀ c ∈ kept.head?, c ≠ '\r' ∧ c ≠ '\n') ∧
      HeaderFree legacy kept ∧
      ∀ u h v, h ∈ legacy → h ≠ [] → r = u ++ h ++ v →
        u.length < (canonical ++ separator canonical).length := by
  have hfree := headerFree_bodyBelow legacy t
  refine ⟨_, _, (bodyBelow legacy t).1, insertHeader_eq canonical legacy t, rfl, ?_, ?_, ?_, hfree,
    ?_⟩
  · exact bodyBelow_replaced_iff.trans not_headerFree_iff
  · intro hkept
    have hnone : HeaderFree legacy t := by
      by_contra hfound
      exact Bool.false_ne_true (hkept.symm.trans (bodyBelow_replaced_iff.mpr hfound))
    rw [bodyBelow_of_free hnone]
  · intro hreplaced
    have hsome : strip legacy t ≠ none := fun hnone =>
      bodyBelow_replaced_iff.mp hreplaced (strip_eq_none_iff.mp hnone)
    obtain ⟨stripped, hstrip⟩ := Option.ne_none_iff_exists'.mp hsome
    obtain ⟨breaks, hparts, hbreaks, hhead⟩ := bodyBelow_parts hstrip
    refine ⟨stripped, breaks, hstrip, hparts, fun c hc => isBreak_iff.mp (hbreaks c hc), ?_⟩
    intro c hc
    simpa [isBreak] using hhead c hc
  · intro u h v hmem hne hwhole
    exact hfree.begins_before hmem hne hwhole

/-! ## Copies of the canonical header -/

/-- **Cuts keep the sides of a character apart.**  A character that is there after a
chain of cuts was there before, and the cuts were made on either side of it. -/
theorem Reaches.split {u : Text} {c : Char} (hreach : Reaches headers s (t ++ c :: u)) :
    ∃ a b, s = a ++ c :: b ∧ Reaches headers a t ∧ Reaches headers b u := by
  generalize hend : t ++ c :: u = r at hreach
  induction hreach with
  | refl => exact ⟨t, u, hend.symm, Reaches.refl t, Reaches.refl u⟩
  | step hcut _ ih =>
      obtain ⟨a, b, hsides, ha, hb⟩ := ih hend
      obtain ⟨x, h, y, listed, nonempty⟩ := hcut
      rcases List.append_eq_append_iff.mp hsides with ⟨z, rfl, rfl⟩ | ⟨z, rfl, hz⟩
      · refine ⟨x ++ h ++ z, b, by simp, ?_, hb⟩
        exact Reaches.step (Deletion.cut x h z listed nonempty) ha
      · cases z with
        | nil =>
            -- The cut was made right before the character.
            obtain rfl : c :: b = y := hz
            refine ⟨a ++ h, b, by simp, ?_, hb⟩
            refine Reaches.step (t := a) ?_ ha
            simpa using Deletion.cut a h [] listed nonempty
        | cons d z =>
            obtain ⟨rfl, rfl⟩ := List.cons.inj hz
            refine ⟨a, z ++ h ++ y, by simp, ha, ?_⟩
            exact Reaches.step (Deletion.cut z h y listed nonempty) hb

/-- A copy of a text that is torn by headers: its first and its last character are
there, and what lies in between becomes the rest by cutting headers out. -/
def TornCopy (headers : List Text) (copy torn : Text) : Prop :=
  ∃ first inner stuffed last, copy = first :: inner ++ [last] ∧
    torn = first :: stuffed ++ [last] ∧ stuffed ≠ inner ∧ Reaches headers stuffed inner

/-- **A copy that cutting brings about was torn before.** -/
theorem Reaches.tornCopy {copy u v : Text} (hne : copy ≠ []) (habsent : ¬ copy <:+: s)
    (hreach : Reaches headers s (u ++ copy ++ v)) :
    ∃ before torn after, s = before ++ torn ++ after ∧ TornCopy headers copy torn ∧
      Reaches headers before u ∧ Reaches headers after v := by
  obtain ⟨first, rest, rfl⟩ := List.exists_cons_of_ne_nil hne
  rw [List.append_assoc, List.cons_append] at hreach
  obtain ⟨before, others, rfl, hbefore, hothers⟩ := hreach.split
  rcases List.eq_nil_or_concat rest with rfl | ⟨inner, last, hrest⟩
  · exact absurd ⟨before, others, by simp⟩ habsent
  · rw [List.concat_eq_append] at hrest
    subst hrest
    rw [List.append_assoc, List.singleton_append] at hothers
    obtain ⟨stuffed, after, rfl, hstuffed, hafter⟩ := hothers.split
    refine ⟨before, first :: stuffed ++ [last], after, by simp, ?_, hbefore, hafter⟩
    refine ⟨first, inner, stuffed, last, rfl, rfl, ?_, hstuffed⟩
    rintro rfl
    exact habsent ⟨before, after, by simp⟩

/-- **Copies of the canonical header that are kept.**  Synchronizing changes a text in
which the canonical header does not occur, and puts the header in front of what it
keeps.  If no legacy header was replaced, the canonical header does not occur in
what is kept.  In any case each of its occurrences there is a copy that legacy
headers had torn, and what stands around it was made of what stood around it. -/
theorem synchronized_copies {canonical t : Text} (legacy : List Text) (hne : canonical ≠ [])
    (habsent : ¬ canonical <:+: t) :
    ∃ change kept, synchronizeChange? verbatim canonical legacy t = some change ∧
      change.text = canonical ++ separator canonical ++ kept ∧
      (change.action = .inserted → ¬ canonical <:+: kept) ∧
      ∀ u v, kept = u ++ canonical ++ v →
        ∃ before torn after breaks, t = before ++ torn ++ after ∧
          TornCopy legacy canonical torn ∧ (∀ c ∈ breaks, c = '\r' ∨ c = '\n') ∧
          Reaches legacy before (breaks ++ u) ∧ Reaches legacy after v := by
  have hpresent : ¬ verbatim canonical t = true := fun h => habsent (Text.occursIn_iff.mp h)
  rw [synchronizeChange?, if_neg hpresent, insertHeader_eq]
  refine ⟨_, (bodyBelow legacy t).1, rfl, rfl, fun haction => ?_, fun u v hkept => ?_⟩
  · have hfree : HeaderFree legacy t := by
      by_contra hfound
      simp [bodyBelow_replaced_iff.mpr hfound] at haction
    rw [bodyBelow_of_free hfree]
    exact habsent
  · cases hstrip : strip legacy t with
    | none =>
        rw [bodyBelow_of_free (strip_eq_none_iff.mp hstrip)] at hkept
        exact absurd ⟨u, v, hkept.symm⟩ habsent
    | some stripped =>
        obtain ⟨breaks, hparts, hbreaks, _⟩ := bodyBelow_parts hstrip
        obtain ⟨passes, hloop⟩ := passLoop_strip legacy t
        have hreach : Reaches legacy t (breaks ++ u ++ canonical ++ v) := by
          have hleft := hloop.reaches
          rw [hstrip, Option.getD_some, hparts, hkept] at hleft
          simpa only [List.append_assoc] using hleft
        obtain ⟨before, torn, after, hcontent, htorn, hbefore, hafter⟩ :=
          hreach.tornCopy hne habsent
        refine ⟨before, torn, after, breaks, hcontent, htorn, ?_, hbefore, hafter⟩
        exact fun c hc => isBreak_iff.mp (hbreaks c hc)

/-- A legacy header tears a copy of the canonical header, which is put together when
the legacy header goes. -/
theorem synchronized_copies_sample :
    "NEW".toList ≠ [] ∧ ¬ "NEW".toList <:+: "NEOLDW".toList ∧
      ∃ change kept, synchronizeChange? verbatim "NEW".toList ["OLD".toList] "NEOLDW".toList =
          some change ∧
        change.text = "NEW".toList ++ separator "NEW".toList ++ kept ∧
        ∀ u v, kept = u ++ "NEW".toList ++ v →
          ∃ before torn after, "NEOLDW".toList = before ++ torn ++ after ∧
            TornCopy ["OLD".toList] "NEW".toList torn := by
  have hne : "NEW".toList ≠ [] := by decide
  have habsent : ¬ "NEW".toList <:+: "NEOLDW".toList := by decide
  obtain ⟨change, kept, hchange, htext, _, hcopies⟩ :=
    synchronized_copies ["OLD".toList] hne habsent
  refine ⟨hne, habsent, change, kept, hchange, htext, fun u v hkept => ?_⟩
  obtain ⟨before, torn, after, _, hcontent, htorn, _⟩ := hcopies u v hkept
  exact ⟨before, torn, after, hcontent, htorn⟩

/-- **The canonical header can be kept once more**: synchronizing can put it in front of
a text in which it occurs as soon as the legacy headers are gone. -/
theorem canonical_header_can_double :
    ¬ "NEW".toList <:+: "NEOLDW".toList ∧
      ∃ change kept, synchronizeChange? verbatim "NEW".toList ["OLD".toList] "NEOLDW".toList =
          some change ∧
        change.text = "NEW".toList ++ separator "NEW".toList ++ kept ∧
        "NEW".toList <:+: kept :=
  ⟨by decide, ⟨"NEW\n\nNEW".toList, .replaced⟩, "NEW".toList, by decide, by decide, by decide⟩

end LicenseHeaders
