import LicenseHeaders.Proofs.NormalForm
import Mathlib.Data.List.Infix
import Mathlib.Logic.Relation
import Mathlib.Tactic.ByContra

/-!
# Headers that cannot overlap

In which order headers are cut out of a text can matter, but only where two
occurrences share characters: one cut then destroys the other occurrence.  When no
header is a part of another one and none ends with the beginning of one, two
occurrences are the same or have nothing in common (`OverlapFree.eq_of_overlap`).
Then two cuts of a text can be followed by one more each that brings them together
again (`Deletion.diamond`), so all chains of cuts that go on as long as they can end
in the same text.  Stripping is such a chain, whatever the order of the headers.

* `Reaches.join` — two chains of cuts can be continued to the same text;
* `strip_confluent` — what is left does not depend on the order of the headers.
-/

namespace LicenseHeaders

/-- Texts that cannot overlap: none is a part of another one, and no end of one, the
whole apart, is the beginning of one.  Empty texts do not count. -/
structure OverlapFree (texts : List Text) : Prop where
  separate : ∀ h ∈ texts, ∀ k ∈ texts, h ≠ [] → h <:+: k → h = k
  seamless : ∀ h ∈ texts, ∀ k ∈ texts, ∀ s, s <:+ h → s ≠ [] → s ≠ h → ¬ s <+: k

instance (texts : List Text) : Decidable (OverlapFree texts) :=
  decidable_of_iff
    ((∀ h ∈ texts, ∀ k ∈ texts, h ≠ [] → h <:+: k → h = k) ∧
      ∀ h ∈ texts, ∀ k ∈ texts, ∀ s ∈ h.tails, s ≠ [] → s ≠ h → ¬ s <+: k)
    ⟨fun ⟨hseparate, hseamless⟩ =>
      ⟨hseparate, fun h hh k hk s hs => hseamless h hh k hk s ((List.mem_tails s h).mpr hs)⟩,
    fun ⟨hseparate, hseamless⟩ =>
      ⟨hseparate, fun h hh k hk s hs => hseamless h hh k hk s ((List.mem_tails s h).mp hs)⟩⟩

variable {headers others : List Text} {a b s t : Text}

/-! ## Two occurrences -/

section

variable (hfree : OverlapFree headers) {h k : Text} (hh : h ∈ headers) (hk : k ∈ headers)

include hfree hh hk

/-- Where an end of a header and a header begin at the same place, the end is the
whole header, and the headers are the same. -/
theorem OverlapFree.eq_of_prefix {z end' v y : Text} (hend : h = z ++ end') (hne : end' ≠ [])
    (hnek : k ≠ []) (hsame : end' ++ v = k ++ y) : z = [] ∧ h = k ∧ v = y := by
  have hsuffix : end' <:+ h := ⟨z, hend.symm⟩
  have hboth : end' <+: k ∨ k <+: end' :=
    List.prefix_or_prefix_of_prefix ⟨v, hsame⟩ (List.prefix_append k y)
  have hwhole : end' = h ∧ h = k := by
    rcases hboth with hbefore | hbefore
    · have hall : end' = h := by
        by_contra hproper
        exact hfree.seamless h hh k hk end' hsuffix hne hproper hbefore
      subst hall
      exact ⟨rfl, hfree.separate end' hh k hk hne hbefore.isInfix⟩
    · have hkh : k = h :=
        hfree.separate k hk h hh hnek (hbefore.isInfix.trans hsuffix.isInfix)
      subst hkh
      exact ⟨hsuffix.eq_of_length_le hbefore.length_le, rfl⟩
  obtain ⟨hall, hkh⟩ := hwhole
  subst hall hkh
  exact ⟨by simpa using hend, rfl, List.append_cancel_left hsame⟩

/-- **An occurrence that begins within another one is the same occurrence.** -/
theorem OverlapFree.eq_of_overlap {z v y : Text} (hnek : k ≠ [])
    (hwhole : h ++ v = z ++ k ++ y) (hwithin : z.length < h.length) : z = [] ∧ h = k ∧ v = y := by
  rw [List.append_assoc] at hwhole
  have hbefore : z <+: h := by
    apply List.prefix_of_prefix_length_le _ (List.prefix_append h v) (Nat.le_of_lt hwithin)
    rw [hwhole]
    exact List.prefix_append z _
  obtain ⟨end', hend⟩ := hbefore
  have hne : end' ≠ [] := by
    rintro rfl
    simp [← hend] at hwithin
  rw [← hend, List.append_assoc] at hwhole
  exact hfree.eq_of_prefix hh hk hend.symm hne hnek (List.append_cancel_left hwhole)

end

/-! ## Two cuts -/

/-- Of two cuts, let the one begin no later than the other. -/
theorem OverlapFree.diamond_of_le (hfree : OverlapFree headers) {u h v x k y : Text}
    (hh : h ∈ headers) (hneh : h ≠ []) (hk : k ∈ headers) (hnek : k ≠ [])
    (hwhole : u ++ h ++ v = x ++ k ++ y) (hle : u.length ≤ x.length) :
    u ++ v = x ++ y ∨ ∃ d, Deletion headers (u ++ v) d ∧ Deletion headers (x ++ y) d := by
  have hu : u <+: x ++ k ++ y := by
    rw [← hwhole, List.append_assoc]
    exact List.prefix_append u _
  have hx : x <+: x ++ k ++ y := by
    rw [List.append_assoc]
    exact List.prefix_append x _
  have hbefore : u <+: x := List.prefix_of_prefix_length_le hu hx hle
  obtain ⟨z, rfl⟩ := hbefore
  have hrest : h ++ v = z ++ k ++ y := by
    simpa only [List.append_assoc, List.append_cancel_left_eq] using hwhole
  by_cases hwithin : z.length < h.length
  · obtain ⟨rfl, rfl, rfl⟩ := hfree.eq_of_overlap hh hk hnek hrest hwithin
    left
    rw [List.append_nil]
  · -- The occurrences are apart, so each of them is still there after the other cut.
    have hapart : h <+: z := by
      apply List.prefix_of_prefix_length_le (List.prefix_append h v) _ (Nat.not_lt.mp hwithin)
      rw [hrest, List.append_assoc]
      exact List.prefix_append z _
    obtain ⟨w, rfl⟩ := hapart
    obtain rfl : v = w ++ k ++ y := by
      simpa only [List.append_assoc, List.append_cancel_left_eq] using hrest
    right
    refine ⟨u ++ w ++ y, ?_, ?_⟩
    · simpa only [List.append_assoc] using Deletion.cut (u ++ w) k y hk hnek
    · simpa only [List.append_assoc] using Deletion.cut u h (w ++ y) hh hneh

/-- **Two cuts come together again**, after one more cut each if they differ. -/
theorem Deletion.diamond (hfree : OverlapFree headers) (ha : Deletion headers t a)
    (hb : Deletion headers t b) : a = b ∨ ∃ d, Deletion headers a d ∧ Deletion headers b d := by
  obtain ⟨u, h, v, hh, hneh⟩ := ha
  generalize hwhole : u ++ h ++ v = whole at hb
  obtain ⟨x, k, y, hk, hnek⟩ := hb
  rcases Nat.le_total u.length x.length with hle | hle
  · exact hfree.diamond_of_le hh hneh hk hnek hwhole hle
  · rcases hfree.diamond_of_le hk hnek hh hneh hwhole.symm hle with hsame | ⟨d, hx, hu⟩
    · exact .inl hsame.symm
    · exact .inr ⟨d, hu, hx⟩

/-! ## Chains of cuts -/

/-- Chains of cuts are what the single cut generates. -/
theorem reaches_iff : Reaches headers s t ↔ Relation.ReflTransGen (Deletion headers) s t := by
  constructor
  · intro hreach
    induction hreach with
    | refl => exact .refl
    | step hcut _ ih => exact .head hcut ih
  · intro hchain
    induction hchain using Relation.ReflTransGen.head_induction_on with
    | refl => exact Reaches.refl t
    | head hcut _ ih => exact Reaches.step hcut ih

/-- **Two chains of cuts can be continued to the same text.** -/
theorem Reaches.join (hfree : OverlapFree headers) (ha : Reaches headers t a)
    (hb : Reaches headers t b) : ∃ d, Reaches headers a d ∧ Reaches headers b d := by
  have hdiamond : ∀ t a b, Deletion headers t a → Deletion headers t b →
      ∃ d, Relation.ReflGen (Deletion headers) a d ∧
        Relation.ReflTransGen (Deletion headers) b d := by
    intro t a b hta htb
    rcases hta.diamond hfree htb with rfl | ⟨d, had, hbd⟩
    · exact ⟨a, .refl, .refl⟩
    · exact ⟨d, .single had, .single hbd⟩
  obtain ⟨d, had, hbd⟩ := Relation.church_rosser hdiamond (reaches_iff.mp ha) (reaches_iff.mp hb)
  exact ⟨d, reaches_iff.mpr had, reaches_iff.mpr hbd⟩

/-- **A text has one normal form** under cuts of headers that cannot overlap. -/
theorem Reaches.unique (hfree : OverlapFree headers) (ha : Reaches headers t a)
    (hb : Reaches headers t b) (hafree : HeaderFree headers a) (hbfree : HeaderFree headers b) :
    a = b := by
  obtain ⟨d, had, hbd⟩ := ha.join hfree hb
  rw [← hafree.eq_of_reaches had, hbfree.eq_of_reaches hbd]

/-- **The order of headers that cannot overlap does not matter.**  Let two lists have
the same headers that are not empty, in any order and any number.  Stripping leaves
the same text with both, and this is the only text without headers that is reached by
cutting headers out, whatever is cut first. -/
theorem strip_confluent (hsame : ∀ h, h ≠ [] → (h ∈ headers ↔ h ∈ others))
    (hfree : OverlapFree headers) (t : Text) :
    strip headers t = strip others t ∧
      ∃ r, (strip headers t).getD t = r ∧ Reaches headers t r ∧ HeaderFree headers r ∧
        ∀ s, Reaches headers t s → HeaderFree headers s → s = r := by
  obtain ⟨_, hloop⟩ := passLoop_strip headers t
  obtain ⟨_, hother⟩ := passLoop_strip others t
  have hfrees : ∀ s, HeaderFree others s ↔ HeaderFree headers s := by
    intro s
    constructor
    · intro hnone h hmem hne
      exact hnone h ((hsame h hne).mp hmem) hne
    · intro hnone h hmem hne
      exact hnone h ((hsame h hne).mpr hmem) hne
  have hreach : Reaches headers t ((strip others t).getD t) := by
    apply hother.reaches.mono
    intro h hmem hne
    exact (hsame h hne).mpr hmem
  have hleft : (strip headers t).getD t = (strip others t).getD t :=
    hloop.reaches.unique hfree hreach hloop.headerFree ((hfrees _).mp hother.headerFree)
  constructor
  · by_cases hnone : HeaderFree headers t
    · rw [strip_eq_none_iff.mpr hnone, strip_eq_none_iff.mpr ((hfrees t).mpr hnone)]
    · obtain ⟨r, hr⟩ := Option.ne_none_iff_exists'.mp (mt strip_eq_none_iff.mp hnone)
      obtain ⟨r', hr'⟩ :=
        Option.ne_none_iff_exists'.mp (mt (strip_eq_none_iff.trans (hfrees t)).mp hnone)
      rw [hr, hr'] at hleft ⊢
      exact congrArg some hleft
  · refine ⟨_, rfl, hloop.reaches, hloop.headerFree, ?_⟩
    intro s hs hsfree
    exact hs.unique hfree hloop.reaches hsfree hloop.headerFree

/-- One header stands within a copy of the other, which it brings together when it
goes.  The lists differ in their order, and have an empty header and a double one. -/
theorem strip_confluent_sample :
    (∀ h, h ≠ [] → (h ∈ ["ab".toList, "cd".toList, []] ↔
      h ∈ ["cd".toList, "ab".toList, "cd".toList])) ∧
    OverlapFree ["ab".toList, "cd".toList, []] ∧
    strip ["cd".toList, "ab".toList, "cd".toList] "xacdbcdy".toList = some "xy".toList ∧
    ∀ s, Reaches ["ab".toList, "cd".toList, []] "xacdbcdy".toList s →
      HeaderFree ["ab".toList, "cd".toList, []] s → s = "xy".toList := by
  have hsame : ∀ h, h ≠ [] → (h ∈ ["ab".toList, "cd".toList, []] ↔
      h ∈ ["cd".toList, "ab".toList, "cd".toList]) := by
    intro h hne
    simp only [List.mem_cons, List.not_mem_nil, or_false, hne]
    grind
  have hfree : OverlapFree ["ab".toList, "cd".toList, []] := by decide
  obtain ⟨hboth, r, hr, _, _, honly⟩ := strip_confluent hsame hfree "xacdbcdy".toList
  have hxy : r = "xy".toList := by
    rw [← hr]
    decide
  subst hxy
  refine ⟨hsame, hfree, ?_, honly⟩
  rw [← hboth]
  decide

/-- Where headers overlap, the first one to be looked for wins. -/
example : strip ["ab".toList, "bc".toList] "abc".toList = some "c".toList ∧
    strip ["bc".toList, "ab".toList] "abc".toList = some "a".toList := by decide

end LicenseHeaders
