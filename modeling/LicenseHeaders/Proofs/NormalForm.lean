import LicenseHeaders.Header.Removal

/-!
# Stripping is a normal form of deletion

One sweep of `Text.deleteAll` removes many occurrences at once, and a pass runs
one sweep after the other on a text that keeps changing.  All of this comes
down to the smallest step there is, cutting a single occurrence of a single
header out of a text (`Deletion`): every sweep, every pass and the whole loop
is a chain of such cuts (`reaches_deleteFrom`, `reaches_stripPass`), and a cut
makes the text shorter.

What a pass tells about itself is exact: it claims to have found nothing
precisely on texts without headers (`stripPass_found_iff`), although the text
it looks at changes along the way.  The first header found decides the claim,
and up to there the text is still the one the pass began with.

The loop of passes has no bound of its own.  `PassLoop` is that loop, and
`passLoop_stripPasses` says that it ends after at most one pass more than the
text has characters.

* `strip_normal_form` — the loop ends, in a text that is reached by cuts alone,
  contains no header and is not cut any further by a second loop.
-/

namespace LicenseHeaders

/-- The loop of passes: it goes round until a pass finds nothing.  The number
counts the passes, the last one included. -/
inductive PassLoop (headers : List Text) : Text → Nat → Text → Prop where
  | settled {t : Text} (quiet : (stripPass headers t).2 = false) : PassLoop headers t 1 t
  | again {s r : Text} {passes : Nat} (found : (stripPass headers s).2 = true)
      (rest : PassLoop headers (stripPass headers s).1 passes r) :
      PassLoop headers s (passes + 1) r

/-! ## Cuts -/

/-- Chains of cuts compose. -/
theorem Reaches.trans {headers : List Text} {s t u : Text}
    (hst : Reaches headers s t) (htu : Reaches headers t u) : Reaches headers s u := by
  induction hst with
  | refl => exact htu
  | step hcut _ ih => exact Reaches.step hcut (ih htu)

/-- More headers allow the same cuts and more; empty ones do not count. -/
theorem Deletion.mono {headers more : List Text} {s t : Text}
    (hsub : ∀ h ∈ headers, h ≠ [] → h ∈ more) (hcut : Deletion headers s t) :
    Deletion more s t := by
  cases hcut with
  | cut u h v listed nonempty => exact Deletion.cut u h v (hsub h listed nonempty) nonempty

/-- More headers reach more texts; empty ones do not matter. -/
theorem Reaches.mono {headers more : List Text} {s t : Text}
    (hsub : ∀ h ∈ headers, h ≠ [] → h ∈ more) (hst : Reaches headers s t) : Reaches more s t := by
  induction hst with
  | refl t => exact Reaches.refl t
  | step hcut _ ih => exact Reaches.step (hcut.mono hsub) ih

/-- A text without headers cannot be cut. -/
theorem HeaderFree.not_deletion {headers : List Text} {s t : Text}
    (hfree : HeaderFree headers s) : ¬ Deletion headers s t := by
  rintro ⟨u, h, v, listed, nonempty⟩
  exact hfree h listed nonempty ⟨u, v, rfl⟩

/-- Only the empty chain begins at a text without headers. -/
theorem HeaderFree.eq_of_reaches {headers : List Text} {s t : Text}
    (hfree : HeaderFree headers s) (hst : Reaches headers s t) : t = s := by
  cases hst with
  | refl => rfl
  | step hcut _ => exact absurd hcut hfree.not_deletion

/-- A chain of cuts that leads to another text makes the text shorter. -/
theorem Reaches.length_lt {headers : List Text} {s t : Text}
    (hst : Reaches headers s t) (hne : t ≠ s) : t.length < s.length := by
  induction hst with
  | refl => exact absurd rfl hne
  | @step s m t hcut hrest ih =>
      obtain ⟨u, h, v, _, nonempty⟩ := hcut
      have hcost : (u ++ v).length < (u ++ h ++ v).length := by
        have := List.length_pos_iff.mpr nonempty
        simp only [List.length_append]
        omega
      by_cases hend : t = u ++ v
      · exact hend ▸ hcost
      · exact Nat.lt_trans (ih hend) hcost

/-! ## One sweep -/

/-- **A sweep is a chain of cuts.**  The characters to be skipped belong to an
occurrence that has already been cut out, so the chain starts behind them. -/
theorem reaches_deleteFrom {part : Text} (hne : part ≠ []) (skip : Nat) (u t : Text) :
    Reaches [part] (u ++ t.drop skip) (u ++ Text.deleteFrom part skip t) := by
  fun_induction Text.deleteFrom part skip t generalizing u with
  | case1 skip => simpa using Reaches.refl u
  | case2 c rest hpre ih =>
      obtain ⟨v, hv⟩ := List.isPrefixOf_iff_prefix.mp hpre
      have hpos : 0 < part.length := List.length_pos_iff.mpr hne
      have hdrop : rest.drop (part.length - 1) = v := by
        have hsucc : (c :: rest).drop part.length = rest.drop (part.length - 1) := by
          rw [← Nat.sub_add_cancel hpos, List.drop_succ_cons, Nat.add_sub_cancel]
        rw [← hsucc, ← hv, List.drop_left]
      have hcut : Deletion [part] (u ++ part ++ v) (u ++ v) :=
        Deletion.cut u part v List.mem_cons_self hne
      have hrest := ih u
      rw [hdrop] at hrest
      rw [List.drop_zero, ← hv, ← List.append_assoc]
      exact Reaches.step hcut hrest
  | case3 c rest hpre ih =>
      have hrest := ih (u ++ [c])
      simpa using hrest
  | case4 skip c rest ih => simpa using ih u

/-- A sweep never makes a text longer. -/
theorem length_deleteFrom_le (part : Text) (skip : Nat) (t : Text) :
    (Text.deleteFrom part skip t).length ≤ t.length := by
  fun_induction Text.deleteFrom part skip t with
  | case1 => exact Nat.le_refl _
  | case2 c rest hpre ih => exact Nat.le_succ_of_le ih
  | case3 c rest hpre ih => exact Nat.succ_le_succ ih
  | case4 skip c rest ih => exact Nat.le_succ_of_le ih

/-- A sweep for a text that occurs makes the text shorter. -/
theorem length_deleteAll_lt {part t : Text} (hne : part ≠ [])
    (hocc : Text.occursIn part t = true) : (Text.deleteAll part t).length < t.length := by
  induction t with
  | nil => exact absurd (List.isEmpty_iff.mp hocc) hne
  | cons c rest ih =>
      by_cases hpre : part.isPrefixOf (c :: rest) = true
      · rw [Text.deleteAll, Text.deleteFrom, if_pos hpre]
        exact Nat.lt_succ_of_le (length_deleteFrom_le part _ rest)
      · rw [Text.occursIn, Bool.or_eq_true] at hocc
        rw [Text.deleteAll, Text.deleteFrom, if_neg hpre]
        exact Nat.succ_lt_succ (ih (hocc.resolve_left hpre))

/-! ## One pass -/

/-- A pass is a chain of cuts. -/
theorem reaches_stripPass (headers : List Text) (t : Text) :
    Reaches headers t (stripPass headers t).1 := by
  induction headers generalizing t with
  | nil => exact Reaches.refl t
  | cons h rest ih =>
      have hrest : ∀ s, Reaches (h :: rest) s (stripPass rest s).1 := fun s =>
        (ih s).mono fun k hk _ => List.mem_cons_of_mem h hk
      rw [stripPass]
      split
      · next hfound =>
        have hsweep : Reaches [h] t (Text.deleteAll h t) :=
          reaches_deleteFrom hfound.1 0 [] t
        have hmore : ∀ k ∈ [h], k ≠ [] → k ∈ h :: rest := fun k hk _ =>
          List.mem_singleton.mp hk ▸ List.mem_cons_self
        exact (hsweep.mono hmore).trans (hrest _)
      · exact hrest t

/-- A pass never makes a text longer. -/
theorem length_stripPass_le (headers : List Text) (t : Text) :
    (stripPass headers t).1.length ≤ t.length := by
  induction headers generalizing t with
  | nil => exact Nat.le_refl _
  | cons h rest ih =>
      rw [stripPass]
      split
      · exact Nat.le_trans (ih _) (length_deleteFrom_le h 0 t)
      · exact ih t

/-- A pass that finds something makes the text shorter. -/
theorem length_stripPass_lt {headers : List Text} {t : Text}
    (hfound : (stripPass headers t).2 = true) :
    (stripPass headers t).1.length < t.length := by
  induction headers with
  | nil => exact absurd hfound Bool.false_ne_true
  | cons h rest ih =>
      rw [stripPass] at hfound ⊢
      split
      · next hocc =>
        exact Nat.lt_of_le_of_lt (length_stripPass_le rest _) (length_deleteAll_lt hocc.1 hocc.2)
      · next hocc =>
        rw [if_neg hocc] at hfound
        exact ih hfound

/-- **The claim of a pass is exact**: it finds nothing precisely in a text
without headers. -/
theorem stripPass_found_iff {headers : List Text} {t : Text} :
    (stripPass headers t).2 = false ↔ HeaderFree headers t := by
  induction headers with
  | nil => simp [stripPass, HeaderFree]
  | cons h rest ih =>
      have hsplit : HeaderFree (h :: rest) t ↔ (h ≠ [] → ¬ h <:+: t) ∧ HeaderFree rest t :=
        List.forall_mem_cons
      rw [stripPass, hsplit]
      split
      · next hocc =>
        have hin : h <:+: t := Text.occursIn_iff.mp hocc.2
        exact ⟨fun hfalse => absurd hfalse.symm Bool.false_ne_true,
          fun hfree => absurd hin (hfree.1 hocc.1)⟩
      · next hocc =>
        have hout : h ≠ [] → ¬ h <:+: t := fun hne hin =>
          hocc ⟨hne, Text.occursIn_iff.mpr hin⟩
        rw [ih]
        exact ⟨fun hfree => ⟨hout, hfree⟩, fun hfree => hfree.2⟩

/-- A pass that finds nothing leaves the text as it is. -/
theorem stripPass_eq_self {headers : List Text} {t : Text}
    (hquiet : (stripPass headers t).2 = false) : (stripPass headers t).1 = t :=
  (stripPass_found_iff.mp hquiet).eq_of_reaches (reaches_stripPass headers t)

/-! ## The loop -/

/-- The loop is a chain of cuts. -/
theorem PassLoop.reaches {headers : List Text} {s r : Text} {passes : Nat}
    (hloop : PassLoop headers s passes r) : Reaches headers s r := by
  induction hloop with
  | settled => exact Reaches.refl _
  | again _ _ ih => exact (reaches_stripPass headers _).trans ih

/-- The loop ends in a text without headers. -/
theorem PassLoop.headerFree {headers : List Text} {s r : Text} {passes : Nat}
    (hloop : PassLoop headers s passes r) : HeaderFree headers r := by
  induction hloop with
  | settled hquiet => exact stripPass_found_iff.mp hquiet
  | again _ _ ih => exact ih

/-- Each pass but the last costs the text a character. -/
theorem PassLoop.passes_le {headers : List Text} {s r : Text} {passes : Nat}
    (hloop : PassLoop headers s passes r) : passes + r.length ≤ s.length + 1 := by
  induction hloop with
  | settled => omega
  | again hfound _ ih =>
      have hshorter := length_stripPass_lt hfound
      omega

/-- **Termination.**  With one pass more than the text has characters the loop
runs to its end, and what it answers tells whether a pass found something. -/
theorem passLoop_stripPasses (headers : List Text) {n : Nat} {t : Text}
    (hn : t.length < n) (found : Bool) :
    (∃ passes, PassLoop headers t passes (stripPasses headers n found t).1) ∧
      ((stripPasses headers n found t).2 = false ↔ found = false ∧ HeaderFree headers t) := by
  induction n generalizing t found with
  | zero => exact absurd hn (Nat.not_lt_zero _)
  | succ n ih =>
      rw [stripPasses]
      split
      · next s hpass =>
        have hfound : (stripPass headers t).2 = true := by rw [hpass]
        have hs : (stripPass headers t).1 = s := by rw [hpass]
        have hshorter : s.length < n := by
          have := hs ▸ length_stripPass_lt hfound
          omega
        obtain ⟨⟨passes, hloop⟩, hflag⟩ := ih hshorter true
        refine ⟨⟨passes + 1, PassLoop.again hfound (hs ▸ hloop)⟩, ?_⟩
        have hnot : ¬ HeaderFree headers t := fun hfree => by
          rw [stripPass_found_iff.mpr hfree] at hfound
          exact Bool.false_ne_true hfound
        simp [hflag, hnot]
      · next s hpass =>
        have hquiet : (stripPass headers t).2 = false := by rw [hpass]
        have hs : s = t := by rw [← stripPass_eq_self hquiet, hpass]
        subst hs
        exact ⟨⟨1, PassLoop.settled hquiet⟩, by simp [stripPass_found_iff.mp hquiet]⟩

/-- What is left after stripping is where the loop ends. -/
theorem passLoop_strip (headers : List Text) (t : Text) :
    ∃ passes, PassLoop headers t passes ((strip headers t).getD t) := by
  obtain ⟨⟨passes, hloop⟩, hflag⟩ :=
    passLoop_stripPasses headers (Nat.lt_succ_self t.length) false
  refine ⟨passes, ?_⟩
  rw [strip]
  split
  · next hstripped => rwa [hstripped] at hloop
  · next hstripped =>
    have hfree : HeaderFree headers t := (hflag.mp (by rw [hstripped])).2
    have hend := hfree.eq_of_reaches hloop.reaches
    rwa [hend] at hloop

/-- **Nothing is stripped** exactly from a text without headers. -/
theorem strip_eq_none_iff {headers : List Text} {t : Text} :
    strip headers t = none ↔ HeaderFree headers t := by
  obtain ⟨_, hflag⟩ :=
    passLoop_stripPasses headers (Nat.lt_succ_self t.length) false
  rw [strip]
  split
  · next hstripped => simpa [hstripped] using hflag
  · next hstripped => simpa [hstripped] using hflag

/-- What stripping leaves contains no header. -/
theorem headerFree_strip (headers : List Text) (t : Text) :
    HeaderFree headers ((strip headers t).getD t) := by
  obtain ⟨passes, hloop⟩ := passLoop_strip headers t
  exact hloop.headerFree

/-- A text that is stripped becomes shorter. -/
theorem length_lt_of_strip_eq_some {headers : List Text} {t r : Text}
    (hstrip : strip headers t = some r) : r.length < t.length := by
  obtain ⟨passes, hloop⟩ := passLoop_strip headers t
  rw [hstrip, Option.getD_some] at hloop
  have hsome : strip headers t ≠ none := by simp [hstrip]
  have hne : r ≠ t := by
    rintro rfl
    exact hsome (strip_eq_none_iff.mpr hloop.headerFree)
  exact hloop.reaches.length_lt hne

/-- **Stripping is a normal form of deletion.**  The loop of passes ends after
at most one pass more than the text has characters.  The text it ends in is
reached by cutting out single occurrences of headers and contains none any
more.  Stripping answers that nothing was found exactly when the text contains
no header, and otherwise makes it shorter; a second time it finds nothing. -/
theorem strip_normal_form (headers : List Text) (t : Text) :
    ∃ passes r, passes ≤ t.length + 1 ∧ PassLoop headers t passes r ∧
      (strip headers t).getD t = r ∧
      Reaches headers t r ∧ HeaderFree headers r ∧
      (strip headers t = none ↔ HeaderFree headers t) ∧
      (strip headers t ≠ none → strip headers t = some r ∧ r.length < t.length) ∧
      strip headers r = none := by
  obtain ⟨passes, hloop⟩ := passLoop_strip headers t
  have hbound : passes ≤ t.length + 1 := by
    have := hloop.passes_le
    omega
  refine ⟨passes, _, hbound, hloop, rfl, hloop.reaches, hloop.headerFree,
    strip_eq_none_iff, ?_, strip_eq_none_iff.mpr hloop.headerFree⟩
  intro hsome
  obtain ⟨r, hr⟩ := Option.ne_none_iff_exists'.mp hsome
  rw [hr, Option.getD_some]
  exact ⟨rfl, length_lt_of_strip_eq_some hr⟩

end LicenseHeaders
