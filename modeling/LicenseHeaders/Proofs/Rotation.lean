import LicenseHeaders.Proofs.Insertion
import LicenseHeaders.Proofs.Outcome

/-!
# Headers that replace one another

A tree that has been synchronized with one header is synchronized with the next one
when the header changes, and the header it had until then becomes a legacy one.
Each time the old header stands in front of the text and nowhere else, so a single
sweep takes it out (`strip_of_front`).  What it leaves behind begins with its
separator, which consists of line breaks and goes as well.  So the text is the new
header in front of the same body as before, however often this is repeated.

* `Rotation` — header sets in which each header is canonical once and legacy from
  then on, the legacy ones in any order;
* `synchronizeChange?_of_front` — one exchange of headers;
* `rotation_keeps_body` — all of them, one after the other.
-/

namespace LicenseHeaders

/-! ## A header in front -/

/-- What is skipped has no part in a sweep. -/
theorem deleteFrom_eq_drop (part : Text) (skip : Nat) (t : Text) :
    Text.deleteFrom part skip t = Text.deleteAll part (t.drop skip) := by
  induction t generalizing skip with
  | nil => rw [List.drop_nil, Text.deleteAll, Text.deleteFrom, Text.deleteFrom]
  | cons c rest ih =>
      cases skip with
      | zero => rfl
      | succ skip => rw [Text.deleteFrom, List.drop_succ_cons, ih]

/-- **A sweep takes out a text in front** and goes on behind it. -/
theorem deleteAll_append {part : Text} (hne : part ≠ []) (t : Text) :
    Text.deleteAll part (part ++ t) = Text.deleteAll part t := by
  obtain ⟨c, rest, rfl⟩ := List.exists_cons_of_ne_nil hne
  have hfront : (c :: rest).isPrefixOf (c :: (rest ++ t)) = true :=
    List.isPrefixOf_iff_prefix.mpr (List.prefix_append (c :: rest) t)
  rw [List.cons_append, Text.deleteAll, Text.deleteFrom, if_pos hfront, deleteFrom_eq_drop,
    List.length_cons, Nat.add_sub_cancel, List.drop_left]

/-- A sweep for a text that occurs in front and not behind leaves what is behind. -/
theorem deleteAll_of_front {part t : Text} (hne : part ≠ []) (habsent : ¬ part <:+: t) :
    Text.deleteAll part (part ++ t) = t := by
  have hout : Text.occursIn part t = false := by
    rw [Bool.eq_false_iff]
    intro hin
    exact habsent (Text.occursIn_iff.mp hin)
  rw [deleteAll_append hne, Text.deleteAll_eq_self hout]

section

variable {front t : Text} {headers : List Text}

/-- A pass over a text with a header in front, no other in the whole and none
behind takes out the header in front. -/
theorem stripPass_of_front (hmem : front ∈ headers) (hne : front ≠ [])
    (hfree : HeaderFree headers t) (hothers : ∀ h ∈ headers, h ≠ front → ¬ h <:+: front ++ t) :
    stripPass headers (front ++ t) = (t, true) := by
  induction headers with
  | nil => cases hmem
  | cons h rest ih =>
      have hrestfree : HeaderFree rest t := fun k hk => hfree k (List.mem_cons_of_mem h hk)
      rw [stripPass]
      by_cases hfront : h = front
      · subst hfront
        have hoccurs : Text.occursIn h (h ++ t) = true :=
          Text.occursIn_iff.mpr (List.prefix_append h t).isInfix
        have hquiet := stripPass_found_iff.mpr hrestfree
        rw [if_pos ⟨hne, hoccurs⟩, deleteAll_of_front hne (hfree h hmem hne),
          stripPass_eq_self hquiet]
      · have hskip : ¬ (h ≠ [] ∧ Text.occursIn h (front ++ t) = true) := fun hfound =>
          hothers h List.mem_cons_self hfront (Text.occursIn_iff.mp hfound.2)
        rw [if_neg hskip]
        refine ih ((List.mem_cons.mp hmem).resolve_left (Ne.symm hfront)) hrestfree ?_
        exact fun k hk => hothers k (List.mem_cons_of_mem h hk)

/-- **Stripping a text with one header in front** leaves what is behind it. -/
theorem strip_of_front (hmem : front ∈ headers) (hne : front ≠ [])
    (hfree : HeaderFree headers t) (hothers : ∀ h ∈ headers, h ≠ front → ¬ h <:+: front ++ t) :
    strip headers (front ++ t) = some t := by
  have hfirst := stripPass_of_front hmem hne hfree hothers
  have hquiet := stripPass_found_iff.mpr hfree
  have hsecond : stripPass headers t = (t, false) := Prod.ext (stripPass_eq_self hquiet) hquiet
  obtain ⟨n, hn⟩ : ∃ n, (front ++ t).length = n + 1 :=
    Nat.exists_eq_add_one_of_ne_zero (by simp [hne])
  simp only [strip, stripPasses, hfirst, hn, hsecond]

end

/-! ## One exchange -/

/-- The separator of a header consists of line breaks. -/
theorem isBreak_of_mem_separator {header : Text} {c : Char} (hc : c ∈ separator header) :
    isBreak c = true := by
  have hending : ∀ c ∈ lineEnding header, isBreak c = true := by
    unfold lineEnding
    split <;> simp [isBreak]
  unfold separator at hc
  split at hc
  · exact hending c hc
  · exact (List.mem_append.mp hc).elim (hending c) (hending c)

/-- A body that begins with no line break is what is left behind a separator. -/
theorem dropWhile_separator (header : Text) {body : Text}
    (hbody : ∀ c ∈ body.head?, isBreak c = false) :
    (separator header ++ body).dropWhile isBreak = body := by
  rw [List.dropWhile_append_of_pos fun c hc => isBreak_of_mem_separator hc]
  cases body with
  | nil => rfl
  | cons c rest => exact List.dropWhile_cons_of_neg (by simp [hbody c rfl])

/-- **One exchange of headers.**  When the old header is a legacy one and stands in
front of a body, it is replaced by the new one, and the body is kept. -/
theorem synchronizeChange?_of_front {new old body : Text} {legacy : List Text}
    (hmem : old ∈ legacy) (hne : old ≠ []) (hbody : ∀ c ∈ body.head?, isBreak c = false)
    (hnew : ¬ new <:+: prependHeader old body) (hold : ¬ old <:+: separator old ++ body)
    (hothers : ∀ h ∈ legacy, h ≠ old → ¬ h <:+: prependHeader old body) :
    synchronizeChange? verbatim new legacy (prependHeader old body) =
      some ⟨prependHeader new body, .replaced⟩ := by
  have hfree : HeaderFree legacy (separator old ++ body) := by
    intro h hmem _ hoccurs
    by_cases hh : h = old
    · exact hold (hh ▸ hoccurs)
    · refine hothers h hmem hh (hoccurs.trans ?_)
      rw [prependHeader, List.append_assoc]
      exact (List.suffix_append old _).isInfix
  have hstrip : strip legacy (prependHeader old body) = some (separator old ++ body) := by
    rw [prependHeader, List.append_assoc]
    refine strip_of_front hmem hne hfree fun h hh hother => ?_
    rw [← List.append_assoc]
    exact hothers h hh hother
  have habsent : ¬ verbatim new (prependHeader old body) = true := fun h =>
    hnew (Text.occursIn_iff.mp h)
  rw [synchronizeChange?, if_neg habsent, insertHeader_eq, bodyBelow_of_stripped hstrip,
    dropWhile_separator old hbody]
  rfl

/-! ## All of them -/

/-- Synchronizes header sets into a text, one after the other, and tells the text
and the action after each of them. -/
def synchronizeInTurn : List HeaderSet → Text → Except Failure (List (Text × Action))
  | [], _ => .ok []
  | headers :: rest, t => do
    let change ← ({ headers } : Plan).transform .synchronize t
    let later ← synchronizeInTurn rest (textAfter t change)
    return (textAfter t change, actionOf change) :: later

/-- Header sets for headers that replace one another: each set has the next header
as the canonical one, and all headers before it, in any order, as legacy ones. -/
inductive Rotation : (earlier headers : List Text) → List HeaderSet → Prop where
  | nil (earlier : List Text) : Rotation earlier [] []
  | cons {earlier legacy headers : List Text} {h : Text} {sets : List HeaderSet}
      (hlegacy : legacy.Perm earlier) (hrest : Rotation (earlier ++ [h]) headers sets) :
      Rotation earlier (h :: headers) (⟨h :: legacy⟩ :: sets)

/-- Headers that can be told apart from one another and from a body: none occurs in
the separator and the body that follow it, nor in the body with another header. -/
structure Distinguishable (headers : List Text) (body : Text) : Prop where
  nonempty : ∀ h ∈ headers, h ≠ []
  begins : ∀ c ∈ body.head?, c ≠ '\r' ∧ c ≠ '\n'
  alone : ∀ h ∈ headers, ¬ h <:+: separator h ++ body
  apart : headers.Pairwise fun h k =>
    ¬ h <:+: k ++ separator k ++ body ∧ ¬ k <:+: h ++ separator h ++ body

section

variable {body : Text}

/-- A body that can be told from its headers begins with no line break. -/
theorem Distinguishable.isBreak_head? {headers : List Text}
    (hdistinguishable : Distinguishable headers body) : ∀ c ∈ body.head?, isBreak c = false := by
  intro c hc
  simpa [isBreak] using hdistinguishable.begins c hc

theorem synchronizeInTurn_cons {h : Text} {legacy : List Text} {sets : List HeaderSet} {t : Text}
    {change : Change} {later : List (Text × Action)}
    (hchange : synchronizeChange? verbatim h legacy t = some change)
    (hlater : synchronizeInTurn sets change.text = .ok later) :
    synchronizeInTurn (⟨h :: legacy⟩ :: sets) t = .ok ((change.text, change.action) :: later) := by
  have htransform : ({ headers := ⟨h :: legacy⟩ } : Plan).transform .synchronize t =
      .ok (some change) := congrArg Except.ok hchange
  simp only [synchronizeInTurn, htransform, bind, Except.bind, textAfter, Option.map_some,
    Option.getD_some, hlater, pure, Except.pure, actionOf]

/-- Once a header is there, each one that follows takes the place of the last. -/
theorem Rotation.later (older : List Text) {earlier headers : List Text} {old : Text}
    {sets : List HeaderSet} (hrotation : Rotation earlier headers sets)
    (hearlier : earlier = older ++ [old])
    (hdistinguishable : Distinguishable (earlier ++ headers) body) :
    synchronizeInTurn sets (prependHeader old body) =
      .ok (headers.map fun h => (prependHeader h body, .replaced)) := by
  induction hrotation generalizing older old with
  | nil => rfl
  | @cons earlier legacy headers h sets hlegacy _ ih =>
      subst hearlier
      rw [List.append_cons] at hdistinguishable
      have hlater := ih _ rfl hdistinguishable
      have hold : old ∈ older ++ [old] ++ [h] ++ headers := by simp
      have hpairs := (List.pairwise_append.mp hdistinguishable.apart).1
      obtain ⟨hearlier, _, hnew⟩ := List.pairwise_append.mp hpairs
      obtain ⟨_, _, hbefore⟩ := List.pairwise_append.mp hearlier
      have hchange : synchronizeChange? verbatim h legacy (prependHeader old body) =
          some ⟨prependHeader h body, .replaced⟩ := by
        refine synchronizeChange?_of_front (hlegacy.mem_iff.mpr (by simp))
          (hdistinguishable.nonempty old hold) hdistinguishable.isBreak_head? ?_
          (hdistinguishable.alone old hold) fun k hk hother => ?_
        · exact (hnew old (by simp) h (by simp)).2
        · have hmem := hlegacy.mem_iff.mp hk
          have holder : k ∈ older := by simpa [hother] using hmem
          exact (hbefore k holder old (by simp)).1
      exact synchronizeInTurn_cons hchange hlater

/-- **Replacing headers leaves no trace.**  When headers that can be told apart
replace one another, starting from a body without a header, then after each step
the text is the header of that step, its separator and the same body.  The first
header is inserted, and each later one replaces the one before. -/
theorem rotation_keeps_body {headers : List Text} {sets : List HeaderSet}
    (hrotation : Rotation [] headers sets) (hdistinguishable : Distinguishable headers body) :
    ∃ steps, synchronizeInTurn sets body = .ok steps ∧ steps.length = headers.length ∧
      ∀ k h, headers[k]? = some h →
        steps[k]? = some (h ++ separator h ++ body, if k = 0 then .inserted else .replaced) := by
  cases hrotation with
  | nil => exact ⟨[], rfl, rfl, fun k h hk => by simp at hk⟩
  | @cons _ legacy headers h sets hlegacy hrest =>
      obtain rfl := hlegacy.eq_nil
      have habsent : ¬ verbatim h body = true := fun hpresent =>
        hdistinguishable.alone h List.mem_cons_self
          ((Text.occursIn_iff.mp hpresent).trans (List.suffix_append _ _).isInfix)
      have hfree : HeaderFree [] body := fun k hk => by cases hk
      have hchange : synchronizeChange? verbatim h [] body =
          some ⟨prependHeader h body, .inserted⟩ := by
        rw [synchronizeChange?, if_neg habsent, insertHeader_eq, bodyBelow_of_free hfree]
        rfl
      have hlater := Rotation.later [] hrest rfl hdistinguishable
      refine ⟨_, synchronizeInTurn_cons hchange hlater, by simp, fun k other hk => ?_⟩
      cases k with
      | zero =>
          obtain rfl := Option.some.inj hk
          rfl
      | succ k =>
          rw [List.getElem?_cons_succ] at hk ⊢
          rw [List.getElem?_map, hk]
          rfl

end

namespace Sample

/-- Three headers with different line endings. -/
def retired : List Text := ["A".toList, "B\r\n2".toList, "C\n".toList]

/-- What is synchronized with them, in the end with the legacy headers out of order. -/
def rotated : List HeaderSet :=
  [⟨["A".toList]⟩, ⟨["B\r\n2".toList, "A".toList]⟩,
    ⟨["C\n".toList, "B\r\n2".toList, "A".toList]⟩]

end Sample

/-- The body is the same below each of three headers. -/
theorem rotation_keeps_body_sample :
    Rotation [] Sample.retired Sample.rotated ∧
      Distinguishable Sample.retired "x\r\n".toList ∧
      ∃ steps, synchronizeInTurn Sample.rotated "x\r\n".toList = .ok steps ∧
        steps[0]? = some ("A\n\nx\r\n".toList, .inserted) ∧
        steps[1]? = some ("B\r\n2\r\n\r\nx\r\n".toList, .replaced) ∧
        steps[2]? = some ("C\n\nx\r\n".toList, .replaced) := by
  have hrotation : Rotation [] Sample.retired Sample.rotated :=
    .cons (.refl _) (.cons (.refl _) (.cons (.swap _ _ _) (.nil _)))
  have hdistinguishable : Distinguishable Sample.retired "x\r\n".toList :=
    ⟨by decide, by simp, by decide, by decide⟩
  obtain ⟨steps, hsteps, _, heach⟩ := rotation_keeps_body hrotation hdistinguishable
  exact ⟨hrotation, hdistinguishable, steps, hsteps, heach 0 _ rfl, heach 1 _ rfl, heach 2 _ rfl⟩

end LicenseHeaders
