import LicenseHeaders.Proofs.NameOrder

/-!
# Paths in order

Paths are put in order by comparing numbers that stand for their components.  This is
the order of the components themselves, in which the root, `.` and `..` come before all
names and names are compared by their bytes.  It does not tell paths apart that have the
same components.

* `Path.notAfter_iff` — the order of paths, component by component;
* `Path.notAfter_total`, `Path.notAfter_trans` — so paths can be sorted;
* `Path.components_eq_of_not_below` — which paths share a place.
-/

namespace LicenseHeaders

/-- The order of names by their bytes is that of their characters. -/
theorem Name.below_iff {n m : Name} : Name.Below n m ↔ List.Lex (· < ·) n m := by
  refine ⟨fun hbelow => ?_, below_of_lex⟩
  by_contra hnot
  by_cases hless : List.Lex (· < ·) m n
  · exact List.lex_asymm (fun hab => UInt8.lt_asymm hab) hbelow (below_of_lex hless)
  · have heq : n = m := List.le_antisymm hless hnot
    subst heq
    exact List.lex_irrefl (fun b => UInt8.lt_irrefl b) (Name.bytes n) hbelow

/-- Lists compare as the lists of what stands for their members, if that keeps the order
of the members and tells them apart. -/
theorem lex_map_iff {α β : Type} [BEq β] [LawfulBEq β] {r : α → α → Prop} {lt : β → β → Bool}
    {f : α → β} (hf : ∀ a b, lt (f a) (f b) = true ↔ r a b) (hinjective : ∀ a b, f a = f b → a = b)
    {k l : List α} : List.lex (k.map f) (l.map f) lt = true ↔ List.Lex r k l := by
  induction k generalizing l with
  | nil => cases l <;> simp
  | cons a k ih =>
      cases l with
      | nil => simp
      | cons b l =>
          have hsame : f a = f b ↔ a = b := ⟨hinjective a b, congrArg f⟩
          rw [List.map_cons, List.map_cons, List.cons_lex_cons, Bool.or_eq_true, Bool.and_eq_true,
            beq_iff_eq, hf, hsame, ih, List.cons_lex_cons_iff]

namespace Path

/-! ## Components -/

/-- Components of one rank are the same. -/
theorem Component.rank_inj (c d : Component) (hrank : c.rank = d.rank) : c = d := by
  cases c with
  | name n =>
      cases d with
      | name m =>
          have hnames : n.map Char.toNat = m.map Char.toNat := (List.cons.inj hrank).2
          rw [List.map_injective_iff.mpr (fun _ _ => Char.toNat_inj.mp) hnames]
      | root | here | up => cases (List.cons.inj hrank).1
  | root | here | up => cases d <;> first | rfl | cases (List.cons.inj hrank).1

/-- **Components compare as their numbers do.** -/
theorem Component.rank_lex_iff (c d : Component) :
    List.lex c.rank d.rank = true ↔ c.Below d := by
  cases c with
  | name n =>
      cases d with
      | name m =>
          have hnames : List.lex (n.map Char.toNat) (m.map Char.toNat) = true ↔
              List.Lex (· < ·) n m :=
            lex_map_iff (fun _ _ => decide_eq_true_iff) fun _ _ => Char.toNat_inj.mp
          simpa [rank, Component.Below, Name.below_iff] using hnames
      | root | here | up => simp [rank, Component.Below]
  | root | here | up => cases d <;> simp [rank, Component.Below]

/-! ## Paths -/

variable {p q o : Path}

/-- **The order of paths**, component by component. -/
theorem notAfter_iff : p.notAfter q = true ↔ ¬ q.Below p := by
  rw [notAfter, Bool.not_eq_true', ← Bool.not_eq_true]
  exact not_congr (lex_map_iff Component.rank_lex_iff Component.rank_inj)

/-- The same as an order of lists of numbers, which is a linear one. -/
theorem notAfter_iff_not_lt :
    p.notAfter q = true ↔
      ¬ q.components.map Component.rank < p.components.map Component.rank := by
  have hlex : List.lex ((q.components.map Component.rank).map id)
      ((p.components.map Component.rank).map id) (fun a b => List.lex a b) = true ↔
        List.Lex (· < ·) (q.components.map Component.rank) (p.components.map Component.rank) :=
    lex_map_iff (fun _ _ => List.lex_eq_true_iff_lt) fun _ _ => id
  rw [List.map_id, List.map_id] at hlex
  rw [notAfter, Bool.not_eq_true', ← Bool.not_eq_true]
  exact not_congr hlex

/-- Of two paths one is not after the other. -/
theorem notAfter_total (p q : Path) : (p.notAfter q || q.notAfter p) = true := by
  rw [Bool.or_eq_true, notAfter_iff_not_lt, notAfter_iff_not_lt]
  exact (le_total _ _).imp not_lt.mpr not_lt.mpr

/-- The order of paths is transitive. -/
theorem notAfter_trans (p q o : Path) (hpq : p.notAfter q = true) (hqo : q.notAfter o = true) :
    p.notAfter o = true := by
  rw [notAfter_iff_not_lt] at *
  exact not_lt.mpr ((not_lt.mp hpq).trans (not_lt.mp hqo))

/-- Paths of which neither comes first have the same components. -/
theorem components_eq_of_not_below (hpq : ¬ p.Below q) (hqp : ¬ q.Below p) :
    p.components = q.components := by
  rw [← notAfter_iff, notAfter_iff_not_lt, not_lt] at hpq hqp
  exact List.map_injective_iff.mpr Component.rank_inj (le_antisymm hqp hpq)

end Path

end LicenseHeaders
