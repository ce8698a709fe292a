import LicenseHeaders.Proofs.Directories
import Mathlib.Data.List.Lex

/-!
# Names in the order of their bytes

A disk stores a name as bytes, and a listing is in the order of these bytes.
The table of entries has names as characters and sorts them as such.  This is
the same order, because the encoding of a character is never the beginning of
another one's and grows with it.

* `below_of_lex` — the encoding keeps the order;
* `pairwise_children` — a listing is in the order of the bytes of its names;
* `Path.below_of_names` — so are the paths of what is below a directory, component by
  component.
-/

namespace LicenseHeaders

/-- The bytes of a name. -/
def Name.bytes (n : Name) : List UInt8 := n.flatMap String.utf8EncodeChar

/-- **The order of names** is that of their bytes. -/
def Name.Below (n m : Name) : Prop := List.Lex (· < ·) (Name.bytes n) (Name.bytes m)

/-! ## Characters -/

/-- Bytes compare by the numbers they are made from. -/
theorem lex_ofNat_cons_iff {m n : Nat} {s t : List UInt8} :
    List.Lex (· < ·) (UInt8.ofNat m :: s) (UInt8.ofNat n :: t) ↔
      m % 256 < n % 256 ∨ m % 256 = n % 256 ∧ List.Lex (· < ·) s t := by
  rw [List.cons_lex_cons_iff, UInt8.lt_iff_toNat_lt, ← UInt8.toNat_inj, UInt8.toNat_ofNat',
    UInt8.toNat_ofNat']

/-- Numbers compare by their digits, here by the last one to the base 64. -/
theorem lt_iff_digits {u v : Nat} :
    u < v ↔ u / 64 < v / 64 ∨ u / 64 = v / 64 ∧ u % 64 < v % 64 := by
  omega

/-- **The encoding of a smaller character is smaller**, whatever follows. -/
theorem lex_utf8EncodeChar_append {c d : Char} (hcd : c < d) (s t : List UInt8) :
    List.Lex (· < ·) (String.utf8EncodeChar c ++ s) (String.utf8EncodeChar d ++ t) := by
  have hval : c.val.toNat < d.val.toNat := UInt32.lt_iff_toNat_lt.mp (Char.lt_def.mp hcd)
  have hlimit : d.val.toNat < 1114112 := by
    rcases d.valid with hsmall | ⟨_, hlarge⟩
    · exact Nat.lt_trans hsmall (by decide)
    · exact hlarge
  have hdigits : ∀ v, v / 4096 = v / 64 / 64 ∧ v / 262144 = v / 64 / 64 / 64 := fun v => by
    rw [Nat.div_div_eq_div_mul, Nat.div_div_eq_div_mul]
    exact ⟨rfl, rfl⟩
  unfold String.utf8EncodeChar
  dsimp only
  generalize c.val.toNat = u at *
  generalize d.val.toNat = v at *
  rw [(hdigits u).1, (hdigits u).2, (hdigits v).1, (hdigits v).2]
  -- The first digit in which they differ decides.
  have hlast := lt_iff_digits.mp hval
  have hthird : u / 64 < v / 64 → _ := lt_iff_digits.mp
  have hsecond : u / 64 / 64 < v / 64 / 64 → _ := lt_iff_digits.mp
  split_ifs
  all_goals
    simp only [List.cons_append, List.nil_append, lex_ofNat_cons_iff]
    omega

/-! ## Names -/

/-- **The encoding keeps the order of names.** -/
theorem below_of_lex {n m : Name} (hlex : List.Lex (· < ·) n m) : Name.Below n m := by
  unfold Name.Below
  induction hlex with
  | @nil d rest =>
      rw [Name.bytes, Name.bytes, List.flatMap_nil, List.flatMap_cons]
      cases hbytes : String.utf8EncodeChar d with
      | nil => exact absurd hbytes String.utf8EncodeChar_ne_nil
      | cons first others => exact .nil
  | rel hcd => exact lex_utf8EncodeChar_append hcd _ _
  | cons _ ih =>
      rw [Name.bytes, Name.bytes, List.flatMap_cons, List.flatMap_cons]
      exact List.Lex.append_left _ ih _

/-- A name is not after another when that one does not come first, letter by letter.
-/
theorem notAfter_iff {n m : Name} : Text.notAfter n m = true ↔ ¬ List.Lex (· < ·) m n := by
  rw [Text.notAfter, Bool.not_eq_true', ← Bool.not_eq_true, List.lex_eq_true_iff_lt]
  exact Iff.rfl

/-- **A listing is in the order of the bytes of its names.** -/
theorem FileSystem.pairwise_children (fs : FileSystem) (l : Location) :
    (fs.children l).Pairwise fun a b => Name.Below a.1 b.1 := by
  have hsorted : (fs.children l).Pairwise fun a b => Text.notAfter a.1 b.1 = true := by
    refine List.pairwise_mergeSort (fun a b c hab hbc => ?_) (fun a b => ?_) _
    · rw [notAfter_iff] at *
      exact List.le_trans hab hbc
    · rw [Bool.or_eq_true, notAfter_iff, notAfter_iff]
      exact List.le_total a.1 b.1
  have hdistinct := List.pairwise_map.mp (nodup_children fs l)
  refine hsorted.imp₂ (fun a b hnot hne => below_of_lex ?_) hdistinct
  by_contra hlex
  exact hne (List.le_antisymm (notAfter_iff.mp hnot) hlex)

/-! ## Paths -/

namespace Path

/-- The order of components: the root, then `.`, then `..`, and then names by their
bytes. -/
def Component.Below : Component → Component → Prop
  | .name n, .name m => Name.Below n m
  | .name _, _ => False
  | _, .name _ => True
  | .root, d => d ≠ .root
  | .here, d => d = .up
  | .up, _ => False

/-- **The order of paths**, component by component. -/
def Below (p q : Path) : Prop := List.Lex Component.Below p.components q.components

/-- No component comes below itself. -/
theorem Component.not_below_self (c : Component) : ¬ c.Below c := by
  cases c with
  | root => exact fun hbelow => hbelow rfl
  | here => exact Component.noConfusion
  | up => exact id
  | name n => exact List.lex_irrefl (fun b => UInt8.lt_irrefl b) (Name.bytes n)

/-- A path does not come before itself. -/
theorem Below.ne {p q : Path} (hbelow : p.Below q) : p ≠ q := by
  rintro rfl
  exact List.lex_irrefl Component.not_below_self p.components hbelow

/-- The components of what is below a directory. -/
theorem components_foldl_join {names : List Name} (hnames : ∀ n ∈ names, ProperName n) {p : Path}
    (hp : p.text ≠ []) :
    (names.foldl Path.join p).components = p.components ++ names.map .name := by
  induction names generalizing p with
  | nil => simp
  | cons n rest ih =>
      obtain ⟨hn, hrest⟩ := List.forall_mem_cons.mp hnames
      have hjoined : (p.join n).text ≠ [] := by
        obtain ⟨t, ht⟩ := text_join hp hn
        simp [ht]
      rw [List.foldl_cons, ih hrest hjoined, components_join hp hn, List.append_assoc]
      rfl

/-- **Below a directory** paths are in the order of the names that lead down. -/
theorem below_of_names {names others : List Name} (hnames : ∀ n ∈ names, ProperName n)
    (hothers : ∀ n ∈ others, ProperName n) {p : Path} (hp : p.text ≠ [])
    (hlex : List.Lex Name.Below names others) :
    (names.foldl Path.join p).Below (others.foldl Path.join p) := by
  unfold Below
  rw [components_foldl_join hnames hp, components_foldl_join hothers hp]
  apply List.Lex.append_left
  clear hnames hothers
  induction hlex with
  | nil => exact .nil
  | rel hbelow => exact .rel hbelow
  | cons _ ih => exact .cons ih

end Path

end LicenseHeaders
