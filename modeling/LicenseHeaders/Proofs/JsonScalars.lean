import LicenseHeaders.Json.Reader
import LicenseHeaders.Json.Value
import Mathlib.Tactic.SplitIfs

/-!
# Quoted texts and numbers in JSON

A quoted text is read character by character.  Whatever a character is escaped to, its
escape is told from the next character by its backslash and its length, so the text
comes back and reading stops right behind the closing quote.  A number ends where no
character goes on with it, whatever it is read for.

* `string_quoted`, `skipStringFrom_quoted` — a quoted text is read back, or skipped;
* `Numeric.number_eq` — a spelled number is read as one, up to its end;
* `unsigned_natural`, `numeric_integer`, `numeric_decimal` — numbers that are written.
-/

namespace LicenseHeaders.Json

/-! ## Quoted texts -/

/-- Four digits are enough to tell a character below the blank. -/
theorem fourHex_control {n : Nat} (hn : n < 32) (more : Text) :
    fourHex ('0' :: '0' :: hexDigit (n / 16) :: hexDigit (n % 16) :: more) = .ok n := by
  have hall : ∀ n < 32,
      (fourHex ['0', '0', hexDigit (n / 16), hexDigit (n % 16)]).toOption = some n := by
    decide
  change fourHex ['0', '0', hexDigit (n / 16), hexDigit (n % 16)] = .ok n
  cases hfour : fourHex ['0', '0', hexDigit (n / 16), hexDigit (n % 16)] with
  | error fault => simpa [hfour, Except.toOption] using hall n hn
  | ok m => simpa [hfour, Except.toOption] using hall n hn

/-- The escape of a control character is read back. -/
theorem unicodeEscape_control {c : Char} (hc : c.toNat < 32) (more : Text) :
    unicodeEscape ('0' :: '0' :: hexDigit (c.toNat / 16) :: hexDigit (c.toNat % 16) :: more) =
      .ok (c, 4) := by
  have hlow : isTrailing c.toNat = false ∧ isLeading c.toNat = false := by
    simp only [isTrailing, isLeading, Bool.and_eq_false_iff, decide_eq_false_iff_not]
    omega
  rw [unicodeEscape, fourHex_control hc]
  simp [bind, Except.bind, hlow.1, hlow.2]

/-- **A character stands for itself, or its escape can be told from what follows**, be
it read or skipped. -/
theorem escape_cases (c : Char) :
    (escape c = [c] ∧ c ≠ '"' ∧ c ≠ '\\' ∧ ¬ c.toNat < 0x20) ∨
      ∃ letters, escape c = '\\' :: letters ∧ ∀ more,
        escaped (letters ++ more) = .ok (c, letters.length) ∧
        escapeLength (letters ++ more) = .ok letters.length := by
  unfold escape
  split_ifs with hquote hslash hb hf hn hr ht hcontrol
  · exact .inr ⟨['"'], rfl, fun _ => ⟨by rw [hquote]; rfl, rfl⟩⟩
  · exact .inr ⟨['\\'], rfl, fun _ => ⟨by rw [hslash]; rfl, rfl⟩⟩
  · exact .inr ⟨['b'], rfl, fun _ => ⟨by rw [hb]; rfl, rfl⟩⟩
  · exact .inr ⟨['f'], rfl, fun _ => ⟨by rw [hf]; rfl, rfl⟩⟩
  · exact .inr ⟨['n'], rfl, fun _ => ⟨by rw [hn]; rfl, rfl⟩⟩
  · exact .inr ⟨['r'], rfl, fun _ => ⟨by rw [hr]; rfl, rfl⟩⟩
  · exact .inr ⟨['t'], rfl, fun _ => ⟨by rw [ht]; rfl, rfl⟩⟩
  · refine .inr ⟨['u', '0', '0', hexDigit (c.toNat / 16), hexDigit (c.toNat % 16)], rfl,
      fun more => ⟨?_, ?_⟩⟩
    · exact congrArg (Except.map _) (unicodeEscape_control hcontrol more)
    · exact congrArg (Except.map _) (fourHex_control hcontrol more)
  · exact .inl ⟨rfl, hquote, hslash, hcontrol⟩

/-- The letters of an escape are passed over. -/
theorem stringFrom_length (letters more : Text) :
    stringFrom letters.length (letters ++ more) = stringFrom 0 more := by
  induction letters with
  | nil => rfl
  | cons c letters ih => exact ih

theorem skipStringFrom_length (letters more : Text) :
    skipStringFrom letters.length (letters ++ more) = skipStringFrom 0 more := by
  induction letters with
  | nil => rfl
  | cons c letters ih => exact ih

/-- A character that has been escaped is read, and then what follows. -/
theorem stringFrom_escape (c : Char) {more t rest : Text}
    (hmore : stringFrom 0 more = .ok (t, rest)) :
    stringFrom 0 (escape c ++ more) = .ok (c :: t, rest) := by
  obtain ⟨hplain, hquote, hslash, hcontrol⟩ | ⟨letters, hescape, hread⟩ := escape_cases c
  · rw [hplain, List.singleton_append, stringFrom, if_neg hquote, if_neg hslash, if_neg hcontrol,
      hmore]
    rfl
  · rw [hescape, List.cons_append, stringFrom, if_neg (by decide), if_pos rfl, (hread more).1]
    simp only [bind, Except.bind]
    rw [stringFrom_length, hmore]
    rfl

/-- A character that has been escaped is skipped as one. -/
theorem skipStringFrom_escape (c : Char) (more : Text) :
    skipStringFrom 0 (escape c ++ more) = skipStringFrom 0 more := by
  obtain ⟨hplain, hquote, hslash, hcontrol⟩ | ⟨letters, hescape, hread⟩ := escape_cases c
  · rw [hplain, List.singleton_append, skipStringFrom, if_neg hquote, if_neg hslash,
      if_neg hcontrol]
  · rw [hescape, List.cons_append, skipStringFrom, if_neg (by decide), if_pos rfl, (hread more).2]
    exact skipStringFrom_length letters more

theorem quote_append (t more : Text) :
    quote t ++ more = '"' :: (t.flatMap escape ++ '"' :: more) := by
  simp [quote]

/-- **A quoted text is read back**, and reading stops behind its closing quote. -/
theorem string_quoted (t rest : Text) :
    string (t.flatMap escape ++ '"' :: rest) = .ok (t, rest) := by
  rw [string]
  induction t with
  | nil => rfl
  | cons c t ih =>
      rw [List.flatMap_cons, List.append_assoc]
      exact stringFrom_escape c ih

/-- A quoted text is skipped up to behind its closing quote. -/
theorem skipStringFrom_quoted (t rest : Text) :
    skipStringFrom 0 (t.flatMap escape ++ '"' :: rest) = .ok rest := by
  induction t with
  | nil => rfl
  | cons c t ih =>
      rw [List.flatMap_cons, List.append_assoc, skipStringFrom_escape, ih]

/-! ## Numbers -/

/-- Digits, at least one. -/
structure Digits (ds : Text) : Prop where
  ne_nil : ds ≠ []
  digit : ∀ c ∈ ds, c.isDigit = true

/-- The places behind a point, if any. -/
inductive Places : Text → Prop where
  | none : Places []
  | point {ds : Text} (hds : Digits ds) : Places ('.' :: ds)

/-- An exponent with its sign, if any. -/
inductive Power : Text → Prop where
  | none : Power []
  | negative {ds : Text} (hds : Digits ds) : Power ('e' :: '-' :: ds)
  | positive {ds : Text} (hds : Digits ds) : Power ('e' :: '+' :: ds)

/-- A text that spells a number that is not negative.  It has no zero in front of other
digits. -/
inductive Unsigned : Text → Prop where
  | mk {whole places power : Text} (hwhole : Digits whole)
    (hzero : whole.length > 1 → whole.head? ≠ some '0') (hplaces : Places places)
    (hpower : Power power) : Unsigned (whole ++ (places ++ power))

/-- A text that spells a number. -/
inductive Numeric : Text → Prop where
  | unsigned {t : Text} (ht : Unsigned t) : Numeric t
  | negative {t : Text} (ht : Unsigned t) : Numeric ('-' :: t)

/-- What can stand behind a number without going on with it. -/
def EndsNumber (rest : Text) : Prop :=
  ∀ c ∈ rest.head?, c.isDigit = false ∧ c ≠ '.' ∧ c ≠ 'e' ∧ c ≠ 'E'

section

variable (missing : Text → Fault) {t rest : Text}

/-- Digits are read up to the first character that is none. -/
theorem Digits.digits_eq (hds : Digits t) (hrest : ∀ c ∈ rest.head?, c.isDigit = false) :
    digits missing (t ++ rest) = .ok (t, rest) := by
  have htaken : (t ++ rest).takeWhile Char.isDigit = t := by
    rw [List.takeWhile_append_of_pos hds.digit]
    cases rest with
    | nil => simp
    | cons c rest => simp [hrest c rfl]
  rw [digits, htaken, if_neg (by simpa using hds.ne_nil), List.drop_left]

theorem Digits.exists_cons (hds : Digits t) : ∃ c more, t = c :: more ∧ c.isDigit = true := by
  obtain ⟨hne, hdigit⟩ := hds
  cases t with
  | nil => exact absurd rfl hne
  | cons c more => exact ⟨c, more, rfl, hdigit c List.mem_cons_self⟩

/-- No digit goes on behind the part of a number before its places or its power. -/
theorem Power.head?_append (hpower : Power t) (hrest : EndsNumber rest) :
    ∀ c ∈ (t ++ rest).head?, c.isDigit = false ∧ c ≠ '.' := by
  cases hpower with
  | none => exact fun c hc => ⟨(hrest c hc).1, (hrest c hc).2.1⟩
  | negative | positive => simp

/-- What begins with decimal places does not begin with a digit. -/
theorem Places.head?_append {more : Text} (hplaces : Places t)
    (hmore : ∀ c ∈ more.head?, c.isDigit = false ∧ c ≠ '.') :
    ∀ c ∈ (t ++ more).head?, c.isDigit = false := by
  cases hplaces with
  | none => exact fun c hc => (hmore c hc).1
  | point => simp

/-- Decimal places are read up to their end. -/
theorem Places.places_eq (hplaces : Places t)
    (hrest : ∀ c ∈ rest.head?, c.isDigit = false ∧ c ≠ '.') :
    ∃ ds, places missing (t ++ rest) = .ok (ds, rest) := by
  cases hplaces with
  | point hds => exact ⟨_, hds.digits_eq missing fun c hc => (hrest c hc).1⟩
  | none =>
      refine ⟨[], ?_⟩
      rw [List.nil_append]
      unfold places
      split
      · exact absurd rfl (hrest '.' rfl).2
      · rfl

/-- An exponent is read up to its end. -/
theorem Power.exponent_eq (hpower : Power t) (hrest : EndsNumber rest) :
    ∃ n, exponent missing (t ++ rest) = .ok (n, rest) := by
  have hend : ∀ c ∈ rest.head?, c.isDigit = false := fun c hc => (hrest c hc).1
  cases hpower with
  | none =>
      refine ⟨0, ?_⟩
      cases rest with
      | nil => rfl
      | cons c rest =>
          obtain ⟨_, _, hsmall, hlarge⟩ := hrest c rfl
          rw [List.nil_append, exponent, if_neg (not_or.mpr ⟨hsmall, hlarge⟩)]
  | negative hds =>
      rw [List.cons_append, exponent, if_pos (.inl rfl), List.cons_append, exponentSign]
      simp only [hds.digits_eq missing hend, bind, Except.bind]
      exact ⟨_, rfl⟩
  | positive hds =>
      rw [List.cons_append, exponent, if_pos (.inl rfl), List.cons_append, exponentSign]
      simp only [hds.digits_eq missing hend, bind, Except.bind]
      exact ⟨_, rfl⟩

theorem Unsigned.exists_cons (ht : Unsigned t) : ∃ c more, t = c :: more ∧ c.isDigit = true := by
  obtain ⟨hwhole, _, _, _⟩ := ht
  obtain ⟨c, more, rfl, hc⟩ := hwhole.exists_cons
  exact ⟨c, _, rfl, hc⟩

/-- A number that is not negative is read up to its end. -/
theorem Unsigned.magnitude_eq (ht : Unsigned t) (hrest : EndsNumber rest) :
    ∃ n, magnitude missing (t ++ rest) = .ok (n, rest) := by
  obtain ⟨hwhole, hzero, hplaces, hpower⟩ := ht
  have hmore := hpower.head?_append hrest
  obtain ⟨ds, hds⟩ := hplaces.places_eq missing hmore
  obtain ⟨n, hn⟩ := hpower.exponent_eq missing hrest
  rw [List.append_assoc, List.append_assoc, magnitude,
    hwhole.digits_eq missing (hplaces.head?_append hmore)]
  simp only [bind, Except.bind]
  rw [if_neg fun h => hzero h.1 h.2, hds]
  dsimp only
  rw [hn]
  exact ⟨_, rfl⟩

/-- A number begins with a digit or a minus sign. -/
theorem Numeric.exists_cons (ht : Numeric t) :
    ∃ c more, t = c :: more ∧ (c = '-' ∨ c.isDigit = true) := by
  cases ht with
  | unsigned ht =>
      obtain ⟨c, more, rfl, hc⟩ := ht.exists_cons
      exact ⟨c, more, rfl, .inr hc⟩
  | negative => exact ⟨'-', _, rfl, .inl rfl⟩

/-- **A spelled number is read as one**, up to its end. -/
theorem Numeric.number_eq (ht : Numeric t) (hrest : EndsNumber rest) :
    ∃ n, number missing (t ++ rest) = .ok (n, rest) := by
  cases ht with
  | negative ht => exact ht.magnitude_eq missing hrest
  | unsigned ht =>
      obtain ⟨n, hn⟩ := ht.magnitude_eq missing hrest
      refine ⟨n, ?_⟩
      unfold number
      split
      · next heq =>
        obtain ⟨c, more, rfl, hc⟩ := ht.exists_cons
        cases heq
        cases hc
      · exact hn

end

/-! ## Numbers that are written -/

theorem digits_toDigits (n : Nat) : Digits (Nat.toDigits 10 n) :=
  ⟨Nat.toDigits_ne_nil, fun _ hc => Nat.isDigit_of_mem_toDigits (by decide) (by decide) hc⟩

/-- A number above zero has no zero in front. -/
theorem head?_toDigits {n : Nat} (hn : n ≠ 0) : (Nat.toDigits 10 n).head? ≠ some '0' := by
  induction n using Nat.strongRecOn with
  | ind n ih =>
      rw [Nat.toDigits_eq_if (by decide)]
      split
      · next hsmall =>
        have hall : ∀ n < 10, n ≠ 0 → [Nat.digitChar n].head? ≠ some '0' := by decide
        exact hall n hsmall hn
      · next hlarge =>
        have htens : n / 10 ≠ 0 := by omega
        have hfirst := ih (n / 10) (by omega) htens
        obtain ⟨c, more, heq, _⟩ := (digits_toDigits (n / 10)).exists_cons
        rw [heq] at hfirst ⊢
        exact hfirst

/-- A natural number is spelled without a leading zero. -/
theorem unsigned_natural (n : Nat) : Unsigned (Nat.toDigits 10 n) := by
  have hzero : (Nat.toDigits 10 n).length > 1 → (Nat.toDigits 10 n).head? ≠ some '0' := by
    intro hlength
    refine head?_toDigits ?_
    rintro rfl
    simp at hlength
  simpa using Unsigned.mk (digits_toDigits n) hzero .none .none

/-- **An integer is written as a number.** -/
theorem numeric_integer (n : Int) :
    Numeric (if n < 0 then '-' :: Nat.toDigits 10 n.natAbs else Nat.toDigits 10 n.natAbs) := by
  split
  · exact .negative (unsigned_natural _)
  · exact .unsigned (unsigned_natural _)

/-- Digits with more digits behind them. -/
theorem Digits.append {s t : Text} (hs : Digits s) (ht : ∀ c ∈ t, c.isDigit = true) :
    Digits (s ++ t) :=
  ⟨by simp [hs.ne_nil], List.forall_mem_append.mpr ⟨hs.digit, ht⟩⟩

theorem digits_zero : Digits ['0'] :=
  ⟨List.cons_ne_nil _ _, List.forall_mem_singleton.mpr rfl⟩

theorem digits_zeros {n : Nat} : ∀ c ∈ List.replicate n '0', c.isDigit = true := by
  intro c hc
  rw [List.eq_of_mem_replicate hc]
  rfl

/-- Digits before a point and behind it. -/
theorem Unsigned.plain {whole ds : Text} (hwhole : Digits whole)
    (hzero : whole.length > 1 → whole.head? ≠ some '0') (hds : Digits ds) :
    Unsigned (whole ++ '.' :: ds) := by
  simpa using Unsigned.mk hwhole hzero (.point hds) .none

/-- A point is put among digits, with some of them on either side. -/
theorem Digits.pointed {ds : Text} (hds : Digits ds) {whole : Nat} (hpos : 0 < whole)
    (hwhole : whole < ds.length) : Digits (ds.take whole) ∧ Digits (ds.drop whole) := by
  refine ⟨⟨?_, fun c hc => hds.digit c (List.mem_of_mem_take hc)⟩,
    ⟨?_, fun c hc => hds.digit c (List.mem_of_mem_drop hc)⟩⟩
  · rw [ne_eq, List.take_eq_nil_iff]
    exact not_or.mpr ⟨Nat.ne_of_gt hpos, hds.ne_nil⟩
  · simpa using hwhole

/-- **A decimal is written as a number**, plainly or with an exponent. -/
theorem numeric_decimal (d : Decimal) : Numeric d.toText := by
  refine .unsigned ?_
  unfold Decimal.toText
  dsimp only
  have hds : Digits (Decimal.digitsOf d.digits) := digits_toDigits _
  have hzero : d.digits ≠ 0 → (Decimal.digitsOf d.digits).head? ≠ some '0' := head?_toDigits
  generalize Decimal.digitsOf d.digits = ds at hds hzero ⊢
  have hlength : 0 < ds.length := List.length_pos_iff.mpr hds.ne_nil
  split
  · exact .plain digits_zero (by decide) digits_zero
  · next hnonzero =>
    have hfirst := hzero hnonzero
    split
    · -- With an exponent, at most one digit stands before a point.
      have hpower : ∀ (negative : Prop) [Decidable negative] (n : Nat),
          Power ('e' :: (if negative then '-' else '+') :: Decimal.digitsOf n) := by
        intro negative _ n
        split
        · exact .negative (digits_toDigits n)
        · exact .positive (digits_toDigits n)
      split
      · next hone =>
        exact .mk hds (fun hmore => absurd hone (Nat.ne_of_gt hmore)) .none (hpower _ _)
      · next hmore =>
        obtain ⟨hwhole, hplaces⟩ := hds.pointed Nat.zero_lt_one (by omega)
        have hone : ¬ (ds.take 1).length > 1 := by
          rw [List.length_take]
          omega
        rw [Decimal.pointed, List.append_assoc]
        exact .mk hwhole (fun hmore => absurd hmore hone) (.point hplaces) (hpower _ _)
    · split
      · refine .plain digits_zero (by decide) ⟨by simp [hds.ne_nil], ?_⟩
        exact List.forall_mem_append.mpr ⟨digits_zeros, hds.digit⟩
      · split
        · refine .plain (hds.append digits_zeros) (fun _ => ?_) digits_zero
          obtain ⟨c, more, rfl, _⟩ := hds.exists_cons
          exact hfirst
        · have hinside : (d.power + ds.length - 1).toNat + 1 < ds.length := by omega
          obtain ⟨hwhole, hplaces⟩ := hds.pointed (Nat.succ_pos _) hinside
          refine .plain hwhole (fun _ => ?_) hplaces
          rw [List.head?_take, if_neg (by omega)]
          exact hfirst

end LicenseHeaders.Json
