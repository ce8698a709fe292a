import LicenseHeaders.Proofs.JsonScalars
import Mathlib.Data.List.Forall2

/-!
# Values laid out

A value can be laid out in many ways, with blanks before its items, keys and values and
before its closing brackets; compact and over several lines are two of them.  However a
value is laid out, a reader that does not ask for it gets past it and stops right
behind it, so the texts of its parts can be cut out one after the other.

* `Lays` — a text lays a value out;
* `Written` — both layouts do (`Written.list`, `Written.object`);
* `skipValue_laid` — a value is skipped, whatever its layout;
* `rawList_laid`, `rawMember_laid` — the texts of its parts are cut out of its text.
-/

namespace LicenseHeaders.Json

variable {t u gap rest : Text}

/-! ## Blanks -/

/-- A text of blanks. -/
def Blank (t : Text) : Prop := ∀ c ∈ t, isSpace c = true

theorem blank_nil : Blank [] := List.forall_mem_nil _

/-- Blanks are skipped. -/
theorem dropSpace_blank (hgap : Blank gap) (t : Text) : dropSpace (gap ++ t) = dropSpace t :=
  List.dropWhile_append_of_pos hgap

theorem dropSpace_cons {c : Char} (hc : isSpace c = false) (t : Text) :
    dropSpace (c :: t) = c :: t := by
  rw [dropSpace, List.dropWhile_cons_of_neg (by simp [hc])]

theorem length_dropSpace_le (t : Text) : (dropSpace t).length ≤ t.length :=
  (List.dropWhile_sublist isSpace).length_le

/-- There are four kinds of blanks. -/
theorem isSpace_cases {c : Char} (hc : isSpace c = true) :
    c = ' ' ∨ c = '\n' ∨ c = '\t' ∨ c = '\r' := by
  simpa [isSpace, or_assoc] using hc

/-- A number ends before blanks, commas and closing brackets. -/
theorem endsNumber_blank (hgap : Blank gap) {c : Char} (hc : c ∈ [',', ']', '\x7d'])
    (rest : Text) : EndsNumber (gap ++ c :: rest) := by
  intro d hd
  cases gap with
  | nil =>
      obtain rfl : c = d := by simpa using hd
      simp only [List.mem_cons, List.not_mem_nil, or_false] at hc
      rcases hc with rfl | rfl | rfl <;> decide
  | cons b gap =>
      obtain rfl : b = d := by simpa using hd
      rcases isSpace_cases (hgap b List.mem_cons_self) with rfl | rfl | rfl | rfl <;> decide

/-! ## Layouts -/

mutual

/-- A text lays a value out.  Blanks can stand before items, keys, values of fields and
closing brackets. -/
inductive Lays : Value → Text → Prop where
  | text (t : Text) : Lays (.text t) (quote t)
  | number {digits : Text} (hdigits : Numeric digits) : Lays (.number digits) digits
  | truth (b : Bool) : Lays (.truth b) (truthText b)
  | emptyList : Lays (.list []) ['[', ']']
  | list {items : List Value} {t gap : Text} (hitems : LaysItems items t) (hgap : Blank gap) :
      Lays (.list items) ('[' :: (t ++ (gap ++ [']'])))
  | emptyObject : Lays (.object []) ['\x7b', '\x7d']
  | object {fields : List (Text × Value)} {t gap : Text} (hfields : LaysFields fields t)
      (hgap : Blank gap) : Lays (.object fields) ('\x7b' :: (t ++ (gap ++ ['\x7d'])))

/-- A text lays out the items of a list, of which there is one at least. -/
inductive LaysItems : List Value → Text → Prop where
  | last {v : Value} {t gap : Text} (hgap : Blank gap) (hv : Lays v t) : LaysItems [v] (gap ++ t)
  | cons {v : Value} {items : List Value} {t more gap : Text} (hgap : Blank gap) (hv : Lays v t)
      (hitems : LaysItems items more) : LaysItems (v :: items) (gap ++ (t ++ ',' :: more))

/-- A text lays out the fields of an object, of which there is one at least. -/
inductive LaysFields : List (Text × Value) → Text → Prop where
  | last {key : Text} {v : Value} {t gap blank : Text} (hgap : Blank gap) (hblank : Blank blank)
      (hv : Lays v t) : LaysFields [(key, v)] (gap ++ (quote key ++ ':' :: (blank ++ t)))
  | cons {key : Text} {v : Value} {fields : List (Text × Value)} {t more gap blank : Text}
      (hgap : Blank gap) (hblank : Blank blank) (hv : Lays v t) (hfields : LaysFields fields more) :
      LaysFields ((key, v) :: fields) (gap ++ (quote key ++ ':' :: (blank ++ (t ++ ',' :: more))))

end

/-- A value is written well when both layouts lay it out. -/
structure Written (v : Value) : Prop where
  compact : Lays v (compact v)
  pretty : ∀ level, Lays v (pretty level v)

/-- A new line and its indentation are blank. -/
theorem blank_newLine (level : Nat) : Blank (newLine level) := by
  intro c hc
  rcases List.mem_cons.mp hc with rfl | hblank
  · rfl
  · rw [List.eq_of_mem_replicate hblank]
    rfl

theorem blank_space : Blank [' '] := by
  simp [Blank, isSpace]

theorem written_text (t : Text) : Written (.text t) := ⟨.text t, fun _ => .text t⟩

theorem written_number {digits : Text} (hdigits : Numeric digits) : Written (.number digits) :=
  ⟨.number hdigits, fun _ => .number hdigits⟩

theorem written_truth (b : Bool) : Written (.truth b) := ⟨.truth b, fun _ => .truth b⟩

/-- The items of a list are laid out by both layouts when each item is. -/
theorem laysItems_of_written {items : List Value} (hne : items ≠ [])
    (hitems : ∀ v ∈ items, Written v) :
    LaysItems items (compactItems items) ∧ ∀ level, LaysItems items (prettyItems level items) := by
  induction items with
  | nil => exact absurd rfl hne
  | cons v items ih =>
      obtain ⟨hv, hothers⟩ := List.forall_mem_cons.mp hitems
      cases items with
      | nil =>
          exact ⟨.last blank_nil hv.compact,
            fun level => .last (blank_newLine _) (hv.pretty level)⟩
      | cons other items =>
          obtain ⟨hcompact, hpretty⟩ := ih (List.cons_ne_nil _ _) hothers
          refine ⟨.cons blank_nil hv.compact hcompact, fun level => ?_⟩
          have hlaid := LaysItems.cons (blank_newLine level) (hv.pretty level) (hpretty level)
          simpa [prettyItems] using hlaid

/-- The fields of an object are laid out by both layouts when each value is. -/
theorem laysFields_of_written {fields : List (Text × Value)} (hne : fields ≠ [])
    (hfields : ∀ field ∈ fields, Written field.2) :
    LaysFields fields (compactFields fields) ∧
      ∀ level, LaysFields fields (prettyFields level fields) := by
  induction fields with
  | nil => exact absurd rfl hne
  | cons field fields ih =>
      obtain ⟨hv, hothers⟩ := List.forall_mem_cons.mp hfields
      obtain ⟨key, v⟩ := field
      cases fields with
      | nil =>
          refine ⟨.last blank_nil blank_nil hv.compact, fun level => ?_⟩
          have hlaid : LaysFields [(key, v)] _ :=
            .last (blank_newLine level) blank_space (hv.pretty level)
          simpa [prettyFields] using hlaid
      | cons other fields =>
          obtain ⟨hcompact, hpretty⟩ := ih (List.cons_ne_nil _ _) hothers
          refine ⟨?_, fun level => ?_⟩
          · have hlaid : LaysFields ((key, v) :: other :: fields) _ :=
              .cons blank_nil blank_nil hv.compact hcompact
            simpa [compactFields] using hlaid
          · have hlaid : LaysFields ((key, v) :: other :: fields) _ :=
              .cons (blank_newLine level) blank_space (hv.pretty level) (hpretty level)
            simpa [prettyFields] using hlaid

/-- **A list is written well** when its items are. -/
theorem Written.list {items : List Value} (hitems : ∀ v ∈ items, Written v) :
    Written (.list items) := by
  cases items with
  | nil => exact ⟨.emptyList, fun _ => .emptyList⟩
  | cons v items =>
      obtain ⟨hcompact, hpretty⟩ := laysItems_of_written (List.cons_ne_nil _ _) hitems
      refine ⟨.list hcompact blank_nil, fun level => ?_⟩
      have hlaid := Lays.list (hpretty (level + 1)) (blank_newLine level)
      simpa [Json.pretty] using hlaid

/-- **An object is written well** when the values of its fields are. -/
theorem Written.object {fields : List (Text × Value)}
    (hfields : ∀ field ∈ fields, Written field.2) :
    Written (.object fields) := by
  cases fields with
  | nil => exact ⟨.emptyObject, fun _ => .emptyObject⟩
  | cons field fields =>
      obtain ⟨hcompact, hpretty⟩ := laysFields_of_written (List.cons_ne_nil _ _) hfields
      refine ⟨.object hcompact blank_nil, fun level => ?_⟩
      have hlaid := Lays.object (hpretty (level + 1)) (blank_newLine level)
      simpa [Json.pretty] using hlaid

/-! ## Skipping -/

/-- A value begins with a character that is no blank and closes nothing. -/
theorem Lays.exists_cons {v : Value} (hv : Lays v t) :
    ∃ c more, t = c :: more ∧ isSpace c = false ∧ c ≠ ']' := by
  cases hv with
  | text t => exact ⟨'"', _, rfl, by decide⟩
  | number hdigits =>
      obtain ⟨c, more, rfl, hc⟩ := hdigits.exists_cons
      refine ⟨c, more, rfl, ?_, ?_⟩
      · cases hspace : isSpace c with
        | false => rfl
        | true =>
            rcases isSpace_cases hspace with rfl | rfl | rfl | rfl <;> simp at hc
      · rintro rfl
        simp at hc
  | truth b => cases b <;> exact ⟨_, _, rfl, by decide⟩
  | emptyList | list => exact ⟨'[', _, rfl, by decide⟩
  | emptyObject | object => exact ⟨'\x7b', _, rfl, by decide⟩

/-- A value begins behind the blanks in front of it. -/
theorem Lays.dropSpace_eq {v : Value} (hv : Lays v t) (hgap : Blank gap) (rest : Text) :
    dropSpace (gap ++ (t ++ rest)) = t ++ rest := by
  obtain ⟨c, more, rfl, hc, _⟩ := hv.exists_cons
  rw [dropSpace_blank hgap, List.cons_append, dropSpace_cons hc]

/-- The items of a list begin with a value. -/
theorem LaysItems.exists_cons {items : List Value} (hitems : LaysItems items t) (rest : Text) :
    ∃ c more, dropSpace (t ++ rest) = c :: more ∧ c ≠ ']' ∧ dropSpace (c :: more) = c :: more := by
  cases hitems with
  | last hgap hv | cons hgap hv =>
      simp only [List.append_assoc, hv.dropSpace_eq hgap]
      obtain ⟨c, more, rfl, hc, hclose⟩ := hv.exists_cons
      exact ⟨c, _, rfl, hclose, dropSpace_cons hc _⟩

/-- A field begins with its key in quotes. -/
theorem dropSpace_field (hgap : Blank gap) (key t rest : Text) :
    dropSpace (gap ++ (quote key ++ ':' :: t) ++ rest) =
      '"' :: (key.flatMap escape ++ '"' :: ':' :: (t ++ rest)) := by
  rw [List.append_assoc, dropSpace_blank hgap, List.append_assoc, quote_append, List.cons_append,
    dropSpace_cons rfl]

/-- The fields of an object begin with a quote. -/
theorem LaysFields.exists_cons {fields : List (Text × Value)} (hfields : LaysFields fields t)
    (rest : Text) : ∃ more, dropSpace (t ++ rest) = '"' :: more := by
  cases hfields with
  | last hgap | cons hgap => exact ⟨_, dropSpace_field hgap _ _ _⟩

/-- Behind an item or a field the bracket closes, or a comma and the others follow.
`Laid` is how these are laid out. -/
inductive Behind {α : Type} (Laid : List α → Text → Prop) (close : Char) (gap rest : Text) :
    List α → Text → Prop where
  | closed {left : Text} (hleft : dropSpace left = close :: rest) :
      Behind Laid close gap rest [] left
  | comma {others : List α} {t left : Text} (hothers : Laid others t)
      (hleft : dropSpace left = ',' :: (t ++ (gap ++ close :: rest))) :
      Behind Laid close gap rest others left

/-- **The first item of a list**, and what is behind it. -/
theorem LaysItems.head {v : Value} {items : List Value} (hitems : LaysItems (v :: items) t)
    (hgap : Blank gap) (rest : Text) :
    ∃ raw left, Lays v raw ∧ dropSpace (t ++ (gap ++ ']' :: rest)) = raw ++ left ∧
      EndsNumber left ∧ Behind LaysItems ']' gap rest items left := by
  cases hitems with
  | @last _ raw _ hbefore hv =>
      refine ⟨raw, gap ++ ']' :: rest, hv, ?_, endsNumber_blank hgap (by simp) rest,
        .closed (dropSpace_blank hgap _)⟩
      rw [List.append_assoc, hv.dropSpace_eq hbefore]
  | @cons _ _ raw more _ hbefore hv hothers =>
      refine ⟨raw, ',' :: (more ++ (gap ++ ']' :: rest)), hv, ?_,
        endsNumber_blank blank_nil (by simp) _, .comma hothers rfl⟩
      rw [List.append_assoc, List.append_assoc, hv.dropSpace_eq hbefore, List.cons_append]

/-- **The first field of an object**, and what is behind it. -/
theorem LaysFields.head {key : Text} {v : Value} {fields : List (Text × Value)}
    (hfields : LaysFields ((key, v) :: fields) t) (hgap : Blank gap) (rest : Text) :
    ∃ blank raw left, Blank blank ∧ Lays v raw ∧
      dropSpace (t ++ (gap ++ '\x7d' :: rest)) =
        '"' :: (key.flatMap escape ++ '"' :: ':' :: (blank ++ (raw ++ left))) ∧
      EndsNumber left ∧ Behind LaysFields '\x7d' gap rest fields left := by
  cases hfields with
  | @last _ _ raw _ blank hbefore hblank hv =>
      refine ⟨blank, raw, gap ++ '\x7d' :: rest, hblank, hv, ?_,
        endsNumber_blank hgap (by simp) rest, .closed (dropSpace_blank hgap _)⟩
      rw [dropSpace_field hbefore, List.append_assoc]
  | @cons _ _ _ raw more _ blank hbefore hblank hv hothers =>
      refine ⟨blank, raw, ',' :: (more ++ (gap ++ '\x7d' :: rest)), hblank, hv, ?_,
        endsNumber_blank blank_nil (by simp) _, .comma hothers rfl⟩
      rw [dropSpace_field hbefore, List.append_assoc, List.append_assoc, List.cons_append]

/-- A number is skipped up to its end. -/
theorem skipWithin_number {turns : Nat} (ht : Numeric t) (hu : dropSpace u = t ++ rest)
    (hrest : EndsNumber rest) : skipWithin (turns + 1) u = .ok rest := by
  obtain ⟨n, hn⟩ := ht.number_eq (fun _ => .malformed) hrest
  obtain ⟨c, more, rfl, hc⟩ := ht.exists_cons
  rw [List.cons_append] at hu hn
  rw [skipWithin, hu]
  dsimp only
  split
  case h_7 =>
    rw [if_pos hc, hn]
    rfl
  all_goals rcases hc with hc | hc <;> cases hc

/-- A list that is not empty is skipped item by item. -/
theorem skipWithin_list {turns : Nat} {c : Char} {more : Text} (hu : dropSpace u = '[' :: t)
    (ht : dropSpace t = c :: more) (hc : c ≠ ']') :
    skipWithin (turns + 1) u = skipItems turns (c :: more) := by
  rw [skipWithin, hu]
  simp [ht, hc]

theorem skipWithin_object {turns : Nat} {more : Text} (hu : dropSpace u = '\x7b' :: t)
    (ht : dropSpace t = '"' :: more) :
    skipWithin (turns + 1) u = skipFields turns ('"' :: more) := by
  rw [skipWithin, hu]
  simp [ht]

/-- A key is skipped, and its value after it. -/
theorem skipFields_key {turns : Nat} {key more left : Text}
    (hu : dropSpace u = '"' :: (key.flatMap escape ++ '"' :: ':' :: more))
    (hskip : skipWithin turns more = .ok left) :
    skipFields (turns + 1) u =
      match dropSpace left with
      | ',' :: rest => skipFields turns rest
      | '\x7d' :: rest => .ok rest
      | [] => .error .ended
      | _ => .error .malformed := by
  have hcolon : dropSpace (':' :: more) = ':' :: more := rfl
  have hfield := skipFields.eq_2 u turns
  simp only [hu, bind, Except.bind, skipStringFrom_quoted, hcolon, hskip] at hfield
  exact hfield

/-- Values, items and fields are skipped within a number of turns, whatever their layout.
All of these readers pass over blanks first. -/
structure Skips (turns : Nat) : Prop where
  value : ∀ {v u t rest}, Lays v t → dropSpace u = t ++ rest → EndsNumber rest →
    2 * (t ++ rest).length + 2 ≤ turns → skipWithin turns u = .ok rest
  items : ∀ {items u t gap rest}, LaysItems items t → Blank gap →
    dropSpace u = dropSpace (t ++ (gap ++ ']' :: rest)) →
    2 * (t ++ (gap ++ ']' :: rest)).length + 3 ≤ turns → skipItems turns u = .ok rest
  fields : ∀ {fields u t gap rest}, LaysFields fields t → Blank gap →
    dropSpace u = dropSpace (t ++ (gap ++ '\x7d' :: rest)) →
    2 * (t ++ (gap ++ '\x7d' :: rest)).length + 3 ≤ turns → skipFields turns u = .ok rest

section

variable {turns : Nat} (hskips : Skips turns)

include hskips

/-- With one turn more a value can be skipped, which holds items or fields. -/
theorem Skips.value_succ {v : Value} (hv : Lays v t) (hu : dropSpace u = t ++ rest)
    (hrest : EndsNumber rest) (hturns : 2 * (t ++ rest).length + 2 ≤ turns + 1) :
    skipWithin (turns + 1) u = .ok rest := by
  cases hv with
  | number hdigits => exact skipWithin_number hdigits hu hrest
  | text t =>
      rw [skipWithin, hu, quote_append]
      exact skipStringFrom_quoted t rest
  | truth b =>
      rw [skipWithin, hu]
      cases b <;> rfl
  | emptyList | emptyObject =>
      rw [skipWithin, hu]
      rfl
  | @list items t gap hlaid hgap =>
      have hshape : '[' :: (t ++ (gap ++ [']'])) ++ rest = '[' :: (t ++ (gap ++ ']' :: rest)) := by
        simp
      rw [hshape] at hu hturns
      obtain ⟨c, more, hmore, hclose, hagain⟩ := hlaid.exists_cons (gap ++ ']' :: rest)
      rw [skipWithin_list hu hmore hclose]
      refine hskips.items hlaid hgap (hagain.trans hmore.symm) ?_
      rw [List.length_cons] at hturns
      omega
  | @object fields t gap hlaid hgap =>
      have hshape : '\x7b' :: (t ++ (gap ++ ['\x7d'])) ++ rest =
          '\x7b' :: (t ++ (gap ++ '\x7d' :: rest)) := by simp
      rw [hshape] at hu hturns
      obtain ⟨more, hmore⟩ := hlaid.exists_cons (gap ++ '\x7d' :: rest)
      rw [skipWithin_object hu hmore]
      refine hskips.fields hlaid hgap hmore.symm ?_
      rw [List.length_cons] at hturns
      omega

/-- With one turn more, items can be skipped. -/
theorem Skips.items_succ {items : List Value} (hitems : LaysItems items t) (hgap : Blank gap)
    (hu : dropSpace u = dropSpace (t ++ (gap ++ ']' :: rest)))
    (hturns : 2 * (t ++ (gap ++ ']' :: rest)).length + 3 ≤ turns + 1) :
    skipItems (turns + 1) u = .ok rest := by
  cases items with
  | nil => cases hitems
  | cons v items =>
      obtain ⟨raw, left, hv, hhead, hend, hbehind⟩ := hitems.head hgap rest
      have hlength := length_dropSpace_le (t ++ (gap ++ ']' :: rest))
      rw [hhead] at hu hlength
      have hskip := hskips.value hv hu hend (by omega)
      rw [skipItems, hskip]
      cases hbehind with
      | closed hleft => simp only [bind, Except.bind, hleft]
      | comma hothers hleft =>
          have hshorter := length_dropSpace_le left
          rw [hleft, List.length_cons] at hshorter
          rw [List.length_append] at hlength
          simp only [bind, Except.bind, hleft]
          exact hskips.items hothers hgap rfl (by omega)

/-- With one turn more, fields can be skipped. -/
theorem Skips.fields_succ {fields : List (Text × Value)} (hfields : LaysFields fields t)
    (hgap : Blank gap) (hu : dropSpace u = dropSpace (t ++ (gap ++ '\x7d' :: rest)))
    (hturns : 2 * (t ++ (gap ++ '\x7d' :: rest)).length + 3 ≤ turns + 1) :
    skipFields (turns + 1) u = .ok rest := by
  cases fields with
  | nil => cases hfields
  | cons field fields =>
      obtain ⟨blank, raw, left, hblank, hv, hhead, hend, hbehind⟩ := hfields.head hgap rest
      have hlength := length_dropSpace_le (t ++ (gap ++ '\x7d' :: rest))
      rw [hhead] at hu hlength
      simp only [List.length_cons, List.length_append] at hlength hturns
      have hskip := hskips.value hv (hv.dropSpace_eq hblank left) hend (by
        rw [List.length_append]
        omega)
      rw [skipFields_key hu hskip]
      cases hbehind with
      | closed hleft => simp only [hleft]
      | comma hothers hleft =>
          have hshorter := length_dropSpace_le left
          rw [hleft, List.length_cons] at hshorter
          simp only [hleft]
          exact hskips.fields hothers hgap rfl (by omega)

end

/-- **Values, items and fields are skipped** in as many turns as they need. -/
theorem skips (turns : Nat) : Skips turns := by
  induction turns with
  | zero => exact ⟨fun _ _ _ h => by omega, fun _ _ _ h => by omega, fun _ _ _ h => by omega⟩
  | succ turns ih => exact ⟨ih.value_succ, ih.items_succ, ih.fields_succ⟩

/-- **A value is skipped**, whatever its layout, and what is behind it is left. -/
theorem skipValue_laid {v : Value} (hv : Lays v t) (hu : dropSpace u = t ++ rest)
    (hrest : EndsNumber rest) : skipValue u = .ok rest := by
  have hlength := length_dropSpace_le u
  rw [hu] at hlength
  exact (skips _).value hv hu hrest (by omega)

/-! ## Cutting out parts -/

/-- The text of the value that a text begins with. -/
def rawValue : Reader Text := fun t => do
  let rest ← skipValue t
  let t := dropSpace t
  return (t.take (t.length - rest.length), rest)

/-- The texts of the items of a list, after its opening bracket, when there are any. -/
def rawItems : (items : Nat) → Text → Except Fault (List Text)
  | 0, _ => .error .ended
  | items + 1, t => do
    let (raw, t) ← rawValue t
    match dropSpace t with
    | ',' :: rest => return raw :: (← rawItems items rest)
    | ']' :: _ => return [raw]
    | [] => .error .ended
    | _ => .error .malformed

/-- The texts of the items of a list. -/
def rawList (t : Text) : Except Fault (List Text) :=
  match dropSpace t with
  | '[' :: rest =>
    match dropSpace rest with
    | ']' :: _ => .ok []
    | t => rawItems (rest.length + 1) t
  | [] => .error .ended
  | _ => .error .unfitting

/-- The text of the value that the first field with a name has, after the opening brace
of an object. -/
def rawField (name : Text) : (fields : Nat) → Text → Except Fault Text
  | 0, _ => .error .ended
  | fields + 1, t => do
    match dropSpace t with
    | '"' :: rest =>
      let (key, t) ← string rest
      let (raw, t) ← rawValue (← expectChar ':' t)
      if key = name then return raw
      else
        match dropSpace t with
        | ',' :: rest => rawField name fields rest
        | [] => .error .ended
        | _ => .error .unfitting
    | [] => .error .ended
    | _ => .error .malformed

/-- The text of the value that the first field with a name has in an object. -/
def rawMember (name t : Text) : Except Fault Text :=
  match dropSpace t with
  | '\x7b' :: rest => rawField name (rest.length + 1) rest
  | [] => .error .ended
  | _ => .error .unfitting

/-- **A value that is laid out is taken as it is spelled**, up to its end. -/
theorem rawValue_laid {v : Value} (hv : Lays v t) (hu : dropSpace u = t ++ rest)
    (hrest : EndsNumber rest) : rawValue u = .ok (t, rest) := by
  rw [rawValue, skipValue_laid hv hu hrest]
  simp only [bind, Except.bind]
  rw [hu, List.length_append, Nat.add_sub_cancel, List.take_left]
  rfl

/-- **The items of a list are cut out of its text**, one by one. -/
theorem rawItems_laid {items : List Value} {turns : Nat} (hitems : LaysItems items t)
    (hgap : Blank gap) (hu : dropSpace u = dropSpace (t ++ (gap ++ ']' :: rest)))
    (hturns : items.length ≤ turns) :
    ∃ texts, rawItems turns u = .ok texts ∧ List.Forall₂ Lays items texts := by
  induction items generalizing t u turns with
  | nil => cases hitems
  | cons v items ih =>
      obtain ⟨turns, rfl⟩ : ∃ more, turns = more + 1 := ⟨turns - 1, by
        rw [List.length_cons] at hturns
        omega⟩
      obtain ⟨raw, left, hv, hhead, hend, hbehind⟩ := hitems.head hgap rest
      have hraw := rawValue_laid hv (hu.trans hhead) hend
      cases hbehind with
      | closed hleft =>
          refine ⟨[raw], ?_, .cons hv .nil⟩
          rw [rawItems, hraw]
          simp only [bind, Except.bind, hleft]
          rfl
      | comma hothers hleft =>
          rw [List.length_cons, Nat.add_le_add_iff_right] at hturns
          obtain ⟨texts, htexts, hall⟩ := ih hothers rfl hturns
          refine ⟨raw :: texts, ?_, .cons hv hall⟩
          rw [rawItems, hraw]
          simp only [bind, Except.bind, hleft, htexts]
          rfl

/-- There are no more items than letters, so the letters bound the turns. -/
theorem LaysItems.length_le {items : List Value} (hitems : LaysItems items t) :
    items.length ≤ t.length := by
  induction items generalizing t with
  | nil => cases hitems
  | cons v items ih =>
      cases hitems with
      | last _ hv =>
          obtain ⟨_, _, rfl, _⟩ := hv.exists_cons
          simp only [List.length_append, List.length_cons, List.length_nil]
          omega
      | cons _ _ hothers =>
          have hlength := ih hothers
          simp only [List.length_append, List.length_cons]
          omega

/-- **The items of a list are cut out of its text.** -/
theorem rawList_laid {items : List Value} (hv : Lays (.list items) t) :
    ∃ texts, rawList t = .ok texts ∧ List.Forall₂ Lays items texts := by
  cases hv with
  | emptyList =>
      exact ⟨[], rfl, .nil⟩
  | @list _ t gap hitems hgap =>
      obtain ⟨c, more, hmore, hclose, hagain⟩ := hitems.exists_cons (gap ++ [']'])
      have hturns : items.length ≤ (t ++ (gap ++ [']'])).length + 1 := by
        have hlength := hitems.length_le
        rw [List.length_append]
        omega
      obtain ⟨texts, htexts, hall⟩ := rawItems_laid hitems hgap (hagain.trans hmore.symm) hturns
      refine ⟨texts, ?_, hall⟩
      rw [rawList, dropSpace_cons rfl]
      simp only [hmore]
      split
      · next heq => exact absurd (List.cons.inj heq).1 hclose
      · exact htexts

theorem LaysFields.length_le {fields : List (Text × Value)} (hfields : LaysFields fields t) :
    fields.length ≤ t.length := by
  induction fields generalizing t with
  | nil => cases hfields
  | cons field fields ih =>
      cases hfields with
      | last =>
          simp only [List.length_append, List.length_cons, List.length_nil]
          omega
      | cons _ _ _ hothers =>
          have hlength := ih hothers
          simp only [List.length_append, List.length_cons]
          omega

/-- Blanks are not needed to tell how many fields there can be. -/
theorem LaysFields.length_le_dropSpace {fields : List (Text × Value)}
    (hfields : LaysFields fields t) (rest : Text) :
    fields.length ≤ (dropSpace (t ++ rest)).length := by
  cases hfields with
  | last hgap =>
      rw [dropSpace_field hgap, List.length_cons]
      exact Nat.le_add_left _ _
  | cons hgap _ _ hothers =>
      have hlength := hothers.length_le
      rw [dropSpace_field hgap]
      simp only [List.length_append, List.length_cons]
      omega

/-- A key is read, and its value cut out. -/
theorem rawField_key {turns : Nat} {name key more raw left : Text}
    (hu : dropSpace u = '"' :: (key.flatMap escape ++ '"' :: ':' :: more))
    (hraw : rawValue more = .ok (raw, left)) :
    rawField name (turns + 1) u =
      if key = name then .ok raw
      else
        match dropSpace left with
        | ',' :: rest => rawField name turns rest
        | [] => .error .ended
        | _ => .error .unfitting := by
  have hcolon : expectChar ':' (':' :: more) = .ok more := rfl
  rw [rawField, hu]
  simp only [bind, Except.bind, string_quoted, hcolon, hraw]
  rfl

/-- **The value of a field is cut out of the text of its object.** -/
theorem rawField_laid {fields : List (Text × Value)} {turns : Nat} {name : Text} {v : Value}
    (hfields : LaysFields fields t) (hgap : Blank gap)
    (hu : dropSpace u = dropSpace (t ++ (gap ++ '\x7d' :: rest))) (hturns : fields.length ≤ turns)
    (hname : fields.lookup name = some v) :
    ∃ raw, rawField name turns u = .ok raw ∧ Lays v raw := by
  induction fields generalizing t u turns with
  | nil => cases hfields
  | cons field fields ih =>
      obtain ⟨turns, rfl⟩ : ∃ more, turns = more + 1 := ⟨turns - 1, by
        rw [List.length_cons] at hturns
        omega⟩
      obtain ⟨key, value⟩ := field
      obtain ⟨blank, raw, left, hblank, hv, hhead, hend, hbehind⟩ := hfields.head hgap rest
      rw [rawField_key (hu.trans hhead) (rawValue_laid hv (hv.dropSpace_eq hblank left) hend)]
      rw [List.lookup_cons] at hname
      by_cases hkey : key = name
      · rw [hkey, beq_self_eq_true] at hname
        cases hname
        exact ⟨raw, if_pos hkey, hv⟩
      · rw [beq_false_of_ne (Ne.symm hkey)] at hname
        cases hbehind with
        | closed => cases hname
        | comma hothers hleft =>
            rw [List.length_cons, Nat.add_le_add_iff_right] at hturns
            obtain ⟨found, hfound, hlays⟩ := ih hothers rfl hturns hname
            refine ⟨found, ?_, hlays⟩
            rw [if_neg hkey, hleft]
            exact hfound

/-- **The value of a field is cut out of the text of an object.** -/
theorem rawMember_laid {fields : List (Text × Value)} {name : Text} {v : Value}
    (hlays : Lays (.object fields) t) (hname : fields.lookup name = some v) :
    ∃ raw, rawMember name t = .ok raw ∧ Lays v raw := by
  cases hlays with
  | emptyObject => cases hname
  | @object _ t gap hfields hgap =>
      have hturns : fields.length ≤ (t ++ (gap ++ ['\x7d'])).length + 1 := by
        have hlength := hfields.length_le
        rw [List.length_append]
        omega
      rw [rawMember, dropSpace_cons rfl]
      exact rawField_laid hfields hgap rfl hturns hname

end LicenseHeaders.Json
