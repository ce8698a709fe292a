import LicenseHeaders.Diff.Compaction
import Mathlib.Data.List.Basic

/-!
# Scripts that fit

Whatever script the search finds and however its pieces are slid together, the script
reads as the old list on one side and as the new list on the other.  The search may
split two lists anywhere, since the halves are put together again.  A slide moves an
insertion over lines that end or begin as it does, which leaves both readings alone,
or past a piece of the other kind, which is read on the other side.

* `searchWithin_fits` — a script that the search finds fits;
* `Cursor.slideUp?_slides`, `Cursor.slideDown?_slides` — a slide keeps both readings;
* `compact_fits` — so do all slides together;
* `compare_spells` — line by line, kept and deleted lines spell the old list and kept
  and inserted lines the new one.
-/

namespace LicenseHeaders.Diff

variable {α : Type}

/-! ## Readings -/

namespace Script

@[simp] theorem old_nil : Script.old ([] : Script α) = [] := rfl
@[simp] theorem new_nil : Script.new ([] : Script α) = [] := rfl
@[simp] theorem old_cons (piece : Piece α) (s : Script α) :
    Script.old (piece :: s) = piece.old ++ s.old := rfl
@[simp] theorem new_cons (piece : Piece α) (s : Script α) :
    Script.new (piece :: s) = piece.new ++ s.new := rfl

attribute [simp] old_append new_append

/-- Scripts after one another turn lists after one another into each other. -/
theorem Fits.append {s t : Script α} {before after before' after' : List α}
    (hs : s.Fits before after) (ht : t.Fits before' after') :
    Script.Fits (s ++ t) (before ++ before') (after ++ after') :=
  ⟨by rw [old_append, hs.1, ht.1], by rw [new_append, hs.2, ht.2]⟩

end Script

@[simp] theorem Piece.old_kept (lines : List α) : (Piece.kept lines).old = lines := rfl
@[simp] theorem Piece.new_kept (lines : List α) : (Piece.kept lines).new = lines := rfl
@[simp] theorem Piece.old_deleted (lines : List α) : (Piece.deleted lines).old = lines := rfl
@[simp] theorem Piece.new_deleted (lines : List α) : (Piece.deleted lines).new = [] := rfl
@[simp] theorem Piece.old_inserted (lines : List α) : (Piece.inserted lines).old = [] := rfl
@[simp] theorem Piece.new_inserted (lines : List α) : (Piece.inserted lines).new = lines := rfl

/-- Lines that are kept stand on both sides. -/
theorem keptPiece_fits (lines : List α) : (keptPiece lines).Fits lines lines := by
  cases lines <;> simp [keptPiece, Script.Fits]

theorem deletedPiece_fits (lines : List α) : (deletedPiece lines).Fits lines [] := by
  cases lines <;> simp [deletedPiece, Script.Fits]

theorem insertedPiece_fits (lines : List α) : (insertedPiece lines).Fits [] lines := by
  cases lines <;> simp [insertedPiece, Script.Fits]

/-- Everything is deleted, and the new lines are inserted. -/
theorem replacement_fits (old new : List α) :
    Script.Fits (deletedPiece old ++ insertedPiece new) old new := by
  have hfits := (deletedPiece_fits old).append (insertedPiece_fits new)
  rwa [List.append_nil, List.nil_append] at hfits

/-! ## Line by line -/

/-- The lines with one of some fates. -/
def spelled (fates : List Mark) (lines : List (Mark × α)) : List α :=
  (lines.filter fun line => fates.contains line.1).map (·.2)

/-- Marked lines that spell two lists, the one by kept and deleted lines and the other
by kept and inserted ones. -/
structure Spells (lines : List (Mark × α)) (old new : List α) : Prop where
  old : spelled [.kept, .deleted] lines = old
  new : spelled [.kept, .inserted] lines = new

/-- A line is spelled on each side that its mark belongs to. -/
theorem mem_spelled {fates : List Mark} {line : Mark × α} {lines : List (Mark × α)}
    (hline : line ∈ lines) (hfate : line.1 ∈ fates) : line.2 ∈ spelled fates lines :=
  List.mem_map_of_mem (List.mem_filter.mpr ⟨hline, List.contains_iff_mem.mpr hfate⟩)

/-- A line comes from one of the lists that are spelled. -/
theorem Spells.mem {lines : List (Mark × α)} {old new : List α} (hspells : Spells lines old new)
    {line : Mark × α} (hline : line ∈ lines) : line.2 ∈ old ∨ line.2 ∈ new := by
  rw [← hspells.old, ← hspells.new]
  obtain ⟨mark, _⟩ := line
  cases mark with
  | kept => exact .inl (mem_spelled hline (by simp))
  | deleted => exact .inl (mem_spelled hline (by simp))
  | inserted => exact .inr (mem_spelled hline (by simp))

@[simp] theorem spelled_append (fates : List Mark) (lines more : List (Mark × α)) :
    spelled fates (lines ++ more) = spelled fates lines ++ spelled fates more := by
  simp [spelled]

/-- Lines of one fate are spelled all or not at all. -/
@[simp] theorem spelled_map (fates : List Mark) (fate : Mark) (lines : List α) :
    spelled fates (lines.map (fate, ·)) = if fates.contains fate then lines else [] := by
  by_cases hfate : fate ∈ fates
  · simp [spelled, List.filter_map, Function.comp_def, hfate]
  · simp [spelled, List.filter_map, Function.comp_def, hfate]

/-- **The lines of a script**, insertions being held back over deletions, spell what it
reads. -/
theorem markedLines_spells (pending : List α) (script : Script α) :
    Spells (markedLines pending script) script.old (pending ++ script.new) := by
  fun_induction markedLines pending script with
  | case1 pending => exact ⟨by simp, by simp⟩
  | case2 pending rest ih => exact ⟨by simp [ih.old], by simp [ih.new]⟩
  | case3 pending lines rest _ ih => exact ⟨by simp [ih.old], by simp [ih.new]⟩
  | case4 pending lines rest ih => exact ⟨by simp [ih.old], by simp [ih.new]⟩
  | case5 pending lines rest ih => exact ⟨by simp [ih.old], by simp [ih.new]⟩

/-! ## Cursors -/

/-- Lines kept in front stand in front on the old side, joined to a kept piece or
not. -/
@[simp] theorem old_keepInFront (lines : List α) (s : Script α) :
    (keepInFront lines s).old = lines ++ s.old := by
  unfold keepInFront
  split <;> simp

@[simp] theorem new_keepInFront (lines : List α) (s : Script α) :
    (keepInFront lines s).new = lines ++ s.new := by
  unfold keepInFront
  split <;> simp

/-- Lines kept behind stand behind on the old side. -/
@[simp] theorem old_reverse_keepBehind (lines : List α) (s : Script α) :
    Script.old (keepBehind lines s).reverse = Script.old s.reverse ++ lines := by
  unfold keepBehind
  split <;> simp

@[simp] theorem new_reverse_keepBehind (lines : List α) (s : Script α) :
    Script.new (keepBehind lines s).reverse = Script.new s.reverse ++ lines := by
  unfold keepBehind
  split <;> simp

namespace Cursor

/-- The script that a cursor stands in. -/
def script (c : Cursor α) : Script α := c.before.reverse ++ c.focus :: c.after

/-- The piece in focus is an insertion or a deletion. -/
def Loose (c : Cursor α) : Prop := ∀ lines, c.focus ≠ .kept lines

/-- A slide from one cursor to another: the piece in focus stays loose, and the script
reads as before on both sides. -/
structure Slides (c d : Cursor α) : Prop where
  loose : d.Loose
  old : d.script.old = c.script.old
  new : d.script.new = c.script.new

theorem Slides.refl {c : Cursor α} (hloose : c.Loose) : Slides c c := ⟨hloose, rfl, rfl⟩

theorem Slides.trans {c d e : Cursor α} (hfirst : Slides c d) (hthen : Slides d e) : Slides c e :=
  ⟨hthen.loose, hthen.old.trans hfirst.old, hthen.new.trans hfirst.new⟩

theorem withoutLast_append_lastLines (n : Nat) (lines : List α) :
    withoutLast n lines ++ lastLines n lines = lines :=
  List.take_append_drop _ _

/-- Slides one after the other. -/
theorem slide_slides {move : Cursor α → Option (Cursor α)}
    (hmove : ∀ {c d : Cursor α}, c.Loose → move c = some d → Slides c d) (slides : Nat)
    {c : Cursor α} (hloose : c.Loose) : Slides c (c.slide move slides) := by
  induction slides generalizing c with
  | zero => exact .refl hloose
  | succ slides ih =>
      rw [slide]
      split
      · next d hslide =>
        have hfirst := hmove hloose hslide
        exact hfirst.trans (ih hfirst.loose)
      · exact .refl hloose

end Cursor

/-! ## Searching -/

/-- A script for what lies between common ends of two lists fits the lists when the ends
are kept around it. -/
theorem Script.Fits.between_ends {old new : List α} {core : Script α} (first last : Nat)
    (hfirst : old.take first = new.take first)
    (hlast : (old.drop first).drop ((old.drop first).length - last) =
      (new.drop first).drop ((new.drop first).length - last))
    (hcore : core.Fits ((old.drop first).take ((old.drop first).length - last))
      ((new.drop first).take ((new.drop first).length - last))) :
    (keptPiece (old.take first) ++ core ++
      keptPiece ((old.drop first).drop ((old.drop first).length - last))).Fits old new := by
  have hfits := ((keptPiece_fits (old.take first)).append hcore).append
    (keptPiece_fits ((old.drop first).drop ((old.drop first).length - last)))
  have hold : old.take first ++ (old.drop first).take ((old.drop first).length - last) ++
      (old.drop first).drop ((old.drop first).length - last) = old := by
    rw [List.append_assoc, List.take_append_drop, List.take_append_drop]
  -- The new list has the same ends.
  have hnew : old.take first ++ (new.drop first).take ((new.drop first).length - last) ++
      (old.drop first).drop ((old.drop first).length - last) = new := by
    rw [hfirst, hlast, List.append_assoc, List.take_append_drop, List.take_append_drop]
  rwa [hold, hnew] at hfits

variable [DecidableEq α]

/-- Two lists begin alike as far as their common length goes. -/
theorem take_commonLength (as bs : List α) :
    as.take (commonLength as bs) = bs.take (commonLength as bs) := by
  fun_induction commonLength as bs with
  | case1 a as bs ih => rw [List.take_succ_cons, List.take_succ_cons, ih]
  | case2 => rfl
  | case3 => rfl

/-- Two lists end alike as far as their common length at the end goes. -/
theorem drop_commonEndLength (as bs : List α) :
    as.drop (as.length - commonEndLength as bs) = bs.drop (bs.length - commonEndLength as bs) := by
  have hends := take_commonLength as.reverse bs.reverse
  rwa [List.take_reverse, List.take_reverse, List.reverse_inj] at hends

/-- **A script that the search finds fits**, wherever it has split the lists. -/
theorem searchWithin_fits (depth : Nat) (old new : List α) :
    (searchWithin depth old new).Fits old new := by
  induction depth generalizing old new with
  | zero => exact replacement_fits old new
  | succ depth ih =>
      rw [searchWithin]
      refine Script.Fits.between_ends _ _ (take_commonLength old new)
        (drop_commonEndLength _ _) ?_
      set first := commonLength old new
      set last := commonEndLength (old.drop first) (new.drop first)
      set oldCore := (old.drop first).take ((old.drop first).length - last)
      set newCore := (new.drop first).take ((new.drop first).length - last)
      split
      · exact replacement_fits oldCore newCore
      · split
        · next x y _ =>
          have hhalves := (ih (oldCore.take x) (newCore.take y)).append
            (ih (oldCore.drop x) (newCore.drop y))
          rwa [List.take_append_drop, List.take_append_drop] at hhalves
        · exact replacement_fits oldCore newCore

/-! ## Sliding -/

namespace Cursor

/-- The lines that an insertion slides over end like it. -/
theorem lastLines_commonEndLength (lines new : List α) :
    lastLines (commonEndLength lines new) lines = lastLines (commonEndLength lines new) new :=
  drop_commonEndLength lines new

/-- An insertion slid up over kept lines that end like it. -/
theorem slides_insertion_up (before after : Script α) (lines new : List α) :
    Slides ⟨.kept lines :: before, .inserted new, after⟩
      ⟨if (withoutLast (commonEndLength lines new) lines).isEmpty then before
        else .kept (withoutLast (commonEndLength lines new) lines) :: before,
        .inserted (lastLines (commonEndLength lines new) lines ++
          withoutLast (commonEndLength lines new) new),
        keepInFront (lastLines (commonEndLength lines new) lines) after⟩ := by
  have hlines := withoutLast_append_lastLines (commonEndLength lines new) lines
  have hnew := withoutLast_append_lastLines (commonEndLength lines new) new
  rw [← lastLines_commonEndLength lines new] at hnew
  generalize withoutLast (commonEndLength lines new) new = rest at hnew ⊢
  generalize withoutLast (commonEndLength lines new) lines = left at hlines ⊢
  generalize lastLines (commonEndLength lines new) lines = moved at hlines hnew ⊢
  subst hlines hnew
  cases left <;> exact ⟨nofun, by simp [script], by simp [script]⟩

/-- An insertion slid down over kept lines that begin like it. -/
theorem slides_insertion_down (before after : Script α) (lines new : List α) :
    Slides ⟨before, .inserted new, .kept lines :: after⟩
      ⟨keepBehind (lines.take (commonLength lines new)) before,
        .inserted (new.drop (commonLength lines new) ++ lines.take (commonLength lines new)),
        if (lines.drop (commonLength lines new)).isEmpty then after
        else .kept (lines.drop (commonLength lines new)) :: after⟩ := by
  have hlines := List.take_append_drop (commonLength lines new) lines
  have hnew := List.take_append_drop (commonLength lines new) new
  rw [← take_commonLength lines new] at hnew
  generalize new.drop (commonLength lines new) = rest at hnew ⊢
  generalize lines.drop (commonLength lines new) = left at hlines ⊢
  generalize lines.take (commonLength lines new) = moved at hlines hnew ⊢
  subst hlines hnew
  cases left <;> exact ⟨nofun, by simp [script], by simp [script]⟩

/-- **A slide up** leaves both readings as they are. -/
theorem slideUp?_slides {c d : Cursor α} (hloose : c.Loose) (hslide : c.slideUp? = some d) :
    Slides c d := by
  obtain ⟨before, focus, after⟩ := c
  match before, focus with
  | [], _ => cases hslide
  | _ :: _, .kept lines => exact absurd rfl (hloose lines)
  | .kept [] :: before, .inserted _ | .kept [] :: before, .deleted _ =>
      cases hslide
      exact ⟨nofun, by simp [script], by simp [script]⟩
  | .kept (line :: lines) :: before, .inserted new =>
      simp only [slideUp?] at hslide
      split at hslide
      · cases hslide
      · cases hslide
        exact slides_insertion_up before after (line :: lines) new
  | .kept (_ :: _) :: _, .deleted _ => cases hslide
  | .inserted _ :: _, .inserted _ | .deleted _ :: _, .deleted _ =>
      cases hslide
      exact ⟨nofun, by simp [script], by simp [script]⟩
  | .inserted _ :: _, .deleted _ | .deleted _ :: _, .inserted _ =>
      -- The two are read on different sides.
      cases hslide
      exact ⟨nofun, by simp [script], by simp [script]⟩

/-- **A slide down** leaves both readings as they are. -/
theorem slideDown?_slides {c d : Cursor α} (hloose : c.Loose) (hslide : c.slideDown? = some d) :
    Slides c d := by
  obtain ⟨before, focus, after⟩ := c
  match after, focus with
  | [], _ => cases hslide
  | _ :: _, .kept lines => exact absurd rfl (hloose lines)
  | .kept [] :: after, .inserted _ | .kept [] :: after, .deleted _ =>
      cases hslide
      exact ⟨nofun, by simp [script], by simp [script]⟩
  | .kept (line :: lines) :: after, .inserted new =>
      simp only [slideDown?] at hslide
      split at hslide
      · cases hslide
      · cases hslide
        exact slides_insertion_down before after (line :: lines) new
  | .kept (_ :: _) :: _, .deleted _ => cases hslide
  | .inserted _ :: _, .inserted _ | .deleted _ :: _, .deleted _ =>
      cases hslide
      exact ⟨nofun, by simp [script], by simp [script]⟩
  | .inserted _ :: _, .deleted _ | .deleted _ :: _, .inserted _ =>
      cases hslide
      exact ⟨nofun, by simp [script], by simp [script]⟩

/-- To settle a change is to slide it. -/
theorem settle_slides {c : Cursor α} (hloose : c.Loose) : Slides c c.settle := by
  have hup := slide_slides slideUp?_slides (slideBound c.before) hloose
  exact hup.trans (slide_slides slideDown?_slides _ hup.loose)

end Cursor

/-- A pass over a script, the pieces of `before` being passed, keeps both readings. -/
theorem settleAll_fits {chosen : Piece α → Bool} (hchosen : ∀ lines, chosen (.kept lines) = false)
    (turns : Nat) {before rest : Script α} {old new : List α}
    (hfits : Script.Fits (before.reverse ++ rest) old new) :
    (settleAll chosen turns before rest).Fits old new := by
  induction turns generalizing before rest with
  | zero => exact hfits
  | succ turns ih =>
      cases rest with
      | nil => rwa [List.append_nil] at hfits
      | cons piece after =>
          rw [settleAll]
          split
          · next hpiece =>
            have hloose : Cursor.Loose ⟨before, piece, after⟩ := by
              rintro lines rfl
              rw [hchosen] at hpiece
              cases hpiece
            have hslides := Cursor.settle_slides hloose
            refine ih ?_
            rw [List.reverse_cons, List.append_assoc, List.singleton_append]
            exact ⟨hslides.old.trans hfits.1, hslides.new.trans hfits.2⟩
          · refine ih ?_
            rwa [List.reverse_cons, List.append_assoc, List.singleton_append]

/-- **Sliding pieces together keeps both readings.** -/
theorem compact_fits {script : Script α} {old new : List α} (hfits : script.Fits old new) :
    (compact script).Fits old new :=
  settleAll_fits (fun _ => rfl) _ (settleAll_fits (fun _ => rfl) _ hfits)

/-- **A comparison spells both lists.** -/
theorem compare_spells (old new : List α) : Spells (compare old new) old new := by
  have hfits : (compact (search old new)).Fits old new := compact_fits (searchWithin_fits _ old new)
  have hspells := markedLines_spells [] (compact (search old new))
  rwa [hfits.1, hfits.2] at hspells

end LicenseHeaders.Diff
