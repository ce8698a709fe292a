import LicenseHeaders.Proofs.Resolution

/-!
# New contents for files

Reading a path and writing it concern one file, the one the path leads to
(`readText_congr`, `writeText_of_lookup`).  A rewriting gives several files
new contents, one after the other, and nothing else: what is at another
location stays (`find?_rewrite_of_not_mem`), and so does the outline
(`outline_rewrite`).  When the locations are distinct, no content is lost to a
later one (`find?_rewrite_of_mem`), and the order makes no difference
(`rewrite_perm`).
-/

namespace LicenseHeaders.FileSystem

variable {fs gs : FileSystem}

/-! ## One file -/

/-- To look a path up is to locate it and to find what stands there. -/
theorem lookup_eq_ok_iff {access : Access} {p : Path} {l : Location} {entry : Entry} :
    fs.lookup access p = .ok (l, entry) ↔
      fs.locate access p = .ok l ∧ fs.find? l = some entry := by
  unfold lookup
  cases fs.locate access p with
  | error cause => simp [bind, Except.bind]
  | ok k =>
      simp only [bind, Except.bind, Except.ok.injEq]
      cases hk : fs.find? k with
      | none =>
          constructor
          · intro hfound
            cases hfound
          · rintro ⟨rfl, hentry⟩
            rw [hk] at hentry
            cases hentry
      | some found =>
          simp only [Except.ok.injEq, Prod.mk.injEq]
          constructor
          · rintro ⟨rfl, rfl⟩
            exact ⟨rfl, hk⟩
          · rintro ⟨rfl, hentry⟩
            exact ⟨rfl, Option.some.inj (hk.symm.trans hentry)⟩

/-- What is looked up can be resolved. -/
theorem canonical?_of_lookup {p : Path} {l : Location} {entry : Entry}
    (hlookup : fs.lookup .target p = .ok (l, entry)) : fs.canonical? p = some l := by
  simp only [canonical?, hlookup]

/-- What is resolved can be looked up. -/
theorem lookup_of_canonical? {p : Path} {l : Location} (hl : fs.canonical? p = some l) :
    ∃ entry, fs.lookup .target p = .ok (l, entry) := by
  unfold canonical? at hl
  split at hl
  · next k entry hlookup =>
    cases hl
    exact ⟨entry, hlookup⟩
  · cases hl

/-- A path that reads as a text leads to a file that holds it. -/
theorem readText_eq_ok_iff {p : Path} {t : Text} :
    fs.readText p = .ok t ↔
      ∃ l, fs.lookup .target p = .ok (l, .file (.text t)) ∧ fs.grants .reading l = true := by
  unfold readText
  rcases fs.lookup .target p with cause | ⟨k, entry⟩
  · simp [bind, Except.bind]
  · simp only [bind, Except.bind]
    constructor
    · intro hread
      split at hread
      · next hgrants =>
        cases entry with
        | directory => cases hread
        | link => cases hread
        | file content =>
            cases content with
            | binary => cases hread
            | text s =>
                cases hread
                exact ⟨k, rfl, hgrants⟩
      · cases hread
    · rintro ⟨l, hl, hgrants⟩
      obtain ⟨rfl, rfl⟩ := Prod.mk.inj (Except.ok.inj hl)
      simp only [hgrants, if_true]

/-- A lookup depends on the outline and on the one entry it finds. -/
theorem lookup_congr {p : Path} (houtline : gs.outline = fs.outline)
    (hsame : ∀ l, fs.canonical? p = some l → gs.find? l = fs.find? l) :
    gs.lookup .target p = fs.lookup .target p := by
  cases hlookup : fs.lookup .target p with
  | ok found =>
      obtain ⟨l, entry⟩ := found
      obtain ⟨hlocate, hfind⟩ := lookup_eq_ok_iff.mp hlookup
      refine lookup_eq_ok_iff.mpr ⟨?_, ?_⟩
      · rw [locate_of_outline_eq houtline, hlocate]
      · rw [hsame l (canonical?_of_lookup hlookup), hfind]
  | error cause =>
      have hmapped := congrArg (fun fs => fs.lookup .target p) houtline
      simp only [lookup_outline, hlookup] at hmapped
      cases hother : gs.lookup .target p with
      | ok found =>
          rw [hother] at hmapped
          cases hmapped
      | error other =>
          rw [hother] at hmapped
          cases hmapped
          rfl

/-- **Reading concerns one file.** -/
theorem readText_congr {p : Path} (houtline : gs.outline = fs.outline)
    (hsame : ∀ l, fs.canonical? p = some l → gs.find? l = fs.find? l) :
    gs.readText p = fs.readText p := by
  unfold readText
  rw [lookup_congr houtline hsame]
  simp only [grants_of_outline_eq houtline]

/-- **Writing concerns one file**: where a text was read, the new text takes its
place, if that is granted. -/
theorem writeText_of_lookup {p : Path} {l : Location} {content : Content} (t : Text)
    (hlookup : fs.lookup .target p = .ok (l, .file content)) :
    fs.writeText p t =
      if fs.grants .writing l then .ok (fs.put l (.file (.text t))) else .error .accessDenied := by
  obtain ⟨hlocate, hfile⟩ := lookup_eq_ok_iff.mp hlookup
  have hcreation := locate_creation_of_file hfile hlocate
  simp only [writeText, modifyFile, hcreation, bind, Except.bind, hfile]

/-- The top of the file system is no file. -/
theorem ne_nil_of_file {l : Location} {content : Content}
    (hfile : fs.find? l = some (.file content)) : l ≠ [] := by
  rintro rfl
  simp [find?] at hfile

/-- Where one of two file systems with the same outline has a file, the other
has one, too. -/
theorem file_of_outline_eq (houtline : gs.outline = fs.outline) {l : Location} {content : Content}
    (hfile : fs.find? l = some (.file content)) : ∃ other, gs.find? l = some (.file other) := by
  have hfound := congrArg (fun fs => fs.find? l) houtline
  simp only [find?_outline, hfile, Option.map_some, Entry.outline] at hfound
  cases hother : gs.find? l with
  | none =>
      rw [hother] at hfound
      cases hfound
  | some entry =>
      rw [hother] at hfound
      cases entry with
      | file other => exact ⟨other, rfl⟩
      | directory => cases hfound
      | link => cases hfound

/-! ## Several files -/

/-- Gives files new contents, one after the other. -/
def rewrite (fs : FileSystem) (contents : List (Location × Text)) : FileSystem :=
  contents.foldl (fun fs row => fs.put row.1 (.file (.text row.2))) fs

@[simp] theorem rewrite_nil (fs : FileSystem) : fs.rewrite [] = fs := rfl

/-- Contents are written one after the other. -/
theorem rewrite_append (fs : FileSystem) (contents more : List (Location × Text)) :
    fs.rewrite (contents ++ more) = (fs.rewrite contents).rewrite more :=
  List.foldl_append

/-- A rewriting changes nothing elsewhere. -/
theorem find?_rewrite_of_not_mem {contents : List (Location × Text)} {l : Location}
    (hl : l ∉ contents.map (·.1)) : (fs.rewrite contents).find? l = fs.find? l := by
  induction contents generalizing fs with
  | nil => rfl
  | cons row rest ih =>
      have hne : l ≠ row.1 := fun h => hl (h ▸ List.mem_cons_self)
      have hrest : l ∉ rest.map (·.1) := fun h => hl (List.mem_cons_of_mem _ h)
      calc (fs.rewrite (row :: rest)).find? l
          = (fs.put row.1 (.file (.text row.2))).find? l := ih hrest
        _ = fs.find? l := find?_put_of_ne hne

/-- With distinct locations, each file has its new content in the end. -/
theorem find?_rewrite_of_mem {contents : List (Location × Text)} {l : Location} {t : Text}
    (hne : l ≠ []) (hdistinct : (contents.map (·.1)).Nodup) (hmem : (l, t) ∈ contents) :
    (fs.rewrite contents).find? l = some (.file (.text t)) := by
  induction contents generalizing fs with
  | nil => cases hmem
  | cons row rest ih =>
      rw [List.map_cons, List.nodup_cons] at hdistinct
      rcases List.mem_cons.mp hmem with rfl | hrest
      · exact (find?_rewrite_of_not_mem hdistinct.1).trans (find?_put hne)
      · exact ih hdistinct.2 hrest

/-- **A rewriting of files leaves the outline as it is.** -/
theorem outline_rewrite {contents : List (Location × Text)}
    (hfiles : ∀ row ∈ contents, ∃ old, fs.find? row.1 = some (.file old)) :
    (fs.rewrite contents).outline = fs.outline := by
  induction contents generalizing fs with
  | nil => rfl
  | cons row rest ih =>
      obtain ⟨old, hold⟩ := hfiles row List.mem_cons_self
      have hput := outline_put_file (.text row.2) hold
      have hrest : ∀ other ∈ rest, ∃ old,
          (fs.put row.1 (.file (.text row.2))).find? other.1 = some (.file old) := by
        intro other hother
        obtain ⟨content, hcontent⟩ := hfiles other (List.mem_cons_of_mem _ hother)
        exact file_of_outline_eq hput hcontent
      exact (ih hrest).trans hput

/-! ## The order of contents -/

/-- Rows that are there already can be replaced in any order. -/
theorem putRow_comm {l k : Location} {entry other : Entry} {rows : List (Location × Entry)}
    (hne : l ≠ k) (hl : l ∈ rows.map (·.1)) (hk : k ∈ rows.map (·.1)) :
    putRow l entry (putRow k other rows) = putRow k other (putRow l entry rows) := by
  induction rows with
  | nil => cases hl
  | cons row rest ih =>
      rw [List.map_cons, List.mem_cons] at hl hk
      by_cases hrowl : row.1 = l
      · have hrowk : row.1 ≠ k := fun h => hne (hrowl.symm.trans h)
        simp only [putRow, if_pos hrowl, if_neg hrowk, if_neg hne]
      · by_cases hrowk : row.1 = k
        · simp only [putRow, if_pos hrowk, if_neg hrowl, if_neg hne.symm]
        · have hrest := ih (hl.resolve_left (Ne.symm hrowl)) (hk.resolve_left (Ne.symm hrowk))
          simp only [putRow, if_neg hrowk, if_neg hrowl, hrest]

/-- Where a file is found there is a row for it. -/
theorem mem_keys_of_file {l : Location} {content : Content}
    (hfile : fs.find? l = some (.file content)) : l ∈ fs.entries.map (·.1) := by
  rw [find?, if_neg (ne_nil_of_file hfile)] at hfile
  obtain ⟨row, hrow, _⟩ := Option.map_eq_some_iff.mp hfile
  have hkey : row.1 = l := by simpa using List.find?_some hrow
  exact List.mem_map.mpr ⟨row, List.mem_of_find?_eq_some hrow, hkey⟩

/-- Files at two locations can be put in either order. -/
theorem put_comm {l k : Location} {content other : Content} (entry entry' : Entry) (hne : l ≠ k)
    (hl : fs.find? l = some (.file content)) (hk : fs.find? k = some (.file other)) :
    (fs.put k entry').put l entry = (fs.put l entry).put k entry' := by
  have hrows : putRow l entry (putRow k entry' fs.entries) =
      putRow k entry' (putRow l entry fs.entries) :=
    putRow_comm hne (mem_keys_of_file hl) (mem_keys_of_file hk)
  simp only [put, if_neg (ne_nil_of_file hl), if_neg (ne_nil_of_file hk), hrows]

/-- **New contents for distinct files can be given in any order.** -/
theorem rewrite_perm {contents more : List (Location × Text)} (hperm : contents.Perm more)
    (hdistinct : (contents.map (·.1)).Nodup)
    (hfiles : ∀ row ∈ contents, ∃ old, fs.find? row.1 = some (.file old)) :
    fs.rewrite contents = fs.rewrite more := by
  induction hperm generalizing fs with
  | nil => rfl
  | cons row hrest ih =>
      obtain ⟨old, hold⟩ := hfiles row List.mem_cons_self
      refine ih (List.nodup_cons.mp hdistinct).2 fun other hother => ?_
      obtain ⟨content, hcontent⟩ := hfiles other (List.mem_cons_of_mem _ hother)
      exact file_of_outline_eq (outline_put_file (.text row.2) hold) hcontent
  | swap row other rest =>
      obtain ⟨old, hold⟩ := hfiles row (by simp)
      obtain ⟨content, hcontent⟩ := hfiles other (by simp)
      have hne : row.1 ≠ other.1 := by
        rintro hsame
        simp [hsame] at hdistinct
      exact congrArg (FileSystem.rewrite · rest) (put_comm _ _ hne hold hcontent)
  | trans hfirst _ ihfirst ihthen =>
      refine (ihfirst hdistinct hfiles).trans (ihthen ?_ fun row hrow => ?_)
      · exact (hfirst.map _).nodup_iff.mp hdistinct
      · exact hfiles row (hfirst.mem_iff.mpr hrow)

end LicenseHeaders.FileSystem
