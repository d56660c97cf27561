import FlowStudio.Proofs.FileTree.History

/-! Spellings of one path. A tree looks at the segments of a path only, so each spelling leads to the
same answers and the same edits as the canonical one. An invalid path alone is told as it was
spelt. -/

namespace FlowStudio.FileTree
open FlowStudio.Path
variable {t : FileTree} {p q : String}

def SameEdit {α : Type} (t : FileTree) (p q : String) (edit : String → Edit α) : Prop :=
  edit p = edit q ∨
    (edit p = ⟨t, .error (.invalidPath p)⟩ ∧ edit q = ⟨t, .error (.invalidPath q)⟩)

/-- A tree does not tell two spellings apart. -/
structure Interchangeable (t : FileTree) (p q : String) : Prop where
  addFile (body : String) : t.SameEdit p q (t.addFile · body)
  addDirectory : t.SameEdit p q t.addDirectory
  delete : t.delete p = t.delete q
  read? : t.read? p = t.read? q
  kind? : t.kind? p = t.kind? q
  list? : t.list? p = t.list? q

section
variable (h : segments p = segments q)
include h

theorem checked_of_segments_eq : checked p = checked q ∨
    (checked p = .error (.invalidPath p) ∧ checked q = .error (.invalidPath q)) := by
  rw [checked, checked, h]
  cases (segments q).any isStep with
  | false => exact .inl rfl
  | true => exact .inr ⟨rfl, rfl⟩

theorem sameEdit_addDirectory : t.SameEdit p q t.addDirectory := by
  rcases checked_of_segments_eq h with hsame | ⟨hp, hq⟩
  · left
    rw [addDirectory, addDirectory, hsame]
  · right
    rw [addDirectory, addDirectory, hp, hq]
    exact ⟨rfl, rfl⟩

theorem sameEdit_addFile (body : String) : t.SameEdit p q (t.addFile · body) := by
  rcases checked_of_segments_eq h with hsame | ⟨hp, hq⟩
  · simp only [SameEdit, addFile, hsame]
    cases checked q with
    | error e => exact .inl rfl
    | ok segs =>
      -- the text of the path comes in again where no segment is left to name the file
      cases hlast : segs.getLast? with
      | none => simp [hlast]
      | some name => simp [hlast]
  · right
    simp only [addFile, hp, hq, and_self]

theorem interchangeable_of_segments_eq : t.Interchangeable p q := by
  have hentry : t.entry? p = t.entry? q := by simp only [h, entry?]
  exact {
    addFile := sameEdit_addFile h
    addDirectory := sameEdit_addDirectory h
    delete := by rw [delete, delete, h]
    read? := by rw [FileTree.read?, FileTree.read?, hentry]
    kind? := by rw [FileTree.kind?, FileTree.kind?, hentry]
    list? := by rw [FileTree.list?, FileTree.list?, hentry] }

end

theorem interchangeable_of_normalize (h : normalize p = .ok q) (t : FileTree) :
    t.Interchangeable p q := interchangeable_of_segments_eq (segments_of_normalize h).symm

/-- A path is refused for its steps alone. Any other has one canonical form, which its segments
determine and which no tree tells from the path, and joined segments are found again. -/
theorem spellings_have_one_canonical_form (p : String) :
    (segments p = ((p.toList.splitOn '/').filter fun piece => !piece.isEmpty).map String.ofList) ∧
    (∀ e, normalize p = .error e ↔
      (".".toList ∈ p.toList.splitOn '/' ∨ "..".toList ∈ p.toList.splitOn '/') ∧
        e = .invalidPath p) ∧
    (".".toList ∉ p.toList.splitOn '/' → "..".toList ∉ p.toList.splitOn '/' →
      ∃ q, normalize p = .ok q ∧ IsCanonical q ∧ segments q = segments p ∧ normalize q = .ok q ∧
        ∀ t : FileTree, t.Interchangeable p q) ∧
    (∀ p' q q', normalize p = .ok q → normalize p' = .ok q' →
      (q = q' ↔ segments p = segments p')) ∧
    ∀ segs : List String, (∀ s ∈ segs, s ≠ "" ∧ '/' ∉ s.toList) → segments (join segs) = segs := by
  refine ⟨segments_eq_filter_splitOn p, fun e => ?_, fun hdot hdots => ?_,
    fun _ _ _ => eq_iff_segments_eq, fun _ => segments_join⟩
  · rw [normalize_eq_error_iff, exists_step_iff]
  · have hstep : ¬∃ s ∈ segments p, s = "." ∨ s = ".." := by
      rw [exists_step_iff]
      exact not_or_intro hdot hdots
    have hp := normalize_of_no_steps (by simpa using hstep)
    exact ⟨_, hp, isCanonical_join fun _ => isSegment_of_mem_segments, segments_of_normalize hp,
      normalize_of_normalize hp, interchangeable_of_normalize hp⟩

theorem spellings_have_one_canonical_form_doubled :
    let t := after [.file "/a/b" "x", .directory "/c"]
    normalize "a//b/" = .ok "/a/b" ∧ t.Interchangeable "a//b/" "/a/b" ∧
      t.Interchangeable "//" "/" ∧ segments "a//b/" ≠ segments "ab/" ∧
      segments (join ["a b", "..", "é"]) = ["a b", "..", "é"] := by
  intro t
  have hab : normalize "a//b/" = .ok "/a/b" := by decide
  have hroot : normalize "//" = .ok "/" := by decide
  obtain ⟨-, -, hform, hdetermined, hsplit⟩ := spellings_have_one_canonical_form "a//b/"
  obtain ⟨q, hq, -, -, -, hsame⟩ := hform (by decide) (by decide)
  obtain rfl := Except.ok.inj (hq.symm.trans hab)
  obtain ⟨r, hr, -, -, -, hsameRoot⟩ :=
    (spellings_have_one_canonical_form "//").2.2.1 (by decide) (by decide)
  obtain rfl := Except.ok.inj (hr.symm.trans hroot)
  have hother := (hdetermined "ab/" "/a/b" "/ab" hab (by decide)).not.mp (by decide)
  exact ⟨hab, hsame t, hsameRoot t, hother, hsplit _ (by decide)⟩

end FlowStudio.FileTree
