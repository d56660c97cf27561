import FlowStudio.Proofs.FileTree.Acceptance
import FlowStudio.Proofs.FileTree.History

/-! Why an edit is refused, told by what stands at which paths, and that a refused one leaves the
tree as it was. -/

namespace FlowStudio.FileTree
open FlowStudio.Path
variable {t t' : FileTree} {path : String} {e : PathError}

inductive NoDirectory (t : FileTree) (path : String) : PathError → Prop
  | step {s : String} : s ∈ segments path → s = "." ∨ s = ".." →
    NoDirectory t path (.invalidPath path)
  | file {q : List String} : (∀ s ∈ segments path, s ≠ "." ∧ s ≠ "..") →
    q ≠ [] → q <+: segments path → t.isFile (join q) → NoDirectory t path (.conflict (join q))

inductive NoFile (t : FileTree) (path : String) : PathError → Prop
  | step {s : String} : s ∈ segments path → s = "." ∨ s = ".." → NoFile t path (.invalidPath path)
  | unnamed : segments path = [] → NoFile t path (.invalidPath path)
  | directory : (∀ s ∈ segments path, s ≠ "." ∧ s ≠ "..") → segments path ≠ [] → t.isDir path →
    NoFile t path (.conflict (join (segments path)))
  | file {q : List String} : (∀ s ∈ segments path, s ≠ "." ∧ s ≠ "..") → ¬t.isDir path →
    q <+: segments path → q ≠ segments path → t.isFile (join q) → NoFile t path (.conflict (join q))

inductive NoRemoval (t : FileTree) (path : String) : PathError → Prop
  | root : segments path = [] → NoRemoval t path .rootRemoval
  | missing : segments path ≠ [] → t.resolve? (segments path) = none →
    NoRemoval t path (.notFound (join (segments path)))

theorem isFile_join_iff {q : List String} (hq : q <+: segments path) :
    t.isFile (join q) = true ↔ ∃ body, t.content? q = some (.file body) := by
  rw [isFile_iff, segments_join fun s hs => isSegment_of_mem_segments (hq.subset hs)]

theorem noFile_iff_of_step (h : ∃ s ∈ segments path, s = "." ∨ s = "..") :
    NoFile t path e ↔ e = .invalidPath path := by
  obtain ⟨s, hs, hstep⟩ := h
  constructor
  · rintro (_ | _ | ⟨hnone, _, _⟩ | ⟨hnone, _, _, _, _⟩)
    · rfl
    · rfl
    · exact absurd hstep (by simp [hnone s hs])
    · exact absurd hstep (by simp [hnone s hs])
  · rintro rfl
    exact .step hs hstep

theorem noFile_iff_of_nil (h : segments path = []) : NoFile t path e ↔ e = .invalidPath path := by
  constructor
  · rintro (_ | _ | ⟨_, hne, _⟩ | ⟨_, _, hq, hne, _⟩)
    · rfl
    · rfl
    · exact absurd h hne
    · rw [h] at hq hne
      exact absurd (List.prefix_nil.mp hq) hne
  · rintro rfl
    exact .unnamed h

theorem noFile_iff_of_concat {above : List String} {name : String}
    (hsegs : segments path = above ++ [name]) (hnames : ∀ s ∈ segments path, IsName s) :
    NoFile t path e ↔ (t.content? (above ++ [name]) = some .dir ∧
        e = .conflict (join (above ++ [name]))) ∨
      (t.content? (above ++ [name]) ≠ some .dir ∧ Blocked t above e) := by
  have hsteps : ∀ s ∈ segments path, s ≠ "." ∧ s ≠ ".." := fun s hs => (hnames s hs).2
  have hprefix : ∀ {q : List String}, q <+: segments path ∧ q ≠ segments path ↔ q <+: above := by
    intro q
    rw [hsegs, List.prefix_concat_iff]
    constructor
    · exact fun h => h.1.resolve_left h.2
    · refine fun hq => ⟨.inr hq, ?_⟩
      rintro rfl
      have hle := hq.length_le
      rw [List.length_append, List.length_singleton] at hle
      omega
  have hdir : t.isDir path = true ↔ t.content? (above ++ [name]) = some .dir := by
    rw [isDir_iff, hsegs]
  rw [ne_eq, ← hdir]
  constructor
  · rintro (⟨hs, hstep⟩ | hnil | ⟨_, _, hd⟩ | ⟨_, hd, hq, hne, hfile⟩)
    · exact absurd hstep (by simp [hsteps _ hs])
    · simp [hsegs] at hnil
    · exact .inl ⟨hd, by rw [hsegs]⟩
    · obtain ⟨body, hbody⟩ := (isFile_join_iff hq).mp hfile
      exact .inr ⟨hd, _, body, hprefix.mp ⟨hq, hne⟩, hbody, rfl⟩
  · rintro (⟨hd, rfl⟩ | ⟨hd, q, body, hq, hfile, rfl⟩)
    · rw [← hsegs]
      exact .directory hsteps (by simp [hsegs]) hd
    · obtain ⟨hq, hne⟩ := hprefix.mpr hq
      exact .file hsteps hd hq hne ((isFile_join_iff hq).mpr ⟨body, hfile⟩)

section
variable (hw : t.WellFormed)
include hw

theorem result_addDirectory_iff :
    (t.addDirectory path).result = .error e ↔ NoDirectory t path e := by
  cases hc : checked path with
  | error e' =>
    obtain ⟨⟨s, hs, hstep⟩, rfl⟩ := checked_eq_error_iff.mp hc
    have hresult : (t.addDirectory path).result = .error (.invalidPath path) := by
      rw [addDirectory, hc]
    rw [hresult, Except.error.injEq]
    constructor
    · rintro rfl
      exact .step hs hstep
    · rintro (_ | ⟨hnone, _, _, _⟩)
      · rfl
      · exact absurd hstep (by simp [hnone s hs])
  | ok segs =>
    obtain ⟨rfl, hnames⟩ := checked_eq_ok_iff.mp hc
    rw [result_addDirectory_of_names hw hnames]
    constructor
    · rintro ⟨q, body, hq, hfile, rfl⟩
      have hne : q ≠ [] := by
        rintro rfl
        exact not_blocked_nil hw ⟨[], body, List.prefix_refl _, hfile, rfl⟩
      exact .file (fun s hs => (hnames s hs).2) hne hq ((isFile_join_iff hq).mpr ⟨body, hfile⟩)
    · rintro (⟨hs, hstep⟩ | ⟨_, _, hq, hfile⟩)
      · exact absurd hstep (by simp [(hnames _ hs).2])
      · obtain ⟨body, hbody⟩ := (isFile_join_iff hq).mp hfile
        exact ⟨_, body, hq, hbody, rfl⟩

theorem result_addFile_iff {body : String} :
    (t.addFile path body).result = .error e ↔ NoFile t path e := by
  cases hc : checked path with
  | error e' =>
    obtain ⟨hstep, rfl⟩ := checked_eq_error_iff.mp hc
    rw [addFile, hc, noFile_iff_of_step hstep, Except.error.injEq, eq_comm]
  | ok segs =>
    obtain ⟨rfl, hnames⟩ := checked_eq_ok_iff.mp hc
    rcases List.eq_nil_or_concat (segments path) with hsegs | ⟨above, name, hsegs⟩
    · simp [addFile, hc, noFile_iff_of_nil hsegs, hsegs, eq_comm]
    · rw [List.concat_eq_append] at hsegs
      rw [result_addFile_of_names hw body hnames hsegs, noFile_iff_of_concat hsegs hnames]

end

theorem result_delete_iff : (t.delete path).result = .error e ↔ NoRemoval t path e := by
  rw [delete]
  rcases List.eq_nil_or_concat (segments path) with hsegs | ⟨above, name, hsegs⟩
  · simp only [hsegs, List.getLast?_nil, Except.error.injEq]
    constructor
    · rintro rfl
      exact .root hsegs
    · rintro (_ | ⟨hne, _⟩)
      · rfl
      · exact absurd hsegs hne
  · have hne : segments path ≠ [] := by simp [hsegs]
    have hlast : (segments path).getLast? = some name := by simp [hsegs]
    simp only [hlast]
    cases hid : t.resolve? (segments path) with
    | some id =>
      simp only [reduceCtorEq, false_iff]
      rintro (hnil | ⟨_, hnone⟩)
      · exact hne hnil
      · simp [hid] at hnone
    | none =>
      simp only [Except.error.injEq]
      constructor
      · rintro rfl
        exact .missing hne hid
      · rintro (hnil | _)
        · exact absurd hnil hne
        · rfl

theorem eq_refused_iff {α : Type} {edit : Edit α} {why : PathError → Prop}
    (htree : ∀ {e}, edit.result = .error e → edit.tree = t)
    (hwhy : ∀ {e}, edit.result = .error e ↔ why e) :
    edit = ⟨t', .error e⟩ ↔ t' = t ∧ why e := by
  rw [← hwhy]
  constructor
  · rintro rfl
    exact ⟨htree rfl, rfl⟩
  · rintro ⟨rfl, he⟩
    rw [← htree he, ← he]

/-- After any edits, one more is refused for the reasons given and no other, with the error that
names the reason, and it leaves the whole tree as it was. -/
theorem refusals_are_exact_and_atomic (changes : List Change) (path body : String) (t' : FileTree)
    (e : PathError) :
    ((after changes).addDirectory path = ⟨t', .error e⟩ ↔
      t' = after changes ∧ NoDirectory (after changes) path e) ∧
    ((after changes).addFile path body = ⟨t', .error e⟩ ↔
      t' = after changes ∧ NoFile (after changes) path e) ∧
    ((after changes).delete path = ⟨t', .error e⟩ ↔
      t' = after changes ∧ NoRemoval (after changes) path e) := by
  have hw := wellFormed_after changes
  exact ⟨eq_refused_iff tree_addDirectory_of_error (result_addDirectory_iff hw),
    eq_refused_iff tree_addFile_of_error (result_addFile_iff hw),
    eq_refused_iff tree_delete_of_error result_delete_iff⟩

end FlowStudio.FileTree
