import FlowStudio.Proofs.FileTree.Unfolding
import FlowStudio.Proofs.Session.Explorer

/-! Opening and closing a directory. The open paths are kept in order, so that they are the same list
again once a path that was toggled is toggled back. -/

namespace FlowStudio
open FlowStudio.Path FlowStudio.FileTree
variable {σ : Type}

namespace Explorer
variable {path p : String} {ps qs : List String}

theorem pairwise_insertPath (h : ps.Pairwise (· < ·)) (hp : path ∉ ps) :
    (insertPath path ps).Pairwise (· < ·) := by
  induction ps with
  | nil => exact List.pairwise_singleton _ path
  | cons q ps ih =>
    obtain ⟨hq, hps⟩ := List.pairwise_cons.mp h
    obtain ⟨hne, hp⟩ := List.ne_and_not_mem_of_not_mem_cons hp
    rw [insertPath]
    split
    · next hlt =>
      refine List.pairwise_cons.mpr ⟨List.forall_mem_cons.mpr ⟨hlt, fun r hr => ?_⟩, h⟩
      exact String.lt_trans hlt (hq r hr)
    · next hnot =>
      refine List.pairwise_cons.mpr ⟨fun r hr => ?_, ih hps hp⟩
      rcases mem_insertPath_iff.mp hr with rfl | hr
      · exact lt_of_le_of_ne (not_lt.mp hnot) hne.symm
      · exact hq r hr

theorem pairwise_flipped (h : ps.Pairwise (· < ·)) : (flipped path ps).Pairwise (· < ·) := by
  rw [flipped]
  split
  · exact h.erase path
  · next hnot => exact pairwise_insertPath h (by simpa using hnot)

theorem mem_flipped_iff (h : ps.Pairwise (· < ·)) :
    p ∈ flipped path ps ↔ (p ∈ ps ↔ p ≠ path) := by
  rw [flipped]
  split
  · next hmem =>
    have hpath : path ∈ ps := by simpa using hmem
    rw [h.nodup.mem_erase_iff]
    by_cases hp : p = path
    · simp [hp, hpath]
    · simp [hp]
  · next hnot =>
    have hpath : path ∉ ps := by simpa using hnot
    rw [mem_insertPath_iff]
    by_cases hp : p = path
    · simp [hp, hpath]
    · simp [hp]

theorem eq_of_mem_iff (hps : ps.Pairwise (· < ·)) (hqs : qs.Pairwise (· < ·))
    (h : ∀ p, p ∈ ps ↔ p ∈ qs) : ps = qs := by
  refine List.Perm.eq_of_pairwise (fun _ _ _ _ hab hba => absurd hba (String.lt_asymm hab)) hps hqs ?_
  exact (List.perm_ext_iff_of_nodup hps.nodup hqs.nodup).mpr h

theorem flipped_flipped (h : ps.Pairwise (· < ·)) : flipped path (flipped path ps) = ps := by
  refine eq_of_mem_iff (pairwise_flipped (pairwise_flipped h)) h fun p => ?_
  rw [mem_flipped_iff (pairwise_flipped h), mem_flipped_iff h]
  tauto

theorem refresh_eq {tree : FileTree} (h : ∀ p ∈ ps, tree.isDir p = true) :
    refresh tree ps = ⟨ps, tree.rows ps⟩ := by
  rw [refresh, List.filter_eq_self.mpr h]

end Explorer

def Desk.Ordered (d : Desk) : Prop := d.explorer.expanded.Pairwise (· < ·)

theorem Desk.Turn.ordered {a : Action σ} {d d' : Desk} (h : Desk.Turn a d d') (hd : d.Ordered) :
    d'.Ordered := by
  cases h with
  | kept => exact hd
  | wrote _ _ => exact List.Pairwise.filter _ hd
  | made _ => exact List.Pairwise.filter _ hd
  | removed _ _ => exact List.Pairwise.filter _ hd
  | opened _ _ => exact hd
  | toggled _ h =>
    obtain ⟨-, -, rfl⟩ := Explorer.toggle?_eq_some_iff.mp h
    exact (Explorer.pairwise_flipped hd).filter _
  | adopted => exact .nil

theorem FileTree.unfolds_flipped {t : FileTree} (hw : t.WellFormed) {d : String}
    (hd : normalize d = .ok d) (hroot : d ≠ "/") (hdir : t.isDir d = true) {expanded : List String}
    (h : expanded.Pairwise (· < ·)) :
    (d ∈ expanded → Unfolds d (t.rows (Explorer.flipped d expanded)) (t.rows expanded)) ∧
    (d ∉ expanded → Unfolds d (t.rows expanded) (t.rows (Explorer.flipped d expanded))) := by
  have hself : d ∈ Explorer.flipped d expanded ↔ d ∉ expanded := by
    rw [Explorer.mem_flipped_iff h]
    tauto
  refine ⟨fun hmem => unfolds_rows hw hd hdir hroot (fun p => ?_) (fun hin => hself.mp hin hmem),
    fun hmem => unfolds_rows hw hd hdir hroot (fun p => ?_) hmem⟩
  all_goals
    rw [Explorer.mem_flipped_iff h]
    by_cases hp : p = d <;> simp [hp, hmem]

namespace Session
variable {s : Session σ} {path d : String}

theorem toggle_of_not_isDir
    (h : ¬∃ d, normalize path = .ok d ∧ d ≠ "/" ∧ s.tree.isDir d = true) :
    s.toggle path = s.unchanged := by
  rw [toggle]
  split
  · rfl
  · next d hp =>
    split
    · next e he =>
      obtain ⟨hdir, hroot, -⟩ := Explorer.toggle?_eq_some_iff.mp he
      exact absurd ⟨d, hp, hroot, hdir⟩ h
    · rfl

def withOpen (s : Session σ) (expanded : List String) : Session σ :=
  { s with explorer := ⟨expanded, s.tree.rows expanded⟩ }

theorem withOpen_expanded (h : s.desk.Current) : s.withOpen s.explorer.expanded = s := by
  have hrows : s.explorer.rows = s.tree.rows s.explorer.expanded := h.rows_eq
  rw [withOpen, ← hrows]

theorem toggle_of_isDir (h : s.desk.Current) (hp : normalize path = .ok d) (hroot : d ≠ "/")
    (hdir : s.tree.isDir d = true) :
    s.toggle path = (s.withOpen (Explorer.flipped d s.explorer.expanded)).changed := by
  rw [toggle, hp]
  dsimp only
  rw [Explorer.toggle?_eq_some_iff.mpr ⟨hdir, hroot, rfl⟩, Explorer.refresh_eq fun p hmem => ?_]
  · rfl
  · rcases Explorer.mem_of_mem_flipped hmem with rfl | hmem
    · exact hdir
    · exact (h.dir_of_mem p hmem).2.2

theorem toggle_toggle (h : s.desk.Current) (hordered : s.desk.Ordered) (hp : normalize path = .ok d)
    (hroot : d ≠ "/") (hdir : s.tree.isDir d = true) :
    (s.toggle path).session.toggle path = s.changed := by
  let u := s.withOpen (Explorer.flipped d s.explorer.expanded)
  have htoggle : s.toggle path = u.changed := toggle_of_isDir h hp hroot hdir
  have hu : u.desk.Current := by
    have hturn : Desk.Turn (.toggle path) s.desk (s.toggle path).session.desk :=
      s.turn_dispatch 0 (.toggle path)
    rw [htoggle] at hturn
    exact hturn.current h
  have hback : Explorer.flipped d u.explorer.expanded = s.explorer.expanded :=
    Explorer.flipped_flipped hordered
  calc (s.toggle path).session.toggle path
    _ = u.toggle path := by rw [htoggle]; rfl
    _ = (u.withOpen s.explorer.expanded).changed := by rw [toggle_of_isDir hu hp hroot hdir, hback]
    _ = (s.withOpen s.explorer.expanded).changed := rfl
    _ = s.changed := by rw [withOpen_expanded h]

/-- Whatever came in before, a toggle that changes anything opens or closes one directory, brings in
or takes out the rows inside it, and is undone by another. -/
theorem toggle_is_local_and_undone (settings : Settings) (changes : List Change)
    (target : Option String) (first : Session σ)
    (hfirst : first = .start settings ∨ first = .ofTree (.after changes) target settings)
    (es : List (Arrival σ)) (now : Nat) (path : String) :
    let s := first.runSession es
    let o := s.dispatch now (.toggle path)
    let e := o.session.explorer
    (o.changed = true ↔ ∃ d, normalize path = .ok d ∧ d ≠ "/" ∧ s.tree.isDir d = true) ∧
    (o.changed = false → o = s.unchanged) ∧
    (o.changed = true → o = { s with explorer := e }.changed) ∧
    ∀ d, o.changed = true → normalize path = .ok d →
      (∀ p, p ∈ e.expanded ↔ (p ∈ s.explorer.expanded ↔ p ≠ d)) ∧
      (d ∈ s.explorer.expanded → Unfolds d e.rows s.explorer.rows) ∧
      (d ∉ s.explorer.expanded → Unfolds d s.explorer.rows e.rows) ∧
      ∀ later, o.session.dispatch later (.toggle path) = s.changed := by
  intro s
  have hw : s.tree.WellFormed := wellFormed_runSession hfirst es
  have hcurrent : s.desk.Current := current_runSession (current_of_first hfirst) es
  have hordered : s.desk.Ordered := by
    refine desk_runSession (σ := σ) (fun h hd => h.ordered hd) ?_ es
    rcases hfirst with rfl | rfl <;> exact .nil
  by_cases hdir : ∃ d, normalize path = .ok d ∧ d ≠ "/" ∧ s.tree.isDir d = true
  · obtain ⟨d, hp, hroot, hdir⟩ := hdir
    have htoggle : s.dispatch now (.toggle path) = _ := toggle_of_isDir hcurrent hp hroot hdir
    have hback : ∀ later, (s.dispatch now (.toggle path)).session.dispatch later (.toggle path) =
        s.changed := fun _ => toggle_toggle hcurrent hordered hp hroot hdir
    rw [htoggle] at hback ⊢
    refine ⟨⟨fun _ => ⟨d, hp, hroot, hdir⟩, fun _ => rfl⟩, nofun, fun _ => rfl, fun d' _ hp' => ?_⟩
    obtain rfl := Except.ok.inj (hp.symm.trans hp')
    have hd := normalize_of_normalize hp
    obtain ⟨hclosing, hopening⟩ := unfolds_flipped hw hd hroot hdir hordered
    have hrows : s.explorer.rows = s.tree.rows s.explorer.expanded := hcurrent.rows_eq
    rw [hrows]
    exact ⟨fun p => Explorer.mem_flipped_iff hordered, hclosing, hopening, hback⟩
  · have htoggle : s.dispatch now (.toggle path) = s.unchanged := toggle_of_not_isDir hdir
    rw [htoggle]
    exact ⟨⟨nofun, fun h => absurd h hdir⟩, fun _ => rfl, nofun, nofun⟩

theorem toggle_is_local_and_undone_nested :
    let first : Session Nat := .ofTree (.after [.file "/a/b/c" "x", .file "/d" "y"]) none .default
    let s := first.runSession [⟨0, .toggle "a"⟩, ⟨1, .toggle "a/b"⟩]
    let o := s.dispatch 2 (.toggle "//a")
    s.explorer.rows.map Row.path = ["/a", "/a/b", "/a/b/c", "/d"] ∧
      o.session.explorer.rows.map Row.path = ["/a", "/d"] ∧
      o.session.explorer.expanded = ["/a/b"] ∧
      Unfolds "/a" o.session.explorer.rows s.explorer.rows ∧
      (∀ later, o.session.dispatch later (.toggle "//a") = s.changed) ∧
      s.dispatch 2 (.toggle "d") = s.unchanged := by
  intro first
  have hrule := toggle_is_local_and_undone .default _ none first (.inr rfl)
    [⟨0, .toggle "a"⟩, ⟨1, .toggle "a/b"⟩] 2
  dsimp only at hrule ⊢
  obtain ⟨-, -, -, hopen⟩ := hrule "//a"
  obtain ⟨-, hrefused, -⟩ := hrule "d"
  obtain ⟨-, hclosing, -, hback⟩ := hopen "/a" (by decide +kernel) (by decide)
  exact ⟨by decide +kernel, by decide +kernel, by decide +kernel, hclosing (by decide +kernel), hback,
    hrefused (by decide +kernel)⟩

end Session
end FlowStudio
