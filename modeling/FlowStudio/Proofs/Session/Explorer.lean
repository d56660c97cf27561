import FlowStudio.Proofs.FileTree.History
import FlowStudio.Proofs.Session.Files

/-! The explorer is never out of date. Its rows are those of the tree as it is, and only what is a
directory of that tree is open, so a directory that comes back is closed. -/

namespace FlowStudio
open FlowStudio.Path
variable {σ : Type}

namespace Explorer

theorem mem_insertPath_iff {path p : String} {ps : List String} :
    p ∈ insertPath path ps ↔ p = path ∨ p ∈ ps := by
  induction ps with
  | nil => simp [insertPath]
  | cons r ps ih =>
    rw [insertPath]
    split
    · rw [List.mem_cons]
    · rw [List.mem_cons, ih, List.mem_cons, or_left_comm]

theorem mem_expanded_refresh_iff {tree : FileTree} {expanded : List String} {p : String} :
    p ∈ (refresh tree expanded).expanded ↔ p ∈ expanded ∧ tree.isDir p = true := List.mem_filter

def flipped (path : String) (expanded : List String) : List String :=
  if expanded.contains path then expanded.erase path else insertPath path expanded

theorem mem_of_mem_flipped {path p : String} {expanded : List String}
    (h : p ∈ flipped path expanded) : p = path ∨ p ∈ expanded := by
  rw [flipped] at h
  split at h
  · exact .inr (List.mem_of_mem_erase h)
  · exact mem_insertPath_iff.mp h

theorem toggle?_eq_some_iff {e e' : Explorer} {tree : FileTree} {path : String} :
    e.toggle? tree path = some e' ↔
      tree.isDir path = true ∧ path ≠ "/" ∧ e' = refresh tree (flipped path e.expanded) := by
  by_cases hdir : tree.isDir path = true ∧ path ≠ "/"
  · have hflipped : e.toggle? tree path = some (refresh tree (flipped path e.expanded)) := by
      rw [toggle?, flipped, if_neg (by simp [hdir])]
      split <;> rfl
    rw [hflipped, Option.some_inj, eq_comm]
    exact ⟨fun h => ⟨hdir.1, hdir.2, h⟩, fun h => h.2.2⟩
  · have hrefused : e.toggle? tree path = none := by
      refine if_pos ?_
      rw [Decidable.not_and_iff_or_not, not_not] at hdir
      simpa using hdir
    rw [hrefused]
    exact ⟨nofun, fun h => absurd ⟨h.1, h.2.1⟩ hdir⟩

end Explorer

/-- The rows are those of the tree, and every open path is that of a directory with a row. -/
structure Desk.Current (d : Desk) : Prop where
  rows_eq : d.explorer.rows = d.tree.rows d.explorer.expanded
  dir_of_mem : ∀ p ∈ d.explorer.expanded, normalize p = .ok p ∧ p ≠ "/" ∧ d.tree.isDir p = true

theorem Desk.current_of_refresh {tree : FileTree} {expanded : List String}
    (h : ∀ p ∈ expanded, normalize p = .ok p ∧ p ≠ "/") (target : Option String) :
    Desk.Current ⟨tree, target, .refresh tree expanded⟩ where
  rows_eq := rfl
  dir_of_mem p hp := by
    obtain ⟨hmem, hdir⟩ := Explorer.mem_expanded_refresh_iff.mp hp
    exact ⟨(h p hmem).1, (h p hmem).2, hdir⟩

theorem Desk.Turn.current {a : Action σ} {d d' : Desk} (h : Desk.Turn a d d') (hd : d.Current) :
    d'.Current := by
  have hold : ∀ p ∈ d.explorer.expanded, normalize p = .ok p ∧ p ≠ "/" := fun p hp =>
    ⟨(hd.dir_of_mem p hp).1, (hd.dir_of_mem p hp).2.1⟩
  cases h with
  | kept => exact hd
  | wrote _ _ => exact Desk.current_of_refresh hold d.target
  | made _ => exact Desk.current_of_refresh hold d.target
  | removed _ _ => exact Desk.current_of_refresh hold _
  | opened _ _ => exact ⟨hd.rows_eq, hd.dir_of_mem⟩
  | @toggled _ path p explorer hp h =>
    obtain ⟨-, hroot, rfl⟩ := Explorer.toggle?_eq_some_iff.mp h
    refine Desk.current_of_refresh (fun q hq => ?_) d.target
    rcases Explorer.mem_of_mem_flipped hq with rfl | hq
    · exact ⟨normalize_of_normalize hp, hroot⟩
    · exact hold q hq
  | adopted => exact Desk.current_of_refresh (fun p hp => absurd hp List.not_mem_nil) _

theorem Desk.Turn.notMem_expanded {a : Action σ} {d d' : Desk} (h : Desk.Turn a d d') {p : String}
    (hp : p ∉ d.explorer.expanded)
    (hother : ∀ path, a = .toggle path → normalize path ≠ .ok p) :
    p ∉ d'.explorer.expanded := by
  have hrefresh : ∀ tree, p ∉ (Explorer.refresh tree d.explorer.expanded).expanded :=
    fun tree hmem => hp (Explorer.mem_expanded_refresh_iff.mp hmem).1
  cases h with
  | kept => exact hp
  | wrote _ _ => exact hrefresh _
  | made _ => exact hrefresh _
  | removed _ _ => exact hrefresh _
  | opened _ _ => exact hp
  | toggled hnorm h =>
    obtain ⟨-, -, rfl⟩ := Explorer.toggle?_eq_some_iff.mp h
    intro hq
    rcases Explorer.mem_of_mem_flipped (Explorer.mem_expanded_refresh_iff.mp hq).1 with rfl | hq
    · exact hother _ rfl hnorm
    · exact hp hq
  | adopted => exact fun hmem => List.not_mem_nil (Explorer.mem_expanded_refresh_iff.mp hmem).1

namespace Session

theorem notMem_expanded_runSession {s : Session σ} {p : String} (hp : p ∉ s.explorer.expanded)
    {es : List (Arrival σ)}
    (hother : ∀ e ∈ es, ∀ path, e.action = .toggle path → normalize path ≠ .ok p) :
    p ∉ (s.runSession es).explorer.expanded := by
  induction es generalizing s with
  | nil => exact hp
  | cons e es ih =>
    obtain ⟨he, hes⟩ := List.forall_mem_cons.mp hother
    exact ih ((s.turn_dispatch e.now e.action).notMem_expanded hp he) hes

theorem current_ofTree (tree : FileTree) (target : Option String) (settings : Settings) :
    (ofTree tree target settings : Session σ).desk.Current :=
  Desk.current_of_refresh (fun _ hp => absurd hp List.not_mem_nil) target

theorem current_runSession {s : Session σ} (h : s.desk.Current) (es : List (Arrival σ)) :
    (s.runSession es).desk.Current :=
  desk_runSession (σ := σ) (fun h hd => h.current hd) h es

theorem current_of_first {settings : Settings} {changes : List Change} {target : Option String}
    {first : Session σ}
    (hfirst : first = .start settings ∨ first = .ofTree (.after changes) target settings) :
    first.desk.Current := by
  rcases hfirst with rfl | rfl <;> exact current_ofTree _ _ settings

/-- Whatever comes in, the explorer shows the tree as it is. What was no directory at some time is
closed from then on, until it is toggled. -/
theorem explorer_is_current (settings : Settings) (changes : List Change) (target : Option String)
    (first : Session σ)
    (hfirst : first = .start settings ∨ first = .ofTree (.after changes) target settings)
    (es : List (Arrival σ)) :
    let s := first.runSession es
    s.explorer.rows = s.tree.rows s.explorer.expanded ∧
    (∀ p ∈ s.explorer.expanded, normalize p = .ok p ∧ p ≠ "/" ∧ s.tree.isDir p = true) ∧
    ∀ before later, es = before ++ later → ∀ p, (first.runSession before).tree.isDir p = false →
      (∀ e ∈ later, ∀ path, e.action = .toggle path → normalize path ≠ .ok p) →
      s.explorer.isExpanded p = false := by
  intro s
  have hcurrent : first.desk.Current := current_of_first hfirst
  refine ⟨(current_runSession hcurrent es).rows_eq, (current_runSession hcurrent es).dir_of_mem, ?_⟩
  rintro before later rfl p hgone hother
  have hclosed : p ∉ (first.runSession before).explorer.expanded := by
    intro hp
    have hdir := ((current_runSession hcurrent before).dir_of_mem p hp).2.2
    exact Bool.false_ne_true (hgone.symm.trans hdir)
  have hlater : p ∉ s.explorer.expanded := by
    change p ∉ (first.runSession (before ++ later)).explorer.expanded
    rw [runSession_append]
    exact notMem_expanded_runSession hclosed hother
  rw [Explorer.isExpanded, List.contains_eq_mem, decide_eq_false hlater]

theorem explorer_is_current_made_again :
    let first : Session Nat := .ofTree (.after [.directory "a/b/c"]) none .default
    let before : List (Arrival Nat) :=
      [⟨0, .toggle "a"⟩, ⟨1, .toggle "a//b"⟩, ⟨2, .removePath "a/"⟩]
    let later : List (Arrival Nat) := [⟨3, .createDirectory "a/b"⟩, ⟨4, .toggle "c"⟩]
    (first.runSession (before.take 2)).explorer.expanded = ["/a", "/a/b"] ∧
      (first.runSession before).tree.isDir "/a/b" = false ∧
      let s := first.runSession (before ++ later)
      s.tree.isDir "/a/b" = true ∧ s.explorer.rows = s.tree.rows s.explorer.expanded ∧
        s.explorer.isExpanded "/a/b" = false := by
  intro first before later
  have hgone : (first.runSession before).tree.isDir "/a/b" = false := by decide +kernel
  obtain ⟨hrows, -, hclosed⟩ :=
    explorer_is_current .default _ none first (.inr rfl) (before ++ later)
  refine ⟨by decide +kernel, hgone, by decide +kernel, hrows, ?_⟩
  refine hclosed before later rfl "/a/b" hgone ?_
  intro e he path hpath
  rcases List.mem_pair.mp he with rfl | rfl
  · exact absurd hpath (by simp)
  · obtain rfl := Action.toggle.inj hpath
    decide

end Session
end FlowStudio
