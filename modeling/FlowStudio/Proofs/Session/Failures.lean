import FlowStudio.Proofs.FileTree.Refusals
import FlowStudio.Proofs.FileTree.Spellings
import FlowStudio.Proofs.Session.Files
import FlowStudio.Proofs.Session.Requests

/-! Actions that fail. Each failure has a reason that can be told from the session before, and all
that comes of it is the text of that reason on screen and the end of the request it answers. -/

namespace FlowStudio
open FlowStudio.Path FlowStudio.FileTree
variable {σ : Type}

theorem FileTree.isFile_of_normalize {t : FileTree} {path p : String} (h : normalize path = .ok p) :
    t.isFile p = t.isFile path := by
  rw [isFile, isFile, (interchangeable_of_normalize h t).kind?]

theorem FileTree.noRemoval_of_normalize {t : FileTree} {path p : String} {e : PathError}
    (h : normalize path = .ok p) : NoRemoval t p e ↔ NoRemoval t path e := by
  rw [← result_delete_iff, ← result_delete_iff, (interchangeable_of_normalize h t).delete]

theorem NoticeBoard.current_of_dismiss? {b b' : NoticeBoard} (h : b.dismiss? = some b') :
    b'.current = none := by
  obtain ⟨_, -, rfl⟩ := Option.map_eq_some_iff.mp h
  rfl

theorem NoticeBoard.current_of_tick? {b b' : NoticeBoard} {now : Nat} (h : b.tick? now = some b') :
    b'.current = none := by
  rw [tick?] at h
  split at h
  · cases h
  · split at h
    · obtain rfl := Option.some.inj h
      rfl
    · cases h

def Requests.ended (r : Requests) (a : Action σ) : Requests :=
  match a.completion? with
  | .none => r
  | .some (kind, _) => r.setPending kind .none

namespace Session

/-- Why an action fails, with the text of the failure. -/
inductive Fails (s : Session σ) : Action σ → String → Prop
  | createFile {path body : String} {e : PathError} : NoFile s.tree path e →
    Fails s (.createFile path body) e.message
  | createDirectory {path : String} {e : PathError} : NoDirectory s.tree path e →
    Fails s (.createDirectory path) e.message
  | saveFile {path body : String} {e : PathError} : NoFile s.tree path e →
    Fails s (.saveFile path body) e.message
  | removeStep {path seg : String} : seg ∈ segments path → seg = "." ∨ seg = ".." →
    Fails s (.removePath path) (PathError.invalidPath path).message
  | removePath {path : String} {e : PathError} : (∀ seg ∈ segments path, seg ≠ "." ∧ seg ≠ "..") →
    NoRemoval s.tree path e → Fails s (.removePath path) e.message
  | openStep {path seg : String} : seg ∈ segments path → seg = "." ∨ seg = ".." →
    Fails s (.openFile path) (PathError.invalidPath path).message
  | openFile {path : String} : (∀ seg ∈ segments path, seg ≠ "." ∧ seg ≠ "..") →
    ¬s.tree.isFile path → Fails s (.openFile path) (join (segments path) ++ " not found")
  | parse (text : String) : Fails s (.parseFinished (.error text)) text
  | flow (text : String) : Fails s (.flowFailed text) text
  | blank {id : String} : Text.trim id = "" → Fails s (.workspaceOpen id) "Workspace id is empty"
  | load {request : UInt64} {error : WorkspaceError} : s.requests.pending? .load = some request →
    error ≠ .notFound → Fails s (.workspaceLoadFailed request error)
      ("Failed to load workspace: " ++ error.message)
  | loadNothing {request : UInt64} : s.requests.pending? .load = some request →
    Fails s (.workspaceLoadFailed request .notFound) "The specified workspace is not found."
  | create {request : UInt64} {error : WorkspaceError} : s.requests.pending? .create = some request →
    Fails s (.workspaceCreateFailed request error)
      ("Failed to create workspace: " ++ error.message)

def ShowsNoError (s : Session σ) (o : Outcome σ) : Prop :=
  ∀ notice, o.session.notices.current = some notice → notice.severity = .error →
    s.notices.current = some notice

variable {s : Session σ} {a : Action σ} {text : String}

theorem edited_of_error {α : Type} {edit : Edit α} {next : Session σ → Outcome σ} {now : Nat}
    {e : PathError} (htree : edit.tree = s.tree) (h : edit.result = .error e) :
    s.edited edit now next = s.fail e.message now := by
  rw [edited, h, htree]

theorem loadFailure_of_ne {error : WorkspaceError} (h : error ≠ .notFound) :
    loadFailure error = "Failed to load workspace: " ++ error.message := by
  cases error with
  | notFound => exact absurd rfl h
  | http | transport | decode => rfl

theorem dispatch_of_fails (hw : s.tree.WellFormed) (now : Nat) (h : s.Fails a text) :
    s.dispatch now a = ⟨{ s with
      notices := s.notices.put .error text now
      requests := s.requests.ended a }, [], true⟩ := by
  cases h with
  | @createFile path body e h =>
    have hresult : (s.tree.addFile path body).result = .error e := (result_addFile_iff hw).mpr h
    exact edited_of_error (tree_addFile_of_error hresult) hresult
  | createDirectory h =>
    have hresult := (result_addDirectory_iff hw).mpr h
    exact edited_of_error (tree_addDirectory_of_error hresult) hresult
  | @saveFile path body e h =>
    have hresult : (s.tree.addFile path body).result = .error e := (result_addFile_iff hw).mpr h
    rw [dispatch]
    exact edited_of_error (tree_addFile_of_error hresult) hresult
  | removeStep hmem hstep =>
    rw [dispatch, removePath, normalize_eq_error_iff.mpr ⟨⟨_, hmem, hstep⟩, rfl⟩]
    rfl
  | removePath hnames h =>
    have hp := normalize_of_no_steps hnames
    have hresult := result_delete_iff.mpr ((noRemoval_of_normalize hp).mpr h)
    rw [dispatch, removePath, hp]
    exact edited_of_error (tree_delete_of_error hresult) hresult
  | openStep hmem hstep =>
    rw [dispatch, openFile, normalize_eq_error_iff.mpr ⟨⟨_, hmem, hstep⟩, rfl⟩]
    rfl
  | openFile hnames h =>
    have hp := normalize_of_no_steps hnames
    rw [dispatch, openFile, hp]
    exact if_pos (by simpa [isFile_of_normalize hp] using h)
  | parse => rfl
  | flow => rfl
  | blank h => exact if_pos (String.isEmpty_iff.mpr h)
  | load hpending hne =>
    rw [dispatch, completed_eq_of_pending hpending, loadFailure_of_ne hne]
    rfl
  | loadNothing hpending =>
    rw [dispatch, completed_eq_of_pending hpending]
    rfl
  | create hpending =>
    rw [dispatch, completed_eq_of_pending hpending]
    rfl

theorem showsNoError_of_notices_eq {o : Outcome σ} (h : o.session.notices = s.notices) :
    s.ShowsNoError o := fun _ hcurrent _ => h ▸ hcurrent

theorem showsNoError_of_success {o : Outcome σ} {text : String} {now : Nat}
    (h : o.session.notices = s.notices.put .success text now) : s.ShowsNoError o := by
  intro notice hcurrent herror
  rw [h] at hcurrent
  obtain rfl := Option.some.inj hcurrent
  exact nomatch herror

theorem showsNoError_of_blank {o : Outcome σ} (h : o.session.notices.current = none) :
    s.ShowsNoError o := fun _ hcurrent _ => absurd (h.symm.trans hcurrent) (Option.some_ne_none _).symm

theorem Rejects.fails (hw : s.tree.WellFormed) (h : s.Rejects a text) : s.Fails a text := by
  cases h with
  | createFile h => exact .createFile ((result_addFile_iff hw).mp h)
  | createDirectory h => exact .createDirectory ((result_addDirectory_iff hw).mp h)
  | saveFile h => exact .saveFile ((result_addFile_iff hw).mp h)
  | removeStep h =>
    obtain ⟨⟨seg, hmem, hstep⟩, rfl⟩ := normalize_eq_error_iff.mp h
    exact .removeStep hmem hstep
  | removePath hp h =>
    have hnames := (normalize_eq_ok_iff.mp hp).1
    exact .removePath (fun seg hseg => (hnames seg hseg).2)
      ((noRemoval_of_normalize hp).mp (result_delete_iff.mp h))
  | openStep h =>
    obtain ⟨⟨seg, hmem, hstep⟩, rfl⟩ := normalize_eq_error_iff.mp h
    exact .openStep hmem hstep
  | openFile hp h =>
    rw [isFile_of_normalize hp] at h
    obtain ⟨hnames, rfl⟩ := normalize_eq_ok_iff.mp hp
    exact .openFile (fun seg hseg => (hnames seg hseg).2) (Bool.eq_false_iff.mp h)
  | parse text => exact .parse text
  | flow text => exact .flow text
  | blank h => exact .blank h

theorem Yields.showsNoError {now : Nat} {o : Outcome σ} (h : s.Yields now a o)
    (hw : s.tree.WellFormed) (hfails : ¬∃ text, s.Fails a text) : s.ShowsNoError o := by
  cases h with
  | rejected h => exact absurd ⟨_, h.fails hw⟩ hfails
  | parsed | loaded | created => exact showsNoError_of_success rfl
  | loadFailed error hpending =>
    by_cases herror : error = .notFound
    · obtain rfl := herror
      exact absurd ⟨_, .loadNothing hpending⟩ hfails
    · exact absurd ⟨_, .load hpending herror⟩ hfails
  | createFailed error hpending => exact absurd ⟨_, .create hpending⟩ hfails
  | dismiss h => exact showsNoError_of_blank (NoticeBoard.current_of_dismiss? h)
  | tick h => exact showsNoError_of_blank (NoticeBoard.current_of_tick? h)
  | _ => exact showsNoError_of_notices_eq rfl

theorem showsNoError_dispatch (hw : s.tree.WellFormed) (now : Nat) (h : ¬∃ text, s.Fails a text) :
    s.ShowsNoError (s.dispatch now a) := (s.yields_dispatch now a).showsNoError hw h

/-- Whatever came in before, an action that fails puts its text on screen as an error, ends the
request that it answers, and does nothing else to the session; and an action that does not fail puts
no error on screen. -/
theorem failures_change_the_notice_only (settings : Settings) (changes : List Change)
    (target : Option String) (first : Session σ)
    (hfirst : first = .start settings ∨ first = .ofTree (.after changes) target settings)
    (es : List (Arrival σ)) (now : Nat) (a : Action σ) :
    let s := first.runSession es
    (∀ text, s.Fails a text → s.dispatch now a = ⟨{ s with
      notices := s.notices.put .error text now
      requests := s.requests.ended a }, [], true⟩) ∧
    ((¬∃ text, s.Fails a text) → s.ShowsNoError (s.dispatch now a)) := by
  intro s
  have hw : s.tree.WellFormed := wellFormed_runSession hfirst es
  exact ⟨fun text h => dispatch_of_fails hw now h, fun h => showsNoError_dispatch hw now h⟩

theorem failures_change_the_notice_only_pending :
    let first : Session Nat := .ofTree (.after [.file "/a/b" "x"]) (some "/a/b") .default
    let s := first.runSession [⟨0, .toggle "a"⟩, ⟨1, .workspaceOpen "w"⟩]
    (NoFile s.tree "/a//b/c" (.conflict "/a/b") ∧ s.dispatch 2 (.saveFile "/a//b/c" "y") =
      ⟨{ s with notices := s.notices.put .error (PathError.conflict "/a/b").message 2 }, [], true⟩) ∧
    (s.requests.pending? .load = some 0 ∧ s.dispatch 2 (.workspaceLoadFailed 0 .notFound) =
      ⟨{ s with
        notices := s.notices.put .error "The specified workspace is not found." 2
        requests := { s.requests with load := none } }, [], true⟩) ∧
    (¬∃ text, s.Fails (.removePath "a/b") text) ∧
      s.ShowsNoError (s.dispatch 2 (.removePath "a/b")) := by
  intro first s
  have hrule (a : Action Nat) :=
    failures_change_the_notice_only .default [.file "/a/b" "x"] (some "/a/b") first (.inr rfl)
      [⟨0, .toggle "a"⟩, ⟨1, .workspaceOpen "w"⟩] 2 a
  have hfile : s.tree.isFile (join ["a", "b"]) = true := by decide +kernel
  have hblocked : NoFile s.tree "/a//b/c" (.conflict "/a/b") :=
    .file (q := ["a", "b"]) (by decide) (by decide +kernel) (by decide) (by decide) hfile
  have hpending : s.requests.pending? .load = some 0 := by decide
  have hfound : ¬∃ text, s.Fails (.removePath "a/b") text := by
    rintro ⟨text, h⟩
    have hnames : ∀ seg ∈ segments "a/b", seg ≠ "." ∧ seg ≠ ".." := by decide
    cases h with
    | removeStep hmem hstep => exact absurd hstep (by simp [hnames _ hmem])
    | removePath _ h =>
      cases h with
      | root hroot => exact absurd hroot (by decide)
      | missing _ hmissing => exact absurd hmissing (by decide +kernel)
  exact ⟨⟨hblocked, (hrule _).1 _ (.saveFile hblocked)⟩,
    ⟨hpending, (hrule _).1 _ (.loadNothing hpending)⟩, hfound, (hrule _).2 hfound⟩

end Session
end FlowStudio
