import FlowStudio.Proofs.FileTree.Rebuilding
import FlowStudio.Proofs.Session.Endings

/-! What an action does to the files of a session. Whatever the action, the tree, the open file and
the explorer go on by one of a few turns; all else about them follows from these. -/

namespace FlowStudio
variable {σ : Type}

structure Desk where
  tree : FileTree
  target : Option String
  explorer : Explorer

def Desk.withTree (d : Desk) (tree : FileTree) : Desk :=
  { d with tree, explorer := .refresh tree d.explorer.expanded }

def Desk.ofLeaves (files : List Leaf) : Desk :=
  let tree := FileTree.ofLeaves files
  ⟨tree, tree.readAll.head?.map Leaf.name, .ofTree tree⟩

def Session.desk (s : Session σ) : Desk := ⟨s.tree, s.target, s.explorer⟩

inductive Desk.Turn : Action σ → Desk → Desk → Prop
  | kept (a : Action σ) (d : Desk) : Desk.Turn a d d
  | wrote (a : Action σ) {d : Desk} {path body : String} {id : Nat} :
    (d.tree.addFile path body).result = .ok id →
    Desk.Turn a d (d.withTree (d.tree.addFile path body).tree)
  | made {d : Desk} {path : String} {id : Nat} : (d.tree.addDirectory path).result = .ok id →
    Desk.Turn (.createDirectory path) d (d.withTree (d.tree.addDirectory path).tree)
  | removed {d : Desk} {path p : String} : Path.normalize path = .ok p →
    (d.tree.delete p).result = .ok () → Desk.Turn (.removePath path) d
      ⟨(d.tree.delete p).tree, d.target.filter fun t => !Session.isBelow p t,
        .refresh (d.tree.delete p).tree d.explorer.expanded⟩
  | opened {d : Desk} {path p : String} : Path.normalize path = .ok p → d.tree.isFile p = true →
    Desk.Turn (.openFile path) d { d with target := some p }
  | toggled {d : Desk} {path p : String} {explorer : Explorer} : Path.normalize path = .ok p →
    d.explorer.toggle? d.tree p = some explorer → Desk.Turn (.toggle path) d { d with explorer }
  | adopted {d : Desk} {request : UInt64} {id : String} {files : List Leaf} :
    Desk.Turn (.workspaceLoaded request id files) d (.ofLeaves files)

namespace Session
variable {s : Session σ} {now : Nat} {a : Action σ} {o : Outcome σ}

theorem Yields.turn (h : s.Yields now a o) : Desk.Turn a s.desk o.session.desk := by
  cases h with
  | createFile h | saveFile h => exact .wrote _ h
  | createDirectory h => exact .made h
  | removePath hp h => exact .removed hp h
  | openFile hp hfile => exact .opened hp hfile
  | toggle hp h => exact .toggled hp h
  | loaded => exact .adopted
  | _ => exact .kept _ _

theorem turn_dispatch (s : Session σ) (now : Nat) (a : Action σ) :
    Desk.Turn a s.desk (s.dispatch now a).session.desk := (s.yields_dispatch now a).turn

theorem desk_runSession {P : Desk → Prop}
    (hturn : ∀ {a : Action σ} {d d' : Desk}, Desk.Turn a d d' → P d → P d') (h : P s.desk)
    (es : List (Arrival σ)) : P (s.runSession es).desk := by
  induction es generalizing s with
  | nil => exact h
  | cons e es ih => exact ih (hturn (s.turn_dispatch e.now e.action) h)

end Session

theorem Desk.Turn.wellFormed {a : Action σ} {d d' : Desk} (h : Desk.Turn a d d')
    (hw : d.tree.WellFormed) : d'.tree.WellFormed := by
  cases h with
  | kept => exact hw
  | wrote _ _ => exact hw.addFile _ _
  | made _ => exact hw.addDirectory _
  | removed _ _ => exact hw.delete _
  | opened _ _ => exact hw
  | toggled _ _ => exact hw
  | adopted => exact FileTree.wellFormed_ofLeaves _

theorem Session.wellFormed_runSession {settings : Settings} {changes : List Change}
    {target : Option String} {first : Session σ}
    (hfirst : first = .start settings ∨ first = .ofTree (.after changes) target settings)
    (es : List (Arrival σ)) : (first.runSession es).tree.WellFormed := by
  have hw : first.desk.tree.WellFormed := by
    rcases hfirst with rfl | rfl
    · exact FileTree.wellFormed_ofLeaves _
    · exact FileTree.wellFormed_after changes
  exact desk_runSession (σ := σ) (P := fun d => d.tree.WellFormed) (fun h hd => h.wellFormed hd) hw es

end FlowStudio
