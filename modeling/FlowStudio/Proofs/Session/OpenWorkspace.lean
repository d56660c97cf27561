import FlowStudio.Proofs.Session.Requests

/-! The open workspace and the files on screen. Loads and creations wait for their answers side by
side, so the workspace that was named last is where the files come from, or where they were sent to,
unless other files were loaded while it was being created. -/

namespace FlowStudio
variable {σ : Type}

def Action.isWorkspace : Action σ → Bool
  | .workspaceOpen _ | .workspaceLoaded .. | .workspaceLoadFailed .. => true
  | .workspaceCreate | .workspaceCreated .. | .workspaceCreateFailed .. => true
  | _ => false

def Effect.upload? : Effect σ → Option (UInt64 × List Leaf)
  | .createWorkspace request files => some (request, files)
  | _ => none

namespace Step

def loaded? (step : Step σ) : Option (String × List Leaf) :=
  match step.arrival.action with
  | .workspaceLoaded _ id files => if step.outcome.changed then some (id, files) else none
  | _ => none

def created? (step : Step σ) : Option (UInt64 × String) :=
  match step.arrival.action with
  | .workspaceCreated request id => if step.outcome.changed then some (request, id) else none
  | _ => none

def named? (step : Step σ) : Option String :=
  (step.loaded?.map (·.1)).or (step.created?.map (·.2))

def uploaded? (step : Step σ) : Option (UInt64 × List Leaf) :=
  step.outcome.effects.findSome? Effect.upload?

theorem loaded?_of_named? {step : Step σ} (h : step.named? = none) : step.loaded? = none :=
  Option.map_eq_none_iff.mp (Option.or_eq_none_iff.mp h).1

theorem loaded?_of_created? {step : Step σ} {request : UInt64} {id : String}
    (h : step.created? = some (request, id)) : step.loaded? = none := by
  rw [created?] at h
  rw [loaded?]
  split at h
  · next haction =>
    rw [haction]
  · exact absurd h.symm (Option.some_ne_none _)

end Step

def treeAfter (start : FileTree) (past : List (Step σ)) : FileTree :=
  ((past.filterMap Step.loaded?).getLast?.map fun load => FileTree.ofLeaves load.2).getD start

section
variable {start : FileTree} {past later : List (Step σ)}

theorem treeAfter_append (start : FileTree) (past later : List (Step σ)) :
    treeAfter start (past ++ later) = treeAfter (treeAfter start past) later := by
  rw [treeAfter, treeAfter, treeAfter, List.filterMap_append, List.getLast?_append]
  cases (later.filterMap Step.loaded?).getLast? <;> rfl

theorem treeAfter_of_no_load (h : ∀ step ∈ later, step.loaded? = none) :
    treeAfter start later = start := by
  rw [treeAfter, List.filterMap_eq_nil_iff.mpr h]
  rfl

theorem readAll_treeAfter (start : FileTree) (past : List (Step σ)) :
    (treeAfter start past).readAll = ((past.filterMap Step.loaded?).getLast?.map
      fun load => (FileTree.ofLeaves load.2).readAll).getD start.readAll := by
  rw [treeAfter]
  cases (past.filterMap Step.loaded?).getLast? <;> rfl

end

namespace Session
variable {s : Session σ} {e : Arrival σ}

/-- What a step does to the files and to the open workspace, if it is about workspaces. -/
structure Told (s : Session σ) (step : Step σ) : Prop where
  tree_eq : step.outcome.session.tree = treeAfter s.tree [step]
  workspace_eq : step.outcome.session.requests.workspace = step.named?.or s.requests.workspace
  upload_of_pending : ∀ request,
    step.outcome.session.requests.pending? .create = some request →
      step.uploaded? = some (request, step.outcome.session.tree.readAll) ∨
        step.uploaded? = none ∧ s.requests.pending? .create = some request
  pending_of_created : ∀ request id, step.created? = some (request, id) →
    s.requests.pending? .create = some request

section
variable {step : Step σ}

theorem told_of_quiet (hloaded : step.loaded? = none) (hcreated : step.created? = none)
    (huploaded : step.uploaded? = none) (htree : step.outcome.session.tree = s.tree)
    (hworkspace : step.outcome.session.requests.workspace = s.requests.workspace)
    (hpending : ∀ request, step.outcome.session.requests.pending? .create = some request →
      s.requests.pending? .create = some request) : s.Told step := by
  refine ⟨?_, ?_, fun request h => .inr ⟨huploaded, hpending request h⟩, ?_⟩
  · rw [htree, treeAfter_of_no_load (List.forall_mem_singleton.mpr hloaded)]
  · rw [hworkspace, Step.named?, hloaded, hcreated]
    rfl
  · intro request id h
    exact absurd (hcreated.symm.trans h) (Option.some_ne_none _).symm

end

theorem told_createWorkspace (s : Session σ) (now : Nat) :
    s.Told ⟨⟨now, .workspaceCreate⟩, s.createWorkspace⟩ where
  tree_eq := rfl
  workspace_eq := rfl
  upload_of_pending request h := by
    obtain rfl := Option.some.inj h
    exact .inl rfl
  pending_of_created _ _ h := absurd h (Option.some_ne_none _).symm

theorem told_unchanged (s : Session σ) {e : Arrival σ} : s.Told ⟨e, s.unchanged⟩ := by
  refine told_of_quiet ?_ ?_ rfl rfl rfl fun _ h => h
  · rw [Step.loaded?]
    split <;> rfl
  · rw [Step.created?]
    split <;> rfl

theorem Yields.told {now : Nat} {a : Action σ} {o : Outcome σ} (h : s.Yields now a o)
    (ha : a.isWorkspace = true) : s.Told ⟨⟨now, a⟩, o⟩ := by
  cases h with
  | rejected h =>
    cases h with
    | blank => exact told_of_quiet rfl rfl rfl rfl rfl fun _ hother => hother
    | _ => exact absurd ha Bool.false_ne_true
  | ignored => exact s.told_unchanged
  | openWorkspace => exact told_of_quiet rfl rfl rfl rfl rfl fun _ hother => hother
  | loaded id files =>
    refine ⟨rfl, rfl, fun _ hother => .inr ⟨rfl, hother⟩, ?_⟩
    exact fun _ _ hcreated => absurd hcreated (Option.some_ne_none _).symm
  | loadFailed => exact told_of_quiet rfl rfl rfl rfl rfl fun _ hother => hother
  | createWorkspace => exact s.told_createWorkspace now
  | created id hpending =>
    refine ⟨rfl, rfl, fun _ hother => absurd hother (Option.some_ne_none _).symm, ?_⟩
    intro other name hcreated
    obtain ⟨rfl, rfl⟩ := Prod.mk.inj (Option.some.inj hcreated)
    exact hpending
  | createFailed =>
    exact told_of_quiet rfl rfl rfl rfl rfl fun _ hother =>
      absurd hother (Option.some_ne_none _).symm
  | _ => exact absurd ha Bool.false_ne_true

theorem told_dispatch (s : Session σ) (now : Nat) {a : Action σ} (h : a.isWorkspace = true) :
    s.Told ⟨⟨now, a⟩, s.dispatch now a⟩ := (s.yields_dispatch now a).told h

end Session

/-- A creation was sent out with the files that were there then, and none after it. -/
def SentOut (start : FileTree) (past : List (Step σ)) (request : UInt64) : Prop :=
  ∃ old begin new, past = old ++ begin :: new ∧
    begin.uploaded? = some (request, (treeAfter start (old ++ [begin])).readAll) ∧
    ∀ t ∈ new, t.uploaded? = none

/-- A workspace was named and no other one after it, when it was loaded, or when the creation was
answered that had been sent out last. -/
def NamedLast (start : FileTree) (past : List (Step σ)) (id : String) : Prop :=
  ∃ before step later, past = before ++ step :: later ∧ (∀ t ∈ later, t.named? = none) ∧
    ((∃ files, step.loaded? = some (id, files)) ∨
      ∃ request, step.created? = some (request, id) ∧ SentOut start before request)

structure Shows (start : FileTree) (past : List (Step σ)) (s : Session σ) : Prop where
  tree_eq : s.tree = treeAfter start past
  sentOut_of_pending : ∀ request,
    s.requests.pending? .create = some request → SentOut start past request
  namedLast : ∀ id, s.requests.workspace = some id → NamedLast start past id

section
variable {start : FileTree} {past : List (Step σ)} {s : Session σ} {step : Step σ}

theorem SentOut.concat {request : UInt64} (h : SentOut start past request)
    (hstep : step.uploaded? = none) : SentOut start (past ++ [step]) request := by
  obtain ⟨old, begin, new, rfl, hbegin, hnew⟩ := h
  refine ⟨old, begin, new ++ [step], by rw [List.append_assoc, List.cons_append], hbegin, ?_⟩
  exact List.forall_mem_append.mpr ⟨hnew, List.forall_mem_singleton.mpr hstep⟩

theorem NamedLast.concat {id : String} (h : NamedLast start past id) (hstep : step.named? = none) :
    NamedLast start (past ++ [step]) id := by
  obtain ⟨before, named, later, rfl, hlater, hnamed⟩ := h
  refine ⟨before, named, later ++ [step], by rw [List.append_assoc, List.cons_append], ?_, hnamed⟩
  exact List.forall_mem_append.mpr ⟨hlater, List.forall_mem_singleton.mpr hstep⟩

theorem Shows.fresh (tree : FileTree) (target : Option String) (settings : Settings) :
    Shows tree [] (Session.ofTree tree target settings : Session σ) :=
  ⟨rfl, fun _ h => absurd h (Option.some_ne_none _).symm,
    fun _ h => absurd h (Option.some_ne_none _).symm⟩

theorem Shows.concat (h : Shows start past s) (hstep : s.Told step) :
    Shows start (past ++ [step]) step.outcome.session := by
  have htree : step.outcome.session.tree = treeAfter start (past ++ [step]) := by
    rw [hstep.tree_eq, h.tree_eq, treeAfter_append]
  refine ⟨htree, fun request hpending => ?_, fun id hid => ?_⟩
  · rcases hstep.upload_of_pending request hpending with hupload | ⟨hnone, hbefore⟩
    · exact ⟨past, step, [], rfl, by rw [← htree, hupload], List.forall_mem_nil _⟩
    · exact (h.sentOut_of_pending request hbefore).concat hnone
  · rw [hstep.workspace_eq] at hid
    cases hnamed : step.named? with
    | none =>
      rw [hnamed, Option.none_or] at hid
      exact (h.namedLast id hid).concat hnamed
    | some name =>
      rw [hnamed, Option.some_or] at hid
      obtain rfl := Option.some.inj hid
      refine ⟨past, step, [], rfl, List.forall_mem_nil _, ?_⟩
      rw [Step.named?] at hnamed
      rcases Option.or_eq_some_iff.mp hnamed with hname | ⟨-, hname⟩
      · obtain ⟨⟨_, files⟩, hload, rfl⟩ := Option.map_eq_some_iff.mp hname
        exact .inl ⟨files, hload⟩
      · obtain ⟨⟨request, _⟩, hcreate, rfl⟩ := Option.map_eq_some_iff.mp hname
        have hbefore := hstep.pending_of_created request _ hcreate
        exact .inr ⟨request, hcreate, h.sentOut_of_pending request hbefore⟩

theorem Shows.run (h : Shows start past s) {es : List (Arrival σ)}
    (hes : ∀ e ∈ es, e.action.isWorkspace = true) :
    Shows start (past ++ s.run es) (s.runSession es) := by
  induction es generalizing past s with
  | nil => rwa [Session.run, List.append_nil]
  | cons e es ih =>
    obtain ⟨he, hes⟩ := List.forall_mem_cons.mp hes
    rw [Session.run, List.append_cons]
    exact ih (h.concat (s.told_dispatch e.now he)) hes

end

/-- In a session that opens and creates workspaces and does nothing else, the open workspace is the
one that was named last. Its files are there if it was loaded. If it was created, the files are
there that were sent out to make it, or those of the last load since then. -/
theorem Session.open_workspace_tells_files (tree : FileTree) (target : Option String)
    (settings : Settings) (es : List (Arrival σ)) (hes : ∀ e ∈ es, e.action.isWorkspace = true)
    (id : String)
    (hid : ((Session.ofTree tree target settings).runSession es).requests.workspace = some id) :
    let first : Session σ := Session.ofTree tree target settings
    let s := first.runSession es
    ∃ before step later, first.run es = before ++ step :: later ∧
      (∀ t ∈ later, t.named? = none) ∧
      ((∃ files, step.loaded? = some (id, files) ∧ s.tree = .ofLeaves files) ∨
        ∃ request old begin new files, step.created? = some (request, id) ∧
          before = old ++ begin :: new ∧ begin.uploaded? = some (request, files) ∧
          (∀ t ∈ new, t.uploaded? = none) ∧
          s.tree.readAll = ((new.filterMap Step.loaded?).getLast?.map fun load =>
            (FileTree.ofLeaves load.2).readAll).getD files) := by
  intro first s
  have hshows : Shows tree (first.run es) s := (Shows.fresh tree target settings).run hes
  obtain ⟨before, step, later, hpast, hlater, hnamed⟩ := hshows.namedLast id hid
  have hnoload : ∀ t ∈ later, t.loaded? = none := fun t ht => Step.loaded?_of_named? (hlater t ht)
  have htree := hshows.tree_eq
  rw [hpast, List.append_cons, treeAfter_append, treeAfter_of_no_load hnoload, treeAfter_append]
    at htree
  refine ⟨before, step, later, hpast, hlater, ?_⟩
  rcases hnamed with ⟨files, hload⟩ | ⟨request, hcreate, old, begin, new, rfl, hbegin, hnew⟩
  · refine .inl ⟨files, hload, ?_⟩
    rw [htree, treeAfter, List.filterMap_cons_some hload]
    rfl
  · refine .inr ⟨request, old, begin, new, _, hcreate, rfl, hbegin, hnew, ?_⟩
    have hstep : ∀ t ∈ [step], t.loaded? = none :=
      List.forall_mem_singleton.mpr (Step.loaded?_of_created? hcreate)
    rw [htree, treeAfter_of_no_load hstep, List.append_cons, treeAfter_append, readAll_treeAfter]

def overlappingRequests : List (Arrival Nat) :=
  [⟨0, .workspaceCreate⟩, ⟨1, .workspaceOpen " b"⟩, ⟨2, .workspaceLoaded 1 "b" [⟨"/x", "y"⟩]⟩,
    ⟨3, .workspaceCreated 0 "new"⟩, ⟨4, .workspaceOpen "c"⟩]

theorem Session.open_workspace_tells_files_overlapping :
    let first : Session Nat := Session.ofTree (.ofLeaves [⟨"/a", ""⟩]) none .default
    (∀ e ∈ overlappingRequests, e.action.isWorkspace = true) ∧
      (first.runSession overlappingRequests).requests.workspace = some "new" ∧
      ∃ step ∈ first.run overlappingRequests, step.created?.map (·.2) = some "new" := by
  intro first
  have hes : ∀ e ∈ overlappingRequests, e.action.isWorkspace = true := by decide
  have hid : (first.runSession overlappingRequests).requests.workspace = some "new" := by
    decide +kernel
  obtain ⟨before, step, later, hrun, -, hstep⟩ :=
    Session.open_workspace_tells_files (.ofLeaves [⟨"/a", ""⟩]) none .default _ hes "new" hid
  have hmem : step ∈ first.run overlappingRequests := by
    rw [hrun]
    exact List.mem_append_right _ List.mem_cons_self
  refine ⟨hes, hid, step, hmem, ?_⟩
  rcases hstep with ⟨files, hload, -⟩ | ⟨request, _, _, _, _, hcreate, -⟩
  · -- the only load of the run is from elsewhere
    have hother : ∀ t ∈ first.run overlappingRequests, t.loaded?.map (·.1) ≠ some "new" := by
      decide +kernel
    exact absurd (by rw [hload]; rfl) (hother step hmem)
  · rw [hcreate]
    rfl

def areFilesOf (past : List (Step σ)) (id : String) (files : List Leaf) : Bool :=
  past.any fun step =>
    step.loaded?.any (fun load => load.1 == id && (FileTree.ofLeaves load.2).readAll == files) ||
    step.created?.any fun created =>
      created.2 == id && past.any fun t => t.uploaded? == some (created.1, files)

/-- The files on screen need not be those of the open workspace. -/
theorem Session.not_files_of_open_workspace :
    ¬∀ es : List (Arrival Nat), (∀ e ∈ es, e.action.isWorkspace = true) → ∀ id,
      ((Session.start .default).runSession es).requests.workspace = some id →
      areFilesOf ((Session.start .default).run es) id
        ((Session.start .default).runSession es).tree.readAll = true := by
  intro h
  have hfiles := h overlappingRequests (by decide) "new" (by decide +kernel)
  have hother : areFilesOf ((Session.start .default).run overlappingRequests) "new"
      ((Session.start .default).runSession overlappingRequests).tree.readAll = false := by
    decide +kernel
  exact Bool.false_ne_true (hother.symm.trans hfiles)

end FlowStudio
