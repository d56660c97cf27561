import FlowStudio.Proofs.FileTree.Writing

/-! Which edits a tree accepts. A directory is made where no file is in the way, and a file is
written where moreover no directory stands. So an edit turns no file into a directory. On the way to
a path there is one file at most, and where it is in the way the error names it. -/

namespace FlowStudio.FileTree
open FlowStudio.Path
variable {t : FileTree}

def Clear (t : FileTree) (segs : List String) : Prop :=
  ∀ q, q <+: segs → ∀ body, t.content? q ≠ some (.file body)

theorem clear_of_dir (hw : t.WellFormed) {segs : List String} (h : t.content? segs = some .dir) :
    t.Clear segs := by
  intro q hq body hfile
  rw [hw.content?_isPrefix_of_dir h hq] at hfile
  exact Content.noConfusion (Option.some.inj hfile)

theorem WellFormed.content?_of_missing (hw : t.WellFormed) {above q : List String}
    (h : t.resolve? above = none) (hq : above <+: q) : t.content? q = none := by
  by_contra hne
  obtain ⟨c, hc⟩ := Option.ne_none_iff_exists'.mp hne
  have hsome := isSome_resolve?_of_content? hc
  by_cases heq : above = q
  · rw [← heq, h] at hsome
    exact Bool.false_ne_true hsome
  · have hdir := hw.content?_of_isPrefix hsome hq heq
    rw [hw.content?_eq_none_iff.mpr h] at hdir
    exact Option.some_ne_none _ hdir.symm

theorem clear_of_missing (hw : t.WellFormed) {above : List String} {s : String}
    (hdir : t.content? above = some .dir) (h : t.resolve? (above ++ [s]) = none)
    (ss : List String) : t.Clear (above ++ s :: ss) := by
  intro q hq body hfile
  have hs : above ++ [s] <+: above ++ s :: ss := ⟨ss, by simp⟩
  -- on the way to the missing entry there are directories, from it on nothing
  rcases List.prefix_or_prefix_of_prefix hs hq with hbelow | habove
  · rw [hw.content?_of_missing h hbelow] at hfile
    exact Option.some_ne_none _ hfile.symm
  · rcases List.prefix_concat_iff.mp habove with rfl | hq
    · rw [hw.content?_of_missing h (List.prefix_refl _)] at hfile
      exact Option.some_ne_none _ hfile.symm
    · exact clear_of_dir hw hdir q hq body hfile

def Blocked (t : FileTree) (segs : List String) (e : PathError) : Prop :=
  ∃ q body, q <+: segs ∧ t.content? q = some (.file body) ∧ e = .conflict (join q)

theorem clear_iff_not_blocked {segs : List String} : t.Clear segs ↔ ∀ e, ¬Blocked t segs e := by
  constructor
  · rintro hclear e ⟨q, body, hq, hfile, -⟩
    exact hclear q hq body hfile
  · exact fun h q hq body hfile => h _ ⟨q, body, hq, hfile, rfl⟩

section
variable (hw : t.WellFormed)
include hw

theorem eq_of_files {q r segs : List String} {body body' : String} (hq : q <+: segs)
    (hr : r <+: segs) (hfile : t.content? q = some (.file body))
    (hfile' : t.content? r = some (.file body')) : q = r := by
  have hstep : ∀ {q r : List String} {body body' : String}, q <+: r →
      t.content? q = some (.file body) → t.content? r = some (.file body') → q = r := by
    intro q r body body' hqr hq hr
    by_contra hne
    have hdir := hw.content?_of_isPrefix (isSome_resolve?_of_content? hr) hqr hne
    rw [hdir] at hq
    exact Content.noConfusion (Option.some.inj hq)
  rcases List.prefix_or_prefix_of_prefix hq hr with h | h
  · exact hstep h hfile hfile'
  · exact (hstep h hfile' hfile).symm

theorem obstacle?_cases {dir : Nat} {above : List String} (hdir : t.resolve? above = some dir)
    (hcontent : t.content? above = some .dir) (ss : List String) :
    (t.obstacle? dir above ss = none ∧ t.Clear (above ++ ss)) ∨
      ∃ q body, t.obstacle? dir above ss = some (join q) ∧ q <+: above ++ ss ∧
        t.content? q = some (.file body) := by
  induction ss generalizing dir above with
  | nil =>
    rw [List.append_nil]
    exact .inl ⟨rfl, clear_of_dir hw hcontent⟩
  | cons s ss ih =>
    have hstep : t.resolve? (above ++ [s]) = t.child? dir s := by
      rw [resolve?_concat, hdir, Option.bind_some]
    rw [obstacle?]
    cases hchild : t.child? dir s with
    | none => exact .inl ⟨rfl, clear_of_missing hw hcontent (hstep.trans hchild) ss⟩
    | some id =>
      obtain ⟨-, e, he, -⟩ := hw.entry_of_resolve? (hstep.trans hchild)
      have hat := content?_of_resolve? (hstep.trans hchild) he
      simp only [Arena.value_eq he]
      cases hkind : e.kind with
      | dir =>
        rw [Entry.content_eq_dir_iff.mpr hkind] at hat
        have hbelow := ih (hstep.trans hchild) hat
        rwa [List.append_assoc, List.singleton_append] at hbelow
      | file =>
        rw [Entry.content, hkind] at hat
        exact .inr ⟨above ++ [s], e.body, rfl, ⟨ss, by simp⟩, hat⟩

theorem blocked_iff {segs : List String} {e : PathError} :
    Blocked t segs e ↔ ∃ file, t.obstacle? t.root [] segs = some file ∧ e = .conflict file := by
  rcases obstacle?_cases hw (resolve?_nil t) hw.content?_nil segs with
    ⟨hnone, hclear⟩ | ⟨r, body, hsome, hr, hfile⟩
  · simpa [hnone] using clear_iff_not_blocked.mp hclear e
  · rw [hsome]
    constructor
    · rintro ⟨q, body', hq, hfile', rfl⟩
      exact ⟨join r, rfl, by rw [eq_of_files hw hq hr hfile' hfile]⟩
    · rintro ⟨file, hfile', rfl⟩
      exact ⟨r, body, hr, hfile, by rw [Option.some.inj hfile']⟩

theorem not_blocked_nil {e : PathError} : ¬Blocked t [] e :=
  clear_iff_not_blocked.mp (clear_of_dir hw hw.content?_nil) e

theorem result_addDirectory_of_names {path : String} {e : PathError}
    (hnames : ∀ s ∈ segments path, IsName s) :
    (t.addDirectory path).result = .error e ↔ Blocked t (segments path) e := by
  rw [blocked_iff hw, addDirectory, checked_eq_ok_iff.mpr ⟨rfl, hnames⟩]
  dsimp only
  cases t.obstacle? t.root [] (segments path) <;> simp [eq_comm]

theorem result_addParents_iff {parents : List String} {e : PathError}
    (hnames : ∀ s ∈ parents, IsName s) :
    (t.addParents parents).result = .error e ↔ Blocked t parents e := by
  rw [addParents]
  split
  · next hnil =>
    obtain rfl := List.isEmpty_iff.mp hnil
    simp [not_blocked_nil hw]
  · have hsegs := segments_join fun s hs => (hnames s hs).1
    rw [result_addDirectory_of_names hw (by rwa [hsegs]), hsegs]

theorem result_addFile_of_names {path name : String} (body : String) {above : List String}
    {e : PathError} (hnames : ∀ s ∈ segments path, IsName s) (hsegs : segments path = above ++ [name]) :
    (t.addFile path body).result = .error e ↔
      (t.content? (above ++ [name]) = some .dir ∧ e = .conflict (join (above ++ [name]))) ∨
        (t.content? (above ++ [name]) ≠ some .dir ∧ Blocked t above e) := by
  have habove : ∀ s ∈ above, IsName s := fun s hs =>
    hnames s (hsegs ▸ List.mem_append_left _ hs)
  rw [addFile, checked_eq_ok_iff.mpr ⟨rfl, hnames⟩]
  simp only [hsegs, List.getLast?_append, List.getLast?_singleton, Option.some_or,
    List.dropLast_concat]
  cases hid : t.resolve? (above ++ [name]) with
  | some id =>
    obtain ⟨-, d, hd, hpath⟩ := hw.entry_of_resolve? hid
    have hat := content?_of_resolve? hid hd
    -- above what stands there already are directories only
    have hne : above ≠ above ++ [name] := by simp
    have hdir := hw.content?_of_isPrefix (by simp [hid]) (List.prefix_append _ _) hne
    have hfree := clear_iff_not_blocked.mp (clear_of_dir hw hdir) e
    simp only [hat, hfree, and_false, or_false, Option.some.injEq, Entry.content_eq_dir_iff,
      Arena.value_eq hd]
    by_cases hkind : d.kind = .dir <;> simp [hkind, hpath, eq_comm]
  | none =>
    rw [hw.content?_eq_none_iff.mpr hid, ← result_addParents_iff hw habove]
    cases (t.addParents above).result <;> simp

end

theorem exists_ok_iff {ε α : Type} {r : Except ε α} : (∃ a, r = .ok a) ↔ ∀ e, r ≠ .error e := by
  cases r <;> simp

theorem exists_addDirectory_iff (hw : t.WellFormed) {path : String} :
    (∃ id, (t.addDirectory path).result = .ok id) ↔
      (∀ s ∈ segments path, IsName s) ∧ t.Clear (segments path) := by
  cases hc : checked path with
  | error e => simp [addDirectory, hc, not_names_of_checked hc]
  | ok segs =>
    obtain ⟨rfl, hnames⟩ := checked_eq_ok_iff.mp hc
    rw [and_iff_right hnames, exists_ok_iff, clear_iff_not_blocked]
    exact forall_congr' fun e => (result_addDirectory_of_names hw hnames).not

theorem exists_addFile_iff (hw : t.WellFormed) {path : String} (body : String) :
    (∃ id, (t.addFile path body).result = .ok id) ↔
      (∀ s ∈ segments path, IsName s) ∧ ∃ above name, segments path = above ++ [name] ∧
        t.Clear above ∧ t.content? (above ++ [name]) ≠ some .dir := by
  cases hc : checked path with
  | error e => simp [addFile, hc, not_names_of_checked hc]
  | ok segs =>
    obtain ⟨rfl, hnames⟩ := checked_eq_ok_iff.mp hc
    rw [and_iff_right hnames]
    rcases List.eq_nil_or_concat (segments path) with hsegs | ⟨above, name, hsegs⟩
    · simp [addFile, hc, hsegs]
    rw [List.concat_eq_append] at hsegs
    have hrefused := fun e => (result_addFile_of_names hw body (e := e) hnames hsegs).not
    rw [exists_ok_iff, forall_congr' hrefused]
    constructor
    · intro h
      have hdir : t.content? (above ++ [name]) ≠ some .dir := fun hdir => h _ (.inl ⟨hdir, rfl⟩)
      refine ⟨above, name, hsegs, ?_, hdir⟩
      exact clear_iff_not_blocked.mpr fun e hblocked => h e (.inr ⟨hdir, hblocked⟩)
    · rintro ⟨above', name', heq, hclear, hdir⟩
      obtain ⟨rfl, hname⟩ := List.append_inj' (hsegs.symm.trans heq) rfl
      obtain rfl := List.singleton_inj.mp hname
      rintro e (⟨hdir', -⟩ | ⟨-, hblocked⟩)
      · exact hdir hdir'
      · exact clear_iff_not_blocked.mp hclear e hblocked

theorem file_of_addDirectory (hw : t.WellFormed) {path : String} {id : Nat}
    (h : (t.addDirectory path).result = .ok id) {q : List String} {body : String}
    (hq : t.content? q = some (.file body)) :
    (t.addDirectory path).tree.content? q = some (.file body) := by
  have hclear := ((exists_addDirectory_iff hw).mp ⟨id, h⟩).2
  rw [(madeDir_addDirectory hw h).content?_eq, if_neg fun hp => hclear q hp body hq, hq]

theorem file_of_addFile (hw : t.WellFormed) {path body : String} {id : Nat}
    (h : (t.addFile path body).result = .ok id) {q : List String} {old : String}
    (hq : t.content? q = some (.file old)) :
    ∃ new, (t.addFile path body).tree.content? q = some (.file new) := by
  obtain ⟨-, above, name, hsegs, hclear, -⟩ := (exists_addFile_iff hw body).mp ⟨id, h⟩
  rw [(wroteFile_addFile hw h).content?_eq]
  split
  · exact ⟨body, rfl⟩
  · next hne =>
    rw [if_neg, hq]
    · exact ⟨old, rfl⟩
    · intro hp
      rw [hsegs] at hp hne
      exact hclear q ((List.prefix_concat_iff.mp hp).resolve_left hne) old hq

end FlowStudio.FileTree
