import FlowStudio.FileTree.RowStack
import FlowStudio.Proofs.FileTree.Rows

/-! The stack makes the rows that the recursion makes: what is taken from it below a directory is what
the recursion lists there, and then comes what waited behind. Of both it is told which rows they are
and in which order. -/

namespace FlowStudio.FileTree
open FlowStudio.Path FlowStudio.Text
variable {t : FileTree} {isOpen : String → Bool}

theorem pushAll_eq (depth : UInt16) (ids : List Nat) (stack : List Waiting) :
    pushAll depth ids stack = ids.map (fun id => ⟨id, depth⟩) ++ stack := by
  rw [pushAll, List.foldl_reverse]
  induction ids with
  | nil => rfl
  | cons id ids ih => rw [List.foldr_cons, ih]; rfl

section
variable (hw : t.WellFormed) {fuel dir id : Nat} {above : List String} {name : String}
include hw

theorem members_of_file {e : Entry} (he : t.arena.get? id = some e) (hkind : e.kind = .file)
    (kind : EntryKind) : t.members kind id = [] := by
  have hnames : e.names = none := by
    have hnot := (hw.names_iff he).not.mpr (by simp [hkind])
    simpa using hnot
  rw [members, he]
  simp [Entry.ids, hnames]

theorem rowsOfStack_cons (n : Nat) (hdir : t.resolve? above = some dir)
    (hc : t.child? dir name = some id) (depth : UInt16) (stack : List Waiting) :
    let e := t.arena.value id
    t.rowsOfStack isOpen (n + 1) (⟨id, depth⟩ :: stack) =
      row e depth (isOpen e.path) ::
        t.rowsOfStack isOpen n (t.waitingAfter (isOpen e.path) ⟨id, depth⟩ stack) := by
  have hid : t.resolve? (above ++ [name]) = some id := by
    rw [resolve?_concat, hdir, Option.bind_some, hc]
  obtain ⟨-, e, he, -⟩ := hw.entry_of_resolve? hid
  -- the root is in no directory
  have hroot : id ≠ t.root := by
    rintro rfl
    have hnil := hw.resolve?_injective hid (resolve?_nil t)
    simp at hnil
  rw [rowsOfStack, he]
  dsimp only
  rw [if_neg hroot, Arena.value_eq he]

theorem waitingAfter_of_file {e : Entry} (he : t.arena.get? id = some e) (hkind : e.kind = .file)
    (b : Bool) (depth : UInt16) (stack : List Waiting) :
    t.waitingAfter b ⟨id, depth⟩ stack = stack := by
  rw [waitingAfter, members_of_file hw he hkind, members_of_file hw he hkind]
  exact ite_self stack

theorem rowsOfStack_files (hdir : t.resolve? above = some dir) (n : Nat) (depth : UInt16)
    (stack : List Waiting) {ids : List Nat} (hids : ∀ id ∈ ids, id ∈ t.members .file dir) :
    t.rowsOfStack isOpen (n + ids.length) (pushAll depth ids stack) =
      ids.map (fun id => row (t.arena.value id) depth false) ++ t.rowsOfStack isOpen n stack := by
  rw [pushAll_eq]
  induction ids with
  | nil => rfl
  | cons id ids ih =>
    rw [List.forall_mem_cons] at hids
    obtain ⟨⟨name, hc⟩, hkind⟩ := mem_members_iff.mp hids.1
    obtain ⟨d, hd, -⟩ := hw.dir_of_child? hc
    obtain ⟨-, -, e, he, -⟩ := hw.child_entry hd hc
    rw [Arena.value_eq he] at hkind
    rw [List.map_cons, List.cons_append, List.length_cons, ← Nat.add_assoc,
      rowsOfStack_cons hw _ hdir hc, Arena.value_eq he, waitingAfter_of_file hw he hkind, ih hids.2,
      List.map_cons, List.cons_append, Arena.value_eq he, row, row, hkind]
    rfl

theorem rowsOfStack_dirs (hdir : t.resolve? above = some dir) (n : Nat) (depth : UInt16)
    (stack : List Waiting) {ids : List Nat} (hids : ∀ id ∈ ids, id ∈ t.members .dir dir)
    (hinside : ∀ {id name}, t.child? dir name = some id → ∀ n stack,
      t.rowsOfStack isOpen (n + (t.rowsBelow isOpen fuel id (depth + 1)).length)
        (t.waitingAfter true ⟨id, depth⟩ stack) =
      t.rowsBelow isOpen fuel id (depth + 1) ++ t.rowsOfStack isOpen n stack) :
    t.rowsOfStack isOpen (n + (ids.flatMap (t.rowsFrom isOpen fuel depth)).length)
        (pushAll depth ids stack) =
      ids.flatMap (t.rowsFrom isOpen fuel depth) ++ t.rowsOfStack isOpen n stack := by
  rw [pushAll_eq]
  induction ids with
  | nil => rfl
  | cons id ids ih =>
    rw [List.forall_mem_cons] at hids
    obtain ⟨⟨name, hc⟩, -⟩ := mem_members_iff.mp hids.1
    let rest := ids.flatMap (t.rowsFrom isOpen fuel depth)
    let below := ids.map (fun id => Waiting.mk id depth) ++ stack
    have hfrom : t.rowsOfStack isOpen (n + rest.length + (t.rowsFrom isOpen fuel depth id).length)
        (⟨id, depth⟩ :: below) =
        t.rowsFrom isOpen fuel depth id ++ t.rowsOfStack isOpen (n + rest.length) below := by
      rw [rowsFrom, List.length_cons, ← Nat.add_assoc, rowsOfStack_cons hw _ hdir hc,
        List.cons_append]
      congr 1
      split
      · next hopen =>
        rw [hopen]
        exact hinside hc _ _
      · next hclosed =>
        rw [Bool.eq_false_iff.mpr hclosed]
        rfl
    have hcount : n + ((id :: ids).flatMap (t.rowsFrom isOpen fuel depth)).length =
        n + rest.length + (t.rowsFrom isOpen fuel depth id).length := by
      rw [List.flatMap_cons, List.length_append,
        Nat.add_comm (t.rowsFrom isOpen fuel depth id).length, ← Nat.add_assoc]
    rw [hcount, List.flatMap_cons, List.append_assoc, ← ih hids.2]
    exact hfrom

theorem rowsOfStack_below (hdir : t.resolve? above = some dir)
    (hfuel : t.arena.next ≤ fuel + dir) (n : Nat) (depth : UInt16) (stack : List Waiting) :
    t.rowsOfStack isOpen (n + (t.rowsBelow isOpen fuel dir (depth + 1)).length)
        (t.waitingAfter true ⟨dir, depth⟩ stack) =
      t.rowsBelow isOpen fuel dir (depth + 1) ++ t.rowsOfStack isOpen n stack := by
  induction fuel generalizing dir above n depth stack with
  | zero =>
    obtain ⟨-, d, hd, -⟩ := hw.entry_of_resolve? hdir
    have hlt := Arena.lt_next hd
    omega
  | succ fuel ih =>
    have hinside : ∀ {id name}, t.child? dir name = some id → ∀ n stack,
        t.rowsOfStack isOpen (n + (t.rowsBelow isOpen fuel id (depth + 1 + 1)).length)
          (t.waitingAfter true ⟨id, depth + 1⟩ stack) =
        t.rowsBelow isOpen fuel id (depth + 1 + 1) ++ t.rowsOfStack isOpen n stack := by
      intro id name hc n stack
      have hbelow : t.resolve? (above ++ [name]) = some id ∧ t.arena.next ≤ fuel + id :=
        enough_below hw hdir (by omega) hc
      exact ih hbelow.1 hbelow.2 n (depth + 1) stack
    have hfiles : t.rowsOfStack isOpen (n + (t.members .file dir).length)
        (pushAll (depth + 1) (t.members .file dir) stack) = _ :=
      rowsOfStack_files hw hdir n (depth + 1) stack fun _ h => h
    rw [rowsBelow_succ, waitingAfter, if_pos rfl, List.length_append, List.length_map,
      Nat.add_comm (List.length _), ← Nat.add_assoc, rowsOfStack_dirs hw hdir _ _ _ (fun _ h => h)
      hinside, hfiles, List.append_assoc]

variable {expanded : List String}

theorem length_rows_lt : (t.rows expanded).length < t.arena.next := by
  have hentry : ∀ r ∈ t.rows expanded, ∃ id, t.resolve? (segments r.path) = some id ∧
      segments r.path ≠ [] := by
    intro r hr
    obtain ⟨segs, c, hne, hcontent, -, rfl⟩ := (mem_rows_iff hw).mp hr
    have hsegs : segments (rowAt expanded.contains segs c).path = segs :=
      segments_of_content? hw hcontent
    obtain ⟨id, hid⟩ := Option.isSome_iff_exists.mp (isSome_resolve?_of_content? hcontent)
    exact ⟨id, by rw [hsegs, hid], by rwa [hsegs]⟩
  let number (r : Row) : Nat := (t.resolve? (segments r.path)).getD 0
  have hnumber : ∀ r ∈ t.rows expanded, t.resolve? (segments r.path) = some (number r) := by
    intro r hr
    obtain ⟨id, hid, -⟩ := hentry r hr
    rw [hid]
    exact congrArg some (congrArg (·.getD 0) hid).symm
  have hnodup : (t.root :: (t.rows expanded).map number).Nodup := by
    refine List.nodup_cons.mpr ⟨fun hroot => ?_, List.pairwise_map.mpr ?_⟩
    · obtain ⟨r, hr, heq⟩ := List.mem_map.mp hroot
      obtain ⟨-, -, hne⟩ := hentry r hr
      exact hne (hw.resolve?_injective (heq ▸ hnumber r hr) (resolve?_nil t))
    · refine (pairwise_rows hw).imp_of_mem fun ha hb h heq => ?_
      have hsame := hw.resolve?_injective (hnumber _ ha) (heq ▸ hnumber _ hb)
      exact h.ne hsame
  have hlt : ∀ id ∈ t.root :: (t.rows expanded).map number, id < t.arena.next := by
    have hlive : ∀ {segs id}, t.resolve? segs = some id → id < t.arena.next := by
      intro segs id hid
      obtain ⟨-, e, he, -⟩ := hw.entry_of_resolve? hid
      exact Arena.lt_next he
    refine List.forall_mem_cons.mpr ⟨hlive (resolve?_nil t), List.forall_mem_map.mpr fun r hr => ?_⟩
    exact hlive (hnumber r hr)
  rw [← List.length_map number, ← Nat.succ_le_iff]
  exact length_le_of_nodup hnodup hlt

/-- The stack and the recursion make the same rows. -/
theorem stackedRows_eq : t.stackedRows expanded = t.rows expanded := by
  have hlt : (t.rows expanded).length < t.arena.next := length_rows_lt hw
  obtain ⟨n, hn⟩ := Nat.exists_eq_add_of_lt hlt
  obtain ⟨e, he, -⟩ := hw.root_entry
  have hbelow : t.rowsOfStack expanded.contains (n + (t.rows expanded).length)
      (t.waitingAfter true ⟨t.root, 0⟩ []) = t.rows expanded ++ t.rowsOfStack expanded.contains n [] :=
    rowsOfStack_below hw (resolve?_nil t) (Nat.le_add_right _ _) n 0 []
  have hempty : t.rowsOfStack expanded.contains n [] = [] := by cases n <;> rfl
  have hfuel : t.arena.next = n + (t.rows expanded).length + 1 := by omega
  rw [stackedRows, hfuel, rowsOfStack, he]
  dsimp only
  rw [if_pos rfl]
  exact hbelow.trans (by rw [hempty, List.append_nil])

end

theorem isDirAt_eq {segs : List String} (h : ∀ s ∈ segs, IsSegment s) :
    t.isDirAt segs = t.isDir (join segs) := by
  rw [Bool.eq_iff_iff, isDir_iff, segments_join h, isDirAt, beq_iff_eq]

theorem standsBefore_of_parting {a b : String} {above ns ms : List String} {n m : String}
    (ha : segments a = above ++ n :: ns) (hb : segments b = above ++ m :: ms)
    (h : (t.isDir (join (above ++ [n])) = true ∧ t.isFile (join (above ++ [m])) = true) ∨
      (t.kind? (join (above ++ [n])) = t.kind? (join (above ++ [m])) ∧ n < m)) :
    StandsBefore t.isDirAt (segments a) (segments b) := by
  have hat : ∀ {path : String} {name : String} {rest : List String},
      segments path = above ++ name :: rest →
        t.isDirAt (above ++ [name]) = t.isDir (join (above ++ [name])) := by
    intro path name rest hsegs
    refine isDirAt_eq fun s hs => ?_
    have hpre : above ++ [name] <+: segments path :=
      ⟨rest, by rw [hsegs, List.append_assoc, List.singleton_append]⟩
    exact isSegment_of_mem_segments (hpre.subset hs)
  rw [ha, hb]
  apply StandsBefore.append_left
  rcases h with ⟨hdir, hfile⟩ | ⟨hkind, hlt⟩
  · have hnot : t.isDir (join (above ++ [m])) = false := by
      rw [isFile, beq_iff_eq] at hfile
      rw [isDir, hfile]
      rfl
    exact .dirFile ((hat ha).trans hdir) ((hat hb).trans hnot)
  · have hsame : t.isDir (join (above ++ [n])) = t.isDir (join (above ++ [m])) := by
      rw [isDir, isDir, hkind]
    exact .named ((hat ha).trans (hsame.trans (hat hb).symm)) hlt

theorem length_le_of_resolve? (hw : t.WellFormed) {segs : List String} {id : Nat}
    (h : t.resolve? segs = some id) : segs.length ≤ id := by
  induction segs using List.reverseRecOn generalizing id with
  | nil => exact Nat.zero_le id
  | append_singleton segs s ih =>
    rw [resolve?_concat] at h
    obtain ⟨dir, hdir, hc⟩ := Option.bind_eq_some_iff.mp h
    rw [List.length_append, List.length_singleton]
    exact Nat.lt_of_le_of_lt (ih hdir) (hw.lt_of_child? hc)

theorem length_segments_lt (hw : t.WellFormed) {path : String} (h : t.contains path = true) :
    (segments path).length < t.arena.next := by
  obtain ⟨id, hid⟩ := Option.isSome_iff_exists.mp h
  obtain ⟨-, e, he, -⟩ := hw.entry_of_resolve? hid
  exact Nat.lt_of_le_of_lt (length_le_of_resolve? hw hid) (Arena.lt_next he)

/-- After any edits, whatever is open, the rows are those of the entries other than the root whose
directories are all open, each once. What a directory holds comes after it, and where two paths part,
sub-directories come before files, and else the smaller bytes. With every directory open the files
among the rows are all files, in the order of their list. The stack makes the same rows. -/
theorem rows_are_visible_entries (changes : List Change)
    (hshort : ∀ path, (after changes).contains path = true → (segments path).length ≤ 65535)
    (expanded : List String) :
    let t := after changes
    let rows := t.rows expanded
    t.stackedRows expanded = rows ∧
    (∀ r, r ∈ rows ↔ t.IsRow expanded r) ∧
    (rows.map Row.path).Nodup ∧
    (∀ path, normalize path = .ok path → path ≠ "/" → t.contains path = true →
      (∀ q, q ≠ [] → q <+: segments path → q ≠ segments path → join q ∈ expanded) →
      ∃ r ∈ rows, r.path = path) ∧
    (∀ a ∈ rows, ∀ b ∈ rows, segments a.path <+: segments b.path → a ≠ b →
      rows.idxOf a < rows.idxOf b) ∧
    (∀ a ∈ rows, ∀ b ∈ rows, ∀ above n ns m ms,
      segments a.path = above ++ n :: ns → segments b.path = above ++ m :: ms → n ≠ m →
      (t.isDir (join (above ++ [n])) = true ∧ t.isFile (join (above ++ [m])) = true) ∨
        (t.kind? (join (above ++ [n])) = t.kind? (join (above ++ [m])) ∧ toUtf8 n < toUtf8 m) →
      rows.idxOf a < rows.idxOf b) ∧
    ((∀ path, normalize path = .ok path → path ≠ "/" → t.isDir path = true → path ∈ expanded) →
      (rows.filter (!·.isDir)).map Row.path = t.readAll.map Leaf.name) := by
  intro t rows
  have hw : t.WellFormed := wellFormed_after changes
  have hisRow : ∀ r, r ∈ rows ↔ t.IsRow expanded r := fun _ => mem_rows_iff_isRow hw hshort
  refine ⟨stackedRows_eq hw, hisRow, nodup_path_rows hw, fun path hpath hroot hfound habove => ?_,
    fun a ha b hb hpre hne => ?_, fun a ha b hb above n ns m ms hn hm _ h => ?_, path_file_rows hw⟩
  · have hjoin := (normalize_eq_ok_iff.mp hpath).2
    have hnil : segments path ≠ [] := fun hnil => hroot (hjoin.trans (congrArg join hnil))
    obtain ⟨c, hcontent⟩ : ∃ c, t.content? (segments path) = some c := by
      rw [← Option.ne_none_iff_exists', ne_eq, hw.content?_eq_none_iff]
      exact Option.isSome_iff_ne_none.mp hfound
    rw [hjoin]
    exact exists_mem_rows hw hnil hcontent habove
  · refine idxOf_lt_of_standsBefore hw ha hb (.of_isPrefix hpre fun heq => hne ?_)
    have hpath := eq_of_segments_eq ((hisRow a).mp ha).normalize_path
      ((hisRow b).mp hb).normalize_path heq
    exact List.inj_on_of_nodup_map (nodup_path_rows hw) ha hb hpath
  · rw [toUtf8_lt_iff] at h
    exact idxOf_lt_of_standsBefore hw ha hb (standsBefore_of_parting hn hm h)

theorem rows_are_visible_entries_mixed :
    let t := after [.file "/a" "x", .file "/d/e/f" "y", .directory "/c/g", .removal "/c/g",
      .file "/d/b" "z"]
    let rows := t.rows ["/d", "/c/g", "/a"]
    (∀ path, t.contains path = true → (segments path).length ≤ 65535) ∧
      rows.map Row.path = ["/c", "/d", "/d/e", "/d/b", "/a"] ∧
      t.stackedRows ["/d", "/c/g", "/a"] = rows ∧
      t.IsRow ["/d", "/c/g", "/a"] ⟨"/d/e", 2, "e", true, false⟩ ∧
      rows.idxOf ⟨"/d/b", 2, "b", false, false⟩ < rows.idxOf ⟨"/a", 1, "a", false, false⟩ := by
  intro t rows
  have hshort : ∀ path, t.contains path = true → (segments path).length ≤ 65535 := by
    intro path h
    have hlt : (segments path).length < t.arena.next := length_segments_lt (wellFormed_after _) h
    have hnext : t.arena.next ≤ 65535 := by decide +kernel
    omega
  obtain ⟨hstack, hmem, -, -, -, hparting, -⟩ :=
    rows_are_visible_entries _ hshort ["/d", "/c/g", "/a"]
  refine ⟨hshort, by decide +kernel, hstack, (hmem _).mp (by decide +kernel), ?_⟩
  exact hparting _ (by decide +kernel) _ (by decide +kernel) [] "d" ["b"] "a" []
    (by decide +kernel) (by decide +kernel) (by decide) (.inl (by decide +kernel))

end FlowStudio.FileTree
