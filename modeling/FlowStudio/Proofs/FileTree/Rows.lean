import FlowStudio.FileTree.Rows
import FlowStudio.Proofs.FileTree.Listing

/-! The rows of a tree. What stands at some segments has a row if all directories above it are open,
and the rows come in an order that the paths and the kinds of what stands there decide. -/

namespace FlowStudio.FileTree
open FlowStudio.Path FlowStudio.Text
variable {t : FileTree} {isOpen : String → Bool}

def rowAt (isOpen : String → Bool) (segs : List String) (c : Content) : Row :=
  ⟨join segs, .ofNat segs.length, lastPiece (join segs), c.kind == .dir,
    c.kind == .dir && isOpen (join segs)⟩

def Shown (isOpen : String → Bool) (above segs : List String) : Prop :=
  ∀ q, q ≠ [] → q <+: segs → q ≠ segs → isOpen (join (above ++ q)) = true

theorem shown_singleton (above : List String) (name : String) : Shown isOpen above [name] := by
  intro q hne hq hneq
  rcases List.prefix_cons_iff.mp hq with rfl | ⟨r, rfl, hr⟩
  · exact absurd rfl hne
  · exact absurd (List.prefix_nil.mp hr ▸ rfl) hneq

theorem shown_cons_iff {above rest : List String} {name : String} (hrest : rest ≠ []) :
    Shown isOpen above (name :: rest) ↔
      isOpen (join (above ++ [name])) = true ∧ Shown isOpen (above ++ [name]) rest := by
  constructor
  · intro h
    refine ⟨h [name] (by simp) ⟨rest, rfl⟩ (by simp [hrest.symm]), fun q hne hq hneq => ?_⟩
    rw [List.append_assoc]
    refine h (name :: q) (by simp) (List.cons_prefix_cons.mpr ⟨rfl, hq⟩) ?_
    simpa using hneq
  · rintro ⟨hopen, h⟩ q hne hq hneq
    rcases List.prefix_cons_iff.mp hq with rfl | ⟨r, rfl, hr⟩
    · exact absurd rfl hne
    · by_cases hnil : r = []
      · rwa [hnil]
      · rw [← List.singleton_append, ← List.append_assoc]
        exact h r hnil hr (by simpa using hneq)

/-- One entry stands before another, where `isDir` tells the directories: before what it holds, and
where paths part, directories before files, and else names in their order. -/
inductive StandsBefore : (List String → Bool) → List String → List String → Prop
  | holds {isDir : List String → Bool} {n : String} {ns : List String} :
    StandsBefore isDir [] (n :: ns)
  | inside {isDir : List String → Bool} {n : String} {ns ms : List String} :
    StandsBefore (fun q => isDir (n :: q)) ns ms → StandsBefore isDir (n :: ns) (n :: ms)
  | dirFile {isDir : List String → Bool} {n m : String} {ns ms : List String} :
    isDir [n] = true → isDir [m] = false → StandsBefore isDir (n :: ns) (m :: ms)
  | named {isDir : List String → Bool} {n m : String} {ns ms : List String} :
    isDir [n] = isDir [m] → n < m → StandsBefore isDir (n :: ns) (m :: ms)

namespace StandsBefore
variable {isDir : List String → Bool} {as bs cs : List String}

theorem asymm (h : StandsBefore isDir as bs) : ¬StandsBefore isDir bs as := by
  induction h with
  | holds => exact nofun
  | inside _ ih =>
    rintro (_ | h | ⟨hdir, hfile⟩ | ⟨_, hlt⟩)
    · exact ih h
    · exact Bool.false_ne_true (hfile.symm.trans hdir)
    · exact String.lt_irrefl _ hlt
  | dirFile hdir hfile =>
    rintro (_ | _ | ⟨hdir', _⟩ | ⟨hsame, _⟩)
    · exact Bool.false_ne_true (hfile.symm.trans hdir)
    · exact Bool.false_ne_true (hfile.symm.trans hdir')
    · exact Bool.false_ne_true (hfile.symm.trans (hsame.trans hdir))
  | named hsame hlt =>
    rintro (_ | _ | ⟨hdir, hfile⟩ | ⟨_, hgt⟩)
    · exact String.lt_irrefl _ hlt
    · exact Bool.false_ne_true (hfile.symm.trans (hsame.trans hdir))
    · exact String.lt_asymm hlt hgt

theorem ne (h : StandsBefore isDir as bs) : as ≠ bs := by
  rintro rfl
  exact h.asymm h

theorem append_left {above : List String}
    (h : StandsBefore (fun q => isDir (above ++ q)) as bs) :
    StandsBefore isDir (above ++ as) (above ++ bs) := by
  induction above generalizing isDir with
  | nil => exact h
  | cons n above ih => exact .inside (ih h)

theorem of_isPrefix (h : as <+: bs) (hne : as ≠ bs) : StandsBefore isDir as bs := by
  obtain ⟨rest, rfl⟩ := h
  cases rest with
  | nil => simp at hne
  | cons n rest =>
    have hholds : StandsBefore (fun q => isDir (as ++ q)) [] (n :: rest) := .holds
    simpa using hholds.append_left

theorem of_inside (h : StandsBefore isDir as cs) (hout : ¬as <+: cs) (hin : as <+: bs) :
    StandsBefore isDir bs cs := by
  induction h generalizing bs with
  | holds => exact absurd List.nil_prefix hout
  | inside _ ih =>
    obtain ⟨rest, rfl⟩ := hin
    exact .inside (ih (fun hpre => hout (List.cons_prefix_cons.mpr ⟨rfl, hpre⟩)) ⟨rest, rfl⟩)
  | dirFile hdir hfile =>
    obtain ⟨rest, rfl⟩ := hin
    exact .dirFile hdir hfile
  | named hsame hlt =>
    obtain ⟨rest, rfl⟩ := hin
    exact .named hsame hlt

end StandsBefore

def isDirAt (t : FileTree) (segs : List String) : Bool := t.content? segs == some .dir

def rowsFrom (t : FileTree) (isOpen : String → Bool) (fuel : Nat) (depth : UInt16) (id : Nat) :
    List Row :=
  let e := t.arena.value id
  row e depth (isOpen e.path) :: if isOpen e.path then t.rowsBelow isOpen fuel id (depth + 1) else []

theorem rowsBelow_succ (t : FileTree) (isOpen : String → Bool) (fuel dir : Nat) (depth : UInt16) :
    t.rowsBelow isOpen (fuel + 1) dir depth =
      (t.members .dir dir).flatMap (t.rowsFrom isOpen fuel depth) ++
        (t.members .file dir).map fun id => row (t.arena.value id) depth false := rfl

theorem depth_concat (above : List String) (name : String) :
    UInt16.ofNat (above.length + 1) + 1 = .ofNat ((above ++ [name]).length + 1) := by
  rw [List.length_append, List.length_singleton, UInt16.ofNat_add (above.length + 1) 1]
  rfl

section
variable (hw : t.WellFormed) {fuel dir id : Nat} {above : List String} {name : String} {r : Row}
include hw

theorem row_of_child? (hdir : t.resolve? above = some dir) (hc : t.child? dir name = some id) :
    (t.arena.value id).path = join (above ++ [name]) ∧
      ∃ c, t.content? (above ++ [name]) = some c ∧ (t.arena.value id).kind = c.kind ∧
        ∀ isOpen, row (t.arena.value id) (.ofNat (above.length + 1))
          (isOpen (t.arena.value id).path) = rowAt isOpen (above ++ [name]) c := by
  have hid : t.resolve? (above ++ [name]) = some id := by
    rw [resolve?_concat, hdir, Option.bind_some, hc]
  obtain ⟨-, e, he, hpath⟩ := hw.entry_of_resolve? hid
  rw [Arena.value_eq he]
  have hkind : e.kind = e.content.kind := by
    rw [Entry.content]
    cases e.kind <;> rfl
  refine ⟨hpath, e.content, content?_of_resolve? hid he, hkind, fun isOpen => ?_⟩
  rw [row, rowAt, hpath, hkind, List.length_append, List.length_singleton]

theorem row_of_file (hdir : t.resolve? above = some dir) (hc : t.child? dir name = some id)
    (hkind : (t.arena.value id).kind = .file) :
    ∃ body, t.content? (above ++ [name]) = some (.file body) ∧
      ∀ isOpen, row (t.arena.value id) (.ofNat (above.length + 1)) false =
        rowAt isOpen (above ++ [name]) (.file body) := by
  obtain ⟨-, c, hcontent, hck, hrow⟩ := row_of_child? hw hdir hc
  cases c with
  | dir => rw [hck] at hkind; cases hkind
  | file body =>
    refine ⟨body, hcontent, fun isOpen => ?_⟩
    rw [← hrow, row, row, hkind]
    rfl

theorem mem_rowsFrom_iff (hdir : t.resolve? above = some dir) (hc : t.child? dir name = some id)
    (hin : ∀ r, r ∈ t.rowsBelow isOpen fuel id (.ofNat ((above ++ [name]).length + 1)) ↔
      ∃ rest c, rest ≠ [] ∧ t.content? (above ++ [name] ++ rest) = some c ∧
        Shown isOpen (above ++ [name]) rest ∧ r = rowAt isOpen (above ++ [name] ++ rest) c) :
    r ∈ t.rowsFrom isOpen fuel (.ofNat (above.length + 1)) id ↔
      ∃ rest c, t.content? (above ++ name :: rest) = some c ∧ Shown isOpen above (name :: rest) ∧
        r = rowAt isOpen (above ++ name :: rest) c := by
  obtain ⟨hpath, c, hcontent, -, hrow⟩ := row_of_child? hw hdir hc
  rw [rowsFrom, List.mem_cons, hrow, hpath, depth_concat above name]
  constructor
  · rintro (rfl | hr)
    · exact ⟨[], c, hcontent, shown_singleton above name, rfl⟩
    · split at hr
      · next hopen =>
        obtain ⟨rest, c, hne, hc, hshown, rfl⟩ := (hin r).mp hr
        rw [List.append_assoc, List.singleton_append] at hc ⊢
        exact ⟨rest, c, hc, (shown_cons_iff hne).mpr ⟨hopen, hshown⟩, rfl⟩
      · exact absurd hr List.not_mem_nil
  · rintro ⟨rest, c', hc', hshown, rfl⟩
    by_cases hne : rest = []
    · subst hne
      obtain rfl := Option.some.inj (hcontent.symm.trans hc')
      exact .inl rfl
    · obtain ⟨hopen, hshown⟩ := (shown_cons_iff hne).mp hshown
      rw [if_pos hopen, hin]
      refine .inr ⟨rest, c', hne, ?_, hshown, ?_⟩
      · rwa [List.append_assoc, List.singleton_append]
      · rw [List.append_assoc, List.singleton_append]

theorem mem_rowsBelow_iff (hdir : t.resolve? above = some dir)
    (hfuel : t.arena.next ≤ fuel + dir) :
    r ∈ t.rowsBelow isOpen fuel dir (.ofNat (above.length + 1)) ↔
      ∃ rest c, rest ≠ [] ∧ t.content? (above ++ rest) = some c ∧ Shown isOpen above rest ∧
        r = rowAt isOpen (above ++ rest) c := by
  induction fuel generalizing dir above r with
  | zero =>
    -- from the next number on none is in use
    obtain ⟨-, d, hd, -⟩ := hw.entry_of_resolve? hdir
    have hlt := Arena.lt_next hd
    omega
  | succ fuel ih =>
    have hfrom : ∀ {id name}, t.child? dir name = some id → (r ∈ t.rowsFrom isOpen fuel
        (.ofNat (above.length + 1)) id ↔ ∃ rest c, t.content? (above ++ name :: rest) = some c ∧
          Shown isOpen above (name :: rest) ∧ r = rowAt isOpen (above ++ name :: rest) c) := by
      intro id name hc
      have hbelow : t.resolve? (above ++ [name]) = some id ∧ t.arena.next ≤ fuel + id :=
        enough_below hw hdir (by omega) hc
      exact mem_rowsFrom_iff hw hdir hc fun r => ih hbelow.1 hbelow.2
    rw [rowsBelow_succ, List.mem_append, List.mem_flatMap, List.mem_map]
    constructor
    · rintro (⟨id, hid, hr⟩ | ⟨id, hid, rfl⟩)
      · obtain ⟨⟨name, hc⟩, -⟩ := mem_members_iff.mp hid
        obtain ⟨rest, c, hcontent, hshown, hrow⟩ := (hfrom hc).mp hr
        exact ⟨name :: rest, c, List.cons_ne_nil name rest, hcontent, hshown, hrow⟩
      · obtain ⟨⟨name, hc⟩, hkind⟩ := mem_members_iff.mp hid
        obtain ⟨body, hcontent, hrow⟩ := row_of_file hw hdir hc hkind
        exact ⟨[name], _, List.cons_ne_nil name [], hcontent, shown_singleton above name, hrow _⟩
    · rintro ⟨rest, c, hne, hcontent, hshown, hrow⟩
      obtain ⟨name, rest, rfl⟩ := List.exists_cons_of_ne_nil hne
      obtain ⟨id, hc, -, hdirkind⟩ := exists_child?_of_content? hw hdir hcontent
      cases hkind : (t.arena.value id).kind with
      | dir =>
        exact .inl ⟨id, mem_members_iff.mpr ⟨⟨name, hc⟩, hkind⟩,
          (hfrom hc).mpr ⟨rest, c, hcontent, hshown, hrow⟩⟩
      | file =>
        obtain ⟨body, hbody, hfile⟩ := row_of_file hw hdir hc hkind
        have hrest : rest = [] := by
          by_contra hrest
          have habove := hw.content?_of_isPrefix (isSome_resolve?_of_content? hcontent)
            ⟨rest, List.append_assoc above [name] rest⟩ (by simpa using hrest)
          simp [hbody] at habove
        subst hrest
        obtain rfl := Option.some.inj (hbody.symm.trans hcontent)
        exact .inr ⟨id, mem_members_iff.mpr ⟨⟨name, hc⟩, hkind⟩, (hfile _).trans hrow.symm⟩

theorem segments_of_mem_rowsBelow (hdir : t.resolve? above = some dir)
    (hfuel : t.arena.next ≤ fuel + dir)
    (h : r ∈ t.rowsBelow isOpen fuel dir (.ofNat (above.length + 1))) :
    ∃ rest, rest ≠ [] ∧ segments r.path = above ++ rest := by
  obtain ⟨rest, c, hne, hcontent, -, rfl⟩ := (mem_rowsBelow_iff hw hdir hfuel).mp h
  exact ⟨rest, hne, segments_of_content? hw hcontent⟩

theorem segments_row (hdir : t.resolve? above = some dir) (hc : t.child? dir name = some id)
    (depth : UInt16) (isOpen : Bool) :
    segments (row (t.arena.value id) depth isOpen).path = above ++ [name] := by
  obtain ⟨hpath, c, hcontent, -⟩ := row_of_child? hw hdir hc
  rw [row, hpath, segments_of_content? hw hcontent]

theorem isDirAt_of_mem_members {kind : EntryKind} (hdir : t.resolve? above = some dir)
    (hid : id ∈ t.members kind dir) (hc : t.child? dir name = some id) :
    t.isDirAt (above ++ [name]) = (kind == .dir) := by
  obtain ⟨-, c, hcontent, hkind, -⟩ := row_of_child? hw hdir hc
  rw [isDirAt, hcontent, ← (mem_members_iff.mp hid).2, hkind]
  cases c <;> rfl

section
variable (hdir : t.resolve? above = some dir) (hfuel : t.arena.next ≤ fuel + dir + 1)
  (hc : t.child? dir name = some id)
include hdir hfuel hc

theorem segments_of_mem_rowsInside
    (hr : r ∈ t.rowsBelow isOpen fuel id (.ofNat (above.length + 1) + 1)) :
    ∃ rest, rest ≠ [] ∧ segments r.path = above ++ name :: rest := by
  obtain ⟨hid, hfuel⟩ := enough_below hw hdir hfuel hc
  rw [depth_concat above name] at hr
  obtain ⟨rest, hne, hsegs⟩ := segments_of_mem_rowsBelow hw hid hfuel hr
  exact ⟨rest, hne, by rw [hsegs, List.append_assoc, List.singleton_append]⟩

theorem segments_of_mem_rowsFrom
    (hr : r ∈ t.rowsFrom isOpen fuel (.ofNat (above.length + 1)) id) :
    ∃ rest, segments r.path = above ++ name :: rest := by
  rcases List.mem_cons.mp hr with rfl | hr
  · exact ⟨[], segments_row hw hdir hc _ _⟩
  · split at hr
    · obtain ⟨rest, -, hsegs⟩ := segments_of_mem_rowsInside hw hdir hfuel hc hr
      exact ⟨rest, hsegs⟩
    · exact absurd hr List.not_mem_nil

theorem pairwise_rowsFrom
    (hinside : (t.rowsBelow isOpen fuel id (.ofNat ((above ++ [name]).length + 1))).Pairwise
      fun a b => StandsBefore t.isDirAt (segments a.path) (segments b.path)) :
    (t.rowsFrom isOpen fuel (.ofNat (above.length + 1)) id).Pairwise fun a b =>
      StandsBefore t.isDirAt (segments a.path) (segments b.path) := by
  refine List.pairwise_cons.mpr ⟨fun r hr => ?_, ?_⟩
  · split at hr
    · obtain ⟨rest, hne, hsegs⟩ := segments_of_mem_rowsInside hw hdir hfuel hc hr
      rw [segments_row hw hdir hc, hsegs]
      exact .of_isPrefix ⟨rest, by simp⟩ (by simpa using hne)
    · exact absurd hr List.not_mem_nil
  · split
    · rwa [depth_concat above name]
    · exact .nil

end

theorem pairwise_rowsBelow (hdir : t.resolve? above = some dir)
    (hfuel : t.arena.next ≤ fuel + dir) :
    (t.rowsBelow isOpen fuel dir (.ofNat (above.length + 1))).Pairwise fun a b =>
      StandsBefore t.isDirAt (segments a.path) (segments b.path) := by
  induction fuel generalizing dir above with
  | zero => exact .nil
  | succ fuel ih =>
    have hfuel : t.arena.next ≤ fuel + dir + 1 := by omega
    rw [rowsBelow_succ, List.pairwise_append, List.pairwise_flatMap, List.pairwise_map]
    refine ⟨⟨fun id hid => ?_, ?_⟩, ?_, fun a ha b hb => ?_⟩
    · obtain ⟨⟨name, hc⟩, -⟩ := mem_members_iff.mp hid
      obtain ⟨hid, hbelow⟩ := enough_below hw hdir hfuel hc
      exact pairwise_rowsFrom hw hdir hfuel hc (ih hid hbelow)
    · refine (t.pairwise_members .dir dir).imp_of_mem ?_
      rintro c d hcmem hdmem ⟨n, m, hc, hd, hlt⟩ a ha b hb
      obtain ⟨ns, hns⟩ := segments_of_mem_rowsFrom hw hdir hfuel hc ha
      obtain ⟨ms, hms⟩ := segments_of_mem_rowsFrom hw hdir hfuel hd hb
      have hsame := (isDirAt_of_mem_members hw hdir hcmem hc).trans
        (isDirAt_of_mem_members hw hdir hdmem hd).symm
      rw [hns, hms]
      exact .append_left (.named hsame hlt)
    · refine (t.pairwise_members .file dir).imp_of_mem ?_
      rintro c d hcmem hdmem ⟨n, m, hc, hd, hlt⟩
      have hsame := (isDirAt_of_mem_members hw hdir hcmem hc).trans
        (isDirAt_of_mem_members hw hdir hdmem hd).symm
      rw [segments_row hw hdir hc, segments_row hw hdir hd]
      exact .append_left (.named hsame hlt)
    · obtain ⟨c, hcmem, ha⟩ := List.mem_flatMap.mp ha
      obtain ⟨d, hdmem, rfl⟩ := List.mem_map.mp hb
      obtain ⟨⟨n, hc⟩, -⟩ := mem_members_iff.mp hcmem
      obtain ⟨⟨m, hd⟩, -⟩ := mem_members_iff.mp hdmem
      obtain ⟨ns, hns⟩ := segments_of_mem_rowsFrom hw hdir hfuel hc ha
      rw [hns, segments_row hw hdir hd]
      exact .append_left (.dirFile (isDirAt_of_mem_members hw hdir hcmem hc)
        (isDirAt_of_mem_members hw hdir hdmem hd))

variable {expanded : List String}

theorem mem_rows_iff : r ∈ t.rows expanded ↔ ∃ segs c, segs ≠ [] ∧ t.content? segs = some c ∧
    Shown expanded.contains [] segs ∧ r = rowAt expanded.contains segs c :=
  mem_rowsBelow_iff hw (resolve?_nil t) (Nat.le_add_right _ _)

theorem pairwise_rows : (t.rows expanded).Pairwise fun a b =>
    StandsBefore t.isDirAt (segments a.path) (segments b.path) :=
  pairwise_rowsBelow hw (resolve?_nil t) (Nat.le_add_right _ _)

theorem nodup_path_rows : ((t.rows expanded).map Row.path).Nodup :=
  List.pairwise_map.mpr ((pairwise_rows hw).imp fun h heq => h.ne (congrArg segments heq))

theorem eq_rows_of_mem_iff {rows : List Row} (hmem : ∀ r, r ∈ rows ↔ r ∈ t.rows expanded)
    (horder : rows.Pairwise fun a b => StandsBefore t.isDirAt (segments a.path) (segments b.path)) :
    rows = t.rows expanded := by
  have hnodup : ∀ {rows : List Row}, (rows.Pairwise fun a b =>
      StandsBefore t.isDirAt (segments a.path) (segments b.path)) → rows.Nodup :=
    fun h => h.imp fun h heq => h.ne (by rw [heq])
  refine List.Perm.eq_of_pairwise (fun a b _ _ hab hba => absurd hba hab.asymm) horder
    (pairwise_rows hw) ?_
  exact (List.perm_ext_iff_of_nodup (hnodup horder) (hnodup (pairwise_rows hw))).mpr hmem

theorem idxOf_lt_of_standsBefore {a b : Row} (ha : a ∈ t.rows expanded) (hb : b ∈ t.rows expanded)
    (h : StandsBefore t.isDirAt (segments a.path) (segments b.path)) :
    (t.rows expanded).idxOf a < (t.rows expanded).idxOf b :=
  idxOf_lt_of_pairwise (pairwise_rows hw) ha hb (fun heq => h.ne (heq ▸ rfl)) h.asymm

end

/-- The row of an entry other than the root whose directories are all open. -/
structure IsRow (t : FileTree) (expanded : List String) (r : Row) : Prop where
  normalize_path : normalize r.path = .ok r.path
  segments_ne_nil : segments r.path ≠ []
  kind?_path : t.kind? r.path = some (if r.isDir then .dir else .file)
  name_eq : (segments r.path).getLast? = some r.name
  depth_eq : r.depth.toNat = (segments r.path).length
  isExpanded_iff : r.isExpanded = true ↔ r.isDir = true ∧ r.path ∈ expanded
  above_mem : ∀ q, q ≠ [] → q <+: segments r.path → q ≠ segments r.path → join q ∈ expanded

theorem shown_contains_iff {expanded segs : List String} : Shown expanded.contains [] segs ↔
    ∀ q, q ≠ [] → q <+: segs → q ≠ segs → join q ∈ expanded := by
  simp only [Shown, List.nil_append, List.contains_iff_mem]

theorem getLast?_eq_lastPiece {segs : List String} (h : ∀ s ∈ segs, IsSegment s) (hne : segs ≠ []) :
    segs.getLast? = some (lastPiece (join segs)) := by
  obtain ⟨above, name, rfl⟩ := (List.eq_nil_or_concat segs).resolve_left hne
  rw [List.concat_eq_append] at h ⊢
  rw [lastPiece_join_concat h, List.getLast?_concat]

section
variable (hw : t.WellFormed) {expanded segs : List String} {c : Content} {r : Row}
include hw

theorem isRow_rowAt (hne : segs ≠ []) (hcontent : t.content? segs = some c)
    (hshown : Shown expanded.contains [] segs) (hshort : segs.length ≤ 65535) :
    t.IsRow expanded (rowAt expanded.contains segs c) := by
  have hnames := hw.names_of_content? hcontent
  have hsegs : segments (rowAt expanded.contains segs c).path = segs :=
    segments_of_content? hw hcontent
  refine ⟨normalize_join hnames, by rwa [hsegs], ?_, ?_, ?_, ?_, ?_⟩
  · rw [kind?_eq, hsegs, hcontent]
    cases c <;> rfl
  · rw [hsegs]
    exact getLast?_eq_lastPiece (fun s hs => (hnames s hs).1) hne
  · rw [hsegs]
    exact UInt16.toNat_ofNat_of_lt (Nat.lt_succ_of_le hshort)
  · simp [rowAt]
  · rw [hsegs]
    exact shown_contains_iff.mp hshown

theorem IsRow.exists_eq_rowAt (h : t.IsRow expanded r) :
    ∃ c, t.content? (segments r.path) = some c ∧
      r = rowAt expanded.contains (segments r.path) c := by
  obtain ⟨hpath, hne, hkind, hname, hdepth, hexpanded, -⟩ := h
  rw [kind?_eq] at hkind
  obtain ⟨c, hcontent, hkind⟩ := Option.map_eq_some_iff.mp hkind
  have hsegs := fun s hs => (hw.names_of_content? hcontent s hs).1
  have hjoin : join (segments r.path) = r.path := ((normalize_eq_ok_iff.mp hpath).2).symm
  have hdir : (c.kind == .dir) = r.isDir := by
    rw [hkind]
    cases r.isDir <;> rfl
  refine ⟨c, hcontent, ?_⟩
  rw [rowAt, hdir, hjoin, ← hdepth, UInt16.ofNat_toNat]
  have hlast : lastPiece r.path = r.name := by
    rw [getLast?_eq_lastPiece hsegs hne, hjoin] at hname
    exact Option.some.inj hname
  have hopen : (r.isDir && expanded.contains r.path) = r.isExpanded := by
    rw [Bool.eq_iff_iff, hexpanded, Bool.and_eq_true, List.contains_iff_mem]
  rw [hlast, hopen]

theorem mem_rows_iff_isRow
    (hshort : ∀ path, t.contains path = true → (segments path).length ≤ 65535) :
    r ∈ t.rows expanded ↔ t.IsRow expanded r := by
  rw [mem_rows_iff hw]
  constructor
  · rintro ⟨segs, c, hne, hcontent, hshown, rfl⟩
    refine isRow_rowAt hw hne hcontent hshown ?_
    have hsegs := segments_of_content? hw hcontent
    rw [← hsegs]
    exact hshort _ (by rw [contains, hsegs]; exact isSome_resolve?_of_content? hcontent)
  · intro h
    obtain ⟨c, hcontent, hr⟩ := h.exists_eq_rowAt hw
    exact ⟨_, c, h.segments_ne_nil, hcontent, shown_contains_iff.mpr h.above_mem, hr⟩

theorem isDir_join (hne : segs ≠ []) (hdir : t.content? segs = some .dir) :
    normalize (join segs) = .ok (join segs) ∧ join segs ≠ "/" ∧ t.isDir (join segs) = true := by
  have hnames := hw.names_of_content? hdir
  refine ⟨normalize_join hnames, fun hroot => hne ?_, ?_⟩
  · have hjoin : join segs = join [] := hroot
    exact join_injective (fun s hs => (hnames s hs).1) (by simp) hjoin
  · rw [isDir_iff, segments_of_content? hw hdir, hdir]

theorem exists_mem_rows (hne : segs ≠ []) (hcontent : t.content? segs = some c)
    (hshown : ∀ q, q ≠ [] → q <+: segs → q ≠ segs → join q ∈ expanded) :
    ∃ r ∈ t.rows expanded, r.path = join segs :=
  ⟨_, (mem_rows_iff hw).mpr ⟨segs, c, hne, hcontent, shown_contains_iff.mpr hshown, rfl⟩, rfl⟩

end

theorem standsBefore_of_precedes {isDir : List String → Bool} {as bs : List String}
    (h : Precedes as bs) (ha : isDir as = false) (hb : isDir bs = false)
    (habove : ∀ q, q <+: as → q ≠ as → isDir q = true)
    (hbove : ∀ q, q <+: bs → q ≠ bs → isDir q = true) : StandsBefore isDir as bs := by
  induction h generalizing isDir with
  | inside _ ih =>
    refine .inside (ih ha hb (fun q hq hne => ?_) fun q hq hne => ?_)
    · exact habove _ (List.cons_prefix_cons.mpr ⟨rfl, hq⟩) (by simpa using hne)
    · exact hbove _ (List.cons_prefix_cons.mpr ⟨rfl, hq⟩) (by simpa using hne)
  | dirs hns hms hlt =>
    have hn := habove [_] ⟨_, rfl⟩ (by simpa using hns.symm)
    have hm := hbove [_] ⟨_, rfl⟩ (by simpa using hms.symm)
    exact .named (hn.trans hm.symm) hlt
  | dirFile hns => exact .dirFile (habove [_] ⟨_, rfl⟩ (by simpa using hns.symm)) hb
  | files hlt => exact .named (ha.trans hb.symm) hlt

theorem path_file_rows (hw : t.WellFormed) {expanded : List String}
    (h : ∀ path, normalize path = .ok path → path ≠ "/" → t.isDir path = true → path ∈ expanded) :
    ((t.rows expanded).filter (!·.isDir)).map Row.path = t.readAll.map Leaf.name := by
  have hfile : ∀ {leaf}, leaf ∈ t.readAll → t.isDirAt (segments leaf.name) = false ∧
      ∀ q, q <+: segments leaf.name → q ≠ segments leaf.name → t.isDirAt q = true := by
    intro leaf hleaf
    obtain ⟨segs, hname, hcontent⟩ := (mem_readAll_iff hw).mp hleaf
    rw [hname, segments_of_content? hw hcontent]
    refine ⟨by rw [isDirAt, hcontent]; rfl, fun q hq hne => ?_⟩
    rw [isDirAt, hw.content?_of_isPrefix (isSome_resolve?_of_content? hcontent) hq hne]
    rfl
  have hrows : (((t.rows expanded).filter (!·.isDir)).map Row.path).Pairwise fun p q =>
      StandsBefore t.isDirAt (segments p) (segments q) :=
    List.pairwise_map.mpr ((pairwise_rows hw).filter _)
  have hleaves : (t.readAll.map Leaf.name).Pairwise fun p q =>
      StandsBefore t.isDirAt (segments p) (segments q) := by
    refine List.pairwise_map.mpr ((pairwise_readAll hw).imp_of_mem fun ha hb h => ?_)
    exact standsBefore_of_precedes h (hfile ha).1 (hfile hb).1 (hfile ha).2 (hfile hb).2
  refine List.Perm.eq_of_pairwise (fun _ _ _ _ hab hba => absurd hba hab.asymm) hrows hleaves ?_
  refine (List.perm_ext_iff_of_nodup ?_ (nodup_name_readAll hw)).mpr fun p => ?_
  · exact (nodup_path_rows hw).sublist (List.filter_sublist.map _)
  · simp only [List.mem_map, List.mem_filter, mem_rows_iff hw]
    constructor
    · rintro ⟨_, ⟨⟨segs, c, -, hcontent, -, rfl⟩, hkind⟩, rfl⟩
      cases c with
      | dir => simp [rowAt, Content.kind] at hkind
      | file body => exact ⟨⟨join segs, body⟩, (mem_readAll_iff hw).mpr ⟨segs, rfl, hcontent⟩, rfl⟩
    · rintro ⟨leaf, hleaf, rfl⟩
      obtain ⟨segs, hname, hcontent⟩ := (mem_readAll_iff hw).mp hleaf
      have hne : segs ≠ [] := by
        rintro rfl
        simp [hw.content?_nil] at hcontent
      refine ⟨_, ⟨⟨segs, _, hne, hcontent, shown_contains_iff.mpr fun q hq hpre hneq => ?_, rfl⟩, rfl⟩,
        hname.symm⟩
      have hdir := hw.content?_of_isPrefix (isSome_resolve?_of_content? hcontent) hpre hneq
      obtain ⟨hnorm, hroot, hisdir⟩ := isDir_join hw hq hdir
      exact h _ hnorm hroot hisdir

end FlowStudio.FileTree
