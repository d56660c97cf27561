import FlowStudio.Proofs.FileTree.RowStack
import FlowStudio.Proofs.Session.Toggle

/-! How deep the explorer goes. A row counts the directories above it in sixteen bits, and nothing keeps
a session from making and opening more than those can count. -/

namespace FlowStudio
open FlowStudio.Path FlowStudio.FileTree
variable {σ : Type}

/-- The depth that one is added to for a row, which is that of the directory right above it. The root
has depth zero and no row. -/
inductive DepthAbove (rows : List Row) (r : Row) : UInt16 → Prop
  | root : (segments r.path).length = 1 → DepthAbove rows r 0
  | inside {above : Row} : above ∈ rows → above.isExpanded = true →
    segments above.path = (segments r.path).dropLast → DepthAbove rows r above.depth

namespace FileTree
variable {t : FileTree} (hw : t.WellFormed) {expanded : List String} {r : Row}
include hw

theorem eq_rowAt_of_mem_rows (hr : r ∈ t.rows expanded) : segments r.path ≠ [] ∧
    Shown expanded.contains [] (segments r.path) ∧ ∃ c, t.content? (segments r.path) = some c ∧
      r = rowAt expanded.contains (segments r.path) c := by
  obtain ⟨segs, c, hne, hcontent, hshown, rfl⟩ := (mem_rows_iff hw).mp hr
  have hsegs : segments (rowAt expanded.contains segs c).path = segs :=
    segments_of_content? hw hcontent
  rw [hsegs]
  exact ⟨hne, hshown, c, hcontent, rfl⟩

theorem contains_of_mem_rows (hr : r ∈ t.rows expanded) : t.contains r.path = true := by
  obtain ⟨-, -, c, hcontent, -⟩ := eq_rowAt_of_mem_rows hw hr
  exact isSome_resolve?_of_content? hcontent

theorem length_pos_of_mem_rows (hr : r ∈ t.rows expanded) : 0 < (segments r.path).length :=
  List.length_pos_of_ne_nil (eq_rowAt_of_mem_rows hw hr).1

theorem toNat_depth (hr : r ∈ t.rows expanded) :
    r.depth.toNat = (segments r.path).length % 65536 := by
  obtain ⟨-, -, c, -, hrow⟩ := eq_rowAt_of_mem_rows hw hr
  have hdepth : r.depth = .ofNat (segments r.path).length := congrArg Row.depth hrow
  rw [hdepth]
  exact UInt16.toNat_ofNat'

theorem exists_row_above (hr : r ∈ t.rows expanded) {q : List String} (hne : q ≠ [])
    (hq : q <+: segments r.path) (hneq : q ≠ segments r.path) :
    ∃ above ∈ t.rows expanded, above.isExpanded = true ∧ segments above.path = q := by
  obtain ⟨-, hshown, c, hcontent, -⟩ := eq_rowAt_of_mem_rows hw hr
  have hdir := hw.content?_of_isPrefix (isSome_resolve?_of_content? hcontent) hq hneq
  have hopen : expanded.contains (join q) = true := hshown q hne hq hneq
  have habove : Shown expanded.contains [] q := fun p hp hpre hpne =>
    hshown p hp (hpre.trans hq) fun heq => hpne (hpre.eq_of_length_le (heq ▸ hq.length_le))
  refine ⟨_, (mem_rows_iff hw).mpr ⟨q, .dir, hne, hdir, habove, rfl⟩, ?_,
    segments_of_content? hw hdir⟩
  rw [rowAt, hopen]
  rfl

theorem exists_depthAbove (hr : r ∈ t.rows expanded) : ∃ d, DepthAbove (t.rows expanded) r d := by
  have hlength : (segments r.path).dropLast.length = _ := List.length_dropLast
  by_cases hone : (segments r.path).length = 1
  · exact ⟨0, .root hone⟩
  · have hpos := length_pos_of_mem_rows hw hr
    obtain ⟨above, hmem, hopen, hsegs⟩ := exists_row_above hw hr (q := (segments r.path).dropLast)
      (List.ne_nil_of_length_pos (by omega)) (List.dropLast_prefix _)
      (fun heq => by rw [heq] at hlength; omega)
    exact ⟨above.depth, .inside hmem hopen hsegs⟩

theorem toNat_depthAbove {d : UInt16} (h : DepthAbove (t.rows expanded) r d) :
    d.toNat = ((segments r.path).length - 1) % 65536 := by
  cases h with
  | root hone => rw [hone]; rfl
  | inside hmem _ hsegs => rw [toNat_depth hw hmem, hsegs, List.length_dropLast]

theorem depth_eq_add_one {d : UInt16} (hr : r ∈ t.rows expanded)
    (h : DepthAbove (t.rows expanded) r d) : r.depth = d + 1 := by
  have hpos := length_pos_of_mem_rows hw hr
  apply UInt16.toNat_inj.mp
  rw [UInt16.toNat_add, toNat_depthAbove hw h, toNat_depth hw hr]
  change _ = (_ + 1) % 65536
  omega

theorem add_one_le_iff {d : UInt16} (hr : r ∈ t.rows expanded)
    (h : DepthAbove (t.rows expanded) r d) :
    d.toNat + 1 ≤ 65535 ↔ ¬65536 ∣ (segments r.path).length := by
  have hpos := length_pos_of_mem_rows hw hr
  rw [toNat_depthAbove hw h]
  omega

theorem exists_row_of_length (hr : r ∈ t.rows expanded) {n : Nat} (hn : 0 < n)
    (hle : n ≤ (segments r.path).length) :
    ∃ r' ∈ t.rows expanded, (segments r'.path).length = n := by
  have hlength : ((segments r.path).take n).length = n := List.length_take_of_le hle
  by_cases heq : (segments r.path).take n = segments r.path
  · exact ⟨r, hr, heq ▸ hlength⟩
  · have hne : (segments r.path).take n ≠ [] := List.ne_nil_of_length_pos (by omega)
    obtain ⟨above, hmem, -, hsegs⟩ := exists_row_above hw hr hne (List.take_prefix n _) heq
    exact ⟨above, hmem, hsegs ▸ hlength⟩

theorem depths_right_iff : (∀ r ∈ t.rows expanded, r.depth.toNat = (segments r.path).length) ↔
    ∀ r ∈ t.rows expanded, (segments r.path).length ≤ 65535 := by
  refine forall₂_congr fun r hr => ?_
  rw [toNat_depth hw hr]
  omega

theorem sums_right_iff : (∀ r ∈ t.rows expanded, ∀ d, DepthAbove (t.rows expanded) r d →
      d.toNat + 1 ≤ 65535) ↔
    ∀ r ∈ t.rows expanded, (segments r.path).length ≤ 65535 := by
  constructor
  · intro h r hr
    by_contra hlong
    obtain ⟨r', hr', hlength⟩ := exists_row_of_length hw hr (n := 65536) (by decide) (by omega)
    obtain ⟨d, hd⟩ := exists_depthAbove hw hr'
    exact (add_one_le_iff hw hr' hd).mp (h r' hr' d hd) ⟨1, hlength⟩
  · intro h r hr d hd
    have hshort := h r hr
    have hpos := length_pos_of_mem_rows hw hr
    rw [add_one_le_iff hw hr hd]
    exact Nat.not_dvd_of_pos_of_lt hpos (by omega)

end FileTree

namespace Session

def toggles (dirs : List String) : List (Arrival σ) := dirs.map fun d => ⟨0, .toggle d⟩

theorem runSession_toggles {s : Session σ} {dirs : List String} (h : s.desk.Current)
    (hordered : s.desk.Ordered) (hnodup : dirs.Nodup)
    (hclosed : ∀ d ∈ dirs, d ∉ s.explorer.expanded)
    (hdirs : ∀ d ∈ dirs, normalize d = .ok d ∧ d ≠ "/" ∧ s.tree.isDir d = true) :
    (s.runSession (toggles dirs)).tree = s.tree ∧
      ∀ p, p ∈ (s.runSession (toggles dirs)).explorer.expanded ↔
        p ∈ dirs ∨ p ∈ s.explorer.expanded := by
  induction dirs generalizing s with
  | nil => exact ⟨rfl, fun p => by simp [toggles, runSession]⟩
  | cons d dirs ih =>
    obtain ⟨hd, hnodup⟩ := List.nodup_cons.mp hnodup
    obtain ⟨hdclosed, hclosed⟩ := List.forall_mem_cons.mp hclosed
    obtain ⟨⟨hnorm, hroot, hdir⟩, hdirs⟩ := List.forall_mem_cons.mp hdirs
    let u := s.withOpen (Explorer.flipped d s.explorer.expanded)
    have hu : (s.dispatch 0 (.toggle d)).session = u :=
      congrArg Outcome.session (toggle_of_isDir h hnorm hroot hdir)
    have hturn : Desk.Turn (.toggle d : Action σ) s.desk u.desk := hu ▸ s.turn_dispatch 0 (.toggle d)
    have hmem : ∀ p, p ∈ u.explorer.expanded ↔ p = d ∨ p ∈ s.explorer.expanded := by
      intro p
      have hflipped : p ∈ u.explorer.expanded ↔ (p ∈ s.explorer.expanded ↔ p ≠ d) :=
        Explorer.mem_flipped_iff hordered
      rw [hflipped]
      by_cases hp : p = d <;> simp [hp, hdclosed]
    obtain ⟨htree, hexpanded⟩ := ih (s := u) (hturn.current h) (hturn.ordered hordered) hnodup
      (fun q hq hopen => ((hmem q).mp hopen).elim (fun heq => hd (heq ▸ hq)) (hclosed q hq)) hdirs
    have hrun : s.runSession (toggles (d :: dirs)) = u.runSession (toggles dirs) :=
      congrArg (runSession · _) hu
    rw [hrun]
    refine ⟨htree, fun p => ?_⟩
    rw [hexpanded, hmem, List.mem_cons, or_left_comm, or_assoc]

def dirsAbove (segs : List String) : List String :=
  (List.range (segs.length - 1)).map fun k => join (segs.take (k + 1))

theorem mem_dirsAbove_iff {segs : List String} {d : String} :
    d ∈ dirsAbove segs ↔ ∃ q, q ≠ [] ∧ q <+: segs ∧ q ≠ segs ∧ join q = d := by
  simp only [dirsAbove, List.mem_map, List.mem_range]
  constructor
  · rintro ⟨k, hk, rfl⟩
    have hlength : (segs.take (k + 1)).length = k + 1 := List.length_take_of_le (by omega)
    refine ⟨_, List.ne_nil_of_length_pos (by omega), List.take_prefix _ _, fun heq => ?_, rfl⟩
    rw [heq] at hlength
    omega
  · rintro ⟨q, hne, hq, hneq, rfl⟩
    have hpos := List.length_pos_of_ne_nil hne
    have hlt : q.length < segs.length :=
      Nat.lt_of_le_of_ne hq.length_le fun heq => hneq (hq.eq_of_length heq)
    refine ⟨q.length - 1, by omega, ?_⟩
    rw [Nat.sub_add_cancel hpos, ← List.prefix_iff_eq_take.mp hq]

theorem nodup_dirsAbove {segs : List String} (h : ∀ s ∈ segs, IsSegment s) :
    (dirsAbove segs).Nodup := by
  refine List.Nodup.map_on (fun k hk l hl heq => ?_) List.nodup_range
  rw [List.mem_range] at hk hl
  have htake := join_injective (fun s hs => h s (List.mem_of_mem_take hs))
    (fun s hs => h s (List.mem_of_mem_take hs)) heq
  have hlength := congrArg List.length htake
  rw [List.length_take_of_le (by omega), List.length_take_of_le (by omega)] at hlength
  omega

theorem rowAt_mem_rows_toggles {s : Session σ} (hw : s.tree.WellFormed) (h : s.desk.Current)
    (hordered : s.desk.Ordered) (hclosed : s.explorer.expanded = []) {segs : List String}
    {c : Content} (hne : segs ≠ []) (hcontent : s.tree.content? segs = some c) :
    let u := s.runSession (toggles (dirsAbove segs))
    rowAt u.explorer.expanded.contains segs c ∈ u.explorer.rows := by
  intro u
  have hdirs : ∀ d ∈ dirsAbove segs, normalize d = .ok d ∧ d ≠ "/" ∧ s.tree.isDir d = true := by
    intro d hd
    obtain ⟨q, hqne, hq, hneq, rfl⟩ := mem_dirsAbove_iff.mp hd
    exact isDir_join hw hqne (hw.content?_of_isPrefix (isSome_resolve?_of_content? hcontent) hq hneq)
  obtain ⟨htree, hmem⟩ := runSession_toggles h hordered
    (nodup_dirsAbove fun n hn => (hw.names_of_content? hcontent n hn).1)
    (fun d _ => by simp [hclosed]) hdirs
  have hrows : u.explorer.rows = u.tree.rows u.explorer.expanded :=
    (current_runSession h (toggles (dirsAbove segs))).rows_eq
  have hopen : ∀ q, q ≠ [] → q <+: segs → q ≠ segs → join q ∈ u.explorer.expanded :=
    fun q hqne hq hneq => (hmem _).mpr (.inl (mem_dirsAbove_iff.mpr ⟨q, hqne, hq, hneq, rfl⟩))
  rw [hrows, show u.tree = s.tree from htree]
  exact (mem_rows_iff hw).mpr ⟨segs, c, hne, hcontent, shown_contains_iff.mpr hopen, rfl⟩

def descent (segs : List String) : List (Arrival σ) :=
  ⟨0, .createDirectory (join segs)⟩ :: toggles (dirsAbove segs)

theorem rowAt_mem_rows_descent {s : Session σ} (hw : s.tree.WellFormed) (h : s.desk.Current)
    (hordered : s.desk.Ordered) (hclosed : s.explorer.expanded = []) {segs : List String}
    (hne : segs ≠ []) (hnames : ∀ n ∈ segs, IsName n) (hclear : s.tree.Clear segs) :
    let u := s.runSession (descent segs)
    rowAt u.explorer.expanded.contains segs .dir ∈ u.explorer.rows := by
  have hsegs : segments (join segs) = segs := segments_join fun n hn => (hnames n hn).1
  obtain ⟨id, hid⟩ : ∃ id, (s.tree.addDirectory (join segs)).result = .ok id :=
    (exists_addDirectory_iff hw).mpr (hsegs.symm ▸ ⟨hnames, hclear⟩)
  have hmade := madeDir_addDirectory hw hid
  let u := s.withTree (s.tree.addDirectory (join segs)).tree
  have hu : (s.dispatch 0 (.createDirectory (join segs))).session = u := by
    rw [dispatch, edited, hid]
    rfl
  have hturn : Desk.Turn (.createDirectory (join segs) : Action σ) s.desk u.desk :=
    hu ▸ s.turn_dispatch 0 (.createDirectory (join segs))
  have hexpanded : u.explorer.expanded = [] := by
    rw [show u.explorer.expanded = s.explorer.expanded.filter _ from rfl, hclosed, List.filter_nil]
  have hcontent : u.tree.content? segs = some .dir :=
    (hmade.content?_eq segs).trans (if_pos (hsegs.symm ▸ List.prefix_refl _))
  have hrun : s.runSession (descent segs) = u.runSession (toggles (dirsAbove segs)) :=
    congrArg (runSession · _) hu
  rw [hrun]
  exact rowAt_mem_rows_toggles hmade.wellFormed (hturn.current h) (hturn.ordered hordered) hexpanded
    hne hcontent

theorem exists_row_of_chain (settings : Settings) {n : Nat} (hn : n ≠ 0) :
    let segs := List.replicate n "a"
    let s : Session σ := (start settings).runSession (descent segs)
    ∃ r ∈ s.explorer.rows, r.path = join segs ∧ (segments r.path).length = n ∧
      r.depth = .ofNat n ∧ ∃ d, DepthAbove s.explorer.rows r d ∧ d.toNat = (n - 1) % 65536 := by
  intro segs s
  have hnames : ∀ n ∈ segs, IsName n := fun n hn => by
    rw [List.eq_of_mem_replicate hn]
    simp [IsName, IsSegment]
  let first : Session σ := start settings
  have hfirst : first = .start settings ∨ first = .ofTree (.after []) none settings := .inl rfl
  have hw : first.tree.WellFormed := wellFormed_runSession hfirst []
  have hclear : first.tree.Clear segs := by
    obtain ⟨m, rfl⟩ := Nat.exists_eq_succ_of_ne_zero hn
    have hfree : (ofLeaves [starterFile]).resolve? ["a"] = none := by decide +kernel
    exact clear_of_missing hw hw.content?_nil hfree (List.replicate m "a")
  have hcurrent : first.desk.Current := current_of_first hfirst
  have hne : segs ≠ [] := fun hnil => hn (by simpa [segs] using hnil)
  have hmem : rowAt s.explorer.expanded.contains segs .dir ∈ s.explorer.rows :=
    rowAt_mem_rows_descent hw hcurrent .nil rfl hne hnames hclear
  have hlength : (segments (join segs)).length = n := by
    rw [segments_join fun n hn => (hnames n hn).1, List.length_replicate]
  have hafter : s.tree.WellFormed := wellFormed_runSession hfirst (descent segs)
  have hrows : s.explorer.rows = s.tree.rows s.explorer.expanded :=
    (current_runSession hcurrent (descent segs)).rows_eq
  rw [hrows] at hmem ⊢
  obtain ⟨d, hd⟩ := exists_depthAbove hafter hmem
  refine ⟨_, hmem, rfl, hlength, ?_, d, hd, ?_⟩
  · exact congrArg UInt16.ofNat List.length_replicate
  · rw [toNat_depthAbove hafter hd]
    exact congrArg (fun k => (k - 1) % 65536) hlength

/-- One directory in the other, one more of them than a row can count. -/
theorem row_depth_is_not_exact :
    let segs := List.replicate 65536 "a"
    let rows := ((start .default : Session Nat).runSession (descent segs)).explorer.rows
    ∃ r ∈ rows, r.path = join segs ∧ (segments r.path).length = 65536 ∧ r.depth = 0 ∧
      ∃ d, DepthAbove rows r d ∧ d.toNat + 1 = 65536 := by
  obtain ⟨r, hr, hpath, hlength, hdepth, d, hd, hfull⟩ :=
    exists_row_of_chain (σ := Nat) .default (n := 65536) (by decide)
  exact ⟨r, hr, hpath, hlength, hdepth, d, hd, congrArg (· + 1) hfull⟩

/-- Whatever comes in, the depth of a row is the number of its segments modulo 65536, and it comes from
adding one to that of the directory above. All depths are exact if and only if no row has more than
65535 segments, and so are the sums. None has more before as many entries have been made. -/
theorem row_depth_counts_segments (settings : Settings) (changes : List Change) (target : Option String)
    (first : Session σ)
    (hfirst : first = .start settings ∨ first = .ofTree (.after changes) target settings)
    (es : List (Arrival σ)) :
    let s := first.runSession es
    let rows := s.explorer.rows
    rows = s.tree.stackedRows s.explorer.expanded ∧
    (∀ r ∈ rows, r.depth.toNat = (segments r.path).length % 65536 ∧
      (∃ d, DepthAbove rows r d) ∧ ∀ d, DepthAbove rows r d → r.depth = d + 1 ∧
        (d.toNat + 1 ≤ 65535 ↔ ¬65536 ∣ (segments r.path).length)) ∧
    ((∀ r ∈ rows, r.depth.toNat = (segments r.path).length) ↔
      ∀ r ∈ rows, (segments r.path).length ≤ 65535) ∧
    ((∀ r ∈ rows, ∀ d, DepthAbove rows r d → d.toNat + 1 ≤ 65535) ↔
      ∀ r ∈ rows, (segments r.path).length ≤ 65535) ∧
    (s.tree.arena.next ≤ 65536 → ∀ r ∈ rows, (segments r.path).length ≤ 65535) := by
  intro s rows
  have hw : s.tree.WellFormed := wellFormed_runSession hfirst es
  have hrows : rows = s.tree.rows s.explorer.expanded :=
    (current_runSession (current_of_first hfirst) es).rows_eq
  rw [hrows]
  refine ⟨(stackedRows_eq hw).symm, fun r hr => ?_, depths_right_iff hw, sums_right_iff hw, ?_⟩
  · exact ⟨toNat_depth hw hr, exists_depthAbove hw hr, fun d hd =>
      ⟨depth_eq_add_one hw hr hd, add_one_le_iff hw hr hd⟩⟩
  · intro hnext r hr
    have hlt := length_segments_lt hw (contains_of_mem_rows hw hr)
    omega

theorem row_depth_counts_segments_nested :
    let first : Session Nat := .ofTree (.after [.file "/a/b/c/d" "x", .file "/e" "y"]) none .default
    let rows := (first.runSession [⟨0, .toggle "a"⟩, ⟨1, .toggle "a/b"⟩]).explorer.rows
    rows.map (fun r => (r.path, r.depth)) = [("/a", 1), ("/a/b", 2), ("/a/b/c", 3), ("/e", 1)] ∧
      (∀ r ∈ rows, r.depth.toNat = (segments r.path).length) ∧
      ∀ r ∈ rows, ∀ d, DepthAbove rows r d → d.toNat + 1 ≤ 65535 := by
  intro first rows
  obtain ⟨-, -, hexact, hsums, hfew⟩ := row_depth_counts_segments .default _ none first (.inr rfl)
    [⟨0, .toggle "a"⟩, ⟨1, .toggle "a/b"⟩]
  have hshort := hfew (by decide +kernel)
  exact ⟨by decide +kernel, hexact.mpr hshort, hsums.mpr hshort⟩

end Session
end FlowStudio
