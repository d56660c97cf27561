import FlowStudio.Proofs.FileTree.Rows

/-! The rows with a directory closed and the rows with it open. They differ by a block of rows right
behind that of the directory. -/

namespace FlowStudio
open FlowStudio.Path FlowStudio.Text

def Inside (dir path : String) : Prop :=
  segments dir <+: segments path ∧ segments dir ≠ segments path

instance (dir path : String) : Decidable (Inside dir path) := inferInstanceAs (Decidable (_ ∧ _))

/-- Rows with a directory closed, and the same rows with it open. -/
inductive Unfolds (dir : String) : List Row → List Row → Prop
  | hidden {rows : List Row} : (∀ r ∈ rows, r.path ≠ dir) → Unfolds dir rows rows
  | shown {before block after : List Row} {r : Row} : r.path = dir → r.isDir = true →
    (∀ b ∈ block, Inside dir b.path) →
    (∀ o ∈ before ++ after, ¬Inside dir o.path ∧ o.path ≠ dir) →
    Unfolds dir (before ++ { r with isExpanded := false } :: after)
      (before ++ { r with isExpanded := true } :: (block ++ after))

def Row.isInside (dir : String) (r : Row) : Bool := Inside dir r.path

def Row.closing (dir : String) (r : Row) : Row :=
  if r.path = dir then { r with isExpanded := false } else r

theorem Row.path_closing (dir : String) (r : Row) : (r.closing dir).path = r.path := by
  rw [closing]
  split <;> rfl

theorem Row.closing_of_ne {dir : String} {r : Row} (h : r.path ≠ dir) : r.closing dir = r := if_neg h

theorem Row.map_closing {dir : String} {rows : List Row} (h : ∀ r ∈ rows, r.path ≠ dir) :
    rows.map (Row.closing dir) = rows :=
  (List.map_congr_left fun r hr => Row.closing_of_ne (h r hr)).trans (List.map_id' rows)

namespace FileTree

section
variable {isDir : List String → Bool} {before rest : List Row} {r : Row}
  (h : (before ++ r :: rest).Pairwise fun a b =>
    StandsBefore isDir (segments a.path) (segments b.path))
include h

theorem outside_of_mem_before {o : Row} (ho : o ∈ before) :
    ¬Inside r.path o.path ∧ o.path ≠ r.path := by
  obtain ⟨-, -, hbefore⟩ := List.pairwise_append.mp h
  have hlt := hbefore o ho r List.mem_cons_self
  refine ⟨fun hin => hlt.asymm (.of_isPrefix hin.1 hin.2), fun hsame => ?_⟩
  exact hlt.ne (congrArg segments hsame)

theorem path_ne_of_mem_rest {o : Row} (ho : o ∈ rest) : o.path ≠ r.path := by
  obtain ⟨-, hbehind, -⟩ := List.pairwise_append.mp h
  exact fun hsame => ((List.pairwise_cons.mp hbehind).1 o ho).ne (congrArg segments hsame.symm)

theorem pairwise_inside : rest.Pairwise fun x y => Inside r.path y.path → Inside r.path x.path := by
  obtain ⟨-, hbehind, -⟩ := List.pairwise_append.mp h
  obtain ⟨hafter, hrest⟩ := List.pairwise_cons.mp hbehind
  refine hrest.imp_of_mem fun {x y} hx _ hxy hin => ?_
  by_contra hout
  have hlt := hafter x hx
  have hpre : ¬segments r.path <+: segments x.path := fun hpre => hout ⟨hpre, hlt.ne⟩
  exact hxy.asymm (hlt.of_inside hpre hin.1)

theorem unfolds_of_pairwise (hisdir : r.isDir = true) (hopen : r.isExpanded = true) :
    Unfolds r.path
      (((before ++ r :: rest).filter (!·.isInside r.path)).map (Row.closing r.path))
      (before ++ r :: rest) := by
  let block := rest.filter (·.isInside r.path)
  let after := rest.filter (!·.isInside r.path)
  have hblock : ∀ b ∈ block, Inside r.path b.path := fun b hb =>
    of_decide_eq_true (List.mem_filter.mp hb).2
  have hother : ∀ o ∈ before ++ after, ¬Inside r.path o.path ∧ o.path ≠ r.path := by
    refine List.forall_mem_append.mpr ⟨fun o ho => outside_of_mem_before h ho, fun o ho => ?_⟩
    obtain ⟨hmem, hout⟩ := List.mem_filter.mp ho
    exact ⟨by simpa [Row.isInside] using hout, path_ne_of_mem_rest h hmem⟩
  have hopened : before ++ r :: rest =
      before ++ { r with isExpanded := true } :: (block ++ after) := by
    have hrest : block ++ after = rest :=
      filter_append_filter_not ((pairwise_inside h).imp fun hin => by simpa [Row.isInside] using hin)
    rw [hrest, ← hopen]
  have hclosed : ((before ++ r :: rest).filter (!·.isInside r.path)).map (Row.closing r.path) =
      before ++ { r with isExpanded := false } :: after := by
    obtain ⟨hbefore, hafter⟩ := List.forall_mem_append.mp hother
    have hkept : before.filter (!·.isInside r.path) = before :=
      List.filter_eq_self.mpr fun o ho => by simp [Row.isInside, (hbefore o ho).1]
    have hself : r.isInside r.path = false := decide_eq_false fun hin => hin.2 rfl
    rw [List.filter_append, List.filter_cons_of_pos (by simp [hself]), hkept, List.map_append,
      List.map_cons, Row.map_closing fun o ho => (hbefore o ho).2,
      Row.map_closing fun o ho => (hafter o ho).2, Row.closing, if_pos rfl]
  rw [hclosed, hopened]
  exact .shown rfl hisdir hblock hother

end

variable {t : FileTree} {dir : String} {opened closed : List String}

section
variable (hopened : ∀ p, p ∈ opened ↔ p = dir ∨ p ∈ closed) (hclosed : dir ∉ closed)
  {segs : List String}
include hopened hclosed

theorem shown_closed_iff (hdir : normalize dir = .ok dir) (hroot : dir ≠ "/")
    (hsegs : ∀ s ∈ segs, IsSegment s) : Shown closed.contains [] segs ↔
    Shown opened.contains [] segs ∧ ¬(segments dir <+: segs ∧ segments dir ≠ segs) := by
  have hjoin : join (segments dir) = dir := ((normalize_eq_ok_iff.mp hdir).2).symm
  rw [shown_contains_iff, shown_contains_iff]
  constructor
  · refine fun h => ⟨fun q hne hq hneq => (hopened _).mpr (.inr (h q hne hq hneq)), ?_⟩
    rintro ⟨hpre, hneq⟩
    have hne : segments dir ≠ [] := fun hnil => hroot (hjoin.symm.trans (congrArg join hnil))
    exact hclosed (hjoin ▸ h _ hne hpre hneq)
  · rintro ⟨h, hout⟩ q hne hq hneq
    refine ((hopened _).mp (h q hne hq hneq)).resolve_left fun hq' => hout ?_
    have hdirq : segments dir = q := by
      rw [← hq', segments_join fun s hs => hsegs s (hq.subset hs)]
    exact hdirq ▸ ⟨hq, hneq⟩

theorem rowAt_closed (c : Content) :
    rowAt closed.contains segs c = (rowAt opened.contains segs c).closing dir := by
  rw [Row.closing]
  split
  · next heq =>
    have hjoin : join segs = dir := heq
    have hfalse : closed.contains (join segs) = false := by simpa [hjoin] using hclosed
    rw [rowAt, hfalse, Bool.and_false]
    rfl
  · next hneq =>
    have hjoin : join segs ≠ dir := hneq
    have hsame : closed.contains (join segs) = opened.contains (join segs) := by
      rw [Bool.eq_iff_iff, List.contains_iff_mem, List.contains_iff_mem, hopened, or_iff_right hjoin]
    rw [rowAt, rowAt, hsame]

end

section
variable (hw : t.WellFormed) (hdir : normalize dir = .ok dir) (hroot : dir ≠ "/")
  (hopened : ∀ p, p ∈ opened ↔ p = dir ∨ p ∈ closed) (hclosed : dir ∉ closed)
include hw hdir hroot hopened hclosed

theorem rows_closed :
    t.rows closed = ((t.rows opened).filter (!·.isInside dir)).map (Row.closing dir) := by
  symm
  refine eq_rows_of_mem_iff hw (fun r => ?_) ?_
  · have hin : ∀ {segs c}, t.content? segs = some c →
        (Shown closed.contains [] segs ↔ Shown opened.contains [] segs ∧
          ¬Inside dir (rowAt opened.contains segs c).path) := by
      intro segs c hcontent
      have hsegs : segments (rowAt opened.contains segs c).path = segs :=
        segments_of_content? hw hcontent
      rw [Inside, hsegs]
      refine shown_closed_iff hopened hclosed hdir hroot fun s hs => ?_
      exact (hw.names_of_content? hcontent s hs).1
    simp only [List.mem_map, List.mem_filter, mem_rows_iff hw, Row.isInside, Bool.not_eq_true',
      decide_eq_false_iff_not]
    constructor
    · rintro ⟨_, ⟨⟨segs, c, hne, hcontent, hshown, rfl⟩, hout⟩, rfl⟩
      exact ⟨segs, c, hne, hcontent, (hin hcontent).mpr ⟨hshown, hout⟩,
        (rowAt_closed hopened hclosed c).symm⟩
    · rintro ⟨segs, c, hne, hcontent, hshown, rfl⟩
      obtain ⟨hshown, hout⟩ := (hin hcontent).mp hshown
      exact ⟨_, ⟨⟨segs, c, hne, hcontent, hshown, rfl⟩, hout⟩,
        (rowAt_closed hopened hclosed c).symm⟩
  · refine List.pairwise_map.mpr (((pairwise_rows hw).filter _).imp fun h => ?_)
    rwa [Row.path_closing, Row.path_closing]

end

section
variable (hw : t.WellFormed) (hdir : normalize dir = .ok dir) (hisdir : t.isDir dir = true)
include hw hdir hisdir

theorem exists_row_of_inside (hroot : dir ≠ "/") {b : Row} (hb : b ∈ t.rows opened)
    (hin : Inside dir b.path) : ∃ r ∈ t.rows opened, r.path = dir := by
  have hjoin : join (segments dir) = dir := ((normalize_eq_ok_iff.mp hdir).2).symm
  obtain ⟨segs, c, -, hcontent, hshown, rfl⟩ := (mem_rows_iff hw).mp hb
  have hsegs : segments (rowAt opened.contains segs c).path = segs :=
    segments_of_content? hw hcontent
  rw [Inside, hsegs] at hin
  have hne : segments dir ≠ [] := fun hnil => hroot (hjoin.symm.trans (congrArg join hnil))
  rw [← hjoin]
  refine exists_mem_rows hw hne (isDir_iff.mp hisdir) fun q hq hpre hneq => ?_
  refine shown_contains_iff.mp hshown q hq (hpre.trans hin.1) fun heq => hneq ?_
  exact hpre.eq_of_length_le (heq ▸ hin.1.length_le)

omit hdir in
theorem isDir_of_mem_rows {r : Row} (hr : r ∈ t.rows opened) (hpath : r.path = dir) :
    r.isDir = true ∧ (dir ∈ opened → r.isExpanded = true) := by
  obtain ⟨segs, c, -, hcontent, -, rfl⟩ := (mem_rows_iff hw).mp hr
  have hjoin : join segs = dir := hpath
  have hsegs : segments dir = segs := hjoin ▸ segments_of_content? hw hcontent
  have hc : c = .dir := Option.some.inj (hcontent.symm.trans (hsegs ▸ isDir_iff.mp hisdir))
  subst hc
  exact ⟨rfl, fun hopen => by simpa [rowAt, hjoin, Content.kind] using hopen⟩

theorem unfolds_rows (hroot : dir ≠ "/") (hopened : ∀ p, p ∈ opened ↔ p = dir ∨ p ∈ closed)
    (hclosed : dir ∉ closed) : Unfolds dir (t.rows closed) (t.rows opened) := by
  rw [rows_closed hw hdir hroot hopened hclosed]
  by_cases hrow : ∃ r ∈ t.rows opened, r.path = dir
  · obtain ⟨r, hr, rfl⟩ := hrow
    obtain ⟨hrdir, hropen⟩ := isDir_of_mem_rows hw hisdir hr rfl
    obtain ⟨before, rest, heq⟩ := List.append_of_mem hr
    rw [heq]
    exact unfolds_of_pairwise (heq ▸ pairwise_rows hw) hrdir (hropen ((hopened _).mpr (.inl rfl)))
  · have hnone : ∀ r ∈ t.rows opened, r.path ≠ dir := fun r hr hpath => hrow ⟨r, hr, hpath⟩
    have hout : ∀ r ∈ t.rows opened, ¬Inside dir r.path := fun r hr hin =>
      hrow (exists_row_of_inside hw hdir hisdir hroot hr hin)
    rw [List.filter_eq_self.mpr (by simpa [Row.isInside] using hout), Row.map_closing hnone]
    exact .hidden hnone

end

end FileTree
end FlowStudio
