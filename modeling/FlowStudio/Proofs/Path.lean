import FlowStudio.Path
import Mathlib.Data.List.Basic

/-! Joining segments and taking the result apart again. A text in any spelling and its canonical
form have the same segments. -/

namespace FlowStudio.Path

def IsSegment (s : String) : Prop := s ≠ "" ∧ '/' ∉ s.toList

def IsName (s : String) : Prop := IsSegment s ∧ s ≠ "." ∧ s ≠ ".."

theorem isStep_eq_false_iff (s : String) : isStep s = false ↔ s ≠ "." ∧ s ≠ ".." := by
  simp [isStep]

theorem pieces_eq_splitOn (cs : List Char) : pieces cs = cs.splitOn '/' := by
  induction cs with
  | nil => rfl
  | cons c cs ih =>
    obtain ⟨p, ps, hp⟩ := List.exists_cons_of_ne_nil (List.splitOn_ne_nil '/' cs)
    rw [pieces, ih, List.splitOn_cons_eq_if_modifyHead, hp]
    simp only [beq_iff_eq, List.modifyHead_cons]

theorem pieces_ne_nil (cs : List Char) : pieces cs ≠ [] := by
  rw [pieces_eq_splitOn]
  exact List.splitOn_ne_nil '/' cs

theorem pieces_append (u v : List Char) : pieces (u ++ '/' :: v) = pieces u ++ pieces v := by
  simp only [pieces_eq_splitOn, List.splitOn_append_cons_self]

theorem pieces_cons_slash (cs : List Char) : pieces ('/' :: cs) = [] :: pieces cs :=
  pieces_append [] cs

theorem segments_append (u v : List Char) : segments (String.ofList (u ++ '/' :: v)) =
    segments (String.ofList u) ++ segments (String.ofList v) := by
  simp only [segments, String.toList_ofList, pieces_append, List.filter_append, List.map_append]

theorem segments_cons_slash (cs : List Char) :
    segments (String.ofList ('/' :: cs)) = segments (String.ofList cs) :=
  segments_append [] cs

theorem slash_notMem_of_mem_pieces {cs w : List Char} (h : w ∈ pieces cs) : '/' ∉ w := by
  induction cs generalizing w with
  | nil => simp_all [pieces]
  | cons c cs ih =>
    rw [pieces] at h
    split at h
    · rcases List.mem_cons.mp h with rfl | h
      · simp
      · exact ih h
    · next hc =>
      cases hp : pieces cs with
      | nil => exact absurd hp (pieces_ne_nil cs)
      | cons p ps =>
        rw [hp] at h
        rcases List.mem_cons.mp h with rfl | h
        · intro hm
          rcases List.mem_cons.mp hm with hm | hm
          · exact hc hm.symm
          · exact ih (hp ▸ List.mem_cons_self) hm
        · exact ih (hp ▸ List.mem_cons_of_mem _ h)

theorem segments_eq_filter_splitOn (path : String) : segments path =
    ((path.toList.splitOn '/').filter fun piece => !piece.isEmpty).map String.ofList := by
  rw [segments, pieces_eq_splitOn]

theorem mem_segments_iff {path s : String} :
    s ∈ segments path ↔ s ≠ "" ∧ s.toList ∈ path.toList.splitOn '/' := by
  rw [segments_eq_filter_splitOn, List.mem_map]
  constructor
  · rintro ⟨piece, hpiece, rfl⟩
    obtain ⟨hmem, hne⟩ := List.mem_filter.mp hpiece
    rw [String.toList_ofList]
    refine ⟨fun hnil => ?_, hmem⟩
    simp [String.ofList_eq_empty_iff.mp hnil] at hne
  · rintro ⟨hne, hmem⟩
    refine ⟨s.toList, List.mem_filter.mpr ⟨hmem, ?_⟩, String.ofList_toList⟩
    simpa using hne

theorem isSegment_of_mem_segments {path s : String} (h : s ∈ segments path) : IsSegment s := by
  obtain ⟨hne, hmem⟩ := mem_segments_iff.mp h
  rw [← pieces_eq_splitOn] at hmem
  exact ⟨hne, slash_notMem_of_mem_pieces hmem⟩

theorem exists_step_iff {path : String} : (∃ s ∈ segments path, s = "." ∨ s = "..") ↔
    ".".toList ∈ path.toList.splitOn '/' ∨ "..".toList ∈ path.toList.splitOn '/' := by
  constructor
  · rintro ⟨s, hs, rfl | rfl⟩
    · exact .inl (mem_segments_iff.mp hs).2
    · exact .inr (mem_segments_iff.mp hs).2
  · rintro (h | h)
    · exact ⟨".", mem_segments_iff.mpr ⟨by decide, h⟩, .inl rfl⟩
    · exact ⟨"..", mem_segments_iff.mpr ⟨by decide, h⟩, .inr rfl⟩

def slashed (segs : List String) : List Char := segs.flatMap fun s => '/' :: s.toList

theorem toList_join_cons (s : String) (segs : List String) :
    (join (s :: segs)).toList = slashed (s :: segs) := by
  simp [join, slashed, String.toList_join, List.flatMap_map]

theorem slashed_append (as bs : List String) : slashed (as ++ bs) = slashed as ++ slashed bs :=
  List.flatMap_append

theorem toList_join {segs : List String} (h : segs ≠ []) : (join segs).toList = slashed segs := by
  obtain ⟨s, segs, rfl⟩ := List.exists_cons_of_ne_nil h
  exact toList_join_cons s segs

theorem slashed_eq_intercalate {segs : List String} (h : segs ≠ []) :
    slashed segs = '/' :: ['/'].intercalate (segs.map String.toList) := by
  induction segs with
  | nil => exact absurd rfl h
  | cons s segs ih =>
    cases segs with
    | nil => simp [slashed]
    | cons r segs =>
      rw [slashed, List.flatMap_cons, ← slashed, ih (List.cons_ne_nil r segs)]
      simp only [List.map_cons, List.intercalate_cons_cons]
      simp

theorem join_eq_slash_append {segs : List String} (h : segs ≠ []) :
    join segs = "/" ++ "/".intercalate segs := by
  apply String.toList_inj.mp
  rw [toList_join h, String.toList_append, String.toList_intercalate, slashed_eq_intercalate h]
  rfl

theorem splitOn_intercalate_toList {segs : List String} (h : ∀ s ∈ segs, IsSegment s)
    (hne : segs ≠ []) :
    (['/'].intercalate (segs.map String.toList)).splitOn '/' = segs.map String.toList := by
  refine List.splitOn_intercalate '/' (List.forall_mem_map.mpr fun s hs => (h s hs).2) ?_
  simpa using hne

theorem pieces_slashed {segs : List String} (h : ∀ s ∈ segs, IsSegment s) :
    pieces (slashed segs) = [] :: segs.map String.toList := by
  by_cases hne : segs = []
  · rw [hne]
    rfl
  · rw [slashed_eq_intercalate hne, pieces_cons_slash, pieces_eq_splitOn,
      splitOn_intercalate_toList h hne]

theorem lastPiece_join_concat {above : List String} {name : String}
    (h : ∀ s ∈ above ++ [name], IsSegment s) : lastPiece (join (above ++ [name])) = name := by
  have hne : above ++ [name] ≠ [] := List.concat_ne_nil name above
  rw [lastPiece, toList_join hne, pieces_slashed h, List.getLastD_cons, List.map_append,
    List.map_singleton, List.getLastD_concat, String.ofList_toList]

theorem segments_join {segs : List String} (h : ∀ s ∈ segs, IsSegment s) :
    segments (join segs) = segs := by
  cases segs with
  | nil => decide
  | cons s segs =>
    have hne : ∀ w ∈ (s :: segs).map String.toList, (!w.isEmpty) = true := by
      intro w hw
      obtain ⟨r, hr, rfl⟩ := List.mem_map.mp hw
      have := (h r hr).1
      simpa using this
    rw [segments, toList_join_cons, pieces_slashed h, List.filter_cons_of_neg (by simp),
      List.filter_eq_self.mpr hne, List.map_map]
    simp [Function.comp_def]

/-- A leading slash, and no empty piece after it unless there is nothing else. -/
def IsCanonical (path : String) : Prop :=
  ∃ rest, path.toList = '/' :: rest ∧ (rest = [] ∨ [] ∉ rest.splitOn '/')

theorem isCanonical_join {segs : List String} (h : ∀ s ∈ segs, IsSegment s) :
    IsCanonical (join segs) := by
  by_cases hne : segs = []
  · rw [hne]
    exact ⟨[], rfl, .inl rfl⟩
  · refine ⟨_, (toList_join hne).trans (slashed_eq_intercalate hne), .inr ?_⟩
    rw [splitOn_intercalate_toList h hne, List.mem_map]
    rintro ⟨s, hs, hnil⟩
    exact (h s hs).1 (String.toList_eq_nil_iff.mp hnil)

theorem segments_join_concat (path : String) {name : String} (h : IsSegment name) :
    segments (join (segments path ++ [name])) = segments path ++ [name] := by
  refine segments_join fun s hs => ?_
  rcases List.mem_append.mp hs with hs | hs
  · exact isSegment_of_mem_segments hs
  · exact List.mem_singleton.mp hs ▸ h

theorem join_injective {as bs : List String} (ha : ∀ s ∈ as, IsSegment s)
    (hb : ∀ s ∈ bs, IsSegment s) (h : join as = join bs) : as = bs := by
  rw [← segments_join ha, h, segments_join hb]

theorem checked_eq_ok_iff {path : String} {segs : List String} :
    checked path = .ok segs ↔ segments path = segs ∧ ∀ s ∈ segs, IsName s := by
  rw [checked]
  by_cases h : (segments path).any isStep
  · rw [if_pos h]
    obtain ⟨s, hs, hstep⟩ := List.any_eq_true.mp h
    refine ⟨fun hc => by simp at hc, ?_⟩
    rintro ⟨rfl, hall⟩
    simp [(isStep_eq_false_iff s).mpr (hall s hs).2] at hstep
  · rw [if_neg h, Except.ok.injEq]
    refine ⟨?_, And.left⟩
    rintro rfl
    refine ⟨rfl, fun s hs => ⟨isSegment_of_mem_segments hs, ?_⟩⟩
    rw [← isStep_eq_false_iff]
    simpa using fun hstep => h (List.any_eq_true.mpr ⟨s, hs, hstep⟩)

theorem checked_eq_error_iff {path : String} {e : PathError} :
    checked path = .error e ↔
      (∃ s ∈ segments path, s = "." ∨ s = "..") ∧ e = .invalidPath path := by
  have hstep : (∃ s ∈ segments path, s = "." ∨ s = "..") ↔ (segments path).any isStep = true := by
    simp [isStep]
  rw [checked, hstep]
  by_cases h : (segments path).any isStep = true <;> simp [h, eq_comm]

theorem not_names_of_checked {path : String} {e : PathError} (h : checked path = .error e) :
    ¬∀ s ∈ segments path, IsName s := by
  intro hnames
  rw [checked_eq_ok_iff.mpr ⟨rfl, hnames⟩] at h
  simp at h

theorem normalize_eq_ok_iff {path q : String} :
    normalize path = .ok q ↔ (∀ s ∈ segments path, IsName s) ∧ q = join (segments path) := by
  rw [normalize]
  cases hc : checked path with
  | error e =>
    have hnot : ¬∀ s ∈ segments path, IsName s := not_names_of_checked hc
    simp [Except.map, hnot]
  | ok segs =>
    obtain ⟨rfl, hnames⟩ := checked_eq_ok_iff.mp hc
    rw [and_iff_right hnames, Except.map, Except.ok.injEq, eq_comm]

theorem normalize_eq_error_iff {path : String} {e : PathError} :
    normalize path = .error e ↔
      (∃ s ∈ segments path, s = "." ∨ s = "..") ∧ e = .invalidPath path := by
  rw [← checked_eq_error_iff, normalize]
  cases checked path <;> simp [Except.map]

theorem normalize_of_no_steps {path : String}
    (h : ∀ s ∈ segments path, s ≠ "." ∧ s ≠ "..") : normalize path = .ok (join (segments path)) :=
  normalize_eq_ok_iff.mpr ⟨fun s hs => ⟨isSegment_of_mem_segments hs, h s hs⟩, rfl⟩

theorem segments_of_normalize {path q : String} (h : normalize path = .ok q) :
    segments q = segments path := by
  obtain ⟨hnames, rfl⟩ := normalize_eq_ok_iff.mp h
  exact segments_join fun s hs => (hnames s hs).1

theorem eq_of_segments_eq {path path' p q : String} (hp : normalize path = .ok p)
    (hq : normalize path' = .ok q) (h : segments p = segments q) : p = q := by
  rw [segments_of_normalize hp, segments_of_normalize hq] at h
  rw [(normalize_eq_ok_iff.mp hp).2, (normalize_eq_ok_iff.mp hq).2, h]

theorem eq_iff_segments_eq {path path' p q : String} (hp : normalize path = .ok p)
    (hq : normalize path' = .ok q) : p = q ↔ segments path = segments path' := by
  rw [← segments_of_normalize hp, ← segments_of_normalize hq]
  exact ⟨congrArg segments, eq_of_segments_eq hp hq⟩

theorem normalize_join {segs : List String} (h : ∀ s ∈ segs, IsName s) :
    normalize (join segs) = .ok (join segs) := by
  have hsegs := segments_join fun s hs => (h s hs).1
  exact normalize_eq_ok_iff.mpr ⟨by rwa [hsegs], by rw [hsegs]⟩

theorem normalize_of_normalize {path q : String} (h : normalize path = .ok q) :
    normalize q = .ok q := by
  obtain ⟨hnames, rfl⟩ := normalize_eq_ok_iff.mp h
  exact normalize_join hnames

end FlowStudio.Path
