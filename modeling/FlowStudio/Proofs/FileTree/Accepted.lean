import FlowStudio.Proofs.FileTree.Listing
import FlowStudio.Proofs.FileTree.Rebuilding
import FlowStudio.Proofs.FileTree.Refusals

/-! Trees that are made of any files at all. Of two paths that cannot both be files the one that comes
first is taken, and the other one is passed over from then on. What is taken is overwritten by every
later file of its path. -/

namespace FlowStudio.FileTree
open FlowStudio.Path
variable {files before later : List Leaf} {leaf : Leaf} {p q : String}

/-- One of the paths goes on below the other, so they cannot both be files. -/
def Crosses (p q : String) : Prop :=
  segments p ≠ segments q ∧ (segments p <+: segments q ∨ segments q <+: segments p)

instance (p q : String) : Decidable (Crosses p q) := inferInstanceAs (Decidable (_ ∧ _))

def accept (taken : List String) (leaf : Leaf) : List String :=
  match normalize leaf.name with
  | .error _ => taken
  | .ok p =>
    if segments p = [] ∨ p ∈ taken ∨ ∃ q ∈ taken, Crosses q p then taken else taken ++ [p]

def accepted (files : List Leaf) : List String := files.foldl accept []

def lastBody? (files : List Leaf) (p : String) : Option String :=
  (files.filter fun leaf : Leaf => normalize leaf.name = .ok p).getLast?.map Leaf.body

theorem mem_accept_iff {taken : List String} : p ∈ accept taken leaf ↔
    p ∈ taken ∨ normalize leaf.name = .ok p ∧ segments p ≠ [] ∧ ∀ q ∈ taken, ¬Crosses q p := by
  rw [accept]
  cases normalize leaf.name with
  | error e => simp
  | ok r =>
    dsimp only
    rw [Except.ok.injEq]
    split
    · next hno =>
      refine (or_iff_left_of_imp ?_).symm
      rintro ⟨rfl, hne, hfree⟩
      rcases hno with hnil | hmem | ⟨q, hq, hcross⟩
      · exact absurd hnil hne
      · exact hmem
      · exact absurd hcross (hfree q hq)
    · next hyes =>
      simp only [not_or, not_exists, not_and] at hyes
      obtain ⟨hne, -, hfree⟩ := hyes
      rw [List.mem_append, List.mem_singleton]
      refine or_congr_right ⟨?_, fun h => h.1.symm⟩
      rintro rfl
      exact ⟨rfl, hne, hfree⟩

theorem accepted_concat (files : List Leaf) (leaf : Leaf) :
    accepted (files ++ [leaf]) = accept (accepted files) leaf := List.foldl_concat ..

theorem mem_accepted_concat_iff (hp : normalize leaf.name = .ok p) (hne : segments p ≠ [])
    (hfree : ∀ q ∈ accepted files, ¬Crosses q p) :
    q ∈ accepted (files ++ [leaf]) ↔ q ∈ accepted files ∨ q = p := by
  rw [accepted_concat, mem_accept_iff]
  refine or_congr_right ⟨fun hnew => Except.ok.inj (hnew.1.symm.trans hp), ?_⟩
  rintro rfl
  exact ⟨hp, hne, hfree⟩

theorem mem_accepted_append (h : p ∈ accepted before) (later : List Leaf) :
    p ∈ accepted (before ++ later) := by
  induction later using List.reverseRecOn with
  | nil => rwa [List.append_nil]
  | append_singleton later leaf ih =>
    rw [← List.append_assoc, accepted_concat]
    exact mem_accept_iff.mpr (.inl ih)

theorem nodup_accepted (files : List Leaf) : (accepted files).Nodup := by
  induction files using List.reverseRecOn with
  | nil => exact .nil
  | append_singleton files leaf ih =>
    rw [accepted_concat, accept]
    cases normalize leaf.name with
    | error e => exact ih
    | ok p =>
      dsimp only
      split
      · exact ih
      · next hyes =>
        rw [← List.concat_eq_append]
        exact ih.concat fun hp => hyes (.inr (.inl hp))

theorem canonical_of_mem_accepted (h : p ∈ accepted files) :
    normalize p = .ok p ∧ segments p ≠ [] := by
  induction files using List.reverseRecOn with
  | nil => exact absurd h List.not_mem_nil
  | append_singleton files leaf ih =>
    rw [accepted_concat] at h
    rcases mem_accept_iff.mp h with hold | ⟨hp, hne, -⟩
    · exact ih hold
    · exact ⟨normalize_of_normalize hp, hne⟩

theorem mem_accepted_or_crosses (hleaf : leaf ∈ files) (hp : normalize leaf.name = .ok p)
    (hne : segments p ≠ []) : p ∈ accepted files ∨ ∃ q ∈ accepted files, Crosses q p := by
  obtain ⟨before, later, rfl⟩ := List.append_of_mem hleaf
  rw [List.append_cons]
  by_cases hcross : ∃ q ∈ accepted before, Crosses q p
  · obtain ⟨q, hq, hcross⟩ := hcross
    exact .inr ⟨q, mem_accepted_append (mem_accepted_append hq _) _, hcross⟩
  · refine .inl (mem_accepted_append ?_ _)
    rw [accepted_concat]
    exact mem_accept_iff.mpr (.inr ⟨hp, hne, fun q hq h => hcross ⟨q, hq, h⟩⟩)

theorem mem_accepted_iff : p ∈ accepted files ↔
    ∃ (before : List Leaf) (leaf : Leaf) (later : List Leaf), files = before ++ leaf :: later ∧
      normalize leaf.name = .ok p ∧ segments p ≠ [] ∧ (∀ l ∈ before, normalize l.name ≠ .ok p) ∧
      ∀ q ∈ accepted before, ¬Crosses q p := by
  constructor
  · intro h
    induction files using List.reverseRecOn with
    | nil => exact absurd h List.not_mem_nil
    | append_singleton files last ih =>
      by_cases hold : p ∈ accepted files
      · obtain ⟨before, leaf, later, rfl, hrest⟩ := ih hold
        exact ⟨before, leaf, later ++ [last], by simp, hrest⟩
      · rw [accepted_concat] at h
        obtain ⟨hp, hne, hfree⟩ := (mem_accept_iff.mp h).resolve_left hold
        refine ⟨files, last, [], rfl, hp, hne, fun l hl hearlier => ?_, hfree⟩
        rcases mem_accepted_or_crosses hl hearlier hne with hmem | ⟨q, hq, hcross⟩
        · exact hold hmem
        · exact hfree q hq hcross
  · rintro ⟨before, leaf, later, rfl, hp, hne, -, hfree⟩
    rw [List.append_cons]
    refine mem_accepted_append ?_ later
    rw [accepted_concat]
    exact mem_accept_iff.mpr (.inr ⟨hp, hne, hfree⟩)

theorem lastBody?_concat : lastBody? (files ++ [leaf]) p =
    if normalize leaf.name = .ok p then some leaf.body else lastBody? files p := by
  rw [lastBody?, List.filter_append]
  by_cases hp : normalize leaf.name = .ok p <;> simp [hp, lastBody?]

theorem lastBody?_concat_of_normalize (hp : normalize leaf.name = .ok p) (q : String) :
    lastBody? (files ++ [leaf]) q = if q = p then some leaf.body else lastBody? files q := by
  simp only [lastBody?_concat, hp, Except.ok.injEq, @eq_comm _ p q]

theorem exists_lastBody? (h : p ∈ accepted files) : ∃ body, lastBody? files p = some body := by
  obtain ⟨before, leaf, later, rfl, hp, -⟩ := mem_accepted_iff.mp h
  have hmem : leaf ∈ (before ++ leaf :: later).filter fun l : Leaf => normalize l.name = .ok p := by
    simp [hp]
  rw [lastBody?, List.getLast?_eq_some_getLast (List.ne_nil_of_mem hmem)]
  exact ⟨_, rfl⟩

/-- A tree whose files are those of the accepted paths, with no directories but those above them. -/
structure Adopted (t : FileTree) (files : List Leaf) : Prop where
  wellFormed : t.WellFormed
  file_iff : ∀ {segs body}, t.content? segs = some (.file body) ↔
    ∃ p ∈ accepted files, segments p = segs ∧ lastBody? files p = some body
  dir_iff : ∀ {segs}, t.content? segs = some .dir ↔
    segs = [] ∨ ∃ p ∈ accepted files, segs <+: segments p ∧ segs ≠ segments p

theorem adopted_empty : Adopted empty [] where
  wellFormed := wellFormed_empty
  file_iff {segs body} := by
    cases segs with
    | nil => simp [wellFormed_empty.content?_nil, accepted]
    | cons s segs => simp [content?, resolve?, child?_empty, accepted]
  dir_iff {segs} := by
    cases segs with
    | nil => simp [wellFormed_empty.content?_nil]
    | cons s segs => simp [content?, resolve?, child?_empty, accepted]

namespace Adopted
variable {t : FileTree} (h : t.Adopted files)
include h

theorem not_crosses (hp : p ∈ accepted files) (hq : q ∈ accepted files) : ¬Crosses p q := by
  have hbelow : ∀ {p q}, p ∈ accepted files → q ∈ accepted files → segments p ≠ segments q →
      ¬segments p <+: segments q := by
    intro p q hp hq hne hpre
    obtain ⟨body, hbody⟩ := exists_lastBody? hp
    have hfile := h.file_iff.mpr ⟨p, hp, rfl, hbody⟩
    simp [h.dir_iff.mpr (.inr ⟨q, hq, hpre, hne⟩)] at hfile
  rintro ⟨hne, hpre | hpre⟩
  · exact hbelow hp hq hne hpre
  · exact hbelow hq hp hne.symm hpre

theorem accepts_iff : (∃ id, (t.addFile leaf.name leaf.body).result = .ok id) ↔
    ∃ p, normalize leaf.name = .ok p ∧ segments p ≠ [] ∧ ∀ q ∈ accepted files, ¬Crosses q p := by
  rw [exists_addFile_iff h.wellFormed]
  constructor
  · rintro ⟨hnames, above, name, hsegs, hclear, hdir⟩
    have hp := normalize_eq_ok_iff.mpr ⟨hnames, rfl⟩
    have hsame := (segments_of_normalize hp).trans hsegs
    refine ⟨_, hp, by simp [hsame], fun q hq hcross => ?_⟩
    rw [Crosses, hsame] at hcross
    obtain ⟨hne, hbelow | habove⟩ := hcross
    · obtain ⟨body, hbody⟩ := exists_lastBody? hq
      have hfile := h.file_iff.mpr ⟨q, hq, rfl, hbody⟩
      exact hclear _ ((List.prefix_concat_iff.mp hbelow).resolve_left hne) body hfile
    · exact hdir (h.dir_iff.mpr (.inr ⟨q, hq, habove, hne.symm⟩))
  · rintro ⟨p, hp, hne, hfree⟩
    obtain ⟨above, name, hsegs⟩ := (List.eq_nil_or_concat' (segments p)).resolve_left hne
    refine ⟨(normalize_eq_ok_iff.mp hp).1, above, name,
      (segments_of_normalize hp).symm.trans hsegs, fun r hr body hfile => ?_, fun hdir => ?_⟩
    · obtain ⟨q, hq, rfl, -⟩ := h.file_iff.mp hfile
      -- a file on the way down crosses the path: it is as long as the directories at most
      refine hfree q hq ⟨fun heq => ?_, .inl (hsegs ▸ hr.trans (List.prefix_append _ _))⟩
      rw [heq, hsegs] at hr
      exact absurd hr.length_le (by simp)
    · rcases h.dir_iff.mp hdir with hnil | ⟨q, hq, hpre, hother⟩
      · simp at hnil
      · rw [← hsegs] at hpre hother
        exact hfree q hq ⟨hother.symm, .inr hpre⟩

theorem accepts_of_mem (hp : p ∈ accepted files) (hleaf : normalize leaf.name = .ok p) :
    ∃ id, (t.addFile leaf.name leaf.body).result = .ok id :=
  h.accepts_iff.mpr
    ⟨p, hleaf, (canonical_of_mem_accepted hp).2, fun _ hq => h.not_crosses hq hp⟩

theorem passOver {e : PathError} (he : (t.addFile leaf.name leaf.body).result = .error e) :
    Adopted (t.addFile leaf.name leaf.body).tree (files ++ [leaf]) := by
  have hrefused : ¬∃ id, (t.addFile leaf.name leaf.body).result = .ok id := by simp [he]
  have hmem : ∀ p, p ∈ accepted (files ++ [leaf]) ↔ p ∈ accepted files := by
    intro p
    rw [accepted_concat, mem_accept_iff]
    -- a new path would have been free, and the file would be in the tree
    exact or_iff_left fun hnew => hrefused (h.accepts_iff.mpr ⟨p, hnew⟩)
  have hbody : ∀ p ∈ accepted files, lastBody? (files ++ [leaf]) p = lastBody? files p :=
    fun p hp => lastBody?_concat.trans (if_neg fun hleaf => hrefused (h.accepts_of_mem hp hleaf))
  rw [tree_addFile_of_error he]
  refine ⟨h.wellFormed, fun {segs body} => ?_, fun {segs} => ?_⟩
  · rw [h.file_iff]
    simp only [hmem]
    exact exists_congr fun p => and_congr_right fun hp => by rw [hbody p hp]
  · simp only [h.dir_iff, hmem]

section
variable (hp : normalize leaf.name = .ok p) (hne : segments p ≠ [])
  (hfree : ∀ q ∈ accepted files, ¬Crosses q p) {segs : List String}
include hp hne hfree

theorem file_iff_concat {body : String} :
    (if segs = segments p then some (.file leaf.body)
      else if segs <+: segments p then some .dir else t.content? segs) = some (.file body) ↔
      ∃ q ∈ accepted (files ++ [leaf]), segments q = segs ∧
        lastBody? (files ++ [leaf]) q = some body := by
  have hmem := fun q => mem_accepted_concat_iff (q := q) hp hne hfree
  have hlast : ∀ q, lastBody? (files ++ [leaf]) q =
      if q = p then some leaf.body else lastBody? files q := lastBody?_concat_of_normalize hp
  by_cases hat : segs = segments p
  · subst hat
    rw [if_pos rfl, Option.some.injEq, Content.file.injEq]
    constructor
    · rintro rfl
      exact ⟨p, (hmem p).mpr (.inr rfl), rfl, (hlast p).trans (if_pos rfl)⟩
    · rintro ⟨q, hq, heq, hbody⟩
      obtain rfl : q = p := eq_of_segments_eq (canonical_of_mem_accepted hq).1
        (normalize_of_normalize hp) heq
      rw [hlast, if_pos rfl] at hbody
      exact Option.some.inj hbody
  have hother : ∀ q, segments q = segs → q ≠ p := by
    rintro q rfl rfl
    exact hat rfl
  rw [if_neg hat]
  split
  · next hpre =>
    refine ⟨fun hdir => by simp at hdir, ?_⟩
    rintro ⟨q, hq, rfl, -⟩
    have hold := ((hmem q).mp hq).resolve_right (hother q rfl)
    exact absurd ⟨hat, .inl hpre⟩ (hfree q hold)
  · rw [h.file_iff]
    constructor
    · rintro ⟨q, hq, heq, hbody⟩
      exact ⟨q, (hmem q).mpr (.inl hq), heq, by rwa [hlast, if_neg (hother q heq)]⟩
    · rintro ⟨q, hq, heq, hbody⟩
      rw [hlast, if_neg (hother q heq)] at hbody
      exact ⟨q, ((hmem q).mp hq).resolve_right (hother q heq), heq, hbody⟩

theorem dir_iff_concat :
    (if segs = segments p then some (.file leaf.body)
      else if segs <+: segments p then some .dir else t.content? segs) = some .dir ↔
      segs = [] ∨ ∃ q ∈ accepted (files ++ [leaf]), segs <+: segments q ∧ segs ≠ segments q := by
  have hmem := fun q => mem_accepted_concat_iff (q := q) hp hne hfree
  by_cases hat : segs = segments p
  · subst hat
    rw [if_pos rfl]
    refine ⟨fun hfile => by simp at hfile, ?_⟩
    rintro (hnil | ⟨q, hq, hpre, hother⟩)
    · exact absurd hnil hne
    · rcases (hmem q).mp hq with hq | rfl
      · exact absurd ⟨hother.symm, .inr hpre⟩ (hfree q hq)
      · exact absurd rfl hother
  rw [if_neg hat]
  split
  · next hpre => exact iff_of_true rfl (.inr ⟨p, (hmem p).mpr (.inr rfl), hpre, hat⟩)
  · next hnot =>
    rw [h.dir_iff]
    simp only [hmem, or_and_right, exists_or, exists_eq_left]
    exact or_congr_right (or_iff_left fun hpre => hnot hpre.1).symm

end

theorem takeIn {id : Nat} (hid : (t.addFile leaf.name leaf.body).result = .ok id) :
    Adopted (t.addFile leaf.name leaf.body).tree (files ++ [leaf]) := by
  obtain ⟨p, hp, hne, hfree⟩ := h.accepts_iff.mp ⟨id, hid⟩
  have hwrote := wroteFile_addFile h.wellFormed hid
  rw [← segments_of_normalize hp] at hwrote
  refine ⟨hwrote.wellFormed, fun {segs body} => ?_, fun {segs} => ?_⟩
  · rw [hwrote.content?_eq]
    exact h.file_iff_concat hp hne hfree
  · rw [hwrote.content?_eq]
    exact h.dir_iff_concat hp hne hfree

end Adopted

theorem adopted_ofLeaves (files : List Leaf) : Adopted (ofLeaves files) files := by
  induction files using List.reverseRecOn with
  | nil => exact adopted_empty
  | append_singleton files leaf ih =>
    rw [ofLeaves_concat]
    cases h : ((ofLeaves files).addFile leaf.name leaf.body).result with
    | error e => exact ih.passOver h
    | ok id => exact ih.takeIn h

theorem read?_ofLeaves_iff {path body : String} : (ofLeaves files).read? path = some body ↔
    ∃ p ∈ accepted files, segments p = segments path ∧ lastBody? files p = some body := by
  rw [read?_eq_some_iff, (adopted_ofLeaves files).file_iff]

theorem isDir_ofLeaves_iff {path : String} : (ofLeaves files).isDir path = true ↔
    segments path = [] ∨
      ∃ p ∈ accepted files, segments path <+: segments p ∧ segments path ≠ segments p := by
  rw [isDir_iff, (adopted_ofLeaves files).dir_iff]

theorem mem_readAll_ofLeaves_iff : leaf ∈ (ofLeaves files).readAll ↔
    leaf.name ∈ accepted files ∧ lastBody? files leaf.name = some leaf.body := by
  rw [mem_readAll_iff_read? (wellFormed_ofLeaves files), read?_ofLeaves_iff]
  constructor
  · rintro ⟨hname, p, hp, heq, hbody⟩
    obtain rfl := eq_of_segments_eq (canonical_of_mem_accepted hp).1 hname heq
    exact ⟨hp, hbody⟩
  · rintro ⟨hp, hbody⟩
    exact ⟨(canonical_of_mem_accepted hp).1, leaf.name, hp, rfl, hbody⟩

theorem names_readAll_ofLeaves (files : List Leaf) :
    ((ofLeaves files).readAll.map Leaf.name).Perm (accepted files) := by
  refine (List.perm_ext_iff_of_nodup (nodup_name_readAll (wellFormed_ofLeaves files))
    (nodup_accepted files)).mpr fun p => ?_
  rw [List.mem_map]
  constructor
  · rintro ⟨leaf, hleaf, rfl⟩
    exact (mem_readAll_ofLeaves_iff.mp hleaf).1
  · intro hp
    obtain ⟨body, hbody⟩ := exists_lastBody? hp
    exact ⟨⟨p, body⟩, mem_readAll_ofLeaves_iff.mpr ⟨hp, hbody⟩, rfl⟩

end FlowStudio.FileTree
