import FlowStudio.Proofs.Json.Texts

/-! The texts that are written, on one line or with one item a line, are texts of the value. -/

namespace FlowStudio.Json

inductive Whole : Json → Prop
  | null : Whole .null
  | bool (b : Bool) : Whole (.bool b)
  | number (n : Number) : Whole (.number n)
  | string (s : String) : Whole (.string s)
  | list {vs : List Json} : (∀ v ∈ vs, Whole v) → Whole (list vs)
  | record {ms : Members} : (∀ m ∈ ms, Whole m.2) → Whole (record ms)

section
variable {g g' colon : List Char} {f : Json → List Char}

theorem writes_items {vs : List Json} (hvs : ∀ v ∈ vs, Writes (.value v) (f v)) (hne : vs ≠ [])
    (hg : Gap g) (hg' : Gap g') :
    Writes (.items vs) ((',' :: g).intercalate (vs.map f) ++ (g' ++ [']'])) := by
  induction vs with
  | nil => exact absurd rfl hne
  | cons v vs ih =>
    have hv := hvs v List.mem_cons_self
    cases vs with
    | nil =>
      rw [List.map_singleton, List.intercalate_singleton]
      exact .lastItem hv hg'
    | cons w vs =>
      have hrest := ih (fun v hv => hvs v (List.mem_cons_of_mem _ hv)) (List.cons_ne_nil w vs)
      have hall := Writes.item hv gap_nil hg hrest
      simpa only [List.map_cons, List.intercalate_cons_cons, List.append_assoc, List.nil_append,
        List.cons_append] using hall

def memberText (colon : List Char) (f : Json → List Char) (m : String × Json) : List Char :=
  (quoted m.1).toList ++ ':' :: (colon ++ f m.2)

theorem writes_members {ms : Members} (hms : ∀ m ∈ ms, Writes (.value m.2) (f m.2)) (hne : ms ≠ [])
    (hcolon : Gap colon) (hg : Gap g) (hg' : Gap g') :
    Writes (.members ms)
      ((',' :: g).intercalate (ms.map (memberText colon f)) ++ (g' ++ ['\x7d'])) := by
  induction ms with
  | nil => exact absurd rfl hne
  | cons m ms ih =>
    obtain ⟨name, v⟩ := m
    have hv := hms (name, v) List.mem_cons_self
    cases ms with
    | nil =>
      have hlast : Writes (.members [(name, v)]) _ := .lastMember gap_nil hcolon hv hg'
      simpa only [List.map_singleton, List.intercalate_singleton, memberText, List.append_assoc,
        List.nil_append, List.cons_append] using hlast
    | cons m ms =>
      have hrest := ih (fun m hm => hms m (List.mem_cons_of_mem _ hm)) (List.cons_ne_nil m ms)
      have hall : Writes (.members ((name, v) :: m :: ms)) _ :=
        .member gap_nil hcolon hv gap_nil hg hrest
      simpa only [List.map_cons, List.intercalate_cons_cons, memberText, List.append_assoc,
        List.nil_append, List.cons_append] using hall

end

theorem compactItems_eq (vs : List Json) : compactItems vs = vs.map compact := by
  induction vs with
  | nil => rfl
  | cons v vs ih => rw [compactItems, ih, List.map_cons]

theorem toList_compactMembers (ms : Members) :
    (compactMembers (ms.map fun (name, v) => (.ok name, v))).map String.toList =
      ms.map (memberText [] fun v => v.compact.toList) := by
  induction ms with
  | nil => rfl
  | cons m ms ih =>
    rw [List.map_cons, compactMembers, List.map_cons, ih, List.map_cons]
    simp [memberText, keyText]

theorem toList_compact_list (vs : List Json) : (list vs).compact.toList =
    '[' :: ([','].intercalate (vs.map fun v => v.compact.toList) ++ [']']) := by
  simp [list, compact, compactItems_eq, String.toList_intercalate, Function.comp_def]

theorem toList_compact_record (ms : Members) : (record ms).compact.toList =
    '\x7b' :: ([','].intercalate (ms.map (memberText [] fun v => v.compact.toList)) ++
      ['\x7d']) := by
  simp [record, compact, String.toList_intercalate, toList_compactMembers]

theorem Whole.writes_compact {v : Json} (h : Whole v) : Writes (.value v) v.compact.toList := by
  induction h with
  | null => exact .null
  | bool b =>
    cases b with
    | true => exact .true
    | false => exact .false
  | number n => exact .number n
  | string s => exact .string s
  | @list vs _ ih =>
    rw [toList_compact_list]
    by_cases hvs : vs = []
    · rw [hvs]
      exact .noItems gap_nil
    · have hall := Writes.array gap_nil (writes_items ih hvs gap_nil gap_nil)
      rwa [List.nil_append, List.nil_append] at hall
  | @record ms _ ih =>
    rw [toList_compact_record]
    by_cases hms : ms = []
    · rw [hms]
      exact .noMembers gap_nil
    · have hall := Writes.object gap_nil
        (writes_members (f := fun v => v.compact.toList) ih hms gap_nil gap_nil gap_nil)
      rwa [List.nil_append, List.nil_append] at hall

/-! One item a line. -/

def lineStart (indent : List Char) : List Char := '\n' :: indent

theorem intercalate_indented (inner : List Char) {lines : List (List Char)} (hne : lines ≠ []) :
    [',', '\n'].intercalate (lines.map (inner ++ ·)) =
      inner ++ (',' :: lineStart inner).intercalate lines := by
  induction lines with
  | nil => exact absurd rfl hne
  | cons l lines ih =>
    cases lines with
    | nil => simp
    | cons l' lines =>
      have hrest := ih (List.cons_ne_nil l' lines)
      rw [List.map_cons] at hrest
      rw [List.map_cons, List.map_cons, List.intercalate_cons_cons, hrest,
        List.intercalate_cons_cons]
      simp [lineStart]

section
variable {opening closing indent : String} {o c : Char}

theorem toList_block_nil (ho : opening.toList = [o]) (hc : closing.toList = [c]) :
    (block opening closing indent []).toList = [o, c] := by
  simp [block, ho, hc]

theorem toList_block {lines : List String} (ho : opening.toList = [o]) (hc : closing.toList = [c])
    (hne : lines ≠ []) : (block opening closing indent lines).toList =
      o :: (lineStart (indent ++ "  ").toList ++
        ((',' :: lineStart (indent ++ "  ").toList).intercalate (lines.map String.toList) ++
          (lineStart indent.toList ++ [c]))) := by
  have hne' : lines.map String.toList ≠ [] := by simpa using hne
  have hlines := intercalate_indented (indent ++ "  ").toList hne'
  rw [List.map_map] at hlines
  have hjoined : (",\n".intercalate (lines.map (indent ++ "  " ++ ·))).toList =
      (indent ++ "  ").toList ++
        (',' :: lineStart (indent ++ "  ").toList).intercalate (lines.map String.toList) := by
    rw [String.toList_intercalate, List.map_map, ← hlines]
    simp [Function.comp_def]
  rw [block, if_neg (by simpa using hne)]
  simp [lineStart, hjoined, ho, hc]

end

theorem prettyItems_eq (indent : String) (vs : List Json) :
    prettyItems indent vs = vs.map (prettyAt indent) := by
  induction vs with
  | nil => rfl
  | cons v vs ih => rw [prettyItems, ih, List.map_cons]

theorem toList_prettyMembers (indent : String) (ms : Members) :
    (prettyMembers indent (ms.map fun (name, v) => (.ok name, v))).map String.toList =
      ms.map (memberText [' '] fun v => (prettyAt indent v).toList) := by
  induction ms with
  | nil => rfl
  | cons m ms ih =>
    rw [List.map_cons, prettyMembers, List.map_cons, ih, List.map_cons]
    simp [memberText, keyText]

theorem gap_lineStart {indent : List Char} (h : Gap indent) : Gap (lineStart indent) := by
  intro c hc
  rcases List.mem_cons.mp hc with rfl | hc
  · decide
  · exact h c hc

theorem gap_inner {indent : String} (h : Gap indent.toList) : Gap (indent ++ "  ").toList := by
  intro c hc
  rw [String.toList_append] at hc
  rcases List.mem_append.mp hc with hc | hc
  · exact h c hc
  · have hblanks : Gap "  ".toList := by decide
    exact hblanks c hc

theorem Whole.writes_prettyAt {v : Json} (h : Whole v) {indent : String}
    (hindent : Gap indent.toList) : Writes (.value v) (prettyAt indent v).toList := by
  induction h generalizing indent with
  | null =>
    rw [prettyAt]
    exact .null
  | bool b =>
    rw [prettyAt]
    cases b with
    | true => exact .true
    | false => exact .false
  | number n =>
    rw [prettyAt]
    exact .number n
  | string s =>
    rw [prettyAt]
    exact .string s
  | @list vs _ ih =>
    have hinner := gap_inner hindent
    have hitems : prettyAt indent (Json.list vs) =
        block "[" "]" indent (vs.map (prettyAt (indent ++ "  "))) := by
      rw [Json.list, prettyAt, prettyItems_eq]
    rw [hitems]
    by_cases hvs : vs = []
    · rw [hvs, List.map_nil, toList_block_nil (o := '[') (c := ']') rfl rfl]
      exact .noItems gap_nil
    · rw [toList_block (o := '[') (c := ']') rfl rfl (by simpa using hvs), List.map_map]
      exact Writes.array (gap_lineStart hinner) (writes_items (fun v hv => ih v hv hinner) hvs
        (gap_lineStart hinner) (gap_lineStart hindent))
  | @record ms _ ih =>
    have hinner := gap_inner hindent
    have hmembers : prettyAt indent (Json.record ms) = block "\x7b" "\x7d" indent
        (prettyMembers (indent ++ "  ") (ms.map fun (name, v) => (.ok name, v))) := by
      rw [Json.record, prettyAt]
    have htexts := toList_prettyMembers (indent ++ "  ") ms
    rw [hmembers]
    by_cases hms : ms = []
    · rw [hms, List.map_nil, prettyMembers, toList_block_nil (o := '\x7b') (c := '\x7d') rfl rfl]
      exact .noMembers gap_nil
    · have hlines : prettyMembers (indent ++ "  ") (ms.map fun (name, v) => (.ok name, v)) ≠ [] := by
        intro hnil
        rw [hnil] at htexts
        exact hms (List.map_eq_nil_iff.mp htexts.symm)
      rw [toList_block (o := '\x7b') (c := '\x7d') rfl rfl hlines, htexts]
      have hblank : Gap [' '] := by decide
      exact Writes.object (gap_lineStart hinner)
        (writes_members (f := fun v => (prettyAt (indent ++ "  ") v).toList)
          (fun m hm => ih m hm hinner) hms hblank (gap_lineStart hinner) (gap_lineStart hindent))

theorem isText_of_writes {v : Json} {text : String} (h : Writes (.value v) text.toList) :
    IsText v text :=
  ⟨[], _, [], gap_nil, h, gap_nil, by rw [List.nil_append, List.append_nil]⟩

theorem Whole.isText {v : Json} (h : Whole v) : IsText v v.compact ∧ IsText v v.pretty :=
  ⟨isText_of_writes h.writes_compact, isText_of_writes (h.writes_prettyAt gap_nil)⟩

theorem Whole.mapNumbers_number {v : Json} (h : Whole v) : v.mapNumbers .number = v := by
  induction h with
  | null => rfl
  | bool b => rfl
  | number n => rfl
  | string s => rfl
  | @list vs _ ih =>
    rw [mapNumbers_list, List.map_congr_left ih, List.map_id']
  | @record ms _ ih =>
    have hsame : ∀ m ∈ ms, mapMember .number m = m := fun m hm => Prod.ext rfl (ih m hm)
    rw [mapNumbers_record, List.map_congr_left hsame, List.map_id']

end FlowStudio.Json
