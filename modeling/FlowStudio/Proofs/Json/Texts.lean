import FlowStudio.Proofs.Json.Numerals
import FlowStudio.Proofs.Json.Quotes
import FlowStudio.Proofs.Json.Records

/-! The texts of a JSON value, with gaps wherever they may stand, and what is read from them: the
value, with each of its numbers as the text of that number is read. -/

namespace FlowStudio.Json

def Gap (g : List Char) : Prop := ∀ c ∈ g, isGap c

instance : DecidablePred Gap := fun g => List.decidableBAll (isGap · = true) g

theorem gap_nil : Gap [] := by decide

section
variable {cs ds rest g g' : List Char} {fuel : Nat}

theorem skipGap_append (hg : Gap g) (cs : List Char) : skipGap (g ++ cs) = skipGap cs :=
  List.dropWhile_append_of_pos hg

theorem skipGap_cons {c : Char} (hc : isGap c = false) : skipGap (c :: cs) = c :: cs := by
  rw [skipGap, List.dropWhile_cons, hc]
  rfl

theorem skipGap_append_cons (hg : Gap g) {c : Char} (hc : isGap c = false) :
    skipGap (g ++ c :: cs) = c :: cs := by
  rw [skipGap_append hg, skipGap_cons hc]

theorem endsNumber_of_gap (hg : Gap g) : EndsNumber g := by
  rintro c hc
  have hgap := hg c (List.mem_of_mem_head? hc)
  simp only [isGap, Bool.or_eq_true, decide_eq_true_eq] at hgap
  rcases hgap with ((rfl | rfl) | rfl) | rfl <;> decide

theorem endsNumber_append_cons (hg : Gap g) {c : Char}
    (hc : c.isDigit = false ∧ c ≠ '.' ∧ c ≠ 'e' ∧ c ≠ 'E') : EndsNumber (g ++ c :: cs) := by
  cases g with
  | nil =>
    rintro d hd
    obtain rfl := Option.some.inj hd
    exact hc
  | cons b g => exact fun d hd => endsNumber_of_gap hg d hd

theorem readValue_append (hg : Gap g) (fuel : Nat) (cs : List Char) :
    readValue fuel (g ++ cs) = readValue fuel cs := by
  cases fuel with
  | zero => rfl
  | succ fuel => rw [readValue, readValue, skipGap_append hg]

def StartsValue (cs : List Char) : Prop := ∃ c r, cs = c :: r ∧ isGap c = false ∧ c ≠ ']'

theorem StartsValue.append (h : StartsValue cs) (rest : List Char) : StartsValue (cs ++ rest) := by
  obtain ⟨c, r, rfl, hc⟩ := h
  exact ⟨c, r ++ rest, rfl, hc⟩

theorem readItems_last {v : Json} (hv : readValue fuel cs = ⟨v, .ok (g ++ ']' :: rest)⟩)
    (hg : Gap g) : readItems (fuel + 1) cs = ⟨([v], .closed), .ok rest⟩ := by
  simp only [readItems, hv, skipGap_append_cons hg (by decide : isGap ']' = false)]

theorem readItems_next {v : Json} {vs : List Json} {ending : Ending}
    {r : Except Fault (List Char)} (hv : readValue fuel cs = ⟨v, .ok (g ++ ',' :: (g' ++ ds))⟩)
    (hg : Gap g) (hg' : Gap g') (hstart : StartsValue ds)
    (hds : readItems fuel ds = ⟨(vs, ending), r⟩) :
    readItems (fuel + 1) cs = ⟨(v :: vs, ending), r⟩ := by
  obtain ⟨c, ds, rfl, hgap, hc⟩ := hstart
  simp only [readItems, hv, skipGap_append_cons hg (by decide : isGap ',' = false),
    skipGap_append_cons hg' hgap]
  split
  · next heq => exact absurd (List.cons.inj heq).1 hc
  · rw [hds]

theorem quote_name (name : String) {r : List Char} (hfuel : name.toList.length < fuel) :
    ∃ s, (quoted name).toList ++ r = '"' :: s ∧ quote fuel s = ⟨.ok name, .ok r⟩ :=
  ⟨name.toList.flatMap escape ++ '"' :: r, by simp [toList_quoted], quote_quoted name r hfuel⟩

section
variable {name : String} {v : Json}

theorem readMembers_last (hname : name.toList.length < fuel) (hg : Gap g)
    (hv : readValue fuel cs = ⟨v, .ok (g' ++ '\x7d' :: rest)⟩) (hg' : Gap g') :
    readMembers (fuel + 1) ((quoted name).toList ++ (g ++ ':' :: cs)) =
      ⟨([(.ok name, v)], .closed), .ok rest⟩ := by
  obtain ⟨s, hs, hquote⟩ := quote_name name hname (r := g ++ ':' :: cs)
  simp only [hs, readMembers, hquote, skipGap_append_cons hg (by decide : isGap ':' = false), hv,
    skipGap_append_cons hg' (by decide : isGap '\x7d' = false)]

theorem readMembers_next {ms : List (Except Fault String × Json)} {ending : Ending}
    {r : Except Fault (List Char)} {g₂ : List Char} (hname : name.toList.length < fuel)
    (hg : Gap g) (hv : readValue fuel cs = ⟨v, .ok (g' ++ ',' :: (g₂ ++ '"' :: ds))⟩)
    (hg' : Gap g') (hg₂ : Gap g₂) (hds : readMembers fuel ('"' :: ds) = ⟨(ms, ending), r⟩) :
    readMembers (fuel + 1) ((quoted name).toList ++ (g ++ ':' :: cs)) =
      ⟨((.ok name, v) :: ms, ending), r⟩ := by
  obtain ⟨s, hs, hquote⟩ := quote_name name hname (r := g ++ ':' :: cs)
  simp only [hs, readMembers, hquote, skipGap_append_cons hg (by decide : isGap ':' = false), hv,
    skipGap_append_cons hg' (by decide : isGap ',' = false),
    skipGap_append_cons hg₂ (by decide : isGap '"' = false)]
  split
  · next heq => cases heq
  · next heq => exact absurd (List.cons.inj heq).1 (by decide)
  · rw [hds]

end

end

/-- A value, or what follows the opening bracket of an array or of an object that is not empty. -/
inductive Phrase where
  | value (v : Json)
  | items (vs : List Json)
  | members (ms : Members)

inductive Writes : Phrase → List Char → Prop
  | null : Writes (.value .null) ['n', 'u', 'l', 'l']
  | true : Writes (.value (.bool true)) ['t', 'r', 'u', 'e']
  | false : Writes (.value (.bool false)) ['f', 'a', 'l', 's', 'e']
  | number (n : Number) : Writes (.value (.number n)) n.text.toList
  | string (s : String) : Writes (.value (.string s)) (quoted s).toList
  | noItems {g} : Gap g → Writes (.value (list [])) ('[' :: (g ++ [']']))
  | array {g vs cs} : Gap g → Writes (.items vs) cs → Writes (.value (list vs)) ('[' :: (g ++ cs))
  | noMembers {g} : Gap g → Writes (.value (record [])) ('\x7b' :: (g ++ ['\x7d']))
  | object {g ms cs} : Gap g → Writes (.members ms) cs →
      Writes (.value (record ms)) ('\x7b' :: (g ++ cs))
  | lastItem {v cs g} : Writes (.value v) cs → Gap g → Writes (.items [v]) (cs ++ (g ++ [']']))
  | item {v cs g g' vs ds} : Writes (.value v) cs → Gap g → Gap g' → Writes (.items vs) ds →
      Writes (.items (v :: vs)) (cs ++ (g ++ ',' :: (g' ++ ds)))
  | lastMember {name g g' v cs g₂} : Gap g → Gap g' → Writes (.value v) cs → Gap g₂ →
      Writes (.members [(name, v)])
        ((quoted name).toList ++ (g ++ ':' :: (g' ++ (cs ++ (g₂ ++ ['\x7d'])))))
  | member {name g g' v cs g₂ g₃ ms ds} : Gap g → Gap g' → Writes (.value v) cs → Gap g₂ →
      Gap g₃ → Writes (.members ms) ds → Writes (.members ((name, v) :: ms))
        ((quoted name).toList ++ (g ++ ':' :: (g' ++ (cs ++ (g₂ ++ ',' :: (g₃ ++ ds))))))

mutual

def mapNumbers (f : Number → Json) : Json → Json
  | .null => .null
  | .bool b => .bool b
  | .number n => f n
  | .string s => .string s
  | .array items ending => .array (mapItems f items) ending
  | .object members ending => .object (mapMembers f members) ending
  | .cut start fault => .cut start fault

def mapItems (f : Number → Json) : List Json → List Json
  | [] => []
  | v :: vs => v.mapNumbers f :: mapItems f vs

def mapMembers (f : Number → Json) :
    List (Except Fault String × Json) → List (Except Fault String × Json)
  | [] => []
  | (key, v) :: ms => (key, v.mapNumbers f) :: mapMembers f ms

end

def mapMember (f : Number → Json) (m : String × Json) : String × Json := (m.1, m.2.mapNumbers f)

theorem mapNumbers_list (f : Number → Json) (vs : List Json) :
    (list vs).mapNumbers f = list (vs.map (mapNumbers f)) := by
  have hitems : mapItems f vs = vs.map (mapNumbers f) := by
    induction vs with
    | nil => rfl
    | cons v vs ih => rw [mapItems, ih, List.map_cons]
  rw [list, mapNumbers, hitems, list]

theorem mapNumbers_record (f : Number → Json) (ms : Members) :
    (record ms).mapNumbers f = record (ms.map (mapMember f)) := by
  have hmembers : mapMembers f (ms.map fun m => (.ok m.1, m.2)) =
      (ms.map (mapMember f)).map fun m => (.ok m.1, m.2) := by
    induction ms with
    | nil => rfl
    | cons m ms ih => rw [List.map_cons, mapMembers, ih, List.map_cons, List.map_cons]; rfl
  rw [record, mapNumbers]
  exact congrArg (object · .closed) hmembers

def Number.reread (n : Number) : Json := (numeral n.text.toList).value

def reread : Json → Json := mapNumbers Number.reread

section
variable {cs ds rest g g' : List Char} {fuel : Nat}

theorem readValue_array {vs : List Json} {ending : Ending} {r : Except Fault (List Char)}
    (hg : Gap g) (hstart : StartsValue cs) (hcs : readItems fuel cs = ⟨(vs, ending), r⟩) :
    readValue (fuel + 1) ('[' :: (g ++ cs)) = ⟨.array vs ending, r⟩ := by
  obtain ⟨c, cs, rfl, hgap, hc⟩ := hstart
  rw [readValue, skipGap_cons (by decide)]
  simp only [skipGap_append_cons hg hgap]
  split
  · next heq => exact absurd (List.cons.inj heq).1 hc
  · next heq => cases heq
  · rw [hcs]

theorem readValue_noItems (hg : Gap g) :
    readValue (fuel + 1) ('[' :: (g ++ ']' :: rest)) = ⟨list [], .ok rest⟩ := by
  rw [readValue, skipGap_cons (by decide)]
  simp only [skipGap_append_cons hg (by decide : isGap ']' = false), list]

theorem readValue_object {ms : List (Except Fault String × Json)} {ending : Ending}
    {r : Except Fault (List Char)} (hg : Gap g)
    (hcs : readMembers fuel ('"' :: cs) = ⟨(ms, ending), r⟩) :
    readValue (fuel + 1) ('\x7b' :: (g ++ '"' :: cs)) = ⟨.object ms ending, r⟩ := by
  rw [readValue, skipGap_cons (by decide)]
  simp only [skipGap_append_cons hg (by decide : isGap '"' = false)]
  split
  · next heq => exact absurd (List.cons.inj heq).1 (by decide)
  · next heq => cases heq
  · rw [hcs]

theorem readValue_noMembers (hg : Gap g) :
    readValue (fuel + 1) ('\x7b' :: (g ++ '\x7d' :: rest)) = ⟨record [], .ok rest⟩ := by
  rw [readValue, skipGap_cons (by decide)]
  simp only [skipGap_append_cons hg (by decide : isGap '\x7d' = false), record, List.map_nil]

theorem ne_of_starts_number {c : Char} (hc : c = '-' ∨ c.isDigit) :
    ∀ d ∈ ['n', 't', 'f', '"', '[', '\x7b', ' ', '\n', '\t', '\r', ']'], c ≠ d := by
  have hothers : ∀ d ∈ ['n', 't', 'f', '"', '[', '\x7b', ' ', '\n', '\t', '\r', ']'],
      ¬(d = '-' ∨ d.isDigit) := by
    simp
  rintro d hd rfl
  exact hothers c hd hc

theorem isGap_eq_false_of_starts_number {c : Char} (hc : c = '-' ∨ c.isDigit) :
    isGap c = false := by
  have hne := ne_of_starts_number hc
  simp [isGap, hne ' ' (by decide), hne '\n' (by decide), hne '\t' (by decide),
    hne '\r' (by decide)]

theorem readValue_number (n : Number) (hrest : EndsNumber rest) :
    readValue (fuel + 1) (n.text.toList ++ rest) = ⟨n.reread, .ok rest⟩ := by
  have hnumeral := numeral_append n hrest
  obtain ⟨c, cs, htext, hc⟩ := exists_cons_text n
  have hne := ne_of_starts_number hc
  rw [htext, List.cons_append] at hnumeral ⊢
  rw [readValue, skipGap_cons (isGap_eq_false_of_starts_number hc)]
  split
  · next heq => cases heq
  · next heq => exact absurd (List.cons.inj heq).1 (hne 'n' (by decide))
  · next heq => exact absurd (List.cons.inj heq).1 (hne 't' (by decide))
  · next heq => exact absurd (List.cons.inj heq).1 (hne 'f' (by decide))
  · next heq => exact absurd (List.cons.inj heq).1 (hne '"' (by decide))
  · next heq => exact absurd (List.cons.inj heq).1 (hne '[' (by decide))
  · next heq => exact absurd (List.cons.inj heq).1 (hne '\x7b' (by decide))
  · next heq =>
    obtain ⟨rfl, rfl⟩ := List.cons.inj heq
    rw [if_pos hc, hnumeral, Number.reread, htext]

theorem readValue_string (s : String) (hfuel : s.toList.length < fuel) :
    readValue (fuel + 1) ((quoted s).toList ++ rest) = ⟨.string s, .ok rest⟩ := by
  obtain ⟨r, hr, hquote⟩ := quote_name s hfuel (r := rest)
  rw [hr, readValue, skipGap_cons (by decide)]
  simp only [hquote, Scan.json]

def Phrase.Starts (cs : List Char) : Phrase → Prop
  | .value _ => StartsValue cs
  | .items _ => StartsValue cs
  | .members _ => ∃ r, cs = '"' :: r

theorem Writes.starts {p : Phrase} (h : Writes p cs) : p.Starts cs := by
  induction h with
  | null => exact ⟨'n', _, rfl, by decide⟩
  | true => exact ⟨'t', _, rfl, by decide⟩
  | false => exact ⟨'f', _, rfl, by decide⟩
  | number n =>
    obtain ⟨c, r, htext, hc⟩ := exists_cons_text n
    exact ⟨c, r, htext, isGap_eq_false_of_starts_number hc, ne_of_starts_number hc ']' (by decide)⟩
  | string s => exact ⟨'"', _, toList_quoted s, by decide⟩
  | noItems _ => exact ⟨'[', _, rfl, by decide⟩
  | array _ _ _ => exact ⟨'[', _, rfl, by decide⟩
  | noMembers _ => exact ⟨'\x7b', _, rfl, by decide⟩
  | object _ _ _ => exact ⟨'\x7b', _, rfl, by decide⟩
  | lastItem _ _ ih => exact StartsValue.append ih _
  | item _ _ _ _ ih _ => exact StartsValue.append ih _
  | lastMember _ _ _ _ _ => exact ⟨_, by rw [toList_quoted, List.cons_append]⟩
  | member _ _ _ _ _ _ _ _ => exact ⟨_, by rw [toList_quoted, List.cons_append]⟩

def Phrase.Reads (cs rest : List Char) : Phrase → Prop
  | .value v => ∀ fuel, 2 * cs.length ≤ fuel → EndsNumber rest →
      readValue fuel (cs ++ rest) = ⟨v.reread, .ok rest⟩
  | .items vs => ∀ fuel, 2 * cs.length ≤ fuel + 1 →
      readItems fuel (cs ++ rest) = ⟨(vs.map reread, .closed), .ok rest⟩
  | .members ms => ∀ fuel, 2 * cs.length ≤ fuel + 1 →
      readMembers fuel (cs ++ rest) =
        ⟨((ms.map (mapMember Number.reread)).map fun (name, v) => (.ok name, v), .closed), .ok rest⟩

theorem Writes.reads {p : Phrase} (h : Writes p cs) (rest : List Char) : p.Reads cs rest := by
  induction h generalizing rest with
  | null =>
    rintro (_ | fuel) hfuel -
    · simp at hfuel
    · rfl
  | true =>
    rintro (_ | fuel) hfuel -
    · simp at hfuel
    · rfl
  | false =>
    rintro (_ | fuel) hfuel -
    · simp at hfuel
    · rfl
  | number n =>
    rintro (_ | fuel) hfuel hrest
    · obtain ⟨c, cs, htext, -⟩ := exists_cons_text n
      simp [htext] at hfuel
    · exact readValue_number n hrest
  | string s =>
    rintro (_ | fuel) hfuel hrest
    · simp [toList_quoted] at hfuel
    · refine readValue_string s ?_
      have hlength := length_le_length_escaped s.toList
      simp only [toList_quoted, List.length_cons, List.length_append, List.length_nil] at hfuel
      omega
  | @noItems g hg =>
    rintro (_ | fuel) hfuel -
    · simp at hfuel
    · rw [List.cons_append, List.append_assoc]
      exact readValue_noItems hg
  | @array g vs cs hg hcs ih =>
    rintro (_ | fuel) hfuel -
    · simp at hfuel
    · simp only [List.length_cons, List.length_append] at hfuel
      rw [List.cons_append, List.append_assoc, reread, mapNumbers_list]
      exact readValue_array hg (StartsValue.append hcs.starts rest) (ih rest fuel (by omega))
  | @noMembers g hg =>
    rintro (_ | fuel) hfuel -
    · simp at hfuel
    · rw [List.cons_append, List.append_assoc]
      exact readValue_noMembers hg
  | @object g ms cs hg hcs ih =>
    rintro (_ | fuel) hfuel -
    · simp at hfuel
    · simp only [List.length_cons, List.length_append] at hfuel
      have hread := ih rest fuel (by omega)
      obtain ⟨r, rfl⟩ := hcs.starts
      rw [List.cons_append, List.append_assoc, reread, mapNumbers_record]
      exact readValue_object hg hread
  | @lastItem v cs g _ hg ih =>
    rintro (_ | fuel) hfuel
    · simp at hfuel
      omega
    · simp only [List.length_cons, List.length_append, List.length_nil] at hfuel
      rw [List.append_assoc, List.append_assoc]
      exact readItems_last (ih _ fuel (by omega) (endsNumber_append_cons hg (by decide))) hg
  | @item v cs g g' vs ds _ hg hg' hds ih ihs =>
    rintro (_ | fuel) hfuel
    · simp at hfuel
      omega
    · simp only [List.length_cons, List.length_append] at hfuel
      rw [List.append_assoc, List.append_assoc, List.cons_append, List.append_assoc]
      exact readItems_next (ih _ fuel (by omega) (endsNumber_append_cons hg (by decide))) hg hg'
        (StartsValue.append hds.starts rest) (ihs rest fuel (by omega))
  | @lastMember name g g' v cs g₂ hg hg' _ hg₂ ih =>
    rintro (_ | fuel) hfuel
    · simp at hfuel
      omega
    · have hlength := length_le_length_quoted name
      simp only [List.length_cons, List.length_append, List.length_nil] at hfuel
      have hv := ih (g₂ ++ '\x7d' :: rest) fuel (by omega) (endsNumber_append_cons hg₂ (by decide))
      simp only [List.append_assoc, List.cons_append, List.nil_append]
      exact readMembers_last (by omega) hg ((readValue_append hg' fuel _).trans hv) hg₂
  | @member name g g' v cs g₂ g₃ ms ds hg hg' _ hg₂ hg₃ hds ih ihs =>
    rintro (_ | fuel) hfuel
    · simp at hfuel
      omega
    · have hlength := length_le_length_quoted name
      simp only [List.length_cons, List.length_append] at hfuel
      have hread := ihs rest fuel (by omega)
      obtain ⟨r, rfl⟩ := hds.starts
      have hv := ih (g₂ ++ ',' :: (g₃ ++ '"' :: (r ++ rest))) fuel (by omega)
        (endsNumber_append_cons hg₂ (by decide))
      simp only [List.append_assoc, List.cons_append]
      exact readMembers_next (by omega) hg ((readValue_append hg' fuel _).trans hv) hg₂ hg₃ hread

/-- A text of a value has its members in order, strings and numbers as they are written out, and any
gaps between these and around it. Other spellings of strings and numbers are left aside. -/
def IsText (v : Json) (text : String) : Prop :=
  ∃ g cs g', Gap g ∧ Writes (.value v) cs ∧ Gap g' ∧ text.toList = g ++ (cs ++ g')

theorem IsText.read {v : Json} {text : String} (h : IsText v text) :
    Document.ofString text = ⟨v.reread, none⟩ := by
  obtain ⟨g, cs, g', hg, hcs, hg', htext⟩ := h
  have hread := hcs.reads g' (2 * (g ++ (cs ++ g')).length + 2)
    (by simp only [List.length_append]; omega) (endsNumber_of_gap hg')
  have hrest : skipGap g' = [] := by
    have hskip := skipGap_append hg' []
    rwa [List.append_nil] at hskip
  rw [Document.ofString, htext]
  simp only [readValue_append hg, hread, hrest, List.isEmpty_nil, if_true]

end
end FlowStudio.Json
