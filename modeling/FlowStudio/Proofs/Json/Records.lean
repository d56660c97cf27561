import FlowStudio.Json.Decoding
import Mathlib.Data.List.Nodup
import Mathlib.Data.List.Pairwise

/-! Records read from objects. The members may stand in any order, and unknown ones may stand among
them. -/

namespace FlowStudio.Json
variable {α β γ : Type} {form : Form α}

abbrev Members := List (String × Json)

def Form.names (form : Form α) : List String := form.fields.map (·.name)

/-- How members turn one record into another, when those of some names have been read before. -/
inductive Form.Reads (form : Form α) : Members → List String → α → α → Prop
  | done {seen r} : (∀ f ∈ form.fields, f.required → f.name ∈ seen) → Reads form [] seen r r
  | unknown {name v ms seen r a} : form.fields.find? (·.name == name) = none →
      Reads form ms seen r a → Reads form ((name, v) :: ms) seen r a
  | known {name v ms seen r r' a f} : form.fields.find? (·.name == name) = some f →
      name ∉ seen → f.read v r = .ok r' → Reads form ms (name :: seen) r' a →
      Reads form ((name, v) :: ms) seen r a

section
variable {ms ms' : Members} {seen seen' : List String} {r a : α}

theorem missing?_eq_none_iff :
    form.missing? seen = none ↔ ∀ f ∈ form.fields, f.required → f.name ∈ seen := by
  simp [Form.missing?]

theorem decodeMembers_eq_ok_iff : form.decodeMembers .closed
    (ms.map fun (name, value) => (.ok name, value)) seen r = .ok a ↔ form.Reads ms seen r a := by
  constructor
  · intro h
    induction ms generalizing seen r with
    | nil =>
      rw [List.map_nil, Form.decodeMembers] at h
      cases hmissing : form.missing? seen with
      | some name => simp [hmissing, Ending.check, bind, Except.bind] at h
      | none =>
        simp only [hmissing, Ending.check, bind, Except.bind, Except.ok.injEq] at h
        exact h ▸ .done (missing?_eq_none_iff.mp hmissing)
    | cons m ms ih =>
      obtain ⟨name, v⟩ := m
      rw [List.map_cons, Form.decodeMembers] at h
      cases hfind : form.fields.find? (·.name == name) with
      | none => exact .unknown hfind (ih (by simpa [hfind] using h))
      | some f =>
        by_cases hseen : name ∈ seen
        · simp [hfind, hseen, bind, Except.bind] at h
        · cases hread : f.read v r with
          | error e => simp [hfind, hseen, hread, bind, Except.bind] at h
          | ok r' =>
            refine .known hfind hseen hread (ih ?_)
            simpa [hfind, hseen, hread, bind, Except.bind, pure, Except.pure] using h
  · intro h
    induction h with
    | done hall =>
      simp [Form.decodeMembers, missing?_eq_none_iff.mpr hall, Ending.check, bind, Except.bind]
    | unknown hfind _ ih => simpa [Form.decodeMembers, hfind] using ih
    | known hfind hseen hread _ ih =>
      simpa [Form.decodeMembers, hfind, hseen, hread, bind, Except.bind, pure, Except.pure]
        using ih

theorem decode_record_eq_ok_iff :
    form.decode (record ms) = .ok a ↔ form.Reads ms [] form.blank a :=
  decodeMembers_eq_ok_iff

theorem Form.Reads.congr_seen (h : form.Reads ms seen r a) (hseen : ∀ x, x ∈ seen ↔ x ∈ seen') :
    form.Reads ms seen' r a := by
  induction h generalizing seen' with
  | done hall => exact .done fun f hf hrequired => (hseen _).mp (hall f hf hrequired)
  | unknown hfind _ ih => exact .unknown hfind (ih hseen)
  | known hfind hnot hread _ ih =>
    refine .known hfind (fun h => hnot ((hseen _).mpr h)) hread (ih fun x => ?_)
    rw [List.mem_cons, List.mem_cons, hseen]

def Field.Commutes (f g : Field α) : Prop :=
  ∀ v w r s t, f.read v r = .ok s → g.read w s = .ok t →
    ∃ s', g.read w r = .ok s' ∧ f.read v s' = .ok t

def Field.Apart (f g : Field α) : Prop := f.Commutes g ∧ g.Commutes f

instance : Std.Symm (@Field.Apart α) := ⟨fun _ _ => And.symm⟩

@[simp] theorem apart_optional_left {f g : Field α} : f.optional.Apart g ↔ f.Apart g := Iff.rfl

@[simp] theorem apart_optional_right {f g : Field α} : f.Apart g.optional ↔ f.Apart g := Iff.rfl

def Form.Separate (form : Form α) : Prop := form.fields.Pairwise Field.Apart

theorem Form.Separate.commutes (hs : form.Separate) {f g : Field α} (hf : f ∈ form.fields)
    (hg : g ∈ form.fields) (hne : f.name ≠ g.name) : f.Commutes g :=
  (List.Pairwise.forall hs hf hg fun h => hne (h ▸ rfl)).1

theorem Form.Reads.perm (hs : form.Separate) (hp : ms.Perm ms') (h : form.Reads ms seen r a) :
    form.Reads ms' seen r a := by
  induction hp generalizing seen r with
  | nil => exact h
  | cons m _ ih =>
    cases h with
    | unknown hfind h => exact .unknown hfind (ih h)
    | known hfind hnot hread h => exact .known hfind hnot hread (ih h)
  | swap m n ms =>
    cases h with
    | unknown hfind h =>
      cases h with
      | unknown hfind' h => exact .unknown hfind' (.unknown hfind h)
      | known hfind' hnot hread h => exact .known hfind' hnot hread (.unknown hfind h)
    | known hfind hnot hread h =>
      cases h with
      | unknown hfind' h => exact .unknown hfind' (.known hfind hnot hread h)
      | known hfind' hnot' hread' h =>
        -- the names differ, so the two may be read the other way round
        obtain ⟨hne, hnot'⟩ := List.ne_and_not_mem_of_not_mem_cons hnot'
        have hf := List.find?_some hfind
        have hg := List.find?_some hfind'
        obtain ⟨r', hread', hread⟩ := hs.commutes (List.mem_of_find?_eq_some hfind)
          (List.mem_of_find?_eq_some hfind')
          (by rw [beq_iff_eq.mp hf, beq_iff_eq.mp hg]; exact hne.symm) _ _ _ _ _ hread hread'
        refine .known hfind' hnot' hread' (.known hfind ?_ hread (h.congr_seen fun x => ?_))
        · exact List.not_mem_cons_of_ne_of_not_mem hne.symm hnot
        · simp only [List.mem_cons, or_left_comm]
  | trans _ _ ih ih' => exact ih' (ih h)

/-- The same members in another order and with others of unknown names among them. -/
inductive Rearranged (known : List String) (ms : Members) : Members → Prop
  | same : Rearranged known ms ms
  | unknown {name v ms'} : Rearranged known ms ms' → name ∉ known →
      Rearranged known ms ((name, v) :: ms')
  | reordered {ms' ms''} : Rearranged known ms ms' → ms'.Perm ms'' → Rearranged known ms ms''

theorem Form.Reads.rearranged (hs : form.Separate) (hr : Rearranged form.names ms ms')
    (h : form.Reads ms seen r a) : form.Reads ms' seen r a := by
  induction hr with
  | same => exact h
  | unknown _ hname ih =>
    refine .unknown (List.find?_eq_none.mpr fun f hf hbeq => hname ?_) ih
    exact List.mem_map.mpr ⟨f, hf, beq_iff_eq.mp hbeq⟩
  | reordered _ hp ih => exact ih.perm hs hp

theorem decode_rearranged (hs : form.Separate) (hr : Rearranged form.names ms ms')
    (h : form.decode (record ms) = .ok a) : form.decode (record ms') = .ok a :=
  decode_record_eq_ok_iff.mpr ((decode_record_eq_ok_iff.mp h).rearranged hs hr)

end

inductive Fills : List (Field α) → Members → α → α → Prop
  | done {r} : Fills [] [] r r
  | given {f fs v ms r r' a} : f.read v r = .ok r' → Fills fs ms r' a →
      Fills (f :: fs) ((f.name, v) :: ms) r a
  | omitted {f fs ms r a} : f.required = false → Fills fs ms r a → Fills (f :: fs) ms r a

section
variable {fs : List (Field α)} {ms : Members} {r a : α}

theorem find?_name (hn : form.names.Nodup) {f : Field α} (hf : f ∈ form.fields) :
    form.fields.find? (·.name == f.name) = some f := by
  have hsome : (form.fields.find? (·.name == f.name)).isSome :=
    List.find?_isSome.mpr ⟨f, hf, beq_self_eq_true f.name⟩
  obtain ⟨g, hg⟩ := Option.isSome_iff_exists.mp hsome
  have hname := List.find?_some hg
  rw [beq_iff_eq] at hname
  rw [hg, List.inj_on_of_nodup_map hn (List.mem_of_find?_eq_some hg) hf hname]

theorem Fills.reads_from (hn : form.names.Nodup) (h : Fills fs ms r a) {seen : List String}
    (hsub : ∀ f ∈ fs, f ∈ form.fields) (hfs : (fs.map (·.name)).Nodup)
    (hseen : ∀ f ∈ fs, f.name ∉ seen)
    (hrequired : ∀ f ∈ form.fields, f.required → f.name ∈ seen ∨ f ∈ fs) :
    form.Reads ms seen r a := by
  -- a field that is not to come any more has been read or may be left out
  induction h generalizing seen with
  | done => exact .done fun f hf hr => (hrequired f hf hr).resolve_right List.not_mem_nil
  | @given f fs v ms r r' a hread _ ih =>
    obtain ⟨hf, hfs⟩ := List.nodup_cons.mp hfs
    refine .known (find?_name hn (hsub f List.mem_cons_self)) (hseen f List.mem_cons_self) hread
      (ih (fun g hg => hsub g (List.mem_cons_of_mem f hg)) hfs (fun g hg => ?_) fun g hg hr => ?_)
    · refine List.not_mem_cons_of_ne_of_not_mem (fun hname => hf ?_)
        (hseen g (List.mem_cons_of_mem f hg))
      exact List.mem_map.mpr ⟨g, hg, hname⟩
    · rcases hrequired g hg hr with hg | hg
      · exact .inl (List.mem_cons_of_mem _ hg)
      · rcases List.mem_cons.mp hg with rfl | hg
        · exact .inl List.mem_cons_self
        · exact .inr hg
  | @omitted f fs ms r a hoptional _ ih =>
    refine ih (fun g hg => hsub g (List.mem_cons_of_mem f hg)) (List.nodup_cons.mp hfs).2
      (fun g hg => hseen g (List.mem_cons_of_mem f hg)) fun g hg hr => ?_
    refine (hrequired g hg hr).imp_right fun hmem => (List.mem_cons.mp hmem).resolve_left ?_
    rintro rfl
    exact Bool.false_ne_true (hoptional.symm.trans hr)

theorem decode_record_of_fills (hn : form.names.Nodup) (h : Fills form.fields ms form.blank a) :
    form.decode (record ms) = .ok a :=
  decode_record_eq_ok_iff.mpr (h.reads_from hn (fun _ => id) hn (fun _ _ => List.not_mem_nil)
    fun _ hf _ => .inr hf)

end

/-- The value that a member gives, which is a default one if the member is left out. -/
inductive Given (name : String) (decode : Decoder β) (default : β) : Members → β → Prop
  | here {v b} : decode v = .ok b → Given name decode default [(name, v)] b
  | nowhere : Given name decode default [] default

section
variable {name name' : String} {decode : Decoder β} {decode' : Decoder γ}
variable {set : β → α → α} {set' : γ → α → α}

theorem field_read {v : Json} {b : β} (h : decode v = .ok b) (r : α) :
    (field name decode set).read v r = .ok (set b r) := by
  simp only [field, h, Except.map]

theorem field_commutes (h : ∀ b c r, set' c (set b r) = set b (set' c r)) :
    (field name decode set).Commutes (field name' decode' set') := by
  intro v w r s t hf hg
  cases hv : decode v with
  | error e => simp [field, hv, Except.map] at hf
  | ok b =>
    cases hw : decode' w with
    | error e => simp [field, hw, Except.map] at hg
    | ok c =>
      rw [field_read hv, Except.ok.injEq] at hf
      rw [field_read hw, Except.ok.injEq] at hg
      refine ⟨_, field_read hw r, ?_⟩
      rw [field_read hv, ← h, hf, hg]

@[simp] theorem field_apart (h : ∀ b c r, set' c (set b r) = set b (set' c r)) :
    (field name decode set).Apart (field name' decode' set') :=
  ⟨field_commutes h, field_commutes fun c b r => (h b c r).symm⟩

theorem Fills.field {fs : List (Field α)} {v : Json} {b : β} {ms : Members} {r a : α}
    (hv : decode v = .ok b) (h : Fills fs ms (set b r) a) :
    Fills (Json.field name decode set :: fs) ((name, v) :: ms) r a :=
  .given (field_read hv r) h

theorem Fills.optional {fs : List (Field α)} {default b : β} {part ms : Members} {r a : α}
    (hpart : Given name decode default part b) (hr : set default r = r)
    (h : Fills fs ms (set b r) a) :
    Fills ((Json.field name decode set).optional :: fs) (part ++ ms) r a := by
  cases hpart with
  | @here v _ hv =>
    have hread : (Json.field name decode set).read v r = .ok (set b r) := field_read hv r
    exact .given hread h
  | nowhere => exact .omitted rfl (hr ▸ h)

end

theorem decodeList_list {decode : Decoder α} {vs : List Json} {xs : List α}
    (h : List.Forall₂ (fun v x => decode v = .ok x) vs xs) :
    decodeList decode (list vs) = .ok xs := by
  rw [list, decodeList]
  induction h with
  | nil => rfl
  | cons hv _ ih =>
    rw [decodeItems, hv, ih]
    rfl

/-! What a record holds in one place. -/

def Form.Gets (form : Form α) (name : String) (decode : Decoder β) (get : α → β) : Prop :=
  ∀ f ∈ form.fields, ∀ v r r', f.read v r = .ok r' →
    (f.name = name → decode v = .ok (get r')) ∧ (f.name ≠ name → get r' = get r)

section
variable {name : String} {decode : Decoder β} {get : α → β} {set : β → α → α}
variable {ms : Members} {seen : List String} {r r' a : α} {v : Json}

@[simp] theorem field_name : (field name decode set).name = name := rfl

@[simp] theorem optional_name (f : Field α) : f.optional.name = f.name := rfl

@[simp] theorem optional_read (f : Field α) : f.optional.read = f.read := rfl

@[simp] theorem field_read_eq_ok_iff : (field name decode set).read v r = .ok r' ↔
    ∃ b, decode v = .ok b ∧ set b r = r' := by
  cases hv : decode v <;> simp [field, hv, Except.map]

theorem Form.Reads.get_eq (hgets : form.Gets name decode get) (h : form.Reads ms seen r a)
    (hname : name ∈ seen ∨ name ∉ ms.map (·.1)) : get a = get r := by
  induction h with
  | done => rfl
  | unknown _ _ ih =>
    exact ih (hname.imp_right fun hnot hmem => hnot (List.mem_cons_of_mem _ hmem))
  | @known name' v ms seen r r' a f hfind hseen hread _ ih =>
    have hf := List.find?_some hfind
    rw [beq_iff_eq] at hf
    have hne : f.name ≠ name := by
      rintro hf'
      obtain rfl : name' = name := hf.symm.trans hf'
      exact hname.elim hseen fun hnot => hnot List.mem_cons_self
    rw [ih ?_, (hgets f (List.mem_of_find?_eq_some hfind) v r r' hread).2 hne]
    exact hname.imp (List.mem_cons_of_mem _) fun hnot hmem => hnot (List.mem_cons_of_mem _ hmem)

theorem Form.Reads.decode_eq (hgets : form.Gets name decode get) (h : form.Reads ms seen r a)
    (hknown : name ∈ form.names) (hv : (name, v) ∈ ms) : decode v = .ok (get a) := by
  induction h with
  | done => cases hv
  | @unknown name' w ms seen r a hfind _ ih =>
    rcases List.mem_cons.mp hv with heq | hv
    · obtain ⟨rfl, rfl⟩ := Prod.mk.inj heq
      obtain ⟨f, hf, rfl⟩ := List.mem_map.mp hknown
      exact absurd (beq_self_eq_true f.name) (List.find?_eq_none.mp hfind f hf)
    · exact ih hv
  | @known name' w ms seen r r' a f hfind hseen hread hrest ih =>
    rcases List.mem_cons.mp hv with heq | hv
    · obtain ⟨rfl, rfl⟩ := Prod.mk.inj heq
      have hf := List.find?_some hfind
      rw [beq_iff_eq] at hf
      rw [hrest.get_eq hgets (.inl List.mem_cons_self)]
      exact (hgets f (List.mem_of_find?_eq_some hfind) v r r' hread).1 hf
    · exact ih hv

end

end FlowStudio.Json
