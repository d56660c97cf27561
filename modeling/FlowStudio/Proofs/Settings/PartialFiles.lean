import FlowStudio.Proofs.Flow.RoundTrip
import FlowStudio.Proofs.Json.Parts
import FlowStudio.Settings.Files

/-! Settings read from a file that leaves some of their fields out. -/

namespace FlowStudio

namespace Json

def ReadsBack (x : Float) : Prop := (decodeFloat (Number.float x).reread).toOption = some x

instance : DecidablePred ReadsBack := fun x =>
  inferInstanceAs (Decidable ((decodeFloat (Number.float x).reread).toOption = some x))

theorem readsBack_iff {x : Float} : ReadsBack x ↔ decodeFloat (Number.float x).reread = .ok x := by
  rw [ReadsBack]
  cases decodeFloat (Number.float x).reread <;> simp [Except.toOption]

theorem reread_integer : ∀ n < UInt64.size, Number.reread (.integer n) = nat n :=
  fun _ hn => numeral_nat hn

end Json

open Json

/-! The four groups of settings. -/

namespace LayoutConfig

def measures : List (String × (LayoutConfig Float → Float)) :=
  [("margin_x", marginX), ("margin_y", marginY), ("default_node_width", defaultNodeWidth),
    ("default_node_height", defaultNodeHeight), ("min_content_width", minContentWidth),
    ("min_content_height", minContentHeight), ("node_sep", nodeSep), ("rank_sep", rankSep)]

def Finite (c : LayoutConfig Float) : Prop := ∀ m ∈ measures, (m.2 c).isFinite

instance (c : LayoutConfig Float) : Decidable c.Finite :=
  inferInstanceAs (Decidable (∀ m ∈ measures, (m.2 c).isFinite))

def keeping (keep : String → Bool) (c : LayoutConfig Float) : LayoutConfig Float where
  marginX := if keep "margin_x" then c.marginX else default.marginX
  marginY := if keep "margin_y" then c.marginY else default.marginY
  defaultNodeWidth := if keep "default_node_width" then c.defaultNodeWidth
    else default.defaultNodeWidth
  defaultNodeHeight := if keep "default_node_height" then c.defaultNodeHeight
    else default.defaultNodeHeight
  minContentWidth := if keep "min_content_width" then c.minContentWidth
    else default.minContentWidth
  minContentHeight := if keep "min_content_height" then c.minContentHeight
    else default.minContentHeight
  nodeSep := if keep "node_sep" then c.nodeSep else default.nodeSep
  rankSep := if keep "rank_sep" then c.rankSep else default.rankSep

theorem encode_eq (c : LayoutConfig Float) :
    c.encode = record (measures.map fun m => (m.1, float (m.2 c))) := rfl

theorem names_form : form.names = measures.map (·.1) := rfl

theorem gets_form : ∀ m ∈ measures, form.Gets m.1 decodeFloat m.2 := by
  simp [measures, Form.Gets, form]

theorem decode_eq_ok_iff {f : Number → Json} {keep : List String → Bool} {place : List String}
    {c d : LayoutConfig Float} :
    form.decode ((c.encode.keeping keep place).mapNumbers f) = .ok d ↔ ∀ m ∈ measures,
      Given m.1 decodeFloat (m.2 default) (partAs f keep place (m.1, float (m.2 c))) (m.2 d) := by
  rw [encode_eq, mapNumbers_keeping_record]
  constructor
  · intro h m hm
    refine given_of_decode (gets_form m hm) ?_ (List.mem_map.mpr ⟨m, hm, rfl⟩) h
    rw [names_form]
    exact List.mem_map.mpr ⟨m, hm, rfl⟩
  · intro h
    simp only [measures, List.forall_mem_cons] at h
    obtain ⟨h₁, h₂, h₃, h₄, h₅, h₆, h₇, h₈, -⟩ := h
    refine decode_record_of_fills (by decide) ?_
    exact .optional h₁ rfl (.optional h₂ rfl (.optional h₃ rfl (.optional h₄ rfl
      (.optional h₅ rfl (.optional h₆ rfl (.optional h₇ rfl (.optional h₈ rfl .done)))))))

theorem measure_keeping (keep : String → Bool) (c : LayoutConfig Float) :
    ∀ m ∈ measures, m.2 (c.keeping keep) = if keep m.1 then m.2 c else m.2 default := by
  simp [measures, keeping]

theorem decode_keeping_iff {f : Number → Json} {keep : List String → Bool} {place : List String}
    {c : LayoutConfig Float} (hc : c.Finite) :
    form.decode ((c.encode.keeping keep place).mapNumbers f) =
        .ok (c.keeping fun name => keep (place ++ [name])) ↔
      ∀ m ∈ measures, keep (place ++ [m.1]) → decodeFloat (f (.float (m.2 c))) = .ok (m.2 c) := by
  rw [decode_eq_ok_iff]
  refine forall₂_congr fun m hm => ?_
  have hnumber : ((float (m.2 c)).keeping keep (place ++ [m.1])).mapNumbers f =
      f (.float (m.2 c)) := by
    rw [float, if_pos (hc m hm), Json.keeping, mapNumbers]
  rw [given_partAs_iff, hnumber, measure_keeping _ _ m hm]
  by_cases hkeep : keep (place ++ [m.1]) <;> simp [hkeep]

end LayoutConfig

namespace WorkspaceSettings

def keeping (keep : String → Bool) (w : WorkspaceSettings) : WorkspaceSettings where
  baseUrl := if keep "base_url" then w.baseUrl else default.baseUrl

theorem decode_keeping (f : Number → Json) (keep : List String → Bool) (place : List String)
    (w : WorkspaceSettings) : form.decode ((w.encode.keeping keep place).mapNumbers f) =
      .ok (w.keeping fun name => keep (place ++ [name])) := by
  rw [encode, mapNumbers_keeping_record]
  refine decode_record_of_fills (by decide) ?_
  exact .optional (given_partAs rfl) rfl .done

end WorkspaceSettings

namespace NotificationSettings

def keeping (keep : String → Bool) (n : NotificationSettings) : NotificationSettings where
  autoHideMs := if keep "auto_hide_ms" then n.autoHideMs else default.autoHideMs

theorem decodeUInt64_nat (n : UInt64) : decodeUInt64 (nat n.toNat) = .ok n := by
  simp [nat, decodeUInt64]

theorem decode_keeping {f : Number → Json} (hf : ∀ n < UInt64.size, f (.integer n) = nat n)
    (keep : List String → Bool) (place : List String) (n : NotificationSettings) :
    form.decode ((n.encode.keeping keep place).mapNumbers f) =
      .ok (n.keeping fun name => keep (place ++ [name])) := by
  rw [encode, mapNumbers_keeping_record]
  refine decode_record_of_fills (by decide) ?_
  refine .optional (given_partAs ?_) rfl .done
  rw [nat, Json.keeping, mapNumbers, hf _ n.autoHideMs.toNat_lt, decodeUInt64_nat]

end NotificationSettings

theorem Tool.decode_encode (t : Tool) : Tool.form.decode t.encode = .ok t := by
  refine decode_record_of_fills (by decide) ?_
  exact .field rfl (.field rfl .done)

namespace Settings
variable {f : Number → Json} {keep : List String → Bool} {s t : Settings}

theorem decode_tools (f : Number → Json) (keep : List String → Bool) (place : List String)
    (tools : List Tool) :
    decodeList Tool.form.decode (((list (tools.map Tool.encode)).keeping keep place).mapNumbers f) =
      .ok tools := by
  rw [list, Json.keeping, ← list, mapNumbers_list, List.map_map]
  refine decodeList_list ?_
  rw [List.forall₂_map_left_iff]
  exact List.forall₂_same.mpr fun t _ => t.decode_encode

def keeping (keep : List String → Bool) (s : Settings) : Settings where
  workspace :=
    if keep ["workspace"] then s.workspace.keeping fun name => keep ["workspace", name]
    else .default
  notifications :=
    if keep ["notifications"] then s.notifications.keeping fun name => keep ["notifications", name]
    else .default
  layout :=
    if keep ["layout"] then s.layout.keeping fun name => keep ["layout", name]
    else .default
  tools := if keep ["tools"] then s.tools else defaultTools

theorem gets_form :
    form.Gets "workspace" WorkspaceSettings.form.decode workspace ∧
      form.Gets "notifications" NotificationSettings.form.decode notifications ∧
      form.Gets "layout" LayoutConfig.form.decode layout ∧
      form.Gets "tools" (decodeList Tool.form.decode) tools := by
  simp [Form.Gets, form]

theorem decode_eq_ok_iff : form.decode ((s.encode.keeping keep []).mapNumbers f) = .ok t ↔
    Given "workspace" WorkspaceSettings.form.decode .default
        (partAs f keep [] ("workspace", s.workspace.encode)) t.workspace ∧
      Given "notifications" NotificationSettings.form.decode .default
        (partAs f keep [] ("notifications", s.notifications.encode)) t.notifications ∧
      Given "layout" LayoutConfig.form.decode .default
        (partAs f keep [] ("layout", s.layout.encode)) t.layout ∧
      Given "tools" (decodeList Tool.form.decode) defaultTools
        (partAs f keep [] ("tools", list (s.tools.map Tool.encode))) t.tools := by
  rw [encode, mapNumbers_keeping_record]
  constructor
  · intro h
    obtain ⟨hworkspace, hnotifications, hlayout, htools⟩ := gets_form
    exact ⟨given_of_decode hworkspace (by decide) (by simp) h,
      given_of_decode hnotifications (by decide) (by simp) h,
      given_of_decode hlayout (by decide) (by simp) h,
      given_of_decode htools (by decide) (by simp) h⟩
  · rintro ⟨hworkspace, hnotifications, hlayout, htools⟩
    refine decode_record_of_fills (by decide) ?_
    exact .optional hworkspace rfl (.optional hnotifications rfl (.optional hlayout rfl
      (.optional htools rfl .done)))

theorem decode_keeping_iff (hf : ∀ n < UInt64.size, f (.integer n) = nat n)
    (hs : s.layout.Finite) :
    form.decode ((s.encode.keeping keep []).mapNumbers f) = .ok (s.keeping keep) ↔
      ∀ m ∈ LayoutConfig.measures, keep ["layout"] → keep ["layout", m.1] →
        decodeFloat (f (.float (m.2 s.layout))) = .ok (m.2 s.layout) := by
  have hworkspace := s.workspace.decode_keeping f keep ["workspace"]
  have hnotifications := s.notifications.decode_keeping hf keep ["notifications"]
  have hlayout : LayoutConfig.form.decode ((s.layout.encode.keeping keep ["layout"]).mapNumbers f) =
      .ok (s.layout.keeping fun name => keep ["layout", name]) ↔ _ :=
    LayoutConfig.decode_keeping_iff hs
  have htools := decode_tools f keep ["tools"] s.tools
  rw [decode_eq_ok_iff, given_partAs_iff_of_ok hworkspace, given_partAs_iff_of_ok hnotifications,
    given_partAs_iff, given_partAs_iff_of_ok htools]
  by_cases hkeep : keep ["layout"]
  · simpa [keeping, hkeep] using hlayout
  · simp [keeping, hkeep]

theorem whole_encode (s : Settings) : Whole s.encode := by
  have hmember : ∀ {ms : Members}, (ms.Forall fun m => Whole m.2) → Whole (record ms) :=
    fun h => .record (List.forall_iff_forall_mem.mp h)
  refine hmember ⟨hmember (.string _), hmember (.number _), ?_, .list ?_⟩
  · rw [LayoutConfig.encode_eq]
    refine .record fun m hm => ?_
    obtain ⟨m, -, rfl⟩ := List.mem_map.mp hm
    exact .float _
  · intro v hv
    obtain ⟨t, -, rfl⟩ := List.mem_map.mp hv
    exact hmember ⟨.string _, .string _⟩

theorem isText_keeping (s : Settings) (keep : List String → Bool) :
    IsText (s.encode.keeping keep []) (s.encode.keeping keep []).compact ∧
      IsText (s.encode.keeping keep []) (s.encode.keeping keep []).pretty :=
  (s.whole_encode.keeping keep []).isText

theorem ofText_eq_of_isText {v : Json} {text : String} (h : IsText v text) :
    ofText text = form.decode v.reread := by
  rw [ofText, h.read, Document.decode]
  cases form.decode v.reread <;> rfl

theorem ofText_eq_ok_iff (hs : s.layout.Finite) {text : String}
    (htext : IsText (s.encode.keeping keep []) text) :
    ofText text = .ok (s.keeping keep) ↔ ∀ m ∈ LayoutConfig.measures, keep ["layout"] →
      keep ["layout", m.1] → ReadsBack (m.2 s.layout) := by
  rw [ofText_eq_of_isText htext, reread, decode_keeping_iff reread_integer hs]
  simp only [readsBack_iff]

theorem run_load_eq_ok_iff {machine : Machine} {disk : Disk} {sent : List Workspace.Request}
    {path text : String} (h : disk.readText path = .ok text) :
    ((load path).run machine disk sent).value = .ok t ↔ ofText text = .ok t := by
  rw [load, Script.run, h]
  change (ofText text).mapError SettingsError.parse = .ok t ↔ _
  cases ofText text <;> simp [Except.mapError]

theorem decode_keeping (s : Settings) (keep : List String → Bool) (hs : s.layout.Finite) :
    form.decode (s.encode.keeping keep []) = .ok (s.keeping keep) := by
  rw [← (s.whole_encode.keeping keep []).mapNumbers_number,
    decode_keeping_iff (fun _ _ => rfl) hs]
  exact fun _ _ _ _ => rfl

/-- Settings of which any fields are left out get the defaults for those and keep all others. Read
from a file they do so exactly if each number given for the layout is read back from its own text,
which is not so for all numbers. -/
theorem partial_file_is_completed (s : Settings) (keep : List String → Bool) (path text : String)
    (machine : Machine) (disk : Disk) (sent : List Workspace.Request) (hs : s.layout.Finite)
    (hdisk : disk.readText path = .ok text) (htext : IsText (s.encode.keeping keep []) text) :
    form.decode (s.encode.keeping keep []) = .ok (s.keeping keep) ∧
      (((load path).run machine disk sent).value = .ok (s.keeping keep) ↔
        ∀ m ∈ LayoutConfig.measures, keep ["layout"] → keep ["layout", m.1] →
          ReadsBack (m.2 s.layout)) ∧
      s.encode.keeping (fun _ => true) [] = s.encode ∧ s.keeping (fun _ => true) = s ∧
      s.encode.keeping (fun _ => false) [] = record [] ∧
      s.keeping (fun _ => false) = default := by
  refine ⟨s.decode_keeping keep hs, ?_, s.whole_encode.keeping_true [], rfl, rfl, rfl⟩
  rw [run_load_eq_ok_iff hdisk, ofText_eq_ok_iff hs htext]

theorem readText_of_root_file {text : String} (h : Text.ofUtf8? (Text.toUtf8 text) = some text) :
    (Disk.mk [(["s"], .file (Text.toUtf8 text))] []).readText "/s" = .ok text := by
  generalize Text.toUtf8 text = bytes at h ⊢
  have hread : (Disk.mk [(["s"], .file bytes)] []).read "/s" = .ok bytes := rfl
  rw [Disk.readText, hread]
  simp [h, bind, Except.bind]

def loneMachine : Machine := ⟨fun _ => .late, .ok (), fun _ => true⟩

theorem partial_file_is_completed_uneven :
    let s : Settings := ⟨⟨"http://\"a\"\n"⟩, ⟨18446744073709551615⟩,
      { LayoutConfig.default with marginX := 80.5, nodeSep := 1e300 }, [⟨"t", "/x"⟩]⟩
    let keep : List String → Bool := fun place => place ∈ [["workspace"],
      ["workspace", "base_url"], ["notifications"], ["layout"], ["layout", "node_sep"]]
    let text := (s.encode.keeping keep []).pretty
    let disk := Disk.mk [(["s"], .file (Text.toUtf8 text))] []
    s.layout.Finite ∧ disk.readText "/s" = .ok text ∧ IsText (s.encode.keeping keep []) text ∧
      ((load "/s").run loneMachine disk []).value = .ok ⟨⟨"http://\"a\"\n"⟩, .default,
        { LayoutConfig.default with nodeSep := 1e300 }, defaultTools⟩ := by
  intro s keep text disk
  have hs : s.layout.Finite := by decide +kernel
  have hdisk : disk.readText "/s" = .ok text := readText_of_root_file (by decide +kernel)
  have htext := (s.isText_keeping keep).2
  obtain ⟨-, hload, -⟩ := partial_file_is_completed s keep "/s" text loneMachine disk [] hs
    hdisk htext
  have hback : ∀ m ∈ LayoutConfig.measures, keep ["layout"] → keep ["layout", m.1] →
      ReadsBack (m.2 s.layout) := by
    decide +kernel
  exact ⟨hs, hdisk, htext, hload.mpr hback⟩

/-- A margin with more digits than are read. -/
theorem partial_file_is_not_completed :
    let s : Settings :=
      { default with layout := { LayoutConfig.default with marginX := 51.248178375505404 } }
    let keep : List String → Bool := fun place => place ∈ [["layout"], ["layout", "margin_x"]]
    let text := "\x7b\"layout\":\x7b\"margin_x\":51.248178375505404\x7d\x7d"
    let disk := Disk.mk [(["s"], .file (Text.toUtf8 text))] []
    s.layout.Finite ∧ disk.readText "/s" = .ok text ∧ IsText (s.encode.keeping keep []) text ∧
      ∃ t, ((load "/s").run loneMachine disk []).value = .ok t ∧
        t.layout.marginX = 51.24817837550541 ∧ t ≠ s.keeping keep := by
  intro s keep text disk
  have hs : s.layout.Finite := by decide +kernel
  have hdisk : disk.readText "/s" = .ok text := readText_of_root_file (by decide +kernel)
  have htext : IsText (s.encode.keeping keep []) text := by
    have hcompact : (s.encode.keeping keep []).compact = text := by decide +kernel
    exact hcompact ▸ (s.isText_keeping keep).1
  have hmargin : (ofText text).toOption.map (·.layout.marginX) = some 51.24817837550541 := by
    decide +kernel
  refine ⟨hs, hdisk, htext, ?_⟩
  cases hload : ofText text with
  | error e => simp [hload, Except.toOption] at hmargin
  | ok t =>
    rw [hload] at hmargin
    have ht : t.layout.marginX = 51.24817837550541 := Option.some.inj hmargin
    refine ⟨t, (run_load_eq_ok_iff hdisk).mpr hload, ht, ?_⟩
    rintro rfl
    exact absurd ht (by decide +kernel)

end Settings

end FlowStudio
