import FlowStudio.Proofs.FileTree.History
import FlowStudio.Proofs.FileTree.Leaves
import FlowStudio.Proofs.Lists
import FlowStudio.Proofs.Text.ByteOrder

/-! What the list of all files holds, and in which order, told by paths alone. -/

namespace FlowStudio.FileTree
open FlowStudio.Path FlowStudio.Text
variable {t : FileTree} {a b leaf : Leaf}

theorem read?_eq_some_iff {path body : String} :
    t.read? path = some body ↔ t.content? (segments path) = some (.file body) := by
  rw [read?_eq, Option.bind_eq_some_iff]
  constructor
  · rintro ⟨c, hc, hbody⟩
    cases c with
    | file body' => rw [hc, Option.some.inj hbody]
    | dir => simp [Content.body?] at hbody
  · exact fun hc => ⟨_, hc, rfl⟩

section
variable (hw : t.WellFormed)
include hw

theorem mem_readAll_iff_read? : leaf ∈ t.readAll ↔
    normalize leaf.name = .ok leaf.name ∧ t.read? leaf.name = some leaf.body := by
  rw [mem_readAll_iff hw, read?_eq_some_iff, normalize_eq_ok_iff]
  constructor
  · rintro ⟨segs, hname, hfile⟩
    have hsegs : segments leaf.name = segs := by rw [hname, segments_of_content? hw hfile]
    rw [hsegs]
    exact ⟨⟨hw.names_of_content? hfile, hname⟩, hfile⟩
  · rintro ⟨⟨-, hname⟩, hfile⟩
    exact ⟨segments leaf.name, hname, hfile⟩

theorem nodup_name_readAll : (t.readAll.map Leaf.name).Nodup := by
  refine List.pairwise_map.mpr ((pairwise_readAll hw).imp fun h heq => ?_)
  rw [heq] at h
  exact h.asymm h

theorem idxOf_lt_of_precedes (ha : a ∈ t.readAll) (hb : b ∈ t.readAll)
    (h : Precedes (segments a.name) (segments b.name)) :
    t.readAll.idxOf a < t.readAll.idxOf b := by
  refine idxOf_lt_of_pairwise (pairwise_readAll hw) ha hb ?_ h.asymm
  rintro rfl
  exact h.asymm h

end

theorem precedes_of_parting {above ns ms : List String} {n m : String}
    (h : (ns ≠ [] ∧ ms = []) ∨ ((ns = [] ↔ ms = []) ∧ n < m)) :
    Precedes (above ++ n :: ns) (above ++ m :: ms) := by
  apply Precedes.append_left
  rcases h with ⟨hns, rfl⟩ | ⟨hkind, hlt⟩
  · exact .dirFile hns
  · by_cases hns : ns = []
    · obtain rfl := hkind.mp hns
      rw [hns]
      exact .files hlt
    · exact .dirs hns (fun hms => hns (hkind.mpr hms)) hlt

/-- After any edits the list has one leaf for each canonical path of a file and no other, as many as
are counted. Of two leaves, the one that goes on into a directory where the other names its file
comes first, and else the one with the smaller bytes. -/
theorem listing_is_complete_and_ordered (changes : List Change) :
    (∀ leaf, leaf ∈ (after changes).readAll ↔ normalize leaf.name = .ok leaf.name ∧
      (after changes).read? leaf.name = some leaf.body) ∧
    ((after changes).readAll.map Leaf.name).Nodup ∧
    (after changes).size = (after changes).readAll.length ∧
    ((after changes).isEmpty = true ↔ (after changes).readAll = []) ∧
    ∀ a ∈ (after changes).readAll, ∀ b ∈ (after changes).readAll, ∀ above n ns m ms,
      segments a.name = above ++ n :: ns → segments b.name = above ++ m :: ms → n ≠ m →
      (ns ≠ [] ∧ ms = []) ∨ ((ns = [] ↔ ms = []) ∧ toUtf8 n < toUtf8 m) →
      (after changes).readAll.idxOf a < (after changes).readAll.idxOf b := by
  have hw := wellFormed_after changes
  refine ⟨fun _ => mem_readAll_iff_read? hw, nodup_name_readAll hw, size_eq_length_readAll hw,
    isEmpty_iff hw, fun a ha b hb above n ns m ms hna hmb _ horder => ?_⟩
  rw [toUtf8_lt_iff] at horder
  refine idxOf_lt_of_precedes hw ha hb ?_
  rw [hna, hmb]
  exact precedes_of_parting horder

theorem listing_is_complete_and_ordered_nested :
    let t := after [.file "/b" "x", .file "/c/é" "y", .file "/c/z" "z", .removal "/b",
      .file "/a" "w"]
    t.readAll.idxOf ⟨"/c/z", "z"⟩ < t.readAll.idxOf ⟨"/c/é", "y"⟩ ∧
      t.readAll.idxOf ⟨"/c/é", "y"⟩ < t.readAll.idxOf ⟨"/a", "w"⟩ ∧ t.size = 3 := by
  obtain ⟨-, -, hsize, -, horder⟩ := listing_is_complete_and_ordered
    [.file "/b" "x", .file "/c/é" "y", .file "/c/z" "z", .removal "/b", .file "/a" "w"]
  refine ⟨?_, ?_, hsize.trans (by decide)⟩
  · exact horder _ (by decide) _ (by decide) ["c"] "z" [] "é" [] (by decide) (by decide)
      (by decide) (.inr ⟨Iff.rfl, toUtf8_lt_iff.mpr (by decide)⟩)
  · exact horder _ (by decide) _ (by decide) [] "c" ["é"] "a" [] (by decide) (by decide)
      (by decide) (.inl ⟨by decide, rfl⟩)

end FlowStudio.FileTree
