import FlowStudio.Proofs.FileTree.Links

/-! How an entry is taken out of an arena with all below it. The arena changes under way, but what
stands below one member of a directory does not stand below another. -/

namespace FlowStudio

theorem Entry.nodup_ids {e : Entry}
    (h : ∀ {n m id}, e.find? n = some id → e.find? m = some id → n = m) : e.ids.Nodup := by
  cases hn : e.names with
  | none => simp [ids, hn]
  | some names =>
    have hfind : ∀ {p}, p ∈ names.toList → e.find? p.1 = some p.2 := by
      intro p hp
      rw [find?, hn, Option.bind_some]
      exact Std.TreeMap.mem_toList_iff_getElem?_eq_some.mp hp
    simp only [ids, hn, List.Nodup, List.pairwise_map]
    refine Std.TreeMap.distinct_keys_toList.imp_of_mem fun ha hb hab hid => hab ?_
    rw [Std.LawfulEqOrd.compare_eq_iff_eq]
    exact h (hfind ha) (hid ▸ hfind hb)

namespace FileTree
variable {t : FileTree}

def Prunes (t : FileTree) (fuel : Nat) : Prop := ∀ (arena : Arena Entry) (id : Nat),
  t.arena.next ≤ fuel + id → (∀ x, t.Below id x → arena.get? x = t.arena.get? x) → ∀ x,
    (t.Below id x → (prune fuel arena id).get? x = none) ∧
      (¬t.Below id x → (prune fuel arena id).get? x = arena.get? x)

theorem Prunes.foldl {fuel : Nat} (h : t.Prunes fuel) (hb : t.Branching) {dir : Nat}
    (ids : List Nat) (hids : ∀ c ∈ ids, t.IsChild dir c) (hnodup : ids.Nodup)
    (hfuel : t.arena.next ≤ fuel + (dir + 1)) (arena : Arena Entry)
    (hsame : ∀ c ∈ ids, ∀ x, t.Below c x → arena.get? x = t.arena.get? x) (x : Nat) :
    ((∃ c ∈ ids, t.Below c x) → (ids.foldl (prune fuel) arena).get? x = none) ∧
      ((¬∃ c ∈ ids, t.Below c x) → (ids.foldl (prune fuel) arena).get? x = arena.get? x) := by
  induction ids generalizing arena with
  | nil => simp
  | cons c ids ih =>
    obtain ⟨hc, hids⟩ := List.forall_mem_cons.mp hids
    obtain ⟨hnotin, hnodup⟩ := List.nodup_cons.mp hnodup
    obtain ⟨hsamec, hsame⟩ := List.forall_mem_cons.mp hsame
    obtain ⟨n, hn⟩ := hc
    have hlt := hb.lt_of_child? hn
    have hfirst := h arena c (by omega) hsamec
    have hrest : ∀ c' ∈ ids, ∀ y, t.Below c' y → (prune fuel arena c).get? y = t.arena.get? y := by
      intro c' hc' y hy
      -- the arena still has what hangs from the later members
      have hapart : ¬t.Below c y := by
        intro hcy
        exact hnotin (hb.eq_of_below ⟨n, hn⟩ (hids c' hc') hcy hy ▸ hc')
      rw [(hfirst y).2 hapart, hsame c' hc' y hy]
    have ih := ih hids hnodup (prune fuel arena c) hrest
    rw [List.foldl_cons]
    constructor
    · rintro ⟨c', hc', hx⟩
      by_cases hlater : ∃ d ∈ ids, t.Below d x
      · exact ih.1 hlater
      · rcases List.mem_cons.mp hc' with rfl | hc'
        · rw [ih.2 hlater, (hfirst x).1 hx]
        · exact absurd ⟨c', hc', hx⟩ hlater
    · intro hnone
      have hlater : ¬∃ d ∈ ids, t.Below d x := fun ⟨d, hd, hx⟩ =>
        hnone ⟨d, List.mem_cons_of_mem _ hd, hx⟩
      rw [ih.2 hlater, (hfirst x).2 fun hx => hnone ⟨c, List.mem_cons_self, hx⟩]

theorem isChild_iff_mem_ids {id : Nat} {e : Entry} (he : t.arena.get? id = some e) (c : Nat) :
    t.IsChild id c ↔ c ∈ e.ids := by
  rw [Entry.mem_ids_iff, IsChild]
  simp only [child?_of_get? he]

theorem below_iff {id x : Nat} {e : Entry} (he : t.arena.get? id = some e) :
    t.Below id x ↔ x = id ∨ ∃ c ∈ e.ids, t.Below c x := by
  rw [Below, Relation.ReflTransGen.cases_head_iff]
  simp only [isChild_iff_mem_ids he, eq_comm]

theorem eq_of_below_of_not_live {id x : Nat} (h : t.arena.get? id = none) (hx : t.Below id x) :
    x = id := by
  rcases Relation.ReflTransGen.cases_head hx with rfl | ⟨c, ⟨n, hn⟩, -⟩
  · rfl
  · obtain ⟨d, hd, -⟩ := exists_get?_of_child? hn
    simp [h] at hd

theorem Branching.nodup_ids (hb : t.Branching) {id : Nat} {e : Entry}
    (he : t.arena.get? id = some e) : e.ids.Nodup := by
  refine Entry.nodup_ids fun {n m c} hn hm => ?_
  rw [← child?_of_get? he] at hn hm
  exact (hb.child?_injective hn hm).2

theorem Branching.get?_erase (hb : t.Branching) {arena : Arena Entry} {id c x : Nat}
    (hc : t.IsChild id c) (hx : t.Below c x) : (arena.erase id).get? x = arena.get? x := by
  obtain ⟨n, hn⟩ := hc
  have hlt := hb.lt_of_child? hn
  have hle := hb.le_of_below hx
  rw [Arena.get?_erase, if_neg (by omega)]

theorem Branching.prunes (hb : t.Branching) (fuel : Nat) : t.Prunes fuel := by
  induction fuel with
  | zero =>
    intro arena id hfuel hsame x
    -- from the next number on none is in use
    have hdead : t.arena.get? id = none := by
      by_contra h
      obtain ⟨e, he⟩ := Option.ne_none_iff_exists'.mp h
      have := Arena.lt_next he
      omega
    refine ⟨fun hx => ?_, fun _ => rfl⟩
    rw [prune, eq_of_below_of_not_live hdead hx, hsame id .refl, hdead]
  | succ fuel ih =>
    intro arena id hfuel hsame x
    cases he : t.arena.get? id with
    | none =>
      have hstop : prune (fuel + 1) arena id = arena := by rw [prune, hsame id .refl, he]
      rw [hstop]
      refine ⟨fun hx => ?_, fun _ => rfl⟩
      rw [eq_of_below_of_not_live he hx, hsame id .refl, he]
    | some e =>
      have hgo : prune (fuel + 1) arena id = e.ids.foldl (prune fuel) (arena.erase id) := by
        rw [prune, hsame id .refl, he]
      have hids : ∀ c ∈ e.ids, t.IsChild id c := fun c => (isChild_iff_mem_ids he c).mpr
      have hbelow : ∀ c ∈ e.ids, ∀ y, t.Below c y → (arena.erase id).get? y = t.arena.get? y := by
        intro c hc y hy
        rw [hb.get?_erase (hids c hc) hy, hsame y (.head (hids c hc) hy)]
      have hfold := ih.foldl hb e.ids hids (hb.nodup_ids he) (by omega) (arena.erase id) hbelow x
      rw [hgo, below_iff he]
      constructor
      -- erased first, it stays so, whatever goes after it
      · rintro (rfl | hx)
        · by_cases hlater : ∃ c ∈ e.ids, t.Below c x
          · exact hfold.1 hlater
          · rw [hfold.2 hlater, Arena.get?_erase, if_pos rfl]
        · exact hfold.1 hx
      · intro hx
        rw [hfold.2 fun h => hx (.inr h), Arena.get?_erase, if_neg fun h => hx (.inl h)]

end FileTree
end FlowStudio
