import FlowStudio.Proofs.FileTree.Links

/-! What a tree shows at the segments of a path. An edit is told by what it does to that. -/

namespace FlowStudio

inductive Content where
  | file (body : String)
  | dir
  deriving DecidableEq, Repr

namespace Content

def kind : Content → EntryKind
  | .file _ => .file
  | .dir => .dir

def body? : Content → Option String
  | .file body => some body
  | .dir => none

end Content

def Entry.content (e : Entry) : Content :=
  match e.kind with
  | .file => .file e.body
  | .dir => .dir

theorem Entry.content_eq_dir_iff {e : Entry} : e.content = .dir ↔ e.kind = .dir := by
  rw [content]
  cases e.kind <;> simp

namespace FileTree
variable {t : FileTree}

def content? (t : FileTree) (segs : List String) : Option Content :=
  (t.resolve? segs).bind fun id => (t.arena.get? id).map Entry.content

theorem kind?_eq (t : FileTree) (path : String) :
    t.kind? path = (t.content? (Path.segments path)).map Content.kind := by
  simp only [kind?, entry?, content?, Option.map_bind, Function.comp_def, Option.map_map]
  congr 1
  funext id
  congr 1
  funext e
  rw [Entry.content]
  cases e.kind <;> rfl

theorem read?_eq (t : FileTree) (path : String) :
    t.read? path = (t.content? (Path.segments path)).bind Content.body? := by
  simp only [read?, entry?, content?, bind, Option.bind_assoc, Option.bind_map, Function.comp_def]
  congr 1
  funext id
  congr 1
  funext e
  rw [Entry.content]
  cases e.kind <;> rfl

theorem isFile_iff {path : String} :
    t.isFile path = true ↔ ∃ body, t.content? (Path.segments path) = some (.file body) := by
  rw [isFile, kind?_eq, beq_iff_eq, Option.map_eq_some_iff]
  constructor
  · rintro ⟨c, hc, hkind⟩
    cases c with
    | file body => exact ⟨body, hc⟩
    | dir => simp [Content.kind] at hkind
  · rintro ⟨body, hc⟩
    exact ⟨_, hc, rfl⟩

theorem isDir_iff {path : String} :
    t.isDir path = true ↔ t.content? (Path.segments path) = some .dir := by
  rw [isDir, kind?_eq, beq_iff_eq, Option.map_eq_some_iff]
  constructor
  · rintro ⟨c, hc, hkind⟩
    cases c with
    | file body => simp [Content.kind] at hkind
    | dir => exact hc
  · exact fun hc => ⟨_, hc, rfl⟩

theorem content?_of_resolve? {segs : List String} {id : Nat} {e : Entry}
    (h : t.resolve? segs = some id) (he : t.arena.get? id = some e) :
    t.content? segs = some e.content := by
  rw [content?, h, Option.bind_some, he, Option.map_some]

theorem dir_of_content? {segs : List String} (h : t.content? segs = some .dir) :
    ∃ id e, t.resolve? segs = some id ∧ t.arena.get? id = some e ∧ e.kind = .dir := by
  obtain ⟨id, hid, hcontent⟩ := Option.bind_eq_some_iff.mp h
  obtain ⟨e, he, hdir⟩ := Option.map_eq_some_iff.mp hcontent
  exact ⟨id, e, hid, he, Entry.content_eq_dir_iff.mp hdir⟩

theorem isSome_resolve?_of_content? {segs : List String} {c : Content}
    (h : t.content? segs = some c) : (t.resolve? segs).isSome := by
  obtain ⟨id, hid, -⟩ := Option.bind_eq_some_iff.mp h
  rw [hid, Option.isSome_some]

namespace WellFormed

theorem names_of_content? (hw : t.WellFormed) {segs : List String} {c : Content}
    (h : t.content? segs = some c) : ∀ s ∈ segs, Path.IsName s := by
  obtain ⟨id, hid, -⟩ := Option.bind_eq_some_iff.mp h
  exact (hw.entry_of_resolve? hid).1

theorem content?_eq_none_iff (hw : t.WellFormed) {segs : List String} :
    t.content? segs = none ↔ t.resolve? segs = none := by
  cases h : t.resolve? segs with
  | none => simp [content?, h]
  | some id =>
    obtain ⟨-, e, he, -⟩ := hw.entry_of_resolve? h
    simp [content?_of_resolve? h he]

theorem content?_nil (hw : t.WellFormed) : t.content? [] = some .dir := by
  obtain ⟨e, he, hkind, -⟩ := hw.root_entry
  rw [content?_of_resolve? (resolve?_nil t) he, Entry.content_eq_dir_iff.mpr hkind]

theorem content?_of_isPrefix (hw : t.WellFormed) {segs above : List String}
    (h : (t.resolve? segs).isSome) (hp : above <+: segs) (hne : above ≠ segs) :
    t.content? above = some .dir := by
  obtain ⟨rest, rfl⟩ := hp
  induction rest using List.reverseRecOn with
  | nil => simp at hne
  | append_singleton rest s ih =>
    obtain ⟨id, hid⟩ := Option.isSome_iff_exists.mp h
    rw [← List.append_assoc, resolve?_concat] at hid
    obtain ⟨dir, hdir, hchild⟩ := Option.bind_eq_some_iff.mp hid
    by_cases hrest : rest = []
    · subst hrest
      obtain ⟨d, hd, hkind⟩ := hw.dir_of_child? hchild
      rw [List.append_nil] at hdir
      rw [content?_of_resolve? hdir hd, Entry.content_eq_dir_iff.mpr hkind]
    · exact ih (by simp [hdir]) (by simpa using hrest)

theorem content?_isPrefix_of_dir (hw : t.WellFormed) {segs above : List String}
    (h : t.content? segs = some .dir) (hp : above <+: segs) : t.content? above = some .dir := by
  by_cases hne : above = segs
  · rw [hne, h]
  · obtain ⟨id, -, hid, -⟩ := dir_of_content? h
    exact hw.content?_of_isPrefix (by simp [hid]) hp hne

end WellFormed
end FileTree
end FlowStudio
