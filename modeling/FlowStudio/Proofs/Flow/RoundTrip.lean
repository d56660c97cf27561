import FlowStudio.Flow.Wire
import FlowStudio.Proofs.Json.Records
import Mathlib.Data.Option.Basic

/-! A design is read back as it was written, also where its nodes are written in another way: with
members in another order and unknown ones among them, with `null` for a parent or a size that is not
there, or without the position where that is the origin. -/

namespace FlowStudio
open Json

def Point.Finite (p : Point Float) : Prop := p.x.isFinite ∧ p.y.isFinite

def Size.Finite (s : Size Float) : Prop := s.width.isFinite ∧ s.height.isFinite

def Node.Finite (n : Node Float) : Prop := n.position.Finite ∧ ∀ s, n.size = some s → s.Finite

def Design.Finite (d : Design Float) : Prop := ∀ n ∈ d.nodes, n.Finite

def Point.Same (p q : Point Float) : Prop := p.x == q.x ∧ p.y == q.y

def Size.Same (s t : Size Float) : Prop := s.width == t.width ∧ s.height == t.height

structure Node.Same (m n : Node Float) : Prop where
  id : m.id = n.id
  kind : m.kind = n.kind
  parent : m.parent = n.parent
  position : m.position.Same n.position
  size : Option.Rel Size.Same m.size n.size

theorem beq_self_of_isFinite {x : Float} (h : x.isFinite) : x == x := by
  change x.toModel.unpack.isFinite = true at h
  change (x.toModel.unpack.compare x.toModel.unpack == some .eq) = true
  cases hx : x.toModel.unpack with
  | notANumber =>
    rw [hx] at h
    exact absurd h Bool.false_ne_true
  | infinity sign =>
    rw [hx] at h
    exact absurd h Bool.false_ne_true
  | zero sign => rfl
  | finite sign mantissa exponent =>
    have hself : (compare exponent exponent).then (compare mantissa mantissa) = .eq := by simp
    cases sign with
    | positive =>
      change (some ((compare exponent exponent).then (compare mantissa mantissa)) ==
        some .eq) = true
      rw [hself]
      rfl
    | negative =>
      change (some ((compare exponent exponent).then (compare mantissa mantissa)).swap ==
        some .eq) = true
      rw [hself]
      rfl

theorem Point.Finite.same {p : Point Float} (h : p.Finite) : p.Same p :=
  ⟨beq_self_of_isFinite h.1, beq_self_of_isFinite h.2⟩

theorem Size.Finite.same {s : Size Float} (h : s.Finite) : s.Same s :=
  ⟨beq_self_of_isFinite h.1, beq_self_of_isFinite h.2⟩

theorem decodeFloat_float {x : Float} (h : x.isFinite) : decodeFloat (float x) = .ok x := by
  rw [float, if_pos h]
  rfl

theorem NodeKind.decode_name (k : NodeKind) : NodeKind.decode (.string k.name) = .ok k := by
  rw [NodeKind.decode, decodeName, decodeName.named, k.lookup_name]

theorem decodeOption_record {α : Type} {form : Form α} {ms : Members} {a : α}
    (h : form.decode (record ms) = .ok a) :
    decodeOption form.decode (record ms) = .ok (some a) := by
  change (form.decode (record ms)).map some = .ok (some a)
  rw [h]
  rfl

/-! The forms. -/

theorem Point.separate_form : Point.form.Separate := by simp [Form.Separate, Point.form]

theorem Size.separate_form : Size.form.Separate := by simp [Form.Separate, Size.form]

theorem Node.separate_form : Node.form.Separate := by simp [Form.Separate, Node.form]

def Point.members (p : Point Float) : Members := [("x", float p.x), ("y", float p.y)]

def Size.members (s : Size Float) : Members :=
  [("width", float s.width), ("height", float s.height)]

theorem Point.decode_rearranged {p : Point Float} {ms : Members} (hp : p.Finite)
    (hr : Rearranged Point.form.names p.members ms) : Point.form.decode (record ms) = .ok p := by
  refine Json.decode_rearranged Point.separate_form hr ?_
  refine decode_record_of_fills (by decide) ?_
  exact .field (decodeFloat_float hp.1) (.field (decodeFloat_float hp.2) .done)

theorem Size.decode_rearranged {s : Size Float} {ms : Members} (hs : s.Finite)
    (hr : Rearranged Size.form.names s.members ms) : Size.form.decode (record ms) = .ok s := by
  refine Json.decode_rearranged Size.separate_form hr ?_
  refine decode_record_of_fills (by decide) ?_
  exact .field (decodeFloat_float hs.1) (.field (decodeFloat_float hs.2) .done)

theorem Edge.decode_encode (e : Edge) : Edge.form.decode e.encode = .ok e := by
  refine decode_record_of_fills (by decide) ?_
  exact .field rfl (.field rfl (.field rfl .done))

/-! The ways to write a node. -/

inductive SpellsParent : Option String → Members → Prop
  | given (p : String) : SpellsParent (some p) [("parentNode", .string p)]
  | absent : SpellsParent none []
  | null : SpellsParent none [("parentNode", .null)]

inductive SpellsPosition (p : Point Float) : Members → Prop
  | given {ms} : Rearranged ["x", "y"] p.members ms →
      SpellsPosition p [("position", record ms)]
  | omitted : p.Same Point.zero → SpellsPosition p []

inductive SpellsSize : Option (Size Float) → Members → Prop
  | given {s ms} : Rearranged ["width", "height"] s.members ms →
      SpellsSize (some s) [("style", record ms)]
  | absent : SpellsSize none []
  | null : SpellsSize none [("style", .null)]

def Node.members (n : Node Float) (parent position size : Members) : Members :=
  ("id", .string n.id) :: ("type", .string n.kind.name) :: (parent ++ position ++ size)

/-- Members that a node may be written as. -/
inductive Node.Spells (n : Node Float) : Members → Prop
  | intro {parent position size ms : Members} : SpellsParent n.parent parent →
      SpellsPosition n.position position → SpellsSize n.size size →
      Rearranged ["id", "type", "parentNode", "position", "style"]
        (n.members parent position size) ms → Node.Spells n ms

theorem SpellsParent.gives {parent : Option String} {ms : Members} (h : SpellsParent parent ms) :
    Given "parentNode" (decodeOption decodeString) none ms parent := by
  cases h with
  | given p => exact .here rfl
  | absent => exact .nowhere
  | null => exact .here rfl

theorem SpellsSize.gives {size : Option (Size Float)} {ms : Members} (h : SpellsSize size ms)
    (hs : ∀ s, size = some s → s.Finite) :
    Given "style" (decodeOption Size.form.decode) none ms size := by
  cases h with
  | given hr => exact .here (decodeOption_record (Size.decode_rearranged (hs _ rfl) hr))
  | absent => exact .nowhere
  | null => exact .here rfl

theorem Node.decode_members {n : Node Float} {q : Point Float} {parent position size : Members}
    (hparent : Given "parentNode" (decodeOption decodeString) none parent n.parent)
    (hposition : Given "position" Point.form.decode Point.zero position q)
    (hsize : Given "style" (decodeOption Size.form.decode) none size n.size) :
    Node.form.decode (record (n.members parent position size)) = .ok { n with position := q } := by
  have hfills : Fills Node.form.fields (("id", .string n.id) :: ("type", .string n.kind.name) ::
      (parent ++ (position ++ (size ++ [])))) Node.form.blank { n with position := q } :=
    .field rfl (.field n.kind.decode_name (.optional hparent rfl
      (.optional hposition rfl (.optional hsize rfl .done))))
  rw [List.append_nil, ← List.append_assoc] at hfills
  exact decode_record_of_fills (by decide) hfills

theorem SpellsPosition.gives {p : Point Float} {ms : Members} (h : SpellsPosition p ms)
    (hp : p.Finite) : ∃ q, Given "position" Point.form.decode Point.zero ms q ∧
      (q = p ∨ p.Same Point.zero ∧ q = Point.zero) := by
  cases h with
  | given hr => exact ⟨p, .here (Point.decode_rearranged hp hr), .inl rfl⟩
  | omitted hzero => exact ⟨Point.zero, .nowhere, .inr ⟨hzero, rfl⟩⟩

theorem Node.Finite.same {n : Node Float} (hn : n.Finite) {q : Point Float}
    (hq : n.position.Same q) : n.Same { n with position := q } where
  id := rfl
  kind := rfl
  parent := rfl
  position := hq
  size := by
    cases hs : n.size with
    | none => exact .none
    | some s => exact .some (hn.2 s hs).same

/-- However a node is written, what is read is the same, and the node itself unless it stood at an
origin with another sign and was written without its position. -/
theorem Node.decode_spelled {n : Node Float} {ms : Members} (hn : n.Finite) (h : n.Spells ms) :
    ∃ m, Node.form.decode (record ms) = .ok m ∧ n.Same m ∧
      ((n.position.Same Point.zero → n.position = Point.zero) → m = n) := by
  obtain ⟨hparent, hposition, hsize, hr⟩ := h
  obtain ⟨q, hq, hcases⟩ := hposition.gives hn.1
  refine ⟨_, decode_rearranged Node.separate_form hr
    (Node.decode_members hparent.gives hq (hsize.gives hn.2)), ?_⟩
  obtain rfl | ⟨hzero, rfl⟩ := hcases
  · exact ⟨hn.same hn.1.same, fun _ => rfl⟩
  · exact ⟨hn.same hzero, fun h => by rw [← h hzero]⟩

theorem spellsParent_encoded (parent : Option String) :
    SpellsParent parent (parent.map fun p => ("parentNode", Json.string p)).toList := by
  cases parent with
  | none => exact .absent
  | some p => exact .given p

theorem spellsSize_encoded (size : Option (Size Float)) :
    SpellsSize size (size.map fun s => ("style", s.encode)).toList := by
  cases size with
  | none => exact .absent
  | some s => exact .given .same

theorem Node.decode_encode {n : Node Float} (hn : n.Finite) : Node.form.decode n.encode = .ok n :=
  Node.decode_members (spellsParent_encoded n.parent).gives
    (.here (Point.decode_rearranged hn.1 .same)) ((spellsSize_encoded n.size).gives hn.2)

/-! Designs. -/

theorem Design.decode_lists {vs ws : List Json} {nodes : List (Node Float)} {edges : List Edge}
    (hv : List.Forall₂ (fun v n => Node.form.decode v = .ok n) vs nodes)
    (hw : List.Forall₂ (fun w e => Edge.form.decode w = .ok e) ws edges) :
    Design.decode (list [list vs, list ws]) = .ok ⟨nodes, edges⟩ := by
  have hpair : decodePair (decodeList Node.form.decode) (decodeList Edge.form.decode)
      (list [list vs, list ws]) = .ok (nodes, edges) := by
    rw [list, decodePair]
    simp only [decodeList_list hv, decodeList_list hw, finish, bind, Except.bind]
  rw [Design.decode, hpair]
  rfl

theorem decode_encoded_edges (edges : List Edge) :
    List.Forall₂ (fun w e => Edge.form.decode w = .ok e) (edges.map Edge.encode) edges := by
  rw [List.forall₂_map_left_iff]
  exact List.forall₂_same.mpr fun e _ => e.decode_encode

theorem exists_decoded_nodes {nodes : List (Node Float)} {rows : List Members}
    (hfinite : ∀ n ∈ nodes, n.Finite) (h : List.Forall₂ Node.Spells nodes rows) :
    ∃ nodes', List.Forall₂ (fun ms m => Node.form.decode (record ms) = .ok m) rows nodes' ∧
      List.Forall₂ Node.Same nodes nodes' ∧
      ((∀ n ∈ nodes, n.position.Same Point.zero → n.position = Point.zero) → nodes' = nodes) := by
  induction h with
  | nil => exact ⟨[], .nil, .nil, fun _ => rfl⟩
  | cons hrow _ ih =>
    obtain ⟨hn, hfinite⟩ := List.forall_mem_cons.mp hfinite
    obtain ⟨m, hdecode, hsame, heq⟩ := Node.decode_spelled hn hrow
    obtain ⟨nodes', hdecodes, hsames, heqs⟩ := ih hfinite
    refine ⟨m :: nodes', .cons hdecode hdecodes, .cons hsame hsames, fun hzero => ?_⟩
    obtain ⟨hz, hzero⟩ := List.forall_mem_cons.mp hzero
    rw [heq hz, heqs hzero]

/-- A design of finite numbers is read back from its own JSON form. In whatever way its nodes are
written instead, the design read is the same; it can differ only in the sign of a zero, where a
position was left out. -/
theorem design_round_trip (d : Design Float) (hd : d.Finite) :
    Design.decode d.encode = .ok d ∧
    ∀ rows : List Members, List.Forall₂ Node.Spells d.nodes rows →
      ∃ nodes, Design.decode (list [list (rows.map record), list (d.edges.map Edge.encode)]) =
          .ok ⟨nodes, d.edges⟩ ∧
        List.Forall₂ Node.Same d.nodes nodes ∧
        ((∀ n ∈ d.nodes, n.position.Same Point.zero → n.position = Point.zero) →
          nodes = d.nodes) := by
  constructor
  · refine Design.decode_lists ?_ (decode_encoded_edges d.edges)
    rw [List.forall₂_map_left_iff]
    exact List.forall₂_same.mpr fun n hn => Node.decode_encode (hd n hn)
  · intro rows hrows
    obtain ⟨nodes, hdecode, hsame, heq⟩ := exists_decoded_nodes hd hrows
    refine ⟨nodes, Design.decode_lists ?_ (decode_encoded_edges d.edges), hsame, heq⟩
    rwa [List.forall₂_map_left_iff]

theorem design_round_trip_respelt :
    let outer : Node Float := ⟨".0", .unit, none, Point.zero, none⟩
    let inner : Node Float := ⟨".0.v", .var, some ".0", ⟨1.5, 2⟩, some ⟨40, 25.5⟩⟩
    let style := record [("unit", .string "px"), ("height", float 25.5), ("width", float 40)]
    Design.decode (list [list [
        record [("note", .null), ("style", .null), ("parentNode", .null), ("type", .string "Unit"),
          ("id", .string ".0")],
        record [("style", style), ("position", inner.position.encode), ("parentNode", .string ".0"),
          ("type", .string "Var"), ("id", .string ".0.v")]],
      list [(Edge.between ".0" ".0.v").encode]]) =
      .ok ⟨[outer, inner], [Edge.between ".0" ".0.v"]⟩ := by
  intro outer inner style
  have hfinite : Design.Finite ⟨[outer, inner], [Edge.between ".0" ".0.v"]⟩ := by
    refine List.forall_mem_cons.mpr ⟨⟨⟨by decide +kernel, by decide +kernel⟩, by simp [outer]⟩,
      List.forall_mem_singleton.mpr ⟨⟨by decide +kernel, by decide +kernel⟩, ?_⟩⟩
    rintro s ⟨⟩
    exact ⟨by decide +kernel, by decide +kernel⟩
  have houter : outer.Spells [("note", .null), ("style", .null), ("parentNode", .null),
      ("type", .string "Unit"), ("id", .string ".0")] :=
    .intro .null (.omitted ⟨by decide +kernel, by decide +kernel⟩) .null
      (.unknown (.reordered .same (List.reverse_perm _).symm) (by decide))
  have hinner : inner.Spells [("style", style), ("position", inner.position.encode),
      ("parentNode", .string ".0"), ("type", .string "Var"), ("id", .string ".0.v")] :=
    .intro (.given _) (.given .same)
      (.given (.unknown (.reordered .same (List.reverse_perm _).symm) (by decide)))
      (.reordered .same (List.reverse_perm _).symm)
  obtain ⟨-, hrows⟩ := design_round_trip _ hfinite
  obtain ⟨nodes, hdecode, -, heq⟩ := hrows _ (.cons houter (.cons hinner .nil))
  obtain rfl := heq (List.forall_mem_cons.mpr ⟨fun _ => rfl, List.forall_mem_singleton.mpr
    fun h => absurd h.1 (by decide +kernel)⟩)
  exact hdecode

end FlowStudio
