import FlowStudio.Proofs.Workspace.Fetch

/-! Identifiers that have the same address. Slashes in front of an identifier do not count for its
address, but they do for the keys below it. -/

namespace FlowStudio.Workspace
open FlowStudio.Path

theorem segments_trimLeft (s : String) : segments (trimLeft s) = segments s := by
  have htrim : ∀ cs, segments (String.ofList (trimSlashes cs)) = segments (String.ofList cs) := by
    intro cs
    induction cs with
    | nil => rfl
    | cons c cs ih =>
      rw [trimSlashes, List.dropWhile_cons]
      split
      · next hc =>
        rw [beq_iff_eq.mp hc, segments_cons_slash]
        exact ih
      · rfl
  rw [trimLeft, htrim, String.ofList_toList]

theorem segments_ne_nil_of_trimLeft {s : String} (h : trimLeft s ≠ "") : segments s ≠ [] := by
  rw [← segments_trimLeft]
  rw [trimLeft] at h ⊢
  cases htrim : trimSlashes s.toList with
  | nil => exact absurd (by rw [htrim]) h
  | cons c cs =>
    have hc : c ≠ '/' := by
      have hhead := List.head?_dropWhile_not (· == '/') s.toList
      rw [trimSlashes] at htrim
      rw [htrim] at hhead
      simpa using hhead
    obtain ⟨p, ps, hp⟩ := List.exists_cons_of_ne_nil (pieces_ne_nil cs)
    simp [segments, pieces, hc, hp]

/-- A key either keeps its spelling or loses the identifier, and the segments of that with it. -/
theorem keyRest_cases (id key : String) : keyRest id key = key ∨
    id.toList <+: key.toList ∧ segments key = segments id ++ segments (keyRest id key) := by
  rw [keyRest]
  split
  · next h =>
    have hkey := List.isPrefixOf?_eq_some_iff_append_eq.mp h
    rw [List.append_nil] at hkey
    refine .inr ⟨hkey ▸ List.prefix_refl _, ?_⟩
    rw [String.toList_inj.mp hkey]
    exact (List.append_nil _).symm
  · next rest h =>
    have hkey := List.isPrefixOf?_eq_some_iff_append_eq.mp h
    refine .inr ⟨⟨_, hkey⟩, ?_⟩
    rw [segments_cons_slash, ← String.ofList_toList (s := key), ← hkey, segments_append,
      String.ofList_toList]
  · exact .inl rfl

theorem url_eq (base tail : String) : url base tail = trimRight base ++ "/workspace" ++
    if trimLeft tail = "" then "" else "/" ++ trimLeft tail := by
  rw [url]
  by_cases htail : trimLeft tail = ""
  · simp [htail]
  · rw [if_neg (by simpa using htail), if_neg htail, String.append_assoc, String.append_assoc]
    rfl

theorem url_eq_iff (base i j : String) : url base i = url base j ↔ trimLeft i = trimLeft j := by
  rw [url_eq, url_eq, String.append_right_inj]
  by_cases hi : trimLeft i = "" <;> by_cases hj : trimLeft j = "" <;>
    simp [hi, hj, @eq_comm _ ""]

theorem eq_of_isPrefix {i j : String} (htrim : trimLeft i = trimLeft j) (hne : trimLeft i ≠ "")
    (h : i.toList <+: j.toList) : i = j := by
  obtain ⟨rest, hrest⟩ := h
  have hi : trimSlashes i.toList ≠ [] := fun hnil => hne (by rw [trimLeft, hnil])
  have hsame : trimSlashes i.toList = trimSlashes i.toList ++ rest := by
    have hlist : trimSlashes i.toList = trimSlashes j.toList := by
      simpa [trimLeft] using congrArg String.toList htrim
    conv_lhs => rw [hlist, ← hrest]
    rw [trimSlashes, List.dropWhile_append, if_neg (by simpa [trimSlashes] using hi)]
    rfl
  have hnil : rest = [] := by simpa using hsame
  rw [hnil, List.append_nil] at hrest
  exact String.toList_inj.mp hrest

def pathAt (id key : String) : String := join (segments (keyRest id key))

theorem pathAt_eq_iff {i j key : String} :
    pathAt i key = pathAt j key ↔ segments (keyRest i key) = segments (keyRest j key) :=
  ⟨join_injective (fun _ => isSegment_of_mem_segments) (fun _ => isSegment_of_mem_segments),
    congrArg join⟩

section
variable {i j : String} (htrim : trimLeft i = trimLeft j) (hne : trimLeft i ≠ "") (hij : i ≠ j)
include htrim hne hij

theorem keyRest_eq_or (key : String) : keyRest i key = key ∨ keyRest j key = key := by
  by_contra hboth
  rw [not_or] at hboth
  obtain ⟨hi, -⟩ := (keyRest_cases i key).resolve_left hboth.1
  obtain ⟨hj, -⟩ := (keyRest_cases j key).resolve_left hboth.2
  rcases Nat.le_total i.toList.length j.toList.length with hle | hle
  · exact hij (eq_of_isPrefix htrim hne (List.prefix_of_prefix_length_le hi hj hle))
  · exact hij (eq_of_isPrefix htrim.symm (htrim ▸ hne)
      (List.prefix_of_prefix_length_le hj hi hle)).symm

theorem pathAt_eq_pathAt_iff (key : String) :
    pathAt i key = pathAt j key ↔ keyRest i key = key ∧ keyRest j key = key := by
  have hlonger : ∀ id, trimLeft id ≠ "" → keyRest id key ≠ key →
      segments (keyRest id key) ≠ segments key := by
    intro id hid hrest heq
    obtain ⟨-, hsegs⟩ := (keyRest_cases id key).resolve_left hrest
    rw [heq] at hsegs
    exact segments_ne_nil_of_trimLeft hid (by simpa using hsegs)
  rw [pathAt_eq_iff]
  constructor
  · intro hsegs
    rcases keyRest_eq_or htrim hne hij key with hi | hj
    · refine ⟨hi, by_contra fun hj => hlonger j (htrim ▸ hne) hj ?_⟩
      rw [← hsegs, hi]
    · refine ⟨by_contra fun hi => hlonger i hne hi ?_, hj⟩
      rw [hsegs, hj]
  · rintro ⟨hi, hj⟩
    rw [hi, hj]

end

def path? (id key : String) : Option String := (keyPath id key).toOption

def StepFree (id : String) : Prop := ∀ seg ∈ segments id, seg ≠ "." ∧ seg ≠ ".."

theorem keyPath_of_stepFree (id : String) {key : String} (hkey : StepFree key) :
    keyPath id key = .ok (pathAt id key) := by
  refine normalize_of_no_steps fun seg hseg => ?_
  rcases keyRest_cases id key with hrest | ⟨-, hsegs⟩
  · exact hkey seg (hrest ▸ hseg)
  · exact hkey seg (hsegs ▸ List.mem_append_right _ hseg)

theorem exists_keyPath_of_not_stepFree {id key : String} (hid : StepFree id)
    (hkey : ¬StepFree key) : ∃ e, keyPath id key = .error e := by
  cases hpath : keyPath id key with
  | error e => exact ⟨e, rfl⟩
  | ok name =>
    have hrest := (normalize_eq_ok_iff.mp hpath).1
    refine absurd (fun seg hseg => ?_) hkey
    rcases keyRest_cases id key with hsame | ⟨-, hsegs⟩
    · exact (hrest seg (hsame.symm ▸ hseg)).2
    · rw [hsegs] at hseg
      exact (List.mem_append.mp hseg).elim (hid seg) fun hseg => (hrest seg hseg).2

theorem fetch_congr (base : String) {i j : String} {keys : List String}
    (h : ∀ key ∈ keys, path? i key = path? j key) (found : List Leaf) :
    fetch base i found keys = fetch base j found keys := by
  induction keys generalizing found with
  | nil => rfl
  | cons key keys ih =>
    obtain ⟨hkey, hkeys⟩ := List.forall_mem_cons.mp h
    rw [path?, path?] at hkey
    cases hi : keyPath i key with
    | error e =>
      cases hj : keyPath j key with
      | error e' => rw [fetch_of_no_path hi, fetch_of_no_path hj, ih hkeys]
      | ok name => simp [hi, hj, Except.toOption] at hkey
    | ok name =>
      cases hj : keyPath j key with
      | error e => simp [hi, hj, Except.toOption] at hkey
      | ok name' =>
        obtain rfl : name = name' := by simpa [hi, hj, Except.toOption] using hkey
        simp only [fetch, hi, hj, ih hkeys]

def Reply.response? : Reply → Option Response
  | .response r => some r
  | .failed _ | .late => none

/-- The keys that a server lists for an identifier, none if it does not answer with a listing. -/
def listed (base id : String) (server : Server) : List String :=
  ((server [.get (url base id)]).response?.bind fun r => r.keys.toOption).getD []

theorem fetchListed_congr {base i j : String} {r : Response}
    (h : ∀ key ∈ r.keys.toOption.getD [], path? i key = path? j key) :
    fetchListed base i r = fetchListed base j r := by
  rw [fetchListed, fetchListed]
  cases hkeys : r.keys with
  | error e => rfl
  | ok keys =>
    rw [hkeys] at h
    cases keys with
    | nil => rfl
    | cons key keys => exact fetch_congr base h []

section
variable (base : String) (server : Server)

theorem run_load_congr {i j : String} (hurl : url base i = url base j)
    (h : ∀ key ∈ listed base i server, path? i key = path? j key) :
    (load base i).run server [] = (load base j).run server [] := by
  rw [load, load, ← hurl, run_askFor, run_askFor]
  rw [listed] at h
  cases hreply : server [.get (url base i)] with
  | late => rfl
  | failed error => rfl
  | response r =>
    rw [hreply, Reply.response?, Option.bind_some] at h
    rw [afterReply, afterReply, fetchListed_congr h]

def leafAt (id : String) (file : String × String) : Leaf := ⟨pathAt id file.1, file.2⟩

/-- An answer with keys, with the files of one spelling in place of them. -/
def namedBy (id : String) (answer : Answer (List (String × String))) : Answer (List Leaf) :=
  answer.map (Except.map (List.map (leafAt id)))

theorem exists_run_fetch (found : List (String × String)) (keys : List String)
    (sent : List Request) : ∃ answer sent', ∀ id, StepFree id →
      (fetch base id (found.map (leafAt id)) keys).run server sent = ⟨namedBy id answer, sent'⟩ := by
  induction keys generalizing found sent with
  | nil =>
    refine ⟨some (.ok found.reverse), sent, fun id _ => ?_⟩
    rw [fetch, ← List.map_reverse]
    rfl
  | cons key keys ih =>
    by_cases hkey : StepFree key
    · cases hgot : Fetched.ofReply (server (fileRequest base key :: sent)) with
      | text body =>
        obtain ⟨answer, sent', hrun⟩ := ih ((key, body) :: found) _
        refine ⟨answer, sent', fun id hid => ?_⟩
        rw [run_fetch_cons (keyPath_of_stepFree id hkey), hgot]
        exact hrun id hid
      | missing =>
        obtain ⟨answer, sent', hrun⟩ := ih found _
        refine ⟨answer, sent', fun id hid => ?_⟩
        rw [run_fetch_cons (keyPath_of_stepFree id hkey), hgot]
        exact hrun id hid
      | failed error =>
        refine ⟨error.map .error, fileRequest base key :: sent, fun id _ => ?_⟩
        rw [run_fetch_cons (keyPath_of_stepFree id hkey), hgot]
        cases error <;> rfl
    · obtain ⟨answer, sent', hrun⟩ := ih found sent
      refine ⟨answer, sent', fun id hid => ?_⟩
      obtain ⟨e, he⟩ := exists_keyPath_of_not_stepFree hid hkey
      rw [fetch_of_no_path he, hrun id hid]

theorem exists_run_fetchListed (r : Response) (sent : List Request) : ∃ answer sent', ∀ id,
    StepFree id → (fetchListed base id r).run server sent = ⟨namedBy id answer, sent'⟩ := by
  cases hkeys : r.keys with
  | error e =>
    refine ⟨some (.error e), sent, fun id _ => ?_⟩
    rw [fetchListed, hkeys]
    rfl
  | ok keys =>
    cases keys with
    | nil =>
      refine ⟨some (.error .notFound), sent, fun id _ => ?_⟩
      rw [fetchListed, hkeys]
      rfl
    | cons key keys =>
      obtain ⟨answer, sent', hrun⟩ := exists_run_fetch base server [] (key :: keys) sent
      refine ⟨answer, sent', fun id hid => ?_⟩
      rw [fetchListed, hkeys]
      exact hrun id hid

theorem exists_run_load (address : String) : ∃ answer sent, ∀ id, url base id = address →
    StepFree id → (load base id).run server [] = ⟨namedBy id answer, sent⟩ := by
  cases hreply : server [.get address] with
  | late =>
    refine ⟨none, [.get address], ?_⟩
    rintro id rfl -
    rw [load, run_askFor, hreply]
    rfl
  | failed error =>
    refine ⟨some (.error (.transport error)), [.get address], ?_⟩
    rintro id rfl -
    rw [load, run_askFor, hreply]
    rfl
  | response r =>
    obtain ⟨answer, sent, hrun⟩ := exists_run_fetchListed base server r [.get address]
    refine ⟨answer, sent, ?_⟩
    rintro id rfl hid
    rw [load, run_askFor, hreply]
    exact hrun id hid

end

theorem stepFree_congr {i j : String} (htrim : trimLeft i = trimLeft j) :
    StepFree i ↔ StepFree j := by
  rw [StepFree, ← segments_trimLeft, htrim, segments_trimLeft, StepFree]

theorem path?_of_slashes {id : String} (hid : trimLeft id = "") (key : String) :
    path? id key = (normalize key).toOption := by
  have hnone : segments id = [] := by rw [← segments_trimLeft, hid]; rfl
  have hsegs : segments (keyRest id key) = segments key := by
    rcases keyRest_cases id key with hrest | ⟨-, hrest⟩
    · rw [hrest]
    · rw [hrest, hnone, List.nil_append]
  rw [path?]
  by_cases hkey : StepFree key
  · rw [keyPath_of_stepFree id hkey, normalize_of_no_steps hkey, pathAt, hsegs]
  · have hid' : StepFree id := by simp [StepFree, hnone]
    obtain ⟨e, he⟩ := exists_keyPath_of_not_stepFree hid' hkey
    cases hnorm : normalize key with
    | error e' => rw [he]; rfl
    | ok name =>
      exact absurd (fun seg hseg => ((normalize_eq_ok_iff.mp hnorm).1 seg hseg).2) hkey

/-- Loads for two identifiers with one address go the same way if every listed key names one path,
as it does where an identifier has nothing but slashes. Identifiers without steps get the same
answers to the same requests in any case; only the names of the files may differ, and they do for
each key that has one of the two identifiers in front. -/
theorem same_address_differs_in_names (base i j : String) (server : Server)
    (hurl : url base i = url base j) :
    let run := fun id => (load base id).run server []
    ((∀ key ∈ listed base i server, path? i key = path? j key) → run i = run j) ∧
      (trimLeft i = "" → run i = run j) ∧
      (StepFree i → ∃ answer sent, run i = ⟨namedBy i answer, sent⟩ ∧
        run j = ⟨namedBy j answer, sent⟩) ∧
      (i ≠ j → trimLeft i ≠ "" → ∀ key,
        leafAt i key = leafAt j key ↔ keyRest i key.1 = key.1 ∧ keyRest j key.1 = key.1) := by
  intro run
  have htrim := (url_eq_iff base i j).mp hurl
  refine ⟨run_load_congr base server hurl, fun hi => ?_, fun hstep => ?_, ?_⟩
  · refine run_load_congr base server hurl fun key _ => ?_
    rw [path?_of_slashes hi, path?_of_slashes (htrim ▸ hi)]
  · obtain ⟨answer, sent, hrun⟩ := exists_run_load base server (url base i)
    exact ⟨answer, sent, hrun i rfl hstep, hrun j hurl.symm ((stepFree_congr htrim).mp hstep)⟩
  · intro hij hne key
    rw [← pathAt_eq_pathAt_iff htrim hne hij, leafAt, leafAt, Leaf.mk.injEq, and_iff_left rfl]

def oneFile : Server
  | .get "http://h/workspace/abc" :: _ =>
    .response ⟨200, some (Text.toUtf8 "[\"abc/lib/a.def\"]"), ""⟩
  | .get "http://h/workspace/abc/lib/a.def" :: _ => .response ⟨200, some (Text.toUtf8 "unit a;"), ""⟩
  | _ => .response ⟨404, some [], ""⟩

theorem same_address_differs_in_names_leading_slash :
    let base := "http://h"
    let run := fun id => (load base id).run oneFile []
    url base "/abc" = url base "abc" ∧
      (run "/abc").result = some (.ok [⟨"/abc/lib/a.def", "unit a;"⟩]) ∧
      (run "abc").result = some (.ok [⟨"/lib/a.def", "unit a;"⟩]) ∧
      (run "/abc").sent = (run "abc").sent ∧
      ∀ body, leafAt "/abc" ("abc/lib/a.def", body) ≠ leafAt "abc" ("abc/lib/a.def", body) := by
  intro base run
  have hurl : url base "/abc" = url base "abc" := by decide +kernel
  have hstep : StepFree "/abc" := by rw [StepFree]; decide +kernel
  obtain ⟨-, -, hsame, hnames⟩ := same_address_differs_in_names base "/abc" "abc" oneFile hurl
  obtain ⟨answer, sent, hslash, hplain⟩ := hsame hstep
  refine ⟨hurl, by decide +kernel, by decide +kernel, ?_, fun body hleaf => ?_⟩
  · have hi : (run "/abc").sent = sent := congrArg Exchange.End.sent hslash
    have hj : (run "abc").sent = sent := congrArg Exchange.End.sent hplain
    exact hi.trans hj.symm
  · have hrest : keyRest "abc" "abc/lib/a.def" = "abc/lib/a.def" :=
      ((hnames (by decide) (by decide +kernel) _).mp hleaf).2
    exact absurd hrest (by decide +kernel)

end FlowStudio.Workspace
