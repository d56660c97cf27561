import FlowStudio.Proofs.Path
import FlowStudio.Workspace.Client

/-! The load of a workspace. The keys of its listing are asked for one after the other, up to the
first whose file cannot be had. What comes of the request for each tells which requests are sent and
what the load comes to. -/

namespace FlowStudio.Workspace
open FlowStudio.Path

/-- What comes of the request for a file. It fails without an error if nobody waits for its reply. -/
inductive Fetched where
  | text (body : String)
  | missing
  | failed (error : Option WorkspaceError)
  deriving DecidableEq, Repr

def Fetched.isFailed : Fetched → Bool
  | .failed _ => true
  | _ => false

def Fetched.ofReply : Reply → Fetched
  | .late => .failed none
  | .failed error => .failed (some (.transport error))
  | .response r =>
    if r.status = 404 then .missing
    else if 200 ≤ r.status ∧ r.status < 300 then
      r.body.elim (.failed (some (.decode r.complaint))) fun body => .text (Text.ofUtf8Lenient body)
    else .failed (some (.http r.status))

def fileRequest (base key : String) : Request := .get (url base key)

def sentFor (base : String) (sent : List Request) (keys : List String) : List Request :=
  (keys.map (fileRequest base)).reverse ++ sent

/-- What comes of asking for some keys in turn, if other requests were sent before. -/
def calls (base : String) (server : Server) (sent : List Request) (keys : List String) :
    List (String × Fetched) :=
  keys.mapIdx fun i key => (key, .ofReply (server (sentFor base sent (keys.take (i + 1)))))

def named (id : String) (keys : List String) : List String :=
  keys.filter fun key => (keyPath id key).isOk

def leaf? (id : String) : String × Fetched → Option Leaf
  | (key, .text body) => (keyPath id key).toOption.map (⟨·, body⟩)
  | _ => none

theorem keyPath_eq_error_iff {id key : String} {e : PathError} : keyPath id key = .error e ↔
    (∃ seg ∈ segments (keyRest id key), seg = "." ∨ seg = "..") ∧
      e = .invalidPath (keyRest id key) := normalize_eq_error_iff

section
variable (base : String) (server : Server) (sent : List Request) (key : String)
  (keys : List String)

theorem sentFor_cons :
    sentFor base sent (key :: keys) = sentFor base (fileRequest base key :: sent) keys := by
  rw [sentFor, sentFor, List.map_cons, List.reverse_cons, List.append_assoc]
  rfl

theorem sentFor_concat :
    sentFor base sent (keys ++ [key]) = fileRequest base key :: sentFor base sent keys := by
  rw [sentFor, sentFor, List.map_append, List.reverse_append]
  rfl

theorem calls_cons : calls base server sent (key :: keys) =
    (key, .ofReply (server (fileRequest base key :: sent))) ::
      calls base server (fileRequest base key :: sent) keys := by
  have hnone : ∀ sent, sentFor base sent [] = sent := fun _ => rfl
  simp only [calls, List.mapIdx_cons, List.take_succ_cons, sentFor_cons, List.take_zero, hnone]

theorem calls_append (more : List String) : calls base server sent (keys ++ more) =
    calls base server sent keys ++ calls base server (sentFor base sent keys) more := by
  induction keys generalizing sent with
  | nil => rfl
  | cons key keys ih =>
    rw [List.cons_append, calls_cons, calls_cons, ih, sentFor_cons, List.cons_append]

theorem map_fst_calls : (calls base server sent keys).map Prod.fst = keys := by
  induction keys generalizing sent with
  | nil => rfl
  | cons key keys ih => rw [calls_cons, List.map_cons, ih]

end

theorem named_cons_of_ok {id key name : String} (h : keyPath id key = .ok name) (keys : List String) :
    named id (key :: keys) = key :: named id keys := List.filter_cons_of_pos (by rw [h]; rfl)

theorem mem_named_iff {id key : String} {keys : List String} : key ∈ named id keys ↔
    key ∈ keys ∧ ∀ seg ∈ segments (keyRest id key), seg ≠ "." ∧ seg ≠ ".." := by
  rw [named, List.mem_filter, and_congr_right_iff]
  intro _
  cases hpath : keyPath id key with
  | error e =>
    obtain ⟨⟨seg, hseg, hstep⟩, -⟩ := keyPath_eq_error_iff.mp hpath
    exact ⟨nofun, fun h => by simp [h seg hseg] at hstep⟩
  | ok name => exact ⟨fun _ seg hseg => ((normalize_eq_ok_iff.mp hpath).1 seg hseg).2, fun _ => rfl⟩

theorem exists_split_of_named {id key : String} {keys before after : List String}
    (h : named id keys = before ++ key :: after) :
    ∃ first rest name, keys = first ++ key :: rest ∧ named id first = before ∧
      keyPath id key = .ok name := by
  obtain ⟨first, rest, rfl, hfirst, hrest⟩ := List.filter_eq_append_iff.mp h
  obtain ⟨skipped, rest, rfl, hskipped, hkey, -⟩ := List.filter_eq_cons_iff.mp hrest
  have hnone : named id skipped = [] := List.filter_eq_nil_iff.mpr hskipped
  obtain ⟨name, hname⟩ : ∃ name, keyPath id key = .ok name := by
    cases hpath : keyPath id key with
    | error e => simp [hpath, Except.isOk, Except.toBool] at hkey
    | ok name => exact ⟨name, rfl⟩
  refine ⟨first ++ skipped, rest, name, (List.append_assoc ..).symm, ?_, hname⟩
  rw [named, List.filter_append, hfirst]
  exact (congrArg (before ++ ·) hnone).trans (List.append_nil before)

theorem named_cons_of_error {id key : String} {e : PathError} (h : keyPath id key = .error e)
    (keys : List String) : named id (key :: keys) = named id keys :=
  List.filter_cons_of_neg (by rw [h]; exact Bool.false_ne_true)

section
variable {base id : String} {server : Server} {sent : List Request} {found : List Leaf}
  {key name : String} {keys : List String}

theorem fetch_of_no_path {e : PathError} (h : keyPath id key = .error e) :
    fetch base id found (key :: keys) = fetch base id found keys := by
  rw [fetch, h]

def goOn (base id : String) (found : List Leaf) (keys : List String) (name : String) :
    Fetched → Exchange (Answer (List Leaf))
  | .text body => fetch base id (⟨name, body⟩ :: found) keys
  | .missing => fetch base id found keys
  | .failed error => .done (error.map .error)

theorem goOn_response (r : Response) :
    goOn base id found keys name (.ofReply (.response r)) =
      if r.status = 404 then fetch base id found keys
      else match r.text with
        | .error e => fail e
        | .ok body => fetch base id (⟨name, body⟩ :: found) keys := by
  rw [Fetched.ofReply, Response.text, Response.check]
  by_cases hmissing : r.status = 404
  · rw [if_pos hmissing, if_pos hmissing]
    rfl
  · rw [if_neg hmissing, if_neg hmissing, if_neg hmissing]
    by_cases hsuccess : 200 ≤ r.status ∧ r.status < 300
    · rw [if_pos hsuccess, if_pos hsuccess]
      cases r.body <;> rfl
    · rw [if_neg hsuccess, if_neg hsuccess]
      rfl

theorem run_fetch_cons (h : keyPath id key = .ok name) :
    let sent' := fileRequest base key :: sent
    (fetch base id found (key :: keys)).run server sent =
      (goOn base id found keys name (.ofReply (server sent'))).run server sent' := by
  rw [fetch, h]
  dsimp only
  rw [run_askFor, fileRequest]
  cases server (.get (url base key) :: sent) with
  | late => rfl
  | failed error => rfl
  | response r => exact congrArg (Exchange.run server · _) (goOn_response r).symm

theorem run_fetch_append {first : List String} (rest : List String)
    (h : ∀ c ∈ calls base server sent (named id first), c.2.isFailed = false) :
    (fetch base id found (first ++ rest)).run server sent =
      (fetch base id
        (((calls base server sent (named id first)).filterMap (leaf? id)).reverse ++ found)
        rest).run server (sentFor base sent (named id first)) := by
  induction first generalizing found sent with
  | nil => rfl
  | cons key first ih =>
    rw [List.cons_append]
    cases hpath : keyPath id key with
    | error e =>
      rw [named_cons_of_error hpath] at h ⊢
      rw [fetch_of_no_path hpath, ih h]
    | ok name =>
      rw [named_cons_of_ok hpath, calls_cons] at h ⊢
      obtain ⟨hkey, hfirst⟩ := List.forall_mem_cons.mp h
      rw [run_fetch_cons hpath, sentFor_cons]
      dsimp only at hkey hfirst ⊢
      generalize Fetched.ofReply (server (fileRequest base key :: sent)) = got at hkey ⊢
      cases got with
      | text body =>
        have hleaf : leaf? id (key, .text body) = some ⟨name, body⟩ := by rw [leaf?, hpath]; rfl
        rw [goOn, ih hfirst, List.filterMap_cons_some hleaf, List.reverse_cons, List.append_assoc]
        rfl
      | missing =>
        rw [goOn, ih hfirst, List.filterMap_cons_none rfl]
      | failed error => exact nomatch hkey

theorem run_fetch_of_all (h : ∀ c ∈ calls base server sent (named id keys), c.2.isFailed = false) :
    (fetch base id [] keys).run server sent =
      ⟨some (.ok ((calls base server sent (named id keys)).filterMap (leaf? id))),
        sentFor base sent (named id keys)⟩ := by
  have hrun : (fetch base id [] (keys ++ [])).run server sent = _ := run_fetch_append [] h
  rw [List.append_nil] at hrun
  rw [hrun, fetch, List.append_nil, List.reverse_reverse]
  rfl

theorem run_fetch_of_failed {before after : List (String × Fetched)} {error : Option WorkspaceError}
    (h : calls base server sent (named id keys) = before ++ (key, .failed error) :: after)
    (hbefore : ∀ c ∈ before, c.2.isFailed = false) :
    (fetch base id [] keys).run server sent =
      ⟨error.map .error, sentFor base sent (before.map Prod.fst ++ [key])⟩ := by
  have hnamed : named id keys = before.map Prod.fst ++ key :: after.map Prod.fst := by
    rw [← map_fst_calls base server sent (named id keys), h, List.map_append, List.map_cons]
  obtain ⟨first, rest, name, rfl, hfirst, hname⟩ := exists_split_of_named hnamed
  rw [hnamed, calls_append, calls_cons] at h
  have hlength : (calls base server sent (before.map Prod.fst)).length = before.length := by
    rw [← List.length_map Prod.fst, map_fst_calls, List.length_map]
  obtain ⟨hcalls, hrest⟩ := List.append_inj h hlength
  have hfailed := congrArg Prod.snd (List.cons.inj hrest).1
  have hgoes : ∀ c ∈ calls base server sent (named id first), c.2.isFailed = false := by
    rwa [hfirst, hcalls]
  dsimp only at hfailed
  rw [run_fetch_append _ hgoes, run_fetch_cons hname, hfirst, hfailed, sentFor_concat]
  rfl

theorem run_load {r : Response} (h : server [.get (url base id)] = .response r) :
    (load base id).run server [] = (fetchListed base id r).run server [.get (url base id)] := by
  rw [load, run_askFor, h, afterReply]

end

/-- Whatever comes of the request for the listing, a load without a list of keys ends there. The keys
of one are asked for in its order, each as often as it stands there, except those whose path has a
step; the first request that fails ends the load, and else it comes to the files that were not
missing. The requests stand the latest first. -/
theorem load_fetches_listed_files (base id : String) (server : Server) :
    let listing := Request.get (url base id)
    let e := (load base id).run server []
    (server [listing] = .late → e = ⟨none, [listing]⟩) ∧
    (∀ error, server [listing] = .failed error → e = ⟨some (.error (.transport error)), [listing]⟩) ∧
    ∀ r, server [listing] = .response r →
      (r.status = 404 → e = ⟨some (.error .notFound), [listing]⟩) ∧
      (r.status ≠ 404 → ¬(200 ≤ r.status ∧ r.status < 300) →
        e = ⟨some (.error (.http r.status)), [listing]⟩) ∧
      (200 ≤ r.status → r.status < 300 →
        (r.body.bind keys? = none → e = ⟨some (.error (.decode r.complaint)), [listing]⟩) ∧
        (r.body.bind keys? = some [] → e = ⟨some (.error .notFound), [listing]⟩) ∧
        ∀ keys, r.body.bind keys? = some keys → keys ≠ [] →
          let asked := named id keys
          let calls := calls base server [listing] asked
          (∀ key, key ∈ asked ↔
            key ∈ keys ∧ ∀ seg ∈ segments (keyRest id key), seg ≠ "." ∧ seg ≠ "..") ∧
          ((∀ c ∈ calls, c.2.isFailed = false) →
            e = ⟨some (.ok (calls.filterMap (leaf? id))), sentFor base [listing] asked⟩) ∧
          ∀ before key error after, calls = before ++ (key, .failed error) :: after →
            (∀ c ∈ before, c.2.isFailed = false) →
            e = ⟨error.map .error, sentFor base [listing] (before.map Prod.fst ++ [key])⟩) := by
  intro listing e
  refine ⟨fun hlate => ?_, fun error hfailed => ?_, fun r hreply => ?_⟩
  · show (load base id).run server [] = _
    rw [load, run_askFor, hlate]
    rfl
  · show (load base id).run server [] = _
    rw [load, run_askFor, hfailed]
    rfl
  · have hrun : e = _ := run_load hreply
    rw [hrun, fetchListed, Response.keys, Response.check]
    refine ⟨fun hstatus => ?_, fun hne hfailure => ?_, fun hlow hhigh => ?_⟩
    · rw [if_pos hstatus]
      rfl
    · rw [if_neg hne, if_neg hfailure]
      rfl
    · rw [if_neg (by omega), if_pos ⟨hlow, hhigh⟩]
      refine ⟨fun hkeys => ?_, fun hkeys => ?_, fun keys hkeys hne => ?_⟩
      · rw [hkeys]
        rfl
      · rw [hkeys]
        rfl
      · obtain ⟨key, keys, rfl⟩ := List.exists_cons_of_ne_nil hne
        rw [hkeys]
        refine ⟨fun _ => mem_named_iff, fun hall => run_fetch_of_all hall, ?_⟩
        exact fun before key error after hcalls hbefore => run_fetch_of_failed hcalls hbefore

def breakingOff : Server
  | .get "http://h/workspace/w" :: _ =>
    .response ⟨200, some (Text.toUtf8 "[\"w/../x\",\"w/a\",\"w/b\",\"w/a\",\"w/b\"]"), ""⟩
  | .get "http://h/workspace/w/a" :: sent =>
    .response ⟨200, if sent.length = 1 then some [65] else none, "broken off"⟩
  | _ => .response ⟨404, some [], ""⟩

theorem load_fetches_listed_files_breaking_off :
    let base := "http://h/"
    let listing := Request.get "http://h/workspace/w"
    calls base breakingOff [listing] ["w/a", "w/b", "w/a", "w/b"] =
        [("w/a", .text "A"), ("w/b", .missing), ("w/a", .failed (some (.decode "broken off"))),
          ("w/b", .missing)] ∧
      (load base "w").run breakingOff [] =
        ⟨some (.error (.decode "broken off")), [.get "http://h/workspace/w/a",
          .get "http://h/workspace/w/b", .get "http://h/workspace/w/a", listing]⟩ := by
  intro base listing
  have hcalls : calls base breakingOff [listing] ["w/a", "w/b", "w/a", "w/b"] =
      [("w/a", .text "A"), ("w/b", .missing), ("w/a", .failed (some (.decode "broken off"))),
        ("w/b", .missing)] := by decide +kernel
  have hurl : url base "w" = "http://h/workspace/w" := by decide +kernel
  have hkeys : keys? (Text.toUtf8 "[\"w/../x\",\"w/a\",\"w/b\",\"w/a\",\"w/b\"]") =
      some ["w/../x", "w/a", "w/b", "w/a", "w/b"] := by decide +kernel
  have hnamed : named "w" ["w/../x", "w/a", "w/b", "w/a", "w/b"] = ["w/a", "w/b", "w/a", "w/b"] := by
    decide +kernel
  have hfetch := load_fetches_listed_files base "w" breakingOff
  rw [hurl] at hfetch
  obtain ⟨-, -, hreply⟩ := hfetch
  obtain ⟨-, -, hsuccess⟩ := hreply _ rfl
  obtain ⟨-, -, hlisted⟩ := hsuccess (by decide) (by decide)
  obtain ⟨-, -, hstop⟩ := hlisted _ hkeys (by decide)
  rw [hnamed] at hstop
  have hend := hstop [("w/a", .text "A"), ("w/b", .missing)] "w/a" _ [("w/b", .missing)] hcalls
    (by decide)
  have hsent : sentFor base [listing] ["w/a", "w/b", "w/a"] =
      [.get "http://h/workspace/w/a", .get "http://h/workspace/w/b",
        .get "http://h/workspace/w/a", listing] := by
    decide +kernel
  exact ⟨hcalls, hend.trans (congrArg _ hsent)⟩

end FlowStudio.Workspace
