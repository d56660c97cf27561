import FlowStudio.Proofs.Json.Written

/-! Objects of which some members are left out, and the records that are decoded from them. -/

namespace FlowStudio.Json

mutual

def keeping (keep : List String → Bool) (place : List String) : Json → Json
  | .null => .null
  | .bool b => .bool b
  | .number n => .number n
  | .string s => .string s
  | .array items ending => .array items ending
  | .object members ending => .object (keepingMembers keep place members) ending
  | .cut start fault => .cut start fault

def keepingMembers (keep : List String → Bool) (place : List String) :
    List (Except Fault String × Json) → List (Except Fault String × Json)
  | [] => []
  | (.error fault, v) :: ms => (.error fault, v) :: keepingMembers keep place ms
  | (.ok name, v) :: ms =>
    if keep (place ++ [name]) then
      (.ok name, v.keeping keep (place ++ [name])) :: keepingMembers keep place ms
    else keepingMembers keep place ms

end

def part (keep : List String → Bool) (place : List String) (m : String × Json) : Members :=
  if keep (place ++ [m.1]) then [(m.1, m.2.keeping keep (place ++ [m.1]))] else []

theorem keeping_record (keep : List String → Bool) (place : List String) (ms : Members) :
    (record ms).keeping keep place = record (ms.flatMap (part keep place)) := by
  have hmembers : keepingMembers keep place (ms.map fun m => (.ok m.1, m.2)) =
      (ms.flatMap (part keep place)).map fun m => (.ok m.1, m.2) := by
    induction ms with
    | nil => rfl
    | cons m ms ih =>
      rw [List.map_cons, keepingMembers, ih, List.flatMap_cons, List.map_append, part]
      split <;> rfl
  rw [record, keeping]
  exact congrArg (object · .closed) hmembers

theorem Whole.keeping {v : Json} (h : Whole v) (keep : List String → Bool) (place : List String) :
    Whole (v.keeping keep place) := by
  induction h generalizing place with
  | null => exact .null
  | bool b => exact .bool b
  | number n => exact .number n
  | string s => exact .string s
  | list hvs _ => exact .list hvs
  | @record ms _ ih =>
    rw [keeping_record]
    refine .record fun m hm => ?_
    obtain ⟨m', hm', hpart⟩ := List.mem_flatMap.mp hm
    rw [part] at hpart
    split at hpart
    · rw [List.mem_singleton.mp hpart]
      exact ih m' hm' _
    · cases hpart

theorem Whole.keeping_true {v : Json} (h : Whole v) (place : List String) :
    v.keeping (fun _ => true) place = v := by
  induction h generalizing place with
  | null => rfl
  | bool b => rfl
  | number n => rfl
  | string s => rfl
  | list _ _ => rfl
  | @record ms _ ih =>
    have hpart : ∀ m ∈ ms, part (fun _ => true) place m = [m] := by
      intro m hm
      rw [part, if_pos rfl, ih m hm]
    rw [keeping_record, List.flatMap_congr hpart, List.flatMap_singleton']

theorem Whole.float (x : Float) : Whole (Json.float x) := by
  rw [Json.float]
  split
  · exact .number _
  · exact .null

section
variable {α β : Type} {form : Form α} {name : String} {decode : Decoder β} {get : α → β}
variable {f : Number → Json} {keep : List String → Bool} {place : List String}

def partAs (f : Number → Json) (keep : List String → Bool) (place : List String)
    (m : String × Json) : Members :=
  (part keep place m).map (mapMember f)

theorem partAs_of_keep {v : Json} (h : keep (place ++ [name])) :
    partAs f keep place (name, v) =
      [(name, (v.keeping keep (place ++ [name])).mapNumbers f)] := by
  rw [partAs, part, if_pos h]
  rfl

theorem partAs_of_not_keep {v : Json} (h : ¬keep (place ++ [name])) :
    partAs f keep place (name, v) = [] := by
  rw [partAs, part, if_neg h]
  rfl

theorem mapNumbers_keeping_record (f : Number → Json) (keep : List String → Bool)
    (place : List String) (ms : Members) : ((record ms).keeping keep place).mapNumbers f =
      record (ms.flatMap (partAs f keep place)) := by
  rw [keeping_record, mapNumbers_record, List.map_flatMap]
  rfl

theorem given_partAs_iff {v : Json} {default b : β} :
    Given name decode default (partAs f keep place (name, v)) b ↔
      if keep (place ++ [name]) then
        decode ((v.keeping keep (place ++ [name])).mapNumbers f) = .ok b
      else b = default := by
  split
  · next h =>
    rw [partAs_of_keep h]
    exact ⟨fun hgiven => by cases hgiven; assumption, .here⟩
  · next h =>
    rw [partAs_of_not_keep h]
    constructor
    · rintro ⟨⟩
      rfl
    · rintro rfl
      exact .nowhere

theorem given_partAs_iff_of_ok {v : Json} {default b c : β}
    (h : decode ((v.keeping keep (place ++ [name])).mapNumbers f) = .ok b) :
    Given name decode default (partAs f keep place (name, v)) c ↔
      c = if keep (place ++ [name]) then b else default := by
  rw [given_partAs_iff, h, Except.ok.injEq]
  split
  · exact eq_comm
  · exact Iff.rfl

theorem given_partAs {v : Json} {default b : β}
    (h : decode ((v.keeping keep (place ++ [name])).mapNumbers f) = .ok b) :
    Given name decode default (partAs f keep place (name, v))
      (if keep (place ++ [name]) then b else default) :=
  (given_partAs_iff_of_ok h).mpr rfl

theorem given_of_decode (hgets : form.Gets name decode get) (hknown : name ∈ form.names)
    {ms : Members} {v : Json} (hv : (name, v) ∈ ms) {a : α}
    (h : form.decode (record (ms.flatMap (partAs f keep place))) = .ok a) :
    Given name decode (get form.blank) (partAs f keep place (name, v)) (get a) := by
  have hreads := decode_record_eq_ok_iff.mp h
  by_cases hkeep : keep (place ++ [name])
  · rw [partAs_of_keep hkeep]
    refine .here (hreads.decode_eq hgets hknown (List.mem_flatMap.mpr ⟨(name, v), hv, ?_⟩))
    rw [partAs_of_keep hkeep]
    exact List.mem_singleton_self _
  · rw [partAs_of_not_keep hkeep, hreads.get_eq hgets (.inr ?_)]
    · exact .nowhere
    · rintro hname
      obtain ⟨p, hp, rfl⟩ := List.mem_map.mp hname
      obtain ⟨m, -, hm⟩ := List.mem_flatMap.mp hp
      by_cases hkeep' : keep (place ++ [m.1])
      · rw [partAs_of_keep hkeep', List.mem_singleton] at hm
        rw [hm] at hkeep
        exact hkeep hkeep'
      · rw [partAs_of_not_keep hkeep'] at hm
        cases hm

end

end FlowStudio.Json
