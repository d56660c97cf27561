import FlowStudio.Json.Quote

/-! A text that was put between quotes is read back. -/

namespace FlowStudio.Json

theorem number?_control : ∀ n < 0x20,
    Text.number? 16 ['0', '0', Nat.digitChar (n / 16), Nat.digitChar (n % 16)] = some n := by
  decide

theorem fourHex_control {n : Nat} (h : n < 0x20) (rest : List Char) :
    fourHex ('0' :: '0' :: Nat.digitChar (n / 16) :: Nat.digitChar (n % 16) :: rest) =
      .ok (n, rest) := by
  have hsize : ∀ n < 0x20, ¬(String.ofList
      ['0', '0', Nat.digitChar (n / 16), Nat.digitChar (n % 16)]).utf8ByteSize < 4 := by
    decide
  simp only [fourHex, List.take_succ_cons, List.take_zero, List.drop_succ_cons, List.drop_zero,
    if_neg (hsize n h), number?_control n h]

theorem unicodeEscape_control {c : Char} (h : c.toNat < 0x20) (rest : List Char) :
    unicodeEscape ('0' :: '0' :: Nat.digitChar (c.toNat / 16) :: Nat.digitChar (c.toNat % 16) ::
      rest) = .ok (.ok c, rest) := by
  have htrailing : isTrailing c.toNat = false := by
    rw [isTrailing, decide_eq_false (by omega), Bool.false_and]
  have hleading : isLeading c.toNat = false := by
    rw [isLeading, decide_eq_false (by omega), Bool.false_and]
  simp [unicodeEscape, fourHex_control h, htrailing, hleading, bind, Except.bind]

theorem escape_cases (c : Char) :
    (∃ e, e ≠ 'u' ∧ simpleEscape? e = some c ∧ escape c = ['\\', e]) ∨
      (c.toNat < 0x20 ∧ escape c =
        ['\\', 'u', '0', '0', Nat.digitChar (c.toNat / 16), Nat.digitChar (c.toNat % 16)]) ∨
      (c ≠ '"' ∧ c ≠ '\\' ∧ ¬c.toNat < 0x20 ∧ escape c = [c]) := by
  by_cases hquote : c = '"'
  · exact .inl ⟨'"', by decide, by rw [hquote]; rfl, by rw [hquote]; rfl⟩
  by_cases hbackslash : c = '\\'
  · exact .inl ⟨'\\', by decide, by rw [hbackslash]; rfl, by rw [hbackslash]; rfl⟩
  by_cases hb : c = '\x08'
  · exact .inl ⟨'b', by decide, by rw [hb]; rfl, by rw [hb]; rfl⟩
  by_cases hf : c = '\x0c'
  · exact .inl ⟨'f', by decide, by rw [hf]; rfl, by rw [hf]; rfl⟩
  by_cases hn : c = '\n'
  · exact .inl ⟨'n', by decide, by rw [hn]; rfl, by rw [hn]; rfl⟩
  by_cases hr : c = '\r'
  · exact .inl ⟨'r', by decide, by rw [hr]; rfl, by rw [hr]; rfl⟩
  by_cases ht : c = '\t'
  · exact .inl ⟨'t', by decide, by rw [ht]; rfl, by rw [ht]; rfl⟩
  rw [escape, if_neg hquote, if_neg hbackslash, if_neg hb, if_neg hf, if_neg hn, if_neg hr, if_neg ht]
  by_cases hcontrol : c.toNat < 0x20
  · exact .inr (.inl ⟨hcontrol, if_pos hcontrol⟩)
  · exact .inr (.inr ⟨hquote, hbackslash, hcontrol, if_neg hcontrol⟩)

theorem quoteFrom_escape (c : Char) (fuel : Nat) (text rest : List Char) :
    quoteFrom (fuel + 1) (.ok text) (escape c ++ rest) = quoteFrom fuel (.ok (c :: text)) rest := by
  rcases escape_cases c with ⟨e, hu, he, hescape⟩ | ⟨hcontrol, hescape⟩ |
    ⟨hquote, hbackslash, hcontrol, hescape⟩
  · rw [hescape, List.cons_append, List.singleton_append, quoteFrom.eq_def]
    dsimp only
    split
    · next hnil => cases hnil
    · next hcons => cases hcons
    · next hcons => exact absurd (List.cons.inj (List.cons.inj hcons).2).1 hu
    · next hcons =>
      obtain ⟨rfl, rfl⟩ := List.cons.inj (List.cons.inj hcons).2
      rw [he]
      rfl
    · next hcons => cases hcons
    · next hsimple _ hcons =>
      obtain ⟨rfl, rfl⟩ := List.cons.inj hcons
      exact (hsimple e rest rfl rfl).elim
  · simp only [hescape, List.cons_append, List.nil_append, quoteFrom,
      unicodeEscape_control hcontrol]
    rfl
  · rw [hescape, List.singleton_append, quoteFrom.eq_def]
    dsimp only
    split
    · next hnil => cases hnil
    · next hcons => exact absurd (List.cons.inj hcons).1 hquote
    · next hcons => exact absurd (List.cons.inj hcons).1 hbackslash
    · next hcons => exact absurd (List.cons.inj hcons).1 hbackslash
    · next hcons => exact absurd (List.cons.inj hcons).1 hbackslash
    · next hcons =>
      obtain ⟨rfl, rfl⟩ := List.cons.inj hcons
      rw [if_neg hcontrol]
      rfl

theorem quoteFrom_escaped (cs rest text : List Char) {fuel : Nat} (h : cs.length < fuel) :
    quoteFrom fuel (.ok text) (cs.flatMap escape ++ '"' :: rest) =
      ⟨.ok (String.ofList (text.reverse ++ cs)), .ok rest⟩ := by
  induction cs generalizing fuel text with
  | nil =>
    obtain ⟨fuel, rfl⟩ := Nat.exists_eq_succ_of_ne_zero (Nat.ne_of_gt h)
    rw [List.append_nil]
    rfl
  | cons c cs ih =>
    obtain ⟨fuel, rfl⟩ := Nat.exists_eq_succ_of_ne_zero (Nat.ne_of_gt (Nat.zero_lt_of_lt h))
    rw [List.flatMap_cons, List.append_assoc, quoteFrom_escape, ih _ (Nat.lt_of_succ_lt_succ h),
      List.reverse_cons, List.append_assoc, List.singleton_append]

theorem length_le_length_escaped (cs : List Char) : cs.length ≤ (cs.flatMap escape).length := by
  induction cs with
  | nil => exact Nat.le_refl 0
  | cons c cs ih =>
    have hescape : 1 ≤ (escape c).length := by
      rcases escape_cases c with ⟨e, -, -, hescape⟩ | ⟨-, hescape⟩ | ⟨-, -, -, hescape⟩ <;>
        simp [hescape]
    rw [List.flatMap_cons, List.length_append, List.length_cons]
    omega

theorem quote_quoted (s : String) (rest : List Char) {fuel : Nat}
    (h : s.toList.length < fuel) :
    quote fuel (s.toList.flatMap escape ++ '"' :: rest) = ⟨.ok s, .ok rest⟩ := by
  rw [quote, quoteFrom_escaped s.toList rest [] h, List.reverse_nil, List.nil_append,
    String.ofList_toList]

theorem toList_quoted (s : String) :
    (quoted s).toList = '"' :: (s.toList.flatMap escape ++ ['"']) := by
  rw [quoted, String.toList_ofList, List.cons_append]

theorem length_le_length_quoted (s : String) : s.toList.length + 2 ≤ (quoted s).toList.length := by
  have hlength := length_le_length_escaped s.toList
  simp only [toList_quoted, List.length_cons, List.length_append, List.length_nil]
  omega

end FlowStudio.Json
