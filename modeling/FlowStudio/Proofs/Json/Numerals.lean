import FlowStudio.Json.Reader
import FlowStudio.Json.Writer
import Mathlib.Tactic.IntervalCases

/-! Numbers as they are written, and how such a literal is read wherever it stands in a text. -/

namespace FlowStudio.Json

def EndsNumber (rest : List Char) : Prop :=
  ∀ c ∈ rest.head?, c.isDigit = false ∧ c ≠ '.' ∧ c ≠ 'e' ∧ c ≠ 'E'

theorem endsNumber_nil : EndsNumber [] := by simp [EndsNumber]

structure Digits (ds : List Char) : Prop where
  ne_nil : ds ≠ []
  isDigit : ∀ c ∈ ds, c.isDigit

theorem digits_toDigits (n : Nat) : Digits (Nat.toDigits 10 n) :=
  ⟨Nat.toDigits_ne_nil, fun _ hc => Nat.isDigit_of_mem_toDigits (by decide) (by decide) hc⟩

theorem digits_zero : Digits ['0'] := digits_toDigits 0

theorem natOf_toDigits (n : Nat) : natOf (Nat.toDigits 10 n) = n := Nat.ofDigitChars_ten_toDigits

theorem digits_append {ds rest : List Char} (h : Digits ds)
    (hrest : ∀ c ∈ rest.head?, c.isDigit = false) : digits (ds ++ rest) = .ok (ds, rest) := by
  have htake : rest.takeWhile Char.isDigit = [] := by
    cases rest with
    | nil => rfl
    | cons c cs => simp [hrest c rfl]
  have hdrop : rest.dropWhile Char.isDigit = rest := by
    cases rest with
    | nil => rfl
    | cons c cs => simp [hrest c rfl]
  obtain ⟨d, ds', rfl⟩ := List.exists_cons_of_ne_nil h.ne_nil
  rw [digits, List.takeWhile_append_of_pos h.isDigit, List.dropWhile_append_of_pos h.isDigit, htake,
    hdrop, List.append_nil]

namespace Literal

def fractionText (l : Literal) : List Char := if l.fraction = [] then [] else '.' :: l.fraction

def exponentText (l : Literal) : List Char :=
  match l.exponent with
  | none => []
  | some e => 'e' :: (if e < 0 then '-' else '+') :: Nat.toDigits 10 e.natAbs

def text (l : Literal) : List Char :=
  (if l.negative then ['-'] else []) ++ (l.whole ++ (l.fractionText ++ l.exponentText))

structure Proper (l : Literal) : Prop where
  whole : Digits l.whole
  no_zeros : l.whole.head? = some '0' → l.whole.length = 1
  fraction : ∀ c ∈ l.fraction, c.isDigit
  plain : l.plain = (l.fraction.isEmpty && l.exponent.isNone)

end Literal

section
variable {l : Literal} {rest : List Char}

theorem exponent_append (l : Literal) (hrest : EndsNumber rest) :
    exponent (l.exponentText ++ rest) = .ok (l.exponent, rest) := by
  rw [Literal.exponentText]
  cases l.exponent with
  | none =>
    cases rest with
    | nil => rfl
    | cons c cs =>
      obtain ⟨-, -, he, hE⟩ := hrest c rfl
      simp [exponent, he, hE]
  | some e =>
    have hdigits := digits_append (digits_toDigits e.natAbs) fun c hc => (hrest c hc).1
    by_cases he : e < 0
    · simp [exponent, he, hdigits, natOf_toDigits, bind, Except.bind, abs_of_neg he]
    · simp [exponent, he, hdigits, natOf_toDigits, bind, Except.bind, abs_of_nonneg (not_lt.mp he)]

theorem head?_exponentText (l : Literal) (hrest : EndsNumber rest) :
    ∀ c ∈ (l.exponentText ++ rest).head?, c.isDigit = false ∧ c ≠ '.' := by
  rw [Literal.exponentText]
  cases l.exponent with
  | none => exact fun c hc => ⟨(hrest c hc).1, (hrest c hc).2.1⟩
  | some e =>
    rintro c hc
    obtain rfl := Option.some.inj hc
    decide

theorem fraction_append (hfraction : ∀ c ∈ l.fraction, c.isDigit)
    (hrest : ∀ c ∈ rest.head?, c.isDigit = false ∧ c ≠ '.') :
    fraction (l.fractionText ++ rest) = .ok (l.fraction, rest) := by
  rw [Literal.fractionText]
  split
  · next hnil =>
    rw [List.nil_append, hnil]
    cases rest with
    | nil => rfl
    | cons c cs =>
      unfold fraction
      split
      · next hdot => exact absurd (List.cons.inj hdot).1 (hrest c rfl).2
      · rfl
  · next hne => exact digits_append ⟨hne, hfraction⟩ fun c hc => (hrest c hc).1

theorem head?_fractionText (l : Literal) (hrest : ∀ c ∈ rest.head?, c.isDigit = false) :
    ∀ c ∈ (l.fractionText ++ rest).head?, c.isDigit = false := by
  rw [Literal.fractionText]
  split
  · exact hrest
  · rintro c hc
    obtain rfl := Option.some.inj hc
    decide

theorem literal_append (h : l.Proper) (hrest : EndsNumber rest) :
    literal (l.text ++ rest) = .ok (l, rest) := by
  have hexponent := head?_exponentText l hrest
  have hfraction := fraction_append h.fraction hexponent
  have hwhole := digits_append h.whole (head?_fractionText l fun c hc => (hexponent c hc).1)
  obtain ⟨d, ds, hds⟩ := List.exists_cons_of_ne_nil h.whole.ne_nil
  have hd : d ≠ '-' := by
    rintro rfl
    exact absurd (h.whole.isDigit '-' (hds ▸ List.mem_cons_self)) (by decide)
  have hzeros : ¬(l.whole.head? = some '0' ∧ 1 < l.whole.length) := by
    rintro ⟨hhead, hlength⟩
    exact absurd (h.no_zeros hhead) (Nat.ne_of_gt hlength)
  unfold literal
  cases hnegative : l.negative with
  | true =>
    simp only [Literal.text, hnegative, if_true, List.append_assoc, List.cons_append,
      List.nil_append]
    simp only [hwhole, hfraction, exponent_append l hrest, bind, Except.bind, if_neg hzeros]
    rw [← hnegative, ← h.plain]
  | false =>
    simp only [Literal.text, hnegative, Bool.false_eq_true, if_false, List.append_assoc,
      List.nil_append]
    split
    · next hcs =>
      rw [hds] at hcs
      exact absurd (List.cons.inj hcs).1 hd
    · simp only [hwhole, hfraction, exponent_append l hrest, bind, Except.bind, if_neg hzeros]
      rw [← hnegative, ← h.plain]

end
/-! The literals of the numbers that are written. -/

theorem head?_toDigits_ne {n : Nat} (h : n ≠ 0) : (Nat.toDigits 10 n).head? ≠ some '0' := by
  induction n using Nat.strongRecOn with
  | ind n ih =>
    by_cases hn : n < 10
    · rw [Nat.toDigits_of_lt_base hn]
      interval_cases n <;> simp_all
    · have hdiv : n / 10 ≠ 0 := by omega
      have hhead := ih (n / 10) (by omega) hdiv
      rw [Nat.toDigits_of_base_le (by decide) (Nat.le_of_not_lt hn), List.head?_append]
      obtain ⟨d, ds, hds⟩ := List.exists_cons_of_ne_nil (digits_toDigits (n / 10)).ne_nil
      rw [hds] at hhead ⊢
      exact hhead

theorem isDigit_of_mem_zeros {n : Nat} : ∀ c ∈ Decimal.zeros n, c.isDigit := by
  intro c hc
  rw [List.eq_of_mem_replicate hc]
  decide

def IsMagnitude (cs : List Char) : Prop := ∃ l : Literal, l.Proper ∧ l.negative = false ∧ l.text = cs

def Literal.ofNat (n : Nat) : Literal := ⟨false, Nat.toDigits 10 n, [], none, true⟩

theorem Literal.text_ofNat (n : Nat) : (ofNat n).text = Nat.toDigits 10 n := by
  simp [text, fractionText, exponentText, ofNat]

theorem Literal.proper_ofNat (n : Nat) : (ofNat n).Proper := by
  refine ⟨digits_toDigits n, fun hhead => ?_, by simp [ofNat], rfl⟩
  by_cases hn : n = 0
  · rw [hn]
    rfl
  · exact absurd hhead (head?_toDigits_ne hn)

theorem isMagnitude_toDigits (n : Nat) : IsMagnitude (Nat.toDigits 10 n) :=
  ⟨.ofNat n, Literal.proper_ofNat n, rfl, Literal.text_ofNat n⟩

theorem isMagnitude_point {whole fraction : List Char} (hwhole : Digits whole)
    (hzeros : whole.head? = some '0' → whole.length = 1) (hfraction : Digits fraction) :
    IsMagnitude (whole ++ '.' :: fraction) := by
  refine ⟨⟨false, whole, fraction, none, false⟩, ⟨hwhole, hzeros, hfraction.isDigit, ?_⟩, rfl, ?_⟩
  · simp [hfraction.ne_nil]
  · simp [Literal.text, Literal.fractionText, Literal.exponentText, hfraction.ne_nil]

theorem isMagnitude_plain {s : Decimal.Shortest} (h : s.digits ≠ 0) :
    IsMagnitude (Decimal.plain s) := by
  have hds := digits_toDigits s.digits
  have hhead := head?_toDigits_ne h
  revert hds hhead
  rw [Decimal.plain]
  generalize Nat.toDigits 10 s.digits = ds
  intro hds hhead
  split
  · refine isMagnitude_point ⟨?_, ?_⟩ (fun hzero => ?_) digits_zero
    · simp [hds.ne_nil]
    · exact fun c hc => (List.mem_append.mp hc).elim (hds.isDigit c) (isDigit_of_mem_zeros c)
    · obtain ⟨d, ds, rfl⟩ := List.exists_cons_of_ne_nil hds.ne_nil
      exact absurd hzero hhead
  · next hexponent =>
    dsimp only
    split
    · next hplaces =>
      have htake : 0 < ds.length - (-s.exponent).toNat := by omega
      refine isMagnitude_point ⟨?_, ?_⟩ (fun hzero => ?_) ⟨?_, ?_⟩
      · simp [hds.ne_nil]
        omega
      · exact fun c hc => hds.isDigit c (List.mem_of_mem_take hc)
      · rw [List.head?_take, if_neg (Nat.ne_of_gt htake)] at hzero
        exact absurd hzero hhead
      · rw [Ne, List.drop_eq_nil_iff]
        omega
      · exact fun c hc => hds.isDigit c (List.mem_of_mem_drop hc)
    · refine isMagnitude_point digits_zero (fun _ => rfl) ⟨?_, ?_⟩
      · simp [hds.ne_nil]
      · exact fun c hc => (List.mem_append.mp hc).elim (isDigit_of_mem_zeros c) (hds.isDigit c)

theorem isMagnitude_scientific {s : Decimal.Shortest} (h : s.digits ≠ 0) :
    IsMagnitude (Decimal.scientific s) := by
  have hds := digits_toDigits s.digits
  have hhead := head?_toDigits_ne h
  revert hds hhead
  rw [Decimal.scientific]
  generalize Nat.toDigits 10 s.digits = ds
  intro hds hhead
  obtain ⟨d, ds, rfl⟩ := List.exists_cons_of_ne_nil hds.ne_nil
  refine ⟨⟨false, [d], ds, some s.magnitude, false⟩, ⟨⟨by simp, ?_⟩, fun _ => rfl, ?_, ?_⟩, rfl, ?_⟩
  · simpa using hds.isDigit d List.mem_cons_self
  · exact fun c hc => hds.isDigit c (List.mem_cons_of_mem d hc)
  · simp
  · cases ds <;> simp [Literal.text, Literal.fractionText, Literal.exponentText]

theorem isMagnitude_format (f : Decimal.Format) (s : Decimal.Shortest) :
    IsMagnitude (f.magnitude s) := by
  rw [Decimal.Format.magnitude]
  split
  · exact isMagnitude_point digits_zero (fun _ => rfl) digits_zero
  · next h =>
    split
    · exact isMagnitude_plain h
    · exact isMagnitude_scientific h

theorem IsMagnitude.negative {cs : List Char} (h : IsMagnitude cs) :
    ∃ l : Literal, l.Proper ∧ l.text = '-' :: cs := by
  obtain ⟨l, hl, hnegative, rfl⟩ := h
  refine ⟨{ l with negative := true }, ⟨hl.whole, hl.no_zeros, hl.fraction, hl.plain⟩, ?_⟩
  simp [Literal.text, hnegative, Literal.fractionText, Literal.exponentText]

theorem exists_literal (n : Number) : ∃ l : Literal, l.Proper ∧ l.text = n.text.toList := by
  cases n with
  | integer n =>
    rw [Number.text, Int.toString_eq_repr, Int.repr_eq_if]
    split
    · obtain ⟨l, hl, -, htext⟩ := isMagnitude_toDigits n.toNat
      exact ⟨l, hl, htext.trans Nat.toList_repr.symm⟩
    · rw [String.toList_append, Nat.toList_repr]
      exact (isMagnitude_toDigits (-n).toNat).negative
  | float x =>
    rw [Number.text, Decimal.Format.text, String.toList_ofList]
    split
    · obtain ⟨l, hl, -, htext⟩ := isMagnitude_format .design (Decimal.shortest x)
      exact ⟨l, hl, htext⟩
    · exact (isMagnitude_format .design (Decimal.shortest x)).negative

/-- A number is read the same wherever it stands, provided that it ends there. -/
theorem numeral_append (n : Number) {rest : List Char} (hrest : EndsNumber rest) :
    numeral (n.text.toList ++ rest) = ⟨(numeral n.text.toList).value, .ok rest⟩ := by
  obtain ⟨l, hl, htext⟩ := exists_literal n
  have halone := literal_append hl endsNumber_nil
  rw [List.append_nil] at halone
  rw [← htext, numeral, literal_append hl hrest, numeral, halone]

theorem exists_cons_text (n : Number) :
    ∃ c cs, n.text.toList = c :: cs ∧ (c = '-' ∨ c.isDigit) := by
  obtain ⟨l, hl, htext⟩ := exists_literal n
  obtain ⟨d, ds, hds⟩ := List.exists_cons_of_ne_nil hl.whole.ne_nil
  rw [← htext, Literal.text]
  split
  · exact ⟨'-', _, rfl, .inl rfl⟩
  · rw [hds]
    exact ⟨d, _, rfl, .inr (hl.whole.isDigit d (hds ▸ List.mem_cons_self))⟩

theorem le_foldl_digit (ds : List Char) (n : Nat) :
    n ≤ ds.foldl (fun n d => 10 * n + digit d) n := by
  induction ds generalizing n with
  | nil => exact Nat.le_refl n
  | cons d ds ih => exact (by omega : n ≤ 10 * n + digit d).trans (ih _)

theorem gather_of_lt {n : Nat} {ds : List Char}
    (h : ds.foldl (fun n d => 10 * n + digit d) n < UInt64.size) :
    gather n ds = (ds.foldl (fun n d => 10 * n + digit d) n, []) := by
  induction ds generalizing n with
  | nil => rfl
  | cons d ds ih => rw [gather, if_pos ((le_foldl_digit ds _).trans_lt h), ih h, List.foldl_cons]

theorem numeral_nat {n : Nat} (h : n < UInt64.size) :
    (numeral (Number.integer n).text.toList).value = nat n := by
  have htext : (Number.integer n).text.toList = (Literal.ofNat n).text :=
    Nat.toList_repr.trans (Literal.text_ofNat n).symm
  have hliteral := literal_append (Literal.proper_ofNat n) endsNumber_nil
  rw [List.append_nil] at hliteral
  have hgather : gather 0 (Nat.toDigits 10 n) = (n, []) := by
    have hvalue := natOf_toDigits n
    rw [natOf] at hvalue
    rw [gather_of_lt (by rwa [hvalue]), hvalue]
  rw [htext, numeral, hliteral]
  simp [Literal.value, Literal.ofNat, hgather, nat]

end FlowStudio.Json
