import FlowStudio.Text.Utf8
import Mathlib.Data.List.Basic
import Mathlib.Data.String.Basic

/-! The order of texts by their characters is the order of their bytes. -/

namespace FlowStudio.Text

theorem toList_loop_eq (bs : ByteArray) (i : Nat) (read : List UInt8) :
    ByteArray.toList.loop bs i read = read.reverse ++ bs.data.toList.drop i := by
  fun_induction ByteArray.toList.loop bs i read with
  | case1 i read h ih =>
    have hi : i < bs.data.toList.length := by simpa using h
    rw [ih, List.drop_eq_getElem_cons hi]
    simp [ByteArray.get!, h]
  | case2 i read h =>
    rw [List.drop_eq_nil_of_le (by simpa using Nat.le_of_not_lt h), List.append_nil]

theorem toUtf8_eq (s : String) : toUtf8 s = s.toList.flatMap String.utf8EncodeChar := by
  have hdata : toUtf8 s = s.toByteArray.data.toList := by
    simp [toUtf8, ByteArray.toList, toList_loop_eq]
  rw [hdata, ← List.toList_data_toByteArray (l := s.toList.flatMap _)]
  conv_lhs => rw [← String.ofList_toList (s := s)]
  rfl

theorem ofNat_cons_lt {m n : Nat} (hm : m < 256) (hn : n < 256) {u v : List UInt8} :
    UInt8.ofNat m :: u < UInt8.ofNat n :: v ↔ m < n ∨ m = n ∧ u < v := by
  have hm' : (UInt8.ofNat m).toNat = m := by simpa using hm
  have hn' : (UInt8.ofNat n).toNat = n := by simpa using hn
  rw [List.cons_lt_cons_iff, UInt8.lt_iff_toNat_lt, ← UInt8.toNat_inj, hm', hn']

theorem lt_iff_digits (m n : Nat) :
    m < n ↔ m / 64 < n / 64 ∨ m / 64 = n / 64 ∧ m % 64 < n % 64 := by
  omega

theorem encodeChar_append_lt {c d : Char} (h : c < d) (u v : List UInt8) :
    String.utf8EncodeChar c ++ u < String.utf8EncodeChar d ++ v := by
  have hlt : c.val.toNat < d.val.toNat := h
  have hd : d.val.toNat < 0x110000 := by
    rcases d.valid with hv | hv <;> omega
  have h₁ := lt_iff_digits c.val.toNat d.val.toNat
  have h₂ := lt_iff_digits (c.val.toNat / 64) (d.val.toNat / 64)
  have h₃ := lt_iff_digits (c.val.toNat / 4096) (d.val.toNat / 4096)
  simp only [Nat.div_div_eq_div_mul, Nat.reduceMul] at h₂ h₃
  have hcode : ∀ {n}, n < 0x110000 → n / 262144 % 8 = n / 262144 := fun h =>
    Nat.mod_eq_of_lt (by omega)
  have hc₄ := hcode (hlt.trans hd)
  have hd₄ := hcode hd
  simp only [String.utf8EncodeChar]
  -- a longer form has the larger first byte; in forms of one length the digits decide in turn
  split_ifs <;> simp only [List.cons_append, List.nil_append] <;>
    repeat rw [ofNat_cons_lt (by omega) (by omega)]
  all_goals omega

theorem flatMap_encodeChar_lt {cs ds : List Char} (h : cs < ds) :
    cs.flatMap String.utf8EncodeChar < ds.flatMap String.utf8EncodeChar := by
  induction cs generalizing ds with
  | nil =>
    obtain ⟨d, ds, rfl⟩ := List.exists_cons_of_ne_nil (l := ds) (by rintro rfl; simp at h)
    obtain ⟨b, bs, hb⟩ := List.exists_cons_of_ne_nil (String.utf8EncodeChar_ne_nil (c := d))
    simp [hb]
  | cons c cs ih =>
    cases ds with
    | nil => simp at h
    | cons d ds =>
      rw [List.flatMap_cons, List.flatMap_cons]
      rcases List.cons_lt_cons_iff.mp h with hlt | ⟨rfl, hlt⟩
      · exact encodeChar_append_lt hlt _ _
      · exact List.append_left_lt (ih hlt)

theorem toUtf8_lt_iff {s t : String} : toUtf8 s < toUtf8 t ↔ s < t := by
  have hmono : ∀ {s t : String}, s < t → toUtf8 s < toUtf8 t := by
    intro s t h
    rw [toUtf8_eq, toUtf8_eq]
    exact flatMap_encodeChar_lt (String.lt_iff_toList_lt.mp h)
  refine ⟨fun h => ?_, hmono⟩
  rcases lt_trichotomy s t with hst | rfl | hts
  · exact hst
  · exact absurd h (List.lt_irrefl _)
  · exact absurd (hmono hts) (List.lt_asymm h)

end FlowStudio.Text
