import XmlPipeline.Text.Utf8
set_option autoImplicit false

namespace XmlPipeline.Text

theorem toNat_valid (c : Char) : c.toNat < 0xD800 ∨ (0xDFFF < c.toNat ∧ c.toNat < 0x110000) := by
  have h := c.valid
  simp only [UInt32.isValidChar, Nat.isValidChar] at h
  exact h

theorem toNat_ofNat_of_lt {n : Nat} (h : n < 256) : (UInt8.ofNat n).toNat = n := by
  rw [UInt8.toNat_ofNat']
  exact Nat.mod_eq_of_lt h

theorem lead_ofNat {n : Nat} (hn : n < 256) :
    lead (UInt8.ofNat n) =
      if n < 0x80 then ([Char.ofNat n], none)
      else if n < 0xC2 then ([replacement], none)
      else if n < 0xE0 then ([], some ⟨n % 32, 1, 0x80, 0xBF⟩)
      else if n = 0xE0 then ([], some ⟨0, 2, 0xA0, 0xBF⟩)
      else if n = 0xED then ([], some ⟨13, 2, 0x80, 0x9F⟩)
      else if n < 0xF0 then ([], some ⟨n % 16, 2, 0x80, 0xBF⟩)
      else if n = 0xF0 then ([], some ⟨0, 3, 0x90, 0xBF⟩)
      else if n < 0xF4 then ([], some ⟨n % 8, 3, 0x80, 0xBF⟩)
      else if n = 0xF4 then ([], some ⟨4, 3, 0x80, 0x8F⟩)
      else ([replacement], none) := by
  unfold lead
  simp only [UInt8.lt_iff_toNat_lt, ← UInt8.toNat_inj, toNat_ofNat_of_lt hn, UInt8.reduceToNat]

theorem decodeFrom_lead {n : Nat} {cs : List Char} {p : Option Partial}
    (h : lead (UInt8.ofNat n) = (cs, p)) (rest : List UInt8) :
    decodeFrom none (UInt8.ofNat n :: rest) = cs ++ decodeFrom p rest := by
  rw [decodeFrom, h]

def tailByte (n : Nat) : UInt8 := UInt8.ofNat (n % 64 + 128)

theorem toNat_tailByte (n : Nat) : (tailByte n).toNat = n % 64 + 128 :=
  toNat_ofNat_of_lt (by omega)

theorem decodeFrom_tailByte {value owed : Nat} {low high : UInt8} {n : Nat}
    (hlow : low.toNat ≤ n % 64 + 128) (hhigh : n % 64 + 128 ≤ high.toNat) (rest : List UInt8) :
    decodeFrom (some ⟨value, owed, low, high⟩) (tailByte n :: rest) =
      if owed ≤ 1 then Char.ofNat (value * 64 + n % 64) :: decodeFrom none rest
      else decodeFrom (some ⟨value * 64 + n % 64, owed - 1, 0x80, 0xBF⟩) rest := by
  have hrange : low ≤ tailByte n ∧ tailByte n ≤ high := by
    rw [UInt8.le_iff_toNat_le, UInt8.le_iff_toNat_le, toNat_tailByte]
    exact ⟨hlow, hhigh⟩
  have hbits : (n % 64 + 128) % 64 = n % 64 := by omega
  rw [decodeFrom, if_pos hrange, toNat_tailByte, hbits]

theorem decodeFrom_last (n : Nat) (rest : List UInt8) :
    decodeFrom (some ⟨n / 64, 1, 0x80, 0xBF⟩) (tailByte n :: rest) =
      Char.ofNat n :: decodeFrom none rest := by
  have hn : n / 64 * 64 + n % 64 = n := Nat.div_add_mod' n 64
  rw [decodeFrom_tailByte (by simp) (by simp; omega), if_pos (Nat.le_refl 1), hn]

theorem decodeFrom_middle {n owed : Nat} {low high : UInt8} (howed : 1 < owed)
    (hlow : low.toNat ≤ n % 64 + 128) (hhigh : n % 64 + 128 ≤ high.toNat) (rest : List UInt8) :
    decodeFrom (some ⟨n / 64, owed, low, high⟩) (tailByte n :: rest) =
      decodeFrom (some ⟨n, owed - 1, 0x80, 0xBF⟩) rest := by
  have hn : n / 64 * 64 + n % 64 = n := Nat.div_add_mod' n 64
  rw [decodeFrom_tailByte hlow hhigh, if_neg (by omega), hn]

/-- A number over a first byte, which has a mark, and so many bytes after it. -/
def spread (mark : Nat) : Nat → Nat → List UInt8
  | 0, n => [UInt8.ofNat (n + mark)]
  | tail + 1, n => spread mark tail (n / 64) ++ [tailByte n]

/-- The mark of the first byte of a character with this number, and how many bytes come after it. -/
def width (n : Nat) : Nat × Nat :=
  if n ≤ 127 then (0, 0) else if n ≤ 2047 then (192, 1) else if n ≤ 65535 then (224, 2) else (240, 3)

theorem utf8EncodeChar_eq (c : Char) :
    String.utf8EncodeChar c = spread (width c.toNat).1 (width c.toNat).2 c.toNat := by
  have hlt := toNat_valid c
  have hc : c.val.toNat = c.toNat := rfl
  unfold String.utf8EncodeChar width
  simp only [hc]
  generalize c.toNat = n at hlt
  split
  · rfl
  split
  · simp only [spread, List.cons_append, List.nil_append, tailByte]
    rw [Nat.mod_eq_of_lt (by omega : n / 64 < 32)]
  split
  · simp only [spread, List.cons_append, List.nil_append, tailByte, Nat.div_div_eq_div_mul]
    rw [Nat.mod_eq_of_lt (by omega : n / 4096 < 16)]
  · simp only [spread, List.cons_append, List.nil_append, tailByte, Nat.div_div_eq_div_mul]
    rw [Nat.mod_eq_of_lt (by omega : n / 262144 < 8)]

theorem lead_two {n : Nat} (h : 127 < n) (h' : n ≤ 2047) :
    lead (UInt8.ofNat (n / 64 + 192)) = ([], some ⟨n / 64, 1, 0x80, 0xBF⟩) := by
  have hbits : (n / 64 + 192) % 32 = n / 64 := by omega
  rw [lead_ofNat (by omega), if_neg (by omega), if_neg (by omega), if_pos (by omega), hbits]

/-- The range that the second byte is in leaves out what is no character, or is one of fewer
bytes. -/
theorem exists_lead_three {n : Nat} (h : 2047 < n) (h' : n ≤ 65535)
    (valid : n < 0xD800 ∨ 0xDFFF < n) : ∃ low high,
      lead (UInt8.ofNat (n / 64 / 64 + 224)) = ([], some ⟨n / 64 / 64, 2, low, high⟩) ∧
      low.toNat ≤ n / 64 % 64 + 128 ∧ n / 64 % 64 + 128 ≤ high.toNat := by
  rw [lead_ofNat (by omega), if_neg (by omega), if_neg (by omega), if_neg (by omega)]
  by_cases hfirst : n / 64 / 64 = 0
  · rw [if_pos (by omega), hfirst]
    exact ⟨_, _, rfl, by simp; omega, by simp; omega⟩
  rw [if_neg (by omega)]
  by_cases hgap : n / 64 / 64 = 13
  · rw [if_pos (by omega), hgap]
    exact ⟨_, _, rfl, by simp, by simp; omega⟩
  have hbits : (n / 64 / 64 + 224) % 16 = n / 64 / 64 := by omega
  rw [if_neg (by omega), if_pos (by omega), hbits]
  exact ⟨_, _, rfl, by simp, by simp; omega⟩

theorem exists_lead_four {n : Nat} (h : 65535 < n) (h' : n < 0x110000) : ∃ low high,
      lead (UInt8.ofNat (n / 64 / 64 / 64 + 240)) =
        ([], some ⟨n / 64 / 64 / 64, 3, low, high⟩) ∧
      low.toNat ≤ n / 64 / 64 % 64 + 128 ∧ n / 64 / 64 % 64 + 128 ≤ high.toNat := by
  rw [lead_ofNat (by omega), if_neg (by omega), if_neg (by omega), if_neg (by omega),
    if_neg (by omega), if_neg (by omega), if_neg (by omega)]
  by_cases hfirst : n / 64 / 64 / 64 = 0
  · rw [if_pos (by omega), hfirst]
    exact ⟨_, _, rfl, by simp; omega, by simp; omega⟩
  rw [if_neg (by omega)]
  by_cases hlast : n / 64 / 64 / 64 = 4
  · rw [if_neg (by omega), if_pos (by omega), hlast]
    exact ⟨_, _, rfl, by simp, by simp; omega⟩
  have hbits : (n / 64 / 64 / 64 + 240) % 8 = n / 64 / 64 / 64 := by omega
  rw [if_pos (by omega), hbits]
  exact ⟨_, _, rfl, by simp, by simp; omega⟩

/-- A character is read back from its bytes, whatever follows them. -/
theorem decodeFrom_encode (c : Char) (rest : List UInt8) :
    decodeFrom none (String.utf8EncodeChar c ++ rest) = c :: decodeFrom none rest := by
  have hvalid := toNat_valid c
  have hc : Char.ofNat c.toNat = c := Char.ofNat_toNat c
  rw [utf8EncodeChar_eq, width]
  generalize c.toNat = n at hvalid hc
  split
  · next h =>
    have hlead : lead (UInt8.ofNat n) = ([Char.ofNat n], none) := by
      rw [lead_ofNat (by omega), if_pos (by omega)]
    simp only [spread, List.cons_append, List.nil_append, Nat.add_zero]
    rw [decodeFrom_lead hlead, hc]
    rfl
  split
  · next h h' =>
    simp only [spread, List.cons_append, List.nil_append]
    rw [decodeFrom_lead (lead_two (by omega) h'), List.nil_append, decodeFrom_last, hc]
  split
  · next h _ h' =>
    obtain ⟨low, high, hlead, hlow, hhigh⟩ := exists_lead_three (by omega) h' (by omega)
    simp only [spread, List.cons_append, List.nil_append]
    rw [decodeFrom_lead hlead, List.nil_append, decodeFrom_middle (by omega) hlow hhigh,
      decodeFrom_last, hc]
  · next h =>
    obtain ⟨low, high, hlead, hlow, hhigh⟩ := exists_lead_four (n := n) (by omega) (by omega)
    simp only [spread, List.cons_append, List.nil_append]
    rw [decodeFrom_lead hlead, List.nil_append, decodeFrom_middle (by omega) hlow hhigh,
      decodeFrom_middle (by omega) (by simp) (by simp; omega), decodeFrom_last, hc]

theorem decodeFrom_bytes (cs : List Char) : decodeFrom none (bytes cs) = cs := by
  induction cs with
  | nil => rfl
  | cons c cs ih =>
    have hbytes : bytes (c :: cs) = String.utf8EncodeChar c ++ bytes cs := rfl
    rw [hbytes, decodeFrom_encode, ih]

theorem decode_bytes (text : String) : decode (bytes text.toList) = text := by
  rw [decode, decodeFrom_bytes, String.ofList_toList]

def highBits : Nat → Nat → Nat
  | 0, n => n
  | tail + 1, n => highBits tail (n / 64)

theorem exists_spread_eq_cons (mark tail n : Nat) :
    ∃ later, spread mark tail n = UInt8.ofNat (highBits tail n + mark) :: later := by
  induction tail generalizing n with
  | zero => exact ⟨[], rfl⟩
  | succ tail ih =>
    obtain ⟨later, h⟩ := ih (n / 64)
    exact ⟨later ++ [tailByte n], by rw [spread, h, List.cons_append, highBits]⟩

theorem ofNat_lt_ofNat {n m : Nat} (h : n < m) (hm : m < 256) :
    UInt8.ofNat n < UInt8.ofNat m := by
  rw [UInt8.lt_iff_toNat_lt, toNat_ofNat_of_lt (by omega), toNat_ofNat_of_lt hm]
  exact h

theorem spread_append_lt_of_head {mark mark' tail tail' n m : Nat}
    (h : highBits tail n + mark < highBits tail' m + mark') (hm : highBits tail' m + mark' < 256)
    (as bs : List UInt8) : spread mark tail n ++ as < spread mark' tail' m ++ bs := by
  obtain ⟨later, hn⟩ := exists_spread_eq_cons mark tail n
  obtain ⟨later', hm'⟩ := exists_spread_eq_cons mark' tail' m
  rw [hn, hm', List.cons_append, List.cons_append, List.cons_lt_cons_iff]
  exact .inl (ofNat_lt_ofNat h hm)

/-- The bytes before the last have the order of what is left without the last six bits. -/
theorem spread_append_lt {mark tail n m : Nat} (h : n < m) (hm : highBits tail m + mark < 256)
    (as bs : List UInt8) : spread mark tail n ++ as < spread mark tail m ++ bs := by
  induction tail generalizing n m as bs with
  | zero => exact spread_append_lt_of_head (Nat.add_lt_add_right h mark) hm as bs
  | succ tail ih =>
    rw [spread, spread, List.append_assoc, List.append_assoc]
    by_cases hrest : n / 64 < m / 64
    · exact ih hrest hm _ _
    · have hsame : n / 64 = m / 64 := by omega
      have hlast : tailByte n < tailByte m := ofNat_lt_ofNat (by omega) (by omega)
      rw [hsame]
      apply List.append_left_lt
      rw [List.singleton_append, List.singleton_append, List.cons_lt_cons_iff]
      exact .inl hlast

theorem width_cases {n m : Nat} (h : n < m) (hm : m < 0x110000) :
    highBits (width m).2 m + (width m).1 < 256 ∧
      (width n = width m ∨
        highBits (width n).2 n + (width n).1 < highBits (width m).2 m + (width m).1) := by
  unfold width
  constructor
  · (repeat' split) <;> simp [highBits] <;> omega
  · (repeat' split) <;> simp [highBits] <;> omega

theorem mem_spread {mark tail n : Nat} {b : UInt8} (h : b ∈ spread mark tail n) :
    b = UInt8.ofNat (highBits tail n + mark) ∨ 128 ≤ b.toNat := by
  induction tail generalizing n with
  | zero => exact .inl (List.mem_singleton.1 h)
  | succ tail ih =>
    rw [spread, List.mem_append, List.mem_singleton] at h
    rcases h with h | rfl
    · exact ih h
    · rw [toNat_tailByte]
      exact .inr (by omega)

/-- A byte of ASCII stands for a character of ASCII, and is part of no other. -/
theorem toNat_of_mem_encode {c : Char} {b : UInt8} (h : b ∈ String.utf8EncodeChar c)
    (hb : b.toNat < 128) : c.toNat = b.toNat := by
  have hvalid := toNat_valid c
  rw [utf8EncodeChar_eq] at h
  by_cases hc : c.toNat ≤ 127
  · rw [width, if_pos hc, spread, List.mem_singleton] at h
    rw [h, toNat_ofNat_of_lt (by omega), Nat.add_zero]
  · obtain ⟨hbyte, _⟩ := width_cases (n := 0) (m := c.toNat) (by omega) (by omega)
    have hmark : 192 ≤ (width c.toNat).1 := by
      rw [width, if_neg hc]
      split
      · simp
      · split <;> simp
    rcases mem_spread h with h | h
    · rw [h, toNat_ofNat_of_lt hbyte] at hb
      omega
    · omega

theorem encode_append_lt {c d : Char} (h : c < d) (as bs : List UInt8) :
    String.utf8EncodeChar c ++ as < String.utf8EncodeChar d ++ bs := by
  have hlt : c.toNat < d.toNat := h
  have hd := toNat_valid d
  obtain ⟨hbyte, hsame | hless⟩ := width_cases hlt (by omega)
  · rw [utf8EncodeChar_eq, utf8EncodeChar_eq, hsame]
    exact spread_append_lt hlt hbyte as bs
  · rw [utf8EncodeChar_eq, utf8EncodeChar_eq]
    exact spread_append_lt_of_head hless hbyte as bs

theorem bytes_lt_bytes {cs ds : List Char} (h : cs < ds) : bytes cs < bytes ds := by
  induction h with
  | @nil d ds =>
    cases hd : bytes (d :: ds) with
    | nil => exact absurd hd (bytes_ne_nil (by simp))
    | cons b later => exact List.nil_lt_cons b later
  | rel h => exact encode_append_lt h _ _
  | cons _ ih => exact List.append_left_lt ih

theorem bytes_lt_bytes_iff (a b : String) : bytes a.toList < bytes b.toList ↔ a < b := by
  constructor
  · intro h
    by_cases hab : a < b
    · exact hab
    · have hle : b ≤ a := hab
      by_cases he : b = a
      · rw [he] at h
        exact absurd h (List.lt_irrefl _)
      · have hba : b < a := by
          by_cases hlt : b < a
          · exact hlt
          · exact absurd (String.le_antisymm hle hlt) he
        exact absurd h (List.lt_asymm (bytes_lt_bytes hba))
  · exact bytes_lt_bytes

end XmlPipeline.Text
