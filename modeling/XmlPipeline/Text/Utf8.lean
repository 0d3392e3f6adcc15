set_option autoImplicit false

namespace XmlPipeline.Text

def size : List Char → Nat
  | [] => 0
  | c :: cs => c.utf8Size + size cs

@[simp] theorem size_nil : size [] = 0 := rfl

@[simp] theorem size_cons (c : Char) (cs : List Char) :
    size (c :: cs) = c.utf8Size + size cs := rfl

@[simp] theorem size_append (a b : List Char) : size (a ++ b) = size a + size b := by
  induction a with
  | nil => simp
  | cons c cs ih => simp [ih, Nat.add_assoc]

theorem size_pos {cs : List Char} (h : cs ≠ []) : 0 < size cs := by
  cases cs with
  | nil => exact absurd rfl h
  | cons c cs => have := c.utf8Size_pos; simp; omega

def bytes (cs : List Char) : List UInt8 := cs.flatMap String.utf8EncodeChar

@[simp] theorem bytes_nil : bytes [] = [] := rfl

@[simp] theorem bytes_append (a b : List Char) : bytes (a ++ b) = bytes a ++ bytes b := by
  simp [bytes]

@[simp] theorem length_bytes (cs : List Char) : (bytes cs).length = size cs := by
  induction cs with
  | nil => rfl
  | cons c cs ih =>
    simp only [bytes, List.flatMap_cons, List.length_append, String.length_utf8EncodeChar,
      size_cons] at ih ⊢
    omega

theorem bytes_ne_nil {cs : List Char} (h : cs ≠ []) : bytes cs ≠ [] := by
  rw [← List.length_pos_iff, length_bytes]
  exact size_pos h

/-- A text in two parts, the first of so many bytes, if a character ends there. -/
def cutBytes : Nat → List Char → Option (List Char × List Char)
  | 0, cs => some ([], cs)
  | _ + 1, [] => none
  | n + 1, c :: cs =>
    if c.utf8Size ≤ n + 1 then
      (cutBytes (n + 1 - c.utf8Size) cs).map fun (first, rest) => (c :: first, rest)
    else none

theorem cutBytes_eq_some_iff {n : Nat} {cs first rest : List Char} :
    cutBytes n cs = some (first, rest) ↔ cs = first ++ rest ∧ size first = n := by
  fun_induction cutBytes n cs generalizing first rest with
  | case1 cs =>
    constructor
    · intro h
      cases h
      simp
    · rintro ⟨rfl, h⟩
      cases first with
      | nil => rfl
      | cons c first => have := c.utf8Size_pos; simp at h; omega
  | case2 n =>
    simp only [reduceCtorEq, false_iff, not_and]
    intro h
    have := (List.append_eq_nil_iff.1 h.symm).1
    simp [this]
  | case3 n c cs hc ih =>
    simp only [Option.map_eq_some_iff, Prod.mk.injEq, Prod.exists]
    constructor
    · rintro ⟨a, b, hab, rfl, rfl⟩
      obtain ⟨rfl, hs⟩ := ih.1 hab
      exact ⟨rfl, by simp [hs]; omega⟩
    · rintro ⟨h, hs⟩
      cases first with
      | nil => simp at hs
      | cons d first =>
        simp only [List.cons_append, List.cons.injEq] at h
        obtain ⟨rfl, rfl⟩ := h
        exact ⟨first, rest, ih.2 ⟨rfl, by simp at hs; omega⟩, rfl, rfl⟩
  | case4 n c cs hc =>
    simp only [reduceCtorEq, false_iff, not_and]
    intro h hs
    cases first with
    | nil => simp at hs
    | cons d first =>
      simp only [List.cons_append, List.cons.injEq] at h
      obtain ⟨rfl, _⟩ := h
      simp at hs
      omega

/-- A character that has been read in part: its bits so far, how many bytes are owed, and the
range that the next of them is in. -/
structure Partial where
  value : Nat
  owed : Nat
  low : UInt8
  high : UInt8

def replacement : Char := Char.ofNat 0xFFFD

def lead (b : UInt8) : List Char × Option Partial :=
  let tail (mask owed : Nat) : List Char × Option Partial :=
    ([], some ⟨b.toNat % mask, owed, 0x80, 0xBF⟩)
  if b < 0x80 then ([Char.ofNat b.toNat], none)
  else if b < 0xC2 then ([replacement], none)
  else if b < 0xE0 then tail 32 1
  else if b = 0xE0 then ([], some ⟨0, 2, 0xA0, 0xBF⟩)
  else if b = 0xED then ([], some ⟨13, 2, 0x80, 0x9F⟩)
  else if b < 0xF0 then tail 16 2
  else if b = 0xF0 then ([], some ⟨0, 3, 0x90, 0xBF⟩)
  else if b < 0xF4 then tail 8 3
  else if b = 0xF4 then ([], some ⟨4, 3, 0x80, 0x8F⟩)
  else ([replacement], none)

/-- Each longest beginning of a character that is not carried on, and each other byte that is part
of no character, is replaced. -/
def decodeFrom : Option Partial → List UInt8 → List Char
  | none, [] => []
  | some _, [] => [replacement]
  | none, b :: rest => (lead b).1 ++ decodeFrom (lead b).2 rest
  | some p, b :: rest =>
    if p.low ≤ b ∧ b ≤ p.high then
      let value := p.value * 64 + b.toNat % 64
      if p.owed ≤ 1 then Char.ofNat value :: decodeFrom none rest
      else decodeFrom (some ⟨value, p.owed - 1, 0x80, 0xBF⟩) rest
    else replacement :: (lead b).1 ++ decodeFrom (lead b).2 rest

def decode (bs : List UInt8) : String := String.ofList (decodeFrom none bs)

def decode? (bs : List UInt8) : Option String :=
  let cs := decodeFrom none bs
  if bytes cs = bs then some (String.ofList cs) else none

theorem bytes_of_decode? {bs : List UInt8} {text : String} (h : decode? bs = some text) :
    bytes text.toList = bs := by
  simp only [decode?, Option.ite_none_right_eq_some, Option.some.injEq] at h
  rw [← h.2, String.toList_ofList]
  exact h.1

end XmlPipeline.Text
