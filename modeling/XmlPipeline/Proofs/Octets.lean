import Mathlib.Data.List.Basic
import XmlPipeline.Proofs.Encoding
import XmlPipeline.Proofs.Trimming
set_option autoImplicit false

namespace XmlPipeline.Text

def ofBytes (bs : List UInt8) : List Char := bs.map Char.ofUInt8

def toBytes (cs : List Char) : List UInt8 := cs.map Char.toUInt8

theorem toBytes_ofBytes (bs : List UInt8) : toBytes (ofBytes bs) = bs := by
  induction bs with
  | nil => rfl
  | cons b bs ih =>
    have hb : (Char.ofUInt8 b).toUInt8 = b := UInt8.toUInt8_toUInt32 b
    rw [ofBytes, List.map_cons, toBytes, List.map_cons, hb]
    exact congrArg (b :: ·) ih

def octets (cs : List Char) : List Char := ofBytes (bytes cs)

@[simp] theorem octets_nil : octets [] = [] := rfl

@[simp] theorem octets_append (as cs : List Char) :
    octets (as ++ cs) = octets as ++ octets cs := by
  simp [octets, ofBytes]

theorem octets_eq_append (c : Char) (cs : List Char) :
    octets (c :: cs) = octets [c] ++ octets cs := octets_append [c] cs

@[simp] theorem toBytes_octets (cs : List Char) : toBytes (octets cs) = bytes cs :=
  toBytes_ofBytes _

@[simp] theorem length_octets (cs : List Char) : (octets cs).length = size cs := by
  simp [octets, ofBytes]

theorem bytes_singleton (c : Char) : bytes [c] = String.utf8EncodeChar c := List.append_nil _

def IsAscii (c : Char) : Prop := c.toNat < 128

instance (c : Char) : Decidable (IsAscii c) := inferInstanceAs (Decidable (_ < _))

theorem octets_singleton {c : Char} (h : IsAscii c) : octets [c] = [c] := by
  have hlt : c.toNat < 128 := h
  have hbytes : bytes [c] = [UInt8.ofNat c.toNat] := by
    rw [bytes_singleton, utf8EncodeChar_eq, width, if_pos (by omega)]
    rfl
  have hnat : (Char.ofUInt8 (UInt8.ofNat c.toNat)).toNat = c.toNat := toNat_ofNat_of_lt (by omega)
  rw [octets, hbytes, ofBytes, List.map_singleton, Char.toNat_inj.1 hnat]

theorem octets_cons {c : Char} (h : IsAscii c) (cs : List Char) :
    octets (c :: cs) = c :: octets cs := by
  rw [octets_eq_append c cs, octets_singleton h, List.singleton_append]

theorem not_isAscii_of_mem {c d : Char} (h : ¬ IsAscii c) (hd : d ∈ octets [c]) : ¬ IsAscii d := by
  obtain ⟨b, hb, rfl⟩ := List.mem_map.1 hd
  rw [bytes_singleton] at hb
  intro hlt
  have hbyte : b.toNat < 128 := hlt
  exact h (show c.toNat < 128 from toNat_of_mem_encode hb hbyte ▸ hbyte)

theorem octets_ne_nil {cs : List Char} (h : cs ≠ []) : octets cs ≠ [] := by
  have hpos := size_pos h
  rw [← length_octets] at hpos
  exact List.ne_nil_of_length_pos hpos

/-- A text is taken apart at a character of ASCII, or at one whose octets are none. -/
theorem octets_cases (c : Char) : (IsAscii c ∧ octets [c] = [c]) ∨
    (¬ IsAscii c ∧ octets [c] ≠ [] ∧ ∀ d ∈ octets [c], ¬ IsAscii d) := by
  by_cases hc : IsAscii c
  · exact .inl ⟨hc, octets_singleton hc⟩
  · exact .inr ⟨hc, octets_ne_nil (List.cons_ne_nil c []), fun d => not_isAscii_of_mem hc⟩

theorem octets_of_ascii {cs : List Char} (h : ∀ c ∈ cs, IsAscii c) : octets cs = cs := by
  induction cs with
  | nil => rfl
  | cons c cs ih =>
    rw [octets_cons (h c List.mem_cons_self), ih fun d hd => h d (List.mem_cons_of_mem c hd)]

theorem head?_octets {a : Char} (ha : IsAscii a) (cs : List Char) :
    (octets cs).head? = some a ↔ cs.head? = some a := by
  cases cs with
  | nil => rfl
  | cons c cs =>
    rw [List.head?_cons, Option.some.injEq]
    rcases octets_cases c with ⟨_, hc⟩ | ⟨hnot, hne, hall⟩
    · rw [octets_eq_append c cs, hc, List.singleton_append, List.head?_cons, Option.some.injEq]
    · rw [octets_eq_append c cs, List.head?_append_of_ne_nil _ hne]
      constructor
      · intro h
        exact absurd ha (hall a (List.mem_of_head? h))
      · rintro rfl
        exact absurd ha hnot

theorem getLast?_octets {a : Char} (ha : IsAscii a) (cs : List Char) :
    (octets cs).getLast? = some a ↔ cs.getLast? = some a := by
  rcases List.eq_nil_or_concat cs with rfl | ⟨init, c, rfl⟩
  · rfl
  · rw [List.concat_eq_append, octets_append, List.getLast?_concat, Option.some.injEq]
    rcases octets_cases c with ⟨_, hc⟩ | ⟨hnot, hne, hall⟩
    · rw [hc, List.getLast?_concat, Option.some.injEq]
    · rw [List.getLast?_append_of_ne_nil _ hne]
      constructor
      · intro h
        exact absurd ha (hall a (List.mem_of_getLast? h))
      · rintro rfl
        exact absurd ha hnot

theorem prefix_octets_iff {mark : List Char} (ascii : ∀ c ∈ mark, IsAscii c) (cs : List Char) :
    mark <+: octets cs ↔ mark <+: cs := by
  constructor
  · intro h
    induction mark generalizing cs with
    | nil => exact List.nil_prefix
    | cons a mark ih =>
      obtain ⟨rest, hrest⟩ := h
      have hhead : (octets cs).head? = some a := by rw [← hrest]; rfl
      have ha := ascii a List.mem_cons_self
      obtain ⟨tail, rfl⟩ := List.head?_eq_some_iff.1 ((head?_octets ha cs).1 hhead)
      rw [octets_cons ha, List.cons_append, List.cons.injEq] at hrest
      have hmark := ih (fun c hc => ascii c (List.mem_cons_of_mem a hc)) tail ⟨rest, hrest.2⟩
      exact List.cons_prefix_cons.2 ⟨rfl, hmark⟩
  · rintro ⟨rest, rfl⟩
    rw [octets_append, octets_of_ascii ascii]
    exact List.prefix_append mark _

theorem isPrefixOf_octets {mark : List Char} (ascii : ∀ c ∈ mark, IsAscii c) (cs : List Char) :
    mark.isPrefixOf (octets cs) = mark.isPrefixOf cs := by
  rw [Bool.eq_iff_iff, List.isPrefixOf_iff_prefix, List.isPrefixOf_iff_prefix]
  exact prefix_octets_iff ascii cs

theorem drop_octets {mark cs : List Char} (ascii : ∀ c ∈ mark, IsAscii c) (h : mark <+: cs) :
    (octets cs).drop mark.length = octets (cs.drop mark.length) := by
  obtain ⟨rest, rfl⟩ := h
  rw [octets_append, octets_of_ascii ascii, List.drop_left, List.drop_left]

section
variable {p : Char → Bool}

theorem all_octets (hp : ∀ c, ¬ IsAscii c → p c = false) (cs : List Char) :
    (octets cs).all p = cs.all p := by
  induction cs with
  | nil => rfl
  | cons c cs ih =>
    rw [octets_eq_append c cs, List.all_append, ih, List.all_cons]
    rcases octets_cases c with ⟨_, hc⟩ | ⟨hnot, hne, hall⟩
    · rw [hc, List.all_cons, List.all_nil, Bool.and_true]
    · obtain ⟨d, hd⟩ := List.exists_mem_of_ne_nil _ hne
      have hfalse : (octets [c]).all p = false :=
        List.all_eq_false.2 ⟨d, hd, by rw [hp d (hall d hd)]; exact Bool.false_ne_true⟩
      rw [hfalse, hp c hnot]

theorem takeWhile_and_dropWhile_octets (hp : ∀ c, ¬ IsAscii c → p c = true) (cs : List Char) :
    (octets cs).takeWhile p = octets (cs.takeWhile p) ∧
      (octets cs).dropWhile p = octets (cs.dropWhile p) := by
  induction cs with
  | nil => exact ⟨rfl, rfl⟩
  | cons c cs ih =>
    by_cases hc : p c = true
    · have hall : ∀ d ∈ octets [c], p d = true := by
        intro d hd
        rcases octets_cases c with ⟨_, hone⟩ | ⟨_, _, hnone⟩
        · rw [hone, List.mem_singleton] at hd
          rwa [hd]
        · exact hp d (hnone d hd)
      rw [List.takeWhile_cons_of_pos hc, List.dropWhile_cons_of_pos hc, octets_eq_append c cs,
        List.takeWhile_append_of_pos hall, List.dropWhile_append_of_pos hall, ih.1, ih.2]
      exact ⟨(octets_append [c] _).symm, rfl⟩
    · have hascii : IsAscii c := by
        by_contra hnot
        exact hc (hp c hnot)
      rw [octets_cons hascii, List.takeWhile_cons_of_neg hc, List.dropWhile_cons_of_neg hc,
        List.takeWhile_cons_of_neg hc, List.dropWhile_cons_of_neg hc, octets_cons hascii]
      exact ⟨rfl, rfl⟩

theorem dropEndWhile_octets (hp : ∀ c, ¬ IsAscii c → p c = false) (cs : List Char) :
    dropEndWhile p (octets cs) = octets (dropEndWhile p cs) := by
  obtain ⟨after, hcs, hafter⟩ := exists_dropEndWhile_append p cs
  have hkept : ∀ c, (octets (dropEndWhile p cs)).getLast? = some c → p c = false := by
    intro c hc
    by_cases hascii : IsAscii c
    · exact getLast?_dropEndWhile ((getLast?_octets hascii _).1 hc)
    · exact hp c hascii
  have hall : (octets after).all p = true := by rwa [all_octets hp]
  have hoctets := congrArg octets hcs
  rw [octets_append] at hoctets
  rw [hoctets, dropEndWhile_append _ hall, dropEndWhile_eq_self hkept]

end

end XmlPipeline.Text
