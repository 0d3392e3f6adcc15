import Mathlib.Tactic.IntervalCases
import Mathlib.Tactic.SplitIfs
import XmlPipeline.Proofs.Encoding
import XmlPipeline.Proofs.References
set_option autoImplicit false

namespace XmlPipeline.Markup

inductive Radix where
  | decimal
  | hexadecimal
  deriving DecidableEq, Repr

def Radix.base : Radix → Nat
  | .decimal => 10
  | .hexadecimal => 16

def Radix.mark : Radix → List Char
  | .decimal => []
  | .hexadecimal => ['x']

theorem Radix.one_lt_base (radix : Radix) : 1 < radix.base := by cases radix <;> decide

theorem Radix.base_le (radix : Radix) : radix.base ≤ 16 := by cases radix <;> decide

/-- Digits without zeros before them. A letter among them may be of either case. -/
def SpellsNumber (radix : Radix) (digits : List Char) (n : Nat) : Prop :=
  digits.map Char.toLower = Nat.toDigits radix.base n

theorem toNat_toLower (c : Char) :
    c.toLower.toNat = if 65 ≤ c.toNat ∧ c.toNat ≤ 90 then c.toNat + 32 else c.toNat := by
  have hcond : (c.val ≥ 'A'.val ∧ c.val ≤ 'Z'.val) ↔ 65 ≤ c.toNat ∧ c.toNat ≤ 90 := by
    rw [ge_iff_le, UInt32.le_iff_toNat_le, UInt32.le_iff_toNat_le]
    exact Iff.rfl
  unfold Char.toLower
  split
  · next h =>
    rw [if_pos (hcond.1 h)]
    have hle := (hcond.1 h).2
    show (c.val + ('a'.val - 'A'.val)).toNat = c.toNat + 32
    rw [UInt32.toNat_add]
    show (c.toNat + 32) % 4294967296 = c.toNat + 32
    omega
  · next h => rw [if_neg fun hn => h (hcond.2 hn)]

theorem toNat_digitChar {n : Nat} (h : n < 16) :
    (Nat.digitChar n).toNat = if n < 10 then 48 + n else 87 + n := by
  interval_cases n <;> rfl

theorem toNat_of_toLower_eq {value : Nat} {c : Char} (h : c.toLower = Nat.digitChar value)
    (hv : value < 16) : (value < 10 ∧ c.toNat = 48 + value) ∨
      (10 ≤ value ∧ (c.toNat = 55 + value ∨ c.toNat = 87 + value)) := by
  have hn := congrArg Char.toNat h
  rw [toNat_toLower, toNat_digitChar hv] at hn
  split at hn <;> split at hn <;> omega

theorem char_le_iff (a b : Char) : a ≤ b ↔ a.toNat ≤ b.toNat := by
  rw [Char.le_def, UInt32.le_iff_toNat_le]
  rfl

theorem digitValue?_of_toLower_eq {value radix : Nat} {c : Char}
    (h : c.toLower = Nat.digitChar value) (hv : value < radix) (hr : radix ≤ 16) :
    digitValue? radix c = some value := by
  have hc := toNat_of_toLower_eq h (by omega)
  unfold digitValue?
  simp only [char_le_iff, Char.reduceToNat]
  split_ifs with hdigit hlower hupper
  · simp
    omega
  · simp
    omega
  · simp
    omega
  · omega

theorem readDigits_append (radix : Nat) (a b : List Char) (value : Nat) :
    readDigits radix value (a ++ b) =
      (readDigits radix value a).bind fun value => readDigits radix value b := by
  induction a generalizing value with
  | nil => rfl
  | cons c a ih =>
    rw [List.cons_append, readDigits, readDigits]
    split
    · rfl
    · split
      · exact ih _
      · rfl

theorem readDigits_zeros (radix : Radix) (zeros : Nat) :
    readDigits radix.base 0 (List.replicate zeros '0') = .ok 0 := by
  induction zeros with
  | zero => rfl
  | succ zeros ih =>
    have hzero : digitValue? radix.base '0' = some 0 := by cases radix <;> decide
    rw [List.replicate_succ, readDigits, hzero]
    simpa using ih

theorem readDigits_singleton {radix : Nat} {value d : Nat} {c : Char}
    (h : digitValue? radix c = some d) (hlt : value * radix + d < 0x100000000) :
    readDigits radix value [c] = .ok (value * radix + d) := by
  rw [readDigits, h]
  simp [hlt, readDigits]

theorem SpellsNumber.cases {radix : Radix} {digits : List Char} {n : Nat}
    (h : SpellsNumber radix digits n) :
    (n < radix.base ∧ ∃ c, digits = [c] ∧ c.toLower = Nat.digitChar n) ∨
      (radix.base ≤ n ∧ ∃ ds c, digits = ds ++ [c] ∧ SpellsNumber radix ds (n / radix.base) ∧
        c.toLower = Nat.digitChar (n % radix.base)) := by
  rw [SpellsNumber, Nat.toDigits_eq_if radix.one_lt_base] at h
  split at h
  · next hlt =>
    obtain ⟨c, rfl, hc⟩ := List.map_eq_singleton_iff.1 h
    exact .inl ⟨hlt, c, rfl, hc⟩
  · next hge =>
    obtain ⟨ds, cs, rfl, hds, hcs⟩ := List.map_eq_append_iff.1 h
    obtain ⟨c, rfl, hc⟩ := List.map_eq_singleton_iff.1 hcs
    exact .inr ⟨by omega, ds, c, rfl, hds, hc⟩

theorem SpellsNumber.readDigits_eq {radix : Radix} {digits : List Char} {n : Nat}
    (h : SpellsNumber radix digits n) (hn : n < 0x100000000) :
    readDigits radix.base 0 digits = .ok n := by
  have hbase := radix.base_le
  have hone := radix.one_lt_base
  induction n using Nat.strongRecOn generalizing digits with
  | ind n ih =>
    obtain ⟨hlt, c, rfl, hc⟩ | ⟨hge, ds, c, rfl, hds, hc⟩ := h.cases
    · rw [readDigits_singleton (digitValue?_of_toLower_eq hc hlt hbase) (by omega)]
      simp
    · have hmod : n % radix.base < radix.base := Nat.mod_lt _ (by omega)
      have hvalue : n / radix.base * radix.base + n % radix.base = n := Nat.div_add_mod' _ _
      have hdiv : n / radix.base < n := Nat.div_lt_self (by omega) hone
      rw [readDigits_append, ih _ hdiv hds (by omega)]
      show readDigits radix.base (n / radix.base) [c] = .ok n
      rw [readDigits_singleton (digitValue?_of_toLower_eq hc hmod hbase) (by omega), hvalue]

theorem toLower_digitChar {n : Nat} (h : n < 16) : (Nat.digitChar n).toLower = Nat.digitChar n := by
  interval_cases n <;> rfl

theorem spellsNumber_toDigits (radix : Radix) (n : Nat) :
    SpellsNumber radix (Nat.toDigits radix.base n) n := by
  have hbase := radix.base_le
  have hone := radix.one_lt_base
  induction n using Nat.strongRecOn with
  | ind n ih =>
    rw [SpellsNumber, Nat.toDigits_eq_if hone]
    split
    · next hlt => simp [toLower_digitChar (Nat.lt_of_lt_of_le hlt hbase)]
    · next hge =>
      have hmod : n % radix.base < radix.base := Nat.mod_lt _ (by omega)
      have hdiv : n / radix.base < n := Nat.div_lt_self (by omega) hone
      have hdigits := ih _ hdiv
      rw [SpellsNumber] at hdigits
      simp [hdigits, toLower_digitChar (Nat.lt_of_lt_of_le hmod hbase)]

/-- No digit is taken for anything else that may stand in a reference or end it. -/
theorem SpellsNumber.toNat_of_mem {radix : Radix} {digits : List Char} {n : Nat}
    (h : SpellsNumber radix digits n) {c : Char} (hc : c ∈ digits) :
    (48 ≤ c.toNat ∧ c.toNat ≤ 57) ∨ (65 ≤ c.toNat ∧ c.toNat ≤ 70) ∨
      (97 ≤ c.toNat ∧ c.toNat ≤ 102) := by
  have hbase := radix.base_le
  have hone := radix.one_lt_base
  induction n using Nat.strongRecOn generalizing digits with
  | ind n ih =>
    obtain ⟨hlt, d, rfl, hd⟩ | ⟨hge, ds, d, rfl, hds, hd⟩ := h.cases
    · rw [List.mem_singleton] at hc
      subst hc
      have := toNat_of_toLower_eq hd (by omega)
      omega
    · have hmod : n % radix.base < radix.base := Nat.mod_lt _ (by omega)
      have hdiv : n / radix.base < n := Nat.div_lt_self (by omega) hone
      rcases List.mem_append.1 hc with hc | hc
      · exact ih _ hdiv hds hc
      · rw [List.mem_singleton] at hc
        subst hc
        have := toNat_of_toLower_eq hd (by omega)
        omega

theorem SpellsNumber.ne_nil {radix : Radix} {digits : List Char} {n : Nat}
    (h : SpellsNumber radix digits n) : digits ≠ [] := by
  rintro rfl
  exact Nat.toDigits_ne_nil h.symm

def numeral (radix : Radix) (zeros : Nat) (digits : List Char) : List Char :=
  '#' :: (radix.mark ++ (List.replicate zeros '0' ++ digits))

section
variable {radix : Radix} {digits : List Char} {n : Nat} (h : SpellsNumber radix digits n)
include h

theorem SpellsNumber.toNat_of_mem_zeros {zeros : Nat} {c : Char}
    (hc : c ∈ List.replicate zeros '0' ++ digits) :
    (48 ≤ c.toNat ∧ c.toNat ≤ 57) ∨ (65 ≤ c.toNat ∧ c.toNat ≤ 70) ∨
      (97 ≤ c.toNat ∧ c.toNat ≤ 102) := by
  rcases List.mem_append.1 hc with hz | hd
  · rw [List.eq_of_mem_replicate hz]
    decide
  · exact h.toNat_of_mem hd

theorem SpellsNumber.notMem_zeros (zeros : Nat) {c : Char} (hc : c.toNat < 48 ∨ 57 < c.toNat ∧
    c.toNat < 65 ∨ 102 < c.toNat) : c ∉ List.replicate zeros '0' ++ digits := by
  intro hm
  have := h.toNat_of_mem_zeros hm
  omega

theorem SpellsNumber.readNumber_eq (zeros : Nat) (hn : n < 0x100000000) :
    readNumber radix.base (List.replicate zeros '0' ++ digits) = .ok n := by
  have hplus := h.notMem_zeros zeros (c := '+') (by decide)
  have hminus := h.notMem_zeros zeros (c := '-') (by decide)
  have hhead : ¬ ((List.replicate zeros '0' ++ digits).head? = some '+' ∨
      (List.replicate zeros '0' ++ digits).head? = some '-') := by
    rintro (he | he)
    · exact hplus (List.mem_of_head? he)
    · exact hminus (List.mem_of_head? he)
  have hne : List.replicate zeros '0' ++ digits ≠ [] := by simp [h.ne_nil]
  rw [readNumber, if_neg hhead, if_neg hne, readDigits_append, readDigits_zeros]
  exact h.readDigits_eq hn

theorem SpellsNumber.readCode_eq (zeros : Nat) (hn : n < 0x100000000) :
    readCode (radix.mark ++ (List.replicate zeros '0' ++ digits)) = .ok n := by
  have hread := h.readNumber_eq zeros hn
  cases radix with
  | hexadecimal => exact hread
  | decimal =>
    have hx := h.notMem_zeros zeros (c := 'x') (by decide)
    rw [Radix.mark, List.nil_append, readCode]
    · exact hread
    · intro rest hr
      rw [hr] at hx
      exact hx List.mem_cons_self

theorem SpellsNumber.notMem_numeral (zeros : Nat) {c : Char} (hc : c = ';' ∨ c = '&' ∨ c = '<') :
    c ∉ numeral radix zeros digits := by
  have hzeros : c ∉ List.replicate zeros '0' ++ digits := by
    apply h.notMem_zeros zeros
    rcases hc with rfl | rfl | rfl <;> decide
  have hmark : c ∉ '#' :: radix.mark := by
    rcases hc with rfl | rfl | rfl <;> cases radix <;> decide
  intro hm
  rw [numeral, ← List.cons_append, List.mem_append] at hm
  exact hm.elim hmark hzeros

end

theorem characterOf_toNat {c : Char} (h : c ≠ '\x00') : characterOf c.toNat = .ok c := by
  have hne : c.toNat ≠ 0 := by
    intro he
    exact h (Char.toNat_inj.1 he)
  have hvalid : c.toNat.isValidChar := c.valid
  rw [characterOf, if_neg hne, if_pos hvalid, Char.ofNat_toNat]

/-- Every character but the null can be given by its number. -/
theorem referent_numeral {radix : Radix} {digits : List Char} {c : Char} (notNull : c ≠ '\x00')
    (h : SpellsNumber radix digits c.toNat) (zeros offset : Nat) :
    referent offset (numeral radix zeros digits) = .ok c := by
  have hvalid := Text.toNat_valid c
  rw [numeral, referent, h.readCode_eq zeros (by omega)]
  show (characterOf c.toNat).mapError ReferenceFault.badNumber = .ok c
  rw [characterOf_toNat notNull]
  rfl

end XmlPipeline.Markup
