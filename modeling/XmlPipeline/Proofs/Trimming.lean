import XmlPipeline.Text.Blank
set_option autoImplicit false

namespace XmlPipeline.Text

def Padded (core text : List Char) : Prop :=
  ∃ before after, text = before ++ core ++ after ∧ before.all isBlank ∧ after.all isBlank

/-- Two texts that differ at most in the blanks around them. -/
def SameButForBlanks (a b : String) : Prop := ∃ core, Padded core a.toList ∧ Padded core b.toList

theorem dropEndWhile_append {p : Char → Bool} (cs : List Char) {after : List Char}
    (h : after.all p = true) : dropEndWhile p (cs ++ after) = dropEndWhile p cs := by
  have hall : ∀ c ∈ after.reverse, p c = true := by simpa using h
  rw [dropEndWhile, List.reverse_append, List.dropWhile_append_of_pos hall, dropEndWhile]

theorem trim_of_padded {core text : List Char} (h : Padded core text) : trim text = trim core := by
  obtain ⟨before, after, rfl, hbefore, hafter⟩ := h
  have hall : ∀ c ∈ before, isBlank c = true := by simpa using hbefore
  have hdrop : after.dropWhile isBlank = [] := (dropWhile_eq_nil after).2 hafter
  rw [trim, List.append_assoc, List.dropWhile_append_of_pos hall, List.dropWhile_append, trim]
  split
  · next hcore =>
    rw [hdrop, List.isEmpty_iff.1 hcore]
  · exact dropEndWhile_append _ hafter

theorem exists_dropEndWhile_append (p : Char → Bool) (cs : List Char) :
    ∃ after, cs = dropEndWhile p cs ++ after ∧ after.all p = true := by
  have hsplit := List.takeWhile_append_dropWhile (p := p) (l := cs.reverse)
  refine ⟨(cs.reverse.takeWhile p).reverse, ?_, ?_⟩
  · rw [dropEndWhile, ← List.reverse_append, hsplit, List.reverse_reverse]
  · rw [List.all_reverse]
    exact List.all_takeWhile

theorem mem_dropEndWhile {p : Char → Bool} {c : Char} {cs : List Char} (h : c ∈ cs)
    (hp : p c = false) : c ∈ dropEndWhile p cs := by
  obtain ⟨after, hcs, hall⟩ := exists_dropEndWhile_append p cs
  rw [hcs, List.mem_append] at h
  rcases h with hkept | hcut
  · exact hkept
  · rw [List.all_eq_true.1 hall c hcut] at hp
    cases hp

theorem getLast?_dropEndWhile {p : Char → Bool} {c : Char} {cs : List Char}
    (h : (dropEndWhile p cs).getLast? = some c) : p c = false := by
  rw [dropEndWhile, List.getLast?_reverse] at h
  have hnot := List.head?_dropWhile_not p cs.reverse
  rw [h] at hnot
  simpa using hnot

theorem padded_trim (cs : List Char) : Padded (trim cs) cs := by
  obtain ⟨after, hafter, hblank⟩ := exists_dropEndWhile_append isBlank (cs.dropWhile isBlank)
  refine ⟨cs.takeWhile isBlank, after, ?_, List.all_takeWhile, hblank⟩
  rw [trim, List.append_assoc, ← hafter, List.takeWhile_append_dropWhile]

theorem trim_eq_trim_iff (a b : String) :
    trim a.toList = trim b.toList ↔ SameButForBlanks a b := by
  constructor
  · intro h
    refine ⟨trim a.toList, padded_trim _, ?_⟩
    rw [h]
    exact padded_trim _
  · rintro ⟨core, ha, hb⟩
    rw [trim_of_padded ha, trim_of_padded hb]

theorem dropEndWhile_eq_self {p : Char → Bool} {cs : List Char}
    (h : ∀ c, cs.getLast? = some c → p c = false) : dropEndWhile p cs = cs := by
  rcases List.eq_nil_or_concat cs with rfl | ⟨init, c, rfl⟩
  · rfl
  · rw [List.concat_eq_append] at h ⊢
    have hc : p c = false := h c (by simp)
    simp [dropEndWhile, hc]

theorem dropEndWhile_eq_of_ne {x : Char} {cs : List Char} (h : cs.getLast? ≠ some x) :
    dropEndWhile (· = x) cs = cs := by
  apply dropEndWhile_eq_self
  intro c hc
  rw [decide_eq_false_iff_not]
  rintro rfl
  exact h hc

end XmlPipeline.Text
