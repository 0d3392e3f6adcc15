import Mathlib.Data.List.Nodup
import XmlPipeline.Proofs.PathOrder
import XmlPipeline.Suite.Discovery
set_option autoImplicit false

namespace XmlPipeline.Suite
open Files (IsName PathBefore join joinAll)

def Found.names (f : Found) : List String := f.folders ++ [f.name]

theorem namesLe_iff (as bs : List String) :
    namesLe as bs = true ↔ as = bs ∨ List.Lex (· < ·) as bs := by
  induction as generalizing bs with
  | nil => cases bs <;> simp [namesLe]
  | cons a as ih =>
    cases bs with
    | nil => simp [namesLe]
    | cons b bs =>
      rw [namesLe, List.cons_lex_cons_iff]
      by_cases hab : a = b
      · subst hab
        simp only [↓reduceIte, ih, List.cons.injEq, true_and, String.lt_irrefl, false_or]
      · simp [hab]

theorem namesLe_trans {as bs cs : List String} (h : namesLe as bs = true)
    (h' : namesLe bs cs = true) : namesLe as cs = true := by
  rw [namesLe_iff] at h h' ⊢
  rcases h with rfl | h
  · exact h'
  · rcases h' with rfl | h'
    · exact .inr h
    · exact .inr (List.lex_trans String.lt_trans h h')

theorem namesLe_total (as bs : List String) : (namesLe as bs || namesLe bs as) = true := by
  induction as generalizing bs with
  | nil => rfl
  | cons a as ih =>
    cases bs with
    | nil => rfl
    | cons b bs =>
      rw [namesLe, namesLe]
      by_cases hab : a = b
      · rw [if_pos hab, if_pos hab.symm]
        exact ih bs
      · rw [if_neg hab, if_neg (Ne.symm hab), Bool.or_eq_true, decide_eq_true_eq,
          decide_eq_true_eq]
        rcases String.le_total a b with h | h
        · exact .inl (Std.lt_of_le_of_ne h hab)
        · exact .inr (Std.lt_of_le_of_ne h (Ne.symm hab))

theorem lex_of_namesLe {as bs : List String} (h : namesLe as bs = true) (hne : as ≠ bs) :
    List.Lex (· < ·) as bs :=
  ((namesLe_iff as bs).1 h).resolve_left hne

theorem namesLe_antisymm {as bs : List String} (h : namesLe as bs = true)
    (h' : namesLe bs as = true) : as = bs := by
  by_cases hne : as = bs
  · exact hne
  · exact absurd (lex_of_namesLe h' (Ne.symm hne))
      (List.lex_asymm String.lt_asymm (lex_of_namesLe h hne))

theorem pairwise_mergeSort_le (found : List Found) :
    (found.mergeSort Found.le).Pairwise fun f g => namesLe f.names g.names = true := by
  have htrans : ∀ f g h : Found, f.le g = true → g.le h = true → f.le h = true :=
    fun _ _ _ hfg hgh => namesLe_trans hfg hgh
  have htotal : ∀ f g : Found, (f.le g || g.le f) = true :=
    fun f g => namesLe_total f.names g.names
  exact List.pairwise_mergeSort htrans htotal found

theorem mem_distinct (a : String) (as : List String) : a ∈ distinct as ↔ a ∈ as := by
  induction as with
  | nil => rfl
  | cons b bs ih =>
    rw [distinct]
    split
    · next hb =>
      rw [ih, List.mem_cons]
      constructor
      · exact .inr
      · rintro (rfl | h)
        · exact hb
        · exact h
    · rw [List.mem_cons, List.mem_cons, ih]

theorem nodup_distinct (as : List String) : (distinct as).Nodup := by
  induction as with
  | nil => exact .nil
  | cons b bs ih =>
    rw [distinct]
    split
    · exact ih
    · next hb => exact List.nodup_cons.2 ⟨fun h => hb ((mem_distinct b bs).1 h), ih⟩

def categoryNames (found : List Found) : List String :=
  (distinct (found.map Found.category)).mergeSort fun a b => decide (a ≤ b)

def filesOf (found : List Found) (name : String) : List Found :=
  (found.mergeSort Found.le).filter (·.category = name)

theorem categorize_eq (found : List Found) :
    categorize found =
      (categoryNames found).map fun name => ⟨name, (filesOf found name).map (·.path)⟩ := rfl

theorem mem_categoryNames (found : List Found) (name : String) :
    name ∈ categoryNames found ↔ ∃ f ∈ found, f.category = name := by
  rw [categoryNames, List.mem_mergeSort, mem_distinct, List.mem_map]

theorem pairwise_categoryNames (found : List Found) :
    (categoryNames found).Pairwise (· < ·) := by
  have htrans : ∀ a b c : String,
      decide (a ≤ b) = true → decide (b ≤ c) = true → decide (a ≤ c) = true := by
    intro a b c hab hbc
    rw [decide_eq_true_eq] at hab hbc ⊢
    exact String.le_trans hab hbc
  have htotal : ∀ a b : String, (decide (a ≤ b) || decide (b ≤ a)) = true := by
    intro a b
    simpa using String.le_total a b
  have hsorted := List.pairwise_mergeSort htrans htotal (distinct (found.map Found.category))
  have hnodup : (categoryNames found).Nodup :=
    (List.mergeSort_perm _ _).nodup_iff.2 (nodup_distinct _)
  refine (hsorted.and hnodup).imp fun {a b} h => ?_
  have hle : a ≤ b := by simpa using h.1
  exact Std.lt_of_le_of_ne hle h.2

theorem mem_filesOf (found : List Found) (name : String) (f : Found) :
    f ∈ filesOf found name ↔ f ∈ found ∧ f.category = name := by
  simp [filesOf]

theorem mem_categorize_iff (found : List Found) (name path : String) :
    (∃ c ∈ categorize found, c.name = name ∧ path ∈ c.paths) ↔
      ∃ f ∈ found, f.category = name ∧ f.path = path := by
  constructor
  · rintro ⟨c, hc, rfl, hpath⟩
    rw [categorize_eq, List.mem_map] at hc
    obtain ⟨name, -, rfl⟩ := hc
    obtain ⟨f, hf, rfl⟩ := List.mem_map.1 hpath
    rw [mem_filesOf] at hf
    exact ⟨f, hf.1, hf.2, rfl⟩
  · rintro ⟨f, hf, rfl, rfl⟩
    refine ⟨⟨f.category, (filesOf found f.category).map (·.path)⟩, ?_, rfl, ?_⟩
    · rw [categorize_eq]
      exact List.mem_map_of_mem ((mem_categoryNames found f.category).2 ⟨f, hf, rfl⟩)
    · exact List.mem_map_of_mem ((mem_filesOf found f.category f).2 ⟨hf, rfl⟩)

theorem paths_ne_nil {found : List Found} {c : Category} (h : c ∈ categorize found) :
    c.paths ≠ [] := by
  rw [categorize_eq, List.mem_map] at h
  obtain ⟨name, hname, rfl⟩ := h
  obtain ⟨f, hf, hcategory⟩ := (mem_categoryNames found name).1 hname
  exact List.ne_nil_of_mem (List.mem_map_of_mem ((mem_filesOf found name f).2 ⟨hf, hcategory⟩))

/-- Files that stand below one folder, where their names say. No file is among them twice. -/
structure Placed (root : String) (found : List Found) : Prop where
  path : ∀ f ∈ found, f.path = joinAll root f.names
  isName : ∀ f ∈ found, ∀ name ∈ f.names, IsName name
  nodup : found.Nodup

namespace Placed

variable {root : String} {found other : List Found}

theorem eq_of_names (h : Placed root found) {f g : Found} (hf : f ∈ found) (hg : g ∈ found)
    (same : f.names = g.names) : f = g := by
  have hpath : f.path = g.path := by rw [h.path f hf, h.path g hg, same]
  obtain ⟨folders, name, path⟩ := f
  obtain ⟨folders', name', path'⟩ := g
  obtain ⟨rfl, hname⟩ := List.append_inj' same rfl
  cases hname
  cases hpath
  rfl

theorem eq_of_path (h : Placed root found) {f g : Found} (hf : f ∈ found) (hg : g ∈ found)
    (same : f.path = g.path) : f = g := by
  rw [h.path f hf, h.path g hg] at same
  exact h.eq_of_names hf hg (Files.joinAll_inj (h.isName f hf) (h.isName g hg) same)

theorem nodup_filesOf (h : Placed root found) (name : String) : (filesOf found name).Nodup :=
  ((List.mergeSort_perm found Found.le).nodup_iff.2 h.nodup).filter _

theorem pairwise_filesOf (h : Placed root found) (name : String) :
    ((filesOf found name).map (·.path)).Pairwise PathBefore := by
  have hsorted : (filesOf found name).Pairwise fun f g => namesLe f.names g.names = true :=
    (pairwise_mergeSort_le found).filter _
  refine List.pairwise_map.2 ((hsorted.and (h.nodup_filesOf name)).imp_of_mem ?_)
  rintro f g hf hg ⟨hle, hne⟩
  rw [mem_filesOf] at hf hg
  have hlt : List.Lex (· < ·) f.names g.names :=
    lex_of_namesLe hle fun same => hne (h.eq_of_names hf.1 hg.1 same)
  rw [h.path f hf.1, h.path g hg.1]
  exact Files.joinAll_before_joinAll (h.isName f hf.1) (h.isName g hg.1) hlt

theorem nodup_paths (h : Placed root found) : ((categorize found).flatMap (·.paths)).Nodup := by
  rw [categorize_eq, List.flatMap_map, List.nodup_flatMap]
  constructor
  · intro name _
    refine (h.nodup_filesOf name).map_on fun f hf g hg same => ?_
    rw [mem_filesOf] at hf hg
    exact h.eq_of_path hf.1 hg.1 same
  · refine (pairwise_categoryNames found).imp fun {a b} hab path ha hb => ?_
    obtain ⟨f, hf, rfl⟩ := List.mem_map.1 ha
    obtain ⟨g, hg, same⟩ := List.mem_map.1 hb
    rw [mem_filesOf] at hf hg
    have heq : g = f := h.eq_of_path hg.1 hf.1 same
    have hname : a = b := by rw [← hf.2, ← hg.2, heq]
    exact String.ne_of_lt hab hname

/-- The order in which files were found does not show. -/
theorem categorize_eq_of_perm (h : Placed root found) (perm : found.Perm other) :
    categorize found = categorize other := by
  have hsorted : found.mergeSort Found.le = other.mergeSort Found.le := by
    refine List.Perm.eq_of_pairwise (fun f g hf hg hfg hgf => ?_)
      (pairwise_mergeSort_le found) (pairwise_mergeSort_le other)
      ((List.mergeSort_perm _ _).trans (perm.trans (List.mergeSort_perm _ _).symm))
    rw [List.mem_mergeSort] at hf hg
    exact h.eq_of_names hf (perm.mem_iff.2 hg) (namesLe_antisymm hfg hgf)
  have hnames : categoryNames found = categoryNames other := by
    have hmem : ∀ name, name ∈ categoryNames found ↔ name ∈ categoryNames other := by
      intro name
      rw [mem_categoryNames, mem_categoryNames]
      exact exists_congr fun f => and_congr_left' perm.mem_iff
    have hfound := pairwise_categoryNames found
    have hother := pairwise_categoryNames other
    refine List.Perm.eq_of_pairwise (fun a b _ _ hab hba => absurd hba (String.lt_asymm hab)) hfound hother
      ((List.perm_ext_iff_of_nodup (hfound.imp String.ne_of_lt) (hother.imp String.ne_of_lt)).2
        hmem)
  rw [categorize_eq, categorize_eq, hnames]
  simp only [filesOf, hsorted]

end Placed

end XmlPipeline.Suite
