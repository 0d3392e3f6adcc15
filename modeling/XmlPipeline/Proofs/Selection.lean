import XmlPipeline.Proofs.PathOrder
import XmlPipeline.Proofs.Trimming
import XmlPipeline.Suite.Selection
set_option autoImplicit false

/-!
Selection: the categories that are asked for. Main statement: what is selected are whole subtrees, as
the pieces of names tell them, and it is the same in whatever order, however often and in however
many parts they are asked for.
-/

namespace XmlPipeline.Files

theorem intercalate_pieces (cs : List Char) : ['/'].intercalate (pieces cs) = cs := by
  induction cs with
  | nil => rfl
  | cons c cs ih =>
    obtain ⟨p, ps, h⟩ := List.exists_cons_of_ne_nil (pieces_ne_nil cs)
    rw [h] at ih
    rw [pieces, h]
    by_cases hc : c = '/'
    · simp only [if_pos hc]
      rw [List.intercalate_cons_cons, ih, hc]
      rfl
    · simp only [if_neg hc]
      cases ps with
      | nil =>
        rw [List.intercalate_singleton] at ih ⊢
        rw [ih]
      | cons q ps =>
        rw [List.intercalate_cons_cons] at ih ⊢
        rw [List.cons_append, List.cons_append, ih]

theorem intercalate_append {a b : List (List Char)} (ha : a ≠ []) (hb : b ≠ []) :
    ['/'].intercalate (a ++ b) = ['/'].intercalate a ++ ['/'] ++ ['/'].intercalate b := by
  induction a with
  | nil => exact absurd rfl ha
  | cons p a ih =>
    cases a with
    | nil =>
      rw [List.singleton_append, List.intercalate_cons_of_ne_nil hb, List.intercalate_singleton]
    | cons q a =>
      have hrest := ih (List.cons_ne_nil q a)
      rw [List.cons_append] at hrest ⊢
      rw [List.cons_append, List.intercalate_cons_cons, hrest, List.intercalate_cons_cons]
      simp only [List.append_assoc]

/-- The pieces of a text begin those of another one if that is the same, or goes on with a slash. -/
theorem pieces_prefix_iff (a b : List Char) : pieces a <+: pieces b ↔ b = a ∨ a ++ ['/'] <+: b := by
  constructor
  · rintro ⟨rest, h⟩
    rw [← intercalate_pieces b, ← h]
    cases rest with
    | nil =>
      rw [List.append_nil]
      exact .inl (intercalate_pieces a)
    | cons p rest =>
      rw [intercalate_append (pieces_ne_nil a) (List.cons_ne_nil p rest), intercalate_pieces]
      exact .inr (List.prefix_append _ _)
  · rintro (rfl | ⟨rest, rfl⟩)
    · exact List.prefix_rfl
    · rw [List.append_assoc, List.singleton_append, pieces_append_slash]
      exact List.prefix_append _ _

end XmlPipeline.Files

namespace XmlPipeline.Suite
open Files (pieces)

structure Bare (request core : String) : Prop where
  around : ∃ before after, request.toList = before ++ core.toList ++ after ∧
    before.all (· = '/') ∧ after.all (· = '/')
  starts : core.toList.head? ≠ some '/'
  ends : core.toList.getLast? ≠ some '/'

/-- The names of a subtree: that of its root, and those below it. -/
inductive Under (core : String) : String → Prop where
  | self : Under core core
  | below (rest : String) : Under core (core ++ "/" ++ rest)

theorem under_iff_begins (core name : String) :
    Under core name ↔ name = core ∨ core.toList ++ ['/'] <+: name.toList := by
  constructor
  · intro h
    cases h with
    | self => exact .inl rfl
    | below rest =>
      rw [String.toList_append, String.toList_append]
      exact .inr (List.prefix_append _ _)
  · rintro (rfl | ⟨rest, hrest⟩)
    · exact .self
    · have hname : name = core ++ "/" ++ String.ofList rest := by
        rw [← String.toList_inj, ← hrest]
        simp
      rw [hname]
      exact .below _

theorem under_iff_pieces (core name : String) :
    Under core name ↔ pieces core.toList <+: pieces name.toList := by
  rw [under_iff_begins, Files.pieces_prefix_iff, String.toList_inj]

/-- The subtree without a name is the root, and what stands behind a slash. -/
theorem under_empty_iff (name : String) :
    Under "" name ↔ name = "" ∨ name.toList.head? = some '/' := by
  rw [under_iff_begins]
  cases h : name.toList with
  | nil => simp
  | cons c cs => simp [eq_comm]

theorem matchesRequest_iff (request name : String) :
    matchesRequest request name = true ↔ Under (requestName request) name := by
  rw [under_iff_begins, matchesRequest, Bool.or_eq_true, decide_eq_true_eq,
    List.isPrefixOf_iff_prefix]

theorem bare_requestName (request : String) : Bare request (requestName request) := by
  obtain ⟨after, hafter, hslashes⟩ :=
    Text.exists_dropEndWhile_append (· = '/') (request.toList.dropWhile (· = '/'))
  have hcore : (requestName request).toList =
      Text.dropEndWhile (· = '/') (request.toList.dropWhile (· = '/')) := String.toList_ofList
  refine ⟨⟨request.toList.takeWhile (· = '/'), after, ?_, List.all_takeWhile, hslashes⟩, ?_, ?_⟩
  · rw [hcore, List.append_assoc, ← hafter, List.takeWhile_append_dropWhile]
  · rw [hcore]
    intro hstarts
    have hnot := List.head?_dropWhile_not (· = '/') request.toList
    rw [hafter, List.head?_append, hstarts] at hnot
    simp at hnot
  · rw [hcore]
    intro hends
    simpa using Text.getLast?_dropEndWhile hends

theorem Bare.eq_requestName {request core : String} (h : Bare request core) :
    core = requestName request := by
  obtain ⟨⟨before, after, hrequest, hbefore, hafter⟩, hstarts, hends⟩ := h
  have hdrop : request.toList.dropWhile (· = '/') = (core.toList ++ after).dropWhile (· = '/') := by
    rw [hrequest, List.append_assoc]
    exact List.dropWhile_append_of_pos (List.all_eq_true.1 hbefore)
  rw [← String.toList_inj, requestName, String.toList_ofList, hdrop]
  cases hcore : core.toList with
  | nil =>
    rw [List.nil_append, (Text.dropWhile_eq_nil after).2 hafter]
    rfl
  | cons c cs =>
    rw [hcore] at hstarts hends
    have hc : c ≠ '/' := by simpa using hstarts
    rw [List.cons_append, List.dropWhile_cons_of_neg (by simpa using hc), ← List.cons_append,
      Text.dropEndWhile_append _ hafter, Text.dropEndWhile_eq_of_ne hends]

theorem bare_iff (request core : String) : Bare request core ↔ core = requestName request := by
  constructor
  · exact Bare.eq_requestName
  · rintro rfl
    exact bare_requestName request

/-- A category is asked for by its own name or by that of a folder that it is in. Without any
request every category is. -/
def Asked (requests : List String) (name : String) : Prop :=
  requests = [] ∨ ∃ r ∈ requests, name = requestName r ∨
    (requestName r ++ "/").toList <+: name.toList

theorem mem_select_iff (all : List Category) (requests : List String) (c : Category) :
    c ∈ select all requests ↔ c ∈ all ∧ Asked requests c.name := by
  unfold select Asked
  split
  · next h => simp [h]
  · next h =>
    simp [h, matchesRequest]

theorem select_sublist (all : List Category) (requests : List String) :
    (select all requests).Sublist all := by
  unfold select
  split
  · exact .refl all
  · exact List.filter_sublist

theorem select_of_ne_nil (all : List Category) {requests : List String} (h : requests ≠ []) :
    select all requests = all.filter fun c => requests.any (matchesRequest · c.name) := by
  rw [select, if_neg h]

theorem mem_select_iff_under (all : List Category) {requests : List String} (h : requests ≠ [])
    (c : Category) : c ∈ select all requests ↔
      c ∈ all ∧ ∃ request ∈ requests, ∃ core, Bare request core ∧ Under core c.name := by
  simp only [select_of_ne_nil all h, List.mem_filter, List.any_eq_true, matchesRequest_iff,
    bare_iff, exists_eq_left]

theorem select_congr (all : List Category) {requests others : List String}
    (h : ∀ r, r ∈ requests ↔ r ∈ others) : select all requests = select all others := by
  by_cases hrequests : requests = []
  · have hothers : others = [] := by simpa [hrequests, List.eq_nil_iff_forall_not_mem] using h
    rw [hrequests, hothers]
  · have hothers : others ≠ [] := by
      rintro rfl
      exact hrequests (List.eq_nil_iff_forall_not_mem.2 fun r hr => by simpa using (h r).1 hr)
    rw [select_of_ne_nil all hrequests, select_of_ne_nil all hothers]
    refine List.filter_congr fun c _ => ?_
    rw [Bool.eq_iff_iff, List.any_eq_true, List.any_eq_true]
    simp only [h]

theorem mem_select_append_iff (all : List Category) {requests others : List String}
    (h : requests ≠ []) (h' : others ≠ []) (c : Category) : c ∈ select all (requests ++ others) ↔
      c ∈ select all requests ∨ c ∈ select all others := by
  have happend : requests ++ others ≠ [] := List.append_ne_nil_of_left_ne_nil h others
  rw [select_of_ne_nil all h, select_of_ne_nil all h', select_of_ne_nil all happend]
  simp only [List.mem_filter, List.any_append, Bool.or_eq_true, and_or_left]

section Gathering

/-- Puts a category in its place among others, and in that of one with its name. -/
def place (c : Category) : List Category → List Category
  | [] => [c]
  | d :: rest =>
    if c.name < d.name then c :: d :: rest
    else if c.name = d.name then c :: rest
    else d :: place c rest

def gatherOne (all kept : List Category) (request : String) : List Category :=
  all.foldl (fun kept c => if matchesRequest request c.name then place c kept else kept) kept

def gather (all : List Category) (requests : List String) : List Category :=
  requests.foldl (gatherOne all) []

def Ordered (all : List Category) : Prop := all.Pairwise fun c d => c.name < d.name

theorem place_of_forall_lt {c : Category} {cs : List Category} (h : ∀ d ∈ cs, c.name < d.name) :
    place c cs = c :: cs := by
  cases cs with
  | nil => rfl
  | cons d cs => rw [place, if_pos (h d List.mem_cons_self)]

theorem place_of_lt {c d : Category} (h : d.name < c.name) (rest : List Category) :
    place c (d :: rest) = d :: place c rest := by
  have hne : c.name ≠ d.name := fun he => String.lt_irrefl _ (he ▸ h)
  rw [place, if_neg (String.lt_asymm h), if_neg hne]

/-- A category that is put among some that were kept of all is one more that is kept. -/
theorem place_filter {all : List Category} (ordered : Ordered all) {c : Category} (h : c ∈ all)
    (p : Category → Bool) : place c (all.filter p) = all.filter fun d => p d || d = c := by
  induction all with
  | nil => cases h
  | cons d rest ih =>
    obtain ⟨hfirst, hrest⟩ := List.pairwise_cons.1 ordered
    rcases List.mem_cons.1 h with rfl | hc
    · -- It comes before all that follow it, and none of them is the same.
      have hlt : ∀ e ∈ rest.filter p, c.name < e.name :=
        fun e he => hfirst e (List.mem_filter.1 he).1
      have hsame : rest.filter (fun e => p e || e = c) = rest.filter p := by
        refine List.filter_congr fun e he => ?_
        have hne : e ≠ c := by
          rintro rfl
          exact String.lt_irrefl _ (hfirst e he)
        simp [hne]
      have hkept : (c :: rest).filter (fun e => p e || e = c) = c :: rest.filter p := by
        rw [List.filter_cons_of_pos (by simp), hsame]
      rw [hkept]
      by_cases hp : p c = true
      · rw [List.filter_cons_of_pos hp, place, if_neg (String.lt_irrefl _), if_pos rfl]
      · rw [List.filter_cons_of_neg hp, place_of_forall_lt hlt]
    · have hlt : d.name < c.name := hfirst c hc
      have hne : d ≠ c := by
        rintro rfl
        exact String.lt_irrefl _ hlt
      have hplaced := ih hrest hc
      by_cases hp : p d = true
      · rw [List.filter_cons_of_pos hp, List.filter_cons_of_pos (by simp [hp]), place_of_lt hlt,
          hplaced]
      · rw [List.filter_cons_of_neg hp, List.filter_cons_of_neg (by simp [hp, hne]), hplaced]

variable {all : List Category}

theorem foldl_place_filter (ordered : Ordered all) {cs : List Category} (h : ∀ c ∈ cs, c ∈ all)
    (q p : Category → Bool) :
    cs.foldl (fun kept c => if q c then place c kept else kept) (all.filter p) =
      all.filter fun d => p d || decide (d ∈ cs) && q d := by
  induction cs generalizing p with
  | nil => simp
  | cons c cs ih =>
    have hrest : ∀ d ∈ cs, d ∈ all := fun d hd => h d (List.mem_cons_of_mem c hd)
    rw [List.foldl_cons]
    by_cases hq : q c = true
    · rw [if_pos hq, place_filter ordered (h c List.mem_cons_self), ih hrest]
      refine List.filter_congr fun d _ => ?_
      by_cases hd : d = c <;> simp [hd, hq]
    · rw [if_neg hq, ih hrest]
      refine List.filter_congr fun d _ => ?_
      by_cases hd : d = c <;> simp [hd, hq]

theorem gatherOne_filter (ordered : Ordered all) (request : String) (p : Category → Bool) :
    gatherOne all (all.filter p) request =
      all.filter fun c => p c || matchesRequest request c.name := by
  rw [gatherOne, foldl_place_filter ordered (fun _ => id) fun c => matchesRequest request c.name]
  refine List.filter_congr fun c hc => ?_
  simp [hc]

theorem foldl_gatherOne_filter (ordered : Ordered all) (requests : List String)
    (p : Category → Bool) : requests.foldl (gatherOne all) (all.filter p) =
      all.filter fun c => p c || requests.any (matchesRequest · c.name) := by
  induction requests generalizing p with
  | nil => simp
  | cons request requests ih =>
    rw [List.foldl_cons, gatherOne_filter ordered, ih]
    simp only [List.any_cons, Bool.or_assoc]

theorem gather_eq_select (ordered : Ordered all) {requests : List String} (h : requests ≠ []) :
    gather all requests = select all requests := by
  have hnone : all.filter (fun _ => false) = [] := by simp
  have hfold := foldl_gatherOne_filter ordered requests fun _ => false
  rw [hnone] at hfold
  rw [gather, hfold, select_of_ne_nil all h]
  simp only [Bool.false_or]

end Gathering

structure SelectsSubtrees (all : List Category) : Prop where
  everything : select all [] = all
  mem : ∀ requests, requests ≠ [] → ∀ c, c ∈ select all requests ↔
    c ∈ all ∧ ∃ request ∈ requests, ∃ core, Bare request core ∧ Under core c.name
  inPlace : ∀ requests, (select all requests).Sublist all
  congr : ∀ requests others, (∀ r, r ∈ requests ↔ r ∈ others) →
    select all requests = select all others
  union : ∀ requests others, requests ≠ [] → others ≠ [] → ∀ c,
    c ∈ select all (requests ++ others) ↔ c ∈ select all requests ∨ c ∈ select all others
  root : ∀ request, Bare request "" → ∀ c ∈ all, c.name.toList.head? ≠ some '/' →
    (c ∈ select all [request] ↔ c.name = "")
  gathered : Ordered all → ∀ requests, requests ≠ [] → gather all requests = select all requests

theorem mem_select_root_iff {all : List Category} {request : String} (h : Bare request "")
    {c : Category} (hc : c ∈ all) (noSlash : c.name.toList.head? ≠ some '/') :
    c ∈ select all [request] ↔ c.name = "" := by
  have hname : requestName request = "" := h.eq_requestName.symm
  simp [select, matchesRequest_iff, hname, under_empty_iff, hc, noSlash]

/-- A request selects the subtree of its name, whatever else is asked for. A name is that of a
subtree which another one is in if its pieces come first among the other's. -/
theorem subtrees_selected (all : List Category) : SelectsSubtrees all ∧
    (∀ request core, Bare request core ↔ core = requestName request) ∧
    ∀ core name, Under core name ↔ pieces core.toList <+: pieces name.toList := by
  refine ⟨?_, bare_iff, under_iff_pieces⟩
  exact {
    everything := rfl
    mem := fun _ h => mem_select_iff_under all h
    inPlace := select_sublist all
    congr := fun _ _ => select_congr all
    union := fun _ _ h h' => mem_select_append_iff all h h'
    root := fun _ h _ hc => mem_select_root_iff h hc
    gathered := fun ordered _ => gather_eq_select ordered }

def alike : List Category := [⟨"", ["a"]⟩, ⟨"err", ["b"]⟩, ⟨"err/x", ["c"]⟩, ⟨"errors", ["d"]⟩]

theorem subtrees_selected_alike :
    (Bare "//err/" "err" ∧ Ordered alike) ∧
    gather alike ["//err/", "err"] = select alike ["//err/", "err"] ∧
    select alike ["//err/", "err"] = [⟨"err", ["b"]⟩, ⟨"err/x", ["c"]⟩] := by
  obtain ⟨hselects, hbare, _⟩ := subtrees_selected alike
  have hordered : Ordered alike := by
    unfold Ordered alike
    decide
  exact ⟨⟨(hbare _ _).2 (by decide), hordered⟩,
    hselects.gathered hordered _ (List.cons_ne_nil _ _), by decide⟩

end XmlPipeline.Suite
