import XmlPipeline.Proofs.Discovery
import XmlPipeline.Proofs.Selection
set_option autoImplicit false

/-!
Stripping: the category of a test as it is read off its path. Main statement: a test's path without
its name, and without the path of the folder in which tests are looked for, is that of the folders
that lead to it.
-/

namespace XmlPipeline.Files

def Component.text : Component → String
  | .root => "/"
  | .current => "."
  | .parent => ".."
  | .name text => text

/-- What a path has behind another one, put together anew. -/
def stripPrefix? (base path : String) : Option String :=
  ((components path).dropPrefix? (components base)).map fun rest =>
    joinAll "" (rest.map Component.text)

theorem noSlash_of_mem_pieces {cs piece : List Char} (h : piece ∈ pieces cs) : '/' ∉ piece := by
  induction cs generalizing piece with
  | nil =>
    rw [pieces, List.mem_singleton] at h
    simp [h]
  | cons c cs ih =>
    obtain ⟨p, ps, hps⟩ := List.exists_cons_of_ne_nil (pieces_ne_nil cs)
    rw [hps] at ih
    rw [pieces, hps] at h
    by_cases hc : c = '/'
    · simp only [if_pos hc] at h
      rcases List.mem_cons.1 h with rfl | hmem
      · exact List.not_mem_nil
      · exact ih hmem
    · simp only [if_neg hc] at h
      rcases List.mem_cons.1 h with rfl | hmem
      · simp [Ne.symm hc, ih List.mem_cons_self]
      · exact ih (List.mem_cons_of_mem p hmem)

theorem pieces_intercalate {ps : List (List Char)} (notEmpty : ps ≠ [])
    (noSlash : ∀ piece ∈ ps, '/' ∉ piece) : pieces (['/'].intercalate ps) = ps := by
  induction ps with
  | nil => exact absurd rfl notEmpty
  | cons p ps ih =>
    have hp : pieces p = [p] := pieces_of_noSlash (noSlash p List.mem_cons_self)
    cases ps with
    | nil => rw [List.intercalate_singleton, hp]
    | cons q ps =>
      have hrest := ih (List.cons_ne_nil q ps) fun r hr => noSlash r (List.mem_cons_of_mem p hr)
      rw [List.intercalate_cons_cons, List.append_assoc, List.singleton_append,
        pieces_append_slash, hp, hrest, List.singleton_append]

theorem ofPieces_pieces_intercalate {ps : List (List Char)}
    (noSlash : ∀ piece ∈ ps, '/' ∉ piece) :
    Component.ofPieces (pieces (['/'].intercalate ps)) = Component.ofPieces ps := by
  cases ps with
  | nil => rfl
  | cons p ps => rw [pieces_intercalate (List.cons_ne_nil p ps) noSlash]

theorem intercalate_isPrefix {ps qs : List (List Char)} (h : qs <+: ps) :
    ['/'].intercalate qs <+: ['/'].intercalate ps := by
  obtain ⟨rest, rfl⟩ := h
  by_cases hqs : qs = []
  · simp [hqs, List.intercalate_nil]
  · by_cases hrest : rest = []
    · simp [hrest]
    · rw [intercalate_append hqs hrest, List.append_assoc]
      exact List.prefix_append _ _

theorem dropIdleEnd_isPrefix (ps : List (List Char)) : dropIdleEnd ps <+: ps := by
  have hsuffix := List.reverse_prefix.2 (List.dropWhile_suffix isIdle (l := ps.reverse))
  rwa [List.reverse_reverse] at hsuffix

theorem ofPieces_dropIdleEnd (ps : List (List Char)) :
    Component.ofPieces (dropIdleEnd ps) = Component.ofPieces ps := by
  have hdropped (qs : List (List Char)) :
      (qs.dropWhile isIdle).filter (!isIdle ·) = qs.filter (!isIdle ·) := by
    induction qs with
    | nil => rfl
    | cons q qs ih =>
      cases hq : isIdle q with
      | true => rw [List.dropWhile_cons_of_pos hq, ih, List.filter_cons_of_neg (by simp [hq])]
      | false => rw [List.dropWhile_cons_of_neg (by simp [hq])]
  rw [Component.ofPieces, Component.ofPieces, dropIdleEnd, List.filter_reverse, hdropped,
    List.filter_reverse, List.reverse_reverse]

theorem isIdle_last_dropIdleEnd {ps init : List (List Char)} {last : List Char}
    (h : dropIdleEnd ps = init ++ [last]) : isIdle last = false := by
  have hreverse : ps.reverse.dropWhile isIdle = last :: init.reverse := by
    rw [← List.reverse_inj, ← dropIdleEnd, h]
    simp
  have hhead := List.head?_dropWhile_not isIdle ps.reverse
  rw [hreverse] at hhead
  simpa using hhead

theorem exists_ofPieces_dropIdleEnd {ps : List (List Char)} (notEmpty : dropIdleEnd ps ≠ []) :
    ∃ c, Component.ofPieces (dropIdleEnd ps) =
      Component.ofPieces (dropIdleEnd ps).dropLast ++ [c] := by
  obtain ⟨init, last, hlast⟩ := (List.eq_nil_or_concat _).resolve_left notEmpty
  rw [List.concat_eq_append] at hlast
  have hbusy := isIdle_last_dropIdleEnd hlast
  refine ⟨Component.ofPiece last, ?_⟩
  rw [hlast, List.dropLast_concat, Component.ofPieces_append]
  simp [Component.ofPieces, hbusy]

theorem anchor_append (cs : List Char) : (anchor cs).1 ++ ['/'].intercalate (anchor cs).2 = cs := by
  unfold anchor
  split
  · rw [intercalate_pieces]
    rfl
  · rfl
  · next rest =>
    obtain ⟨p, ps, h⟩ := List.exists_cons_of_ne_nil (pieces_ne_nil rest)
    rw [h, List.intercalate_cons_cons, ← h, intercalate_pieces]
    rfl
  · rw [intercalate_pieces, List.nil_append]

theorem components_slash (cs : List Char) :
    components (String.ofList ('/' :: cs)) = .root :: Component.ofPieces (pieces cs) := by
  have hpieces : pieces ('/' :: cs) = [] :: pieces cs := pieces_append_slash [] cs
  simp [components, lead, isAbsolute, hpieces, Component.ofPieces, isIdle]

theorem components_dot_slash (cs : List Char) :
    components (String.ofList ('.' :: '/' :: cs)) =
      .current :: Component.ofPieces (pieces cs) := by
  have hpieces : pieces ('.' :: '/' :: cs) = ['.'] :: pieces cs := pieces_append_slash ['.'] cs
  simp [components, lead, isAbsolute, hpieces, Component.ofPieces, isIdle]

theorem components_of_noLead {cs : List Char} (notRoot : cs.head? ≠ some '/')
    (notHere : (pieces cs).head? ≠ some ['.']) :
    components (String.ofList cs) = Component.ofPieces (pieces cs) := by
  simp [components, lead, isAbsolute, notRoot, notHere]

theorem head?_pieces_ne_dot {cs : List Char} (notDot : cs ≠ ['.'])
    (notHere : ∀ rest, cs ≠ '.' :: '/' :: rest) : (pieces cs).head? ≠ some ['.'] := by
  intro h
  obtain ⟨later, hlater⟩ := List.head?_eq_some_iff.1 h
  have hcs := intercalate_pieces cs
  rw [hlater] at hcs
  cases later with
  | nil => exact notDot (by simpa using hcs.symm)
  | cons p later =>
    rw [List.intercalate_cons_cons] at hcs
    exact notHere _ hcs.symm

theorem components_anchor {cs : List Char} {qs : List (List Char)} (h : qs <+: (anchor cs).2) :
    components (String.ofList ((anchor cs).1 ++ ['/'].intercalate qs)) =
      components (String.ofList (anchor cs).1) ++ Component.ofPieces qs := by
  have hfree {rest : List Char} {qs : List (List Char)} (hqs : qs <+: pieces rest) :
      ∀ piece ∈ qs, '/' ∉ piece :=
    fun piece hpiece => noSlash_of_mem_pieces (hqs.subset hpiece)
  have hdot : components (String.ofList ['.']) = [.current] := by decide
  revert h
  unfold anchor
  split
  · next rest =>
    intro h
    have hroot := components_slash []
    rw [List.singleton_append, components_slash, ofPieces_pieces_intercalate (hfree h), hroot]
    rfl
  · intro h
    rw [List.prefix_nil] at h
    simp [h, Component.ofPieces]
  · next rest =>
    intro h
    rcases List.prefix_cons_iff.1 h with rfl | ⟨later, rfl, hlater⟩
    · simp [Component.ofPieces]
    · cases later with
      | nil => simp [Component.ofPieces, isIdle]
      | cons q later =>
        rw [List.intercalate_cons_cons, List.nil_append, List.singleton_append,
          List.singleton_append, components_dot_slash, ofPieces_pieces_intercalate (hfree hlater),
          hdot]
        rfl
  · next hslash hnotDot hnotHere =>
    intro h
    cases qs with
    | nil => rfl
    | cons q qs =>
      have hpieces := pieces_intercalate (List.cons_ne_nil q qs) (hfree h)
      have htext : ['/'].intercalate (q :: qs) <+: cs := by
        have hprefix := intercalate_isPrefix h
        rwa [intercalate_pieces] at hprefix
      have hempty : components (String.ofList []) = [] := by decide
      rw [List.nil_append, hempty, List.nil_append, components_of_noLead, hpieces]
      · intro hroot
        obtain ⟨rest, hrest⟩ := List.head?_eq_some_iff.1 hroot
        obtain ⟨more, hmore⟩ := htext
        exact hslash (rest ++ more) (by rw [← hmore, hrest, List.cons_append])
      · intro hhead
        refine head?_pieces_ne_dot hnotDot hnotHere ?_
        obtain ⟨more, hmore⟩ : q :: qs <+: pieces cs := h
        rw [← hmore, ← hhead, hpieces]
        rfl

theorem components_eq_anchor (path : String) : components path =
    components (String.ofList (anchor path.toList).1) ++
      Component.ofPieces (anchor path.toList).2 := by
  rw [← components_anchor (List.prefix_refl _), anchor_append, String.ofList_toList]

section Parent

variable {path folder : String}

/-- A path without its last step leads where the path leads but for that step. -/
theorem components_parent (h : parent? path = some folder) :
    components folder = (components path).dropLast := by
  have hpath := components_eq_anchor path
  rw [← ofPieces_dropIdleEnd] at hpath
  simp only [parent?] at h
  cases hsteps : dropIdleEnd (anchor path.toList).2 with
  | nil =>
    simp only [hsteps, Option.ite_none_right_eq_some, Option.some.injEq] at h
    obtain ⟨hdot, rfl⟩ := h
    rw [hpath, hsteps, hdot]
    decide
  | cons p ps =>
    obtain ⟨c, hc⟩ := exists_ofPieces_dropIdleEnd (hsteps ▸ List.cons_ne_nil p ps)
    have hinit : (p :: ps).dropLast <+: p :: ps := List.dropLast_prefix _
    have hprefix : dropIdleEnd (p :: ps).dropLast <+: (anchor path.toList).2 :=
      (dropIdleEnd_isPrefix _).trans (hinit.trans
        (hsteps ▸ dropIdleEnd_isPrefix (anchor path.toList).2))
    simp only [hsteps, Option.some.injEq] at h
    rw [hsteps] at hc
    rw [← h, components_anchor hprefix, ofPieces_dropIdleEnd, hpath, hsteps, hc,
      ← List.append_assoc, List.dropLast_concat]

theorem name_notMem_components_start (name : String) (cs : List Char) :
    Component.name name ∉ components (String.ofList (anchor cs).1) := by
  have hroot : components (String.ofList ['/']) = [.root] := by decide
  have hhere : components (String.ofList ['.']) = [.current] := by decide
  have hempty : components (String.ofList []) = [] := by decide
  unfold anchor
  split <;> simp [hroot, hhere, hempty]

theorem parent?_ne_none {name : String} (h : Component.name name ∈ components path) :
    parent? path ≠ none := by
  rw [components_eq_anchor, ← ofPieces_dropIdleEnd] at h
  intro hnone
  simp only [parent?] at hnone
  cases hsteps : dropIdleEnd (anchor path.toList).2 with
  | cons p ps => simp [hsteps] at hnone
  | nil =>
    have hfree := name_notMem_components_start name path.toList
    simp [hsteps, Component.ofPieces, hfree] at h

end Parent

theorem IsName.components_parent? {name : String} (h : IsName name) (base : String) :
    ∃ folder, parent? (join base name) = some folder ∧ components folder = components base := by
  have hjoin := h.components_join base
  have hmem : Component.name name ∈ components (join base name) := by
    rw [hjoin]
    exact List.mem_append_right _ List.mem_cons_self
  obtain ⟨folder, hfolder⟩ := Option.ne_none_iff_exists'.1 (parent?_ne_none hmem)
  exact ⟨folder, hfolder, by rw [components_parent hfolder, hjoin, List.dropLast_concat]⟩

/-- A path to which a slash is added before a name is joined onto it. -/
def EndsInName (path : String) : Prop := path.toList.getLast?.all (· = '/') = false

theorem IsName.endsInName_append {name : String} (h : IsName name) (start : String) :
    EndsInName (start ++ name) := by
  obtain ⟨init, last, hlast⟩ := (List.eq_nil_or_concat name.toList).resolve_left h.toList_ne.1
  rw [List.concat_eq_append] at hlast
  have hslash : last ≠ '/' := by
    rintro rfl
    exact h.noSlash (by simp [hlast])
  simp [EndsInName, hlast, hslash]

theorem joinAll_eq_intercalate {base : String} {names : List String} (ends : EndsInName base)
    (isName : ∀ name ∈ names, IsName name) :
    joinAll base names = "/".intercalate (base :: names) := by
  induction names generalizing base with
  | nil => simp [joinAll]
  | cons name names ih =>
    have hname := isName name List.mem_cons_self
    have hlast : base.toList.getLast?.all (· = '/') = false := ends
    have hjoin : join base name = base ++ "/" ++ name := by
      rw [join, if_neg (by simp [hname.isAbsolute]), if_neg (by simp [hlast])]
    have hrest := ih (hname.endsInName_append (base ++ "/"))
      fun n hn => isName n (List.mem_cons_of_mem name hn)
    rw [joinAll_cons, hjoin, hrest, String.intercalate_cons_cons]
    cases names with
    | nil => simp
    | cons n names => simp only [String.intercalate_cons_cons, String.append_assoc]

theorem joinAll_empty {names : List String} (isName : ∀ name ∈ names, IsName name) :
    joinAll "" names = "/".intercalate names := by
  cases names with
  | nil => rfl
  | cons name names =>
    have hname := isName name List.mem_cons_self
    have hends := hname.endsInName_append ""
    have hfirst : join "" name = name := by simp [join]
    rw [String.empty_append] at hends
    rw [joinAll_cons, hfirst, joinAll_eq_intercalate hends
      fun n hn => isName n (List.mem_cons_of_mem name hn)]

theorem stripPrefix?_of_components {base path : String} {names : List String}
    (isName : ∀ name ∈ names, IsName name)
    (h : components path = components base ++ names.map .name) :
    stripPrefix? base path = some ("/".intercalate names) := by
  have htexts : (names.map Component.name).map Component.text = names := by
    rw [List.map_map]
    exact List.map_id names
  rw [stripPrefix?, h, List.dropPrefix?_append_of_beq _ (beq_self_eq_true _), Option.map_some,
    htexts, joinAll_empty isName]

end XmlPipeline.Files

namespace XmlPipeline.Suite
open Files (IsTree Listing Storage joinAll parent? stripPrefix?)

/-- The category of a file as its path tells it: what the folder of the file has behind the root,
with a slash for each backslash. -/
def strippedCategory (root path : String) : String :=
  String.ofList ((((parent? path).bind (stripPrefix? root)).getD "").toList.map fun c =>
    if c = '\\' then '/' else c)

theorem Placed.strippedCategory {root : String} {found : List Found} (h : Placed root found)
    {f : Found} (hf : f ∈ found) : strippedCategory root f.path = f.category := by
  have hnames : ∀ name ∈ f.folders ++ [f.name], Files.IsName name := h.isName f hf
  obtain ⟨folder, hparent, hfolder⟩ := (hnames f.name (by simp)).components_parent?
    (joinAll root f.folders)
  have hpath : f.path = Files.join (joinAll root f.folders) f.name := by
    rw [h.path f hf, Found.names, joinAll, List.foldl_append]
    rfl
  have hfolders : ∀ name ∈ f.folders, Files.IsName name :=
    fun name hname => hnames name (List.mem_append_left _ hname)
  rw [Files.components_joinAll hfolders] at hfolder
  rw [Suite.strippedCategory, hpath, hparent, Option.bind_some,
    Files.stripPrefix?_of_components hfolders hfolder]
  rfl

theorem category_of_mem_foundIn {root : String} {entries : Listing} (tree : IsTree entries)
    {f : Found} (hf : f ∈ foundIn root [] entries) :
    f.category = strippedCategory root f.path :=
  ((placed_foundIn root tree).strippedCategory hf).symm

/-- What is discovered is sorted by what the paths tell. -/
theorem name_of_mem_discover {storage : Storage} {root : String}
    (trees : ∀ entries, storage.folder? root = some entries → IsTree entries) {c : Category}
    (hc : c ∈ discover storage root) {path : String} (hpath : path ∈ c.paths) :
    c.name = strippedCategory root path := by
  obtain ⟨f, hf, hname, rfl⟩ := (mem_categorize_iff _ _ _).1 ⟨c, hc, rfl, hpath⟩
  rw [← hname, category_of_mem_foundIn (isTree_listed trees) hf]

end XmlPipeline.Suite
