import XmlPipeline.Files.Path
import XmlPipeline.Proofs.Encoding
set_option autoImplicit false

namespace XmlPipeline.Files

inductive Component where
  | root
  | current
  | parent
  | name (text : String)
  deriving DecidableEq

namespace Component

def rank : Component → Nat
  | .root => 0
  | .current => 1
  | .parent => 2
  | .name _ => 3

def bytes : Component → List UInt8
  | .name text => Text.bytes text.toList
  | _ => []

/-- Names come last, in the order of their bytes. -/
def Before (a b : Component) : Prop := a.rank < b.rank ∨ (a.rank = b.rank ∧ a.bytes < b.bytes)

def ofPiece (piece : List Char) : Component :=
  if piece = ['.', '.'] then .parent else .name (String.ofList piece)

/-- Pieces that lead nowhere do not count. -/
def ofPieces (pieces : List (List Char)) : List Component :=
  (pieces.filter (!isIdle ·)).map ofPiece

theorem ofPieces_append (a b : List (List Char)) :
    ofPieces (a ++ b) = ofPieces a ++ ofPieces b := by
  simp [ofPieces]

theorem ofPieces_empty : ofPieces [[]] = [] := rfl

theorem name_before_name_iff (a b : String) : Before (.name a) (.name b) ↔ a < b := by
  simp [Before, rank, bytes, Text.bytes_lt_bytes_iff]

end Component

def lead (path : String) : List Component :=
  if isAbsolute path then [.root]
  else if (pieces path.toList).head? = some ['.'] then [.current]
  else []

def components (path : String) : List Component :=
  lead path ++ Component.ofPieces (pieces path.toList)

/-- The order of paths: the first component that differs decides. -/
def PathBefore (a b : String) : Prop := List.Lex Component.Before (components a) (components b)

structure IsName (name : String) : Prop where
  notEmpty : name ≠ ""
  notCurrent : name ≠ "."
  notParent : name ≠ ".."
  noSlash : '/' ∉ name.toList

theorem pieces_ne_nil (cs : List Char) : pieces cs ≠ [] := by
  cases cs with
  | nil => simp [pieces]
  | cons c cs =>
    rw [pieces]
    split
    · simp
    · split <;> simp

theorem pieces_append_slash (a b : List Char) : pieces (a ++ '/' :: b) = pieces a ++ pieces b := by
  induction a with
  | nil =>
    obtain ⟨p, ps, h⟩ := List.exists_cons_of_ne_nil (pieces_ne_nil b)
    simp [pieces, h]
  | cons c a ih =>
    obtain ⟨p, ps, h⟩ := List.exists_cons_of_ne_nil (pieces_ne_nil a)
    rw [List.cons_append, pieces, ih, pieces, h]
    by_cases hc : c = '/' <;> simp [hc]

theorem pieces_of_noSlash {cs : List Char} (h : '/' ∉ cs) : pieces cs = [cs] := by
  induction cs with
  | nil => rfl
  | cons c cs ih =>
    simp only [List.mem_cons, not_or] at h
    rw [pieces, ih h.2]
    simp [Ne.symm h.1]

theorem head?_pieces_append_slash (a b : List Char) :
    (pieces (a ++ '/' :: b)).head? = (pieces a).head? := by
  obtain ⟨p, ps, h⟩ := List.exists_cons_of_ne_nil (pieces_ne_nil a)
  rw [pieces_append_slash, h, List.cons_append, List.head?_cons, List.head?_cons]

namespace IsName

variable {name : String}

theorem isAbsolute (h : IsName name) : Files.isAbsolute name = false := by
  cases hl : name.toList with
  | nil => simp [Files.isAbsolute, hl]
  | cons c cs =>
    have hc : c ≠ '/' := fun e => h.noSlash (by simp [hl, e])
    simp [Files.isAbsolute, hl, hc]

theorem pieces_toList (h : IsName name) : pieces name.toList = [name.toList] :=
  pieces_of_noSlash h.noSlash

theorem toList_ne (h : IsName name) :
    name.toList ≠ [] ∧ name.toList ≠ ['.'] ∧ name.toList ≠ ['.', '.'] := by
  have hne : ∀ other : String, name ≠ other → name.toList ≠ other.toList :=
    fun other hother he => hother (String.toList_inj.1 he)
  exact ⟨hne "" h.notEmpty, hne "." h.notCurrent, hne ".." h.notParent⟩

theorem isIdle_toList (h : IsName name) : isIdle name.toList = false := by
  obtain ⟨hempty, hcurrent, _⟩ := h.toList_ne
  simp [isIdle, hempty, hcurrent]

theorem ofPieces_toList (h : IsName name) : Component.ofPieces [name.toList] = [.name name] := by
  simp [Component.ofPieces, h.isIdle_toList, Component.ofPiece, h.toList_ne.2.2]

/-- A name is joined behind a slash, which may stand there already, or stands by itself. -/
theorem join_cases (h : IsName name) (base : String) :
    (base = "" ∧ join base name = name) ∨
    (∃ start, base.toList = start ++ ['/'] ∧ (join base name).toList = start ++ '/' :: name.toList) ∨
    (join base name).toList = base.toList ++ '/' :: name.toList := by
  have hjoin : (join base name).toList = _ := toList_join h.isAbsolute
  rcases List.eq_nil_or_concat base.toList with hnil | ⟨start, last, hlast⟩
  · have hbase : base = "" := String.toList_inj.1 hnil
    subst hbase
    exact .inl ⟨rfl, String.toList_inj.1 (by simpa using hjoin)⟩
  · rw [List.concat_eq_append] at hlast
    by_cases hslash : last = '/'
    · refine .inr (.inl ⟨start, by rw [hlast, hslash], ?_⟩)
      simpa [hlast, hslash] using hjoin
    · refine .inr (.inr ?_)
      simpa [hlast, hslash] using hjoin

theorem lead_join (h : IsName name) (base : String) : lead (join base name) = lead base := by
  rcases h.join_cases base with ⟨rfl, hjoin⟩ | ⟨start, hbase, hjoin⟩ | hjoin
  · rw [hjoin, lead, h.isAbsolute, h.pieces_toList]
    simp [lead, Files.isAbsolute, pieces, h.toList_ne.2.1]
  · simp only [lead, isAbsolute_join, h.isAbsolute, Bool.false_or, hjoin, hbase,
      head?_pieces_append_slash]
  · simp only [lead, isAbsolute_join, h.isAbsolute, Bool.false_or, hjoin,
      head?_pieces_append_slash]

theorem components_join (h : IsName name) (base : String) :
    components (join base name) = components base ++ [.name name] := by
  rw [components, h.lead_join, components, List.append_assoc]
  congr 1
  rcases h.join_cases base with ⟨rfl, hjoin⟩ | ⟨start, hbase, hjoin⟩ | hjoin
  · rw [hjoin, h.pieces_toList, h.ofPieces_toList]
    rfl
  · rw [hjoin, hbase, pieces_append_slash, pieces_append_slash, h.pieces_toList,
      Component.ofPieces_append, Component.ofPieces_append, h.ofPieces_toList, pieces,
      Component.ofPieces_empty, List.append_nil]
  · rw [hjoin, pieces_append_slash, h.pieces_toList, Component.ofPieces_append,
      h.ofPieces_toList]

end IsName

def joinAll (base : String) (names : List String) : String := names.foldl join base

@[simp] theorem joinAll_cons (base name : String) (names : List String) :
    joinAll base (name :: names) = joinAll (join base name) names := rfl

theorem components_joinAll {names : List String} (h : ∀ name ∈ names, IsName name)
    (base : String) : components (joinAll base names) = components base ++ names.map .name := by
  induction names generalizing base with
  | nil => simp [joinAll]
  | cons name names ih =>
    rw [joinAll_cons, ih (fun n hn => h n (List.mem_cons_of_mem _ hn)),
      (h name List.mem_cons_self).components_join]
    simp

theorem joinAll_inj {base : String} {names others : List String}
    (h : ∀ name ∈ names, IsName name) (h' : ∀ name ∈ others, IsName name)
    (same : joinAll base names = joinAll base others) : names = others := by
  have hcomponents := congrArg components same
  rw [components_joinAll h, components_joinAll h', List.append_cancel_left_eq] at hcomponents
  exact (List.map_inj_right fun _ _ => Component.name.inj).1 hcomponents

theorem lex_append_left {α : Type} {r : α → α → Prop} (common : List α) {a b : List α}
    (h : List.Lex r a b) : List.Lex r (common ++ a) (common ++ b) := by
  induction common with
  | nil => exact h
  | cons _ _ ih => exact .cons ih

theorem lex_map_name {names others : List String} (h : List.Lex (· < ·) names others) :
    List.Lex Component.Before (names.map .name) (others.map .name) := by
  induction h with
  | nil => exact .nil
  | rel h => exact .rel ((Component.name_before_name_iff _ _).2 h)
  | cons _ ih => exact .cons ih

theorem joinAll_before_joinAll {base : String} {names others : List String}
    (h : ∀ name ∈ names, IsName name) (h' : ∀ name ∈ others, IsName name)
    (before : List.Lex (· < ·) names others) :
    PathBefore (joinAll base names) (joinAll base others) := by
  rw [PathBefore, components_joinAll h, components_joinAll h']
  exact lex_append_left _ (lex_map_name before)

end XmlPipeline.Files
