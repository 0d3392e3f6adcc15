import XmlPipeline.Text.Utf8
set_option autoImplicit false

namespace XmlPipeline.Files

def isAbsolute (path : String) : Bool := path.toList.head? = some '/'

/-- A path as it is meant in a folder. An absolute path means itself everywhere. -/
def join (base path : String) : String :=
  if isAbsolute path then path
  else if base.toList.getLast?.all (· = '/') then base ++ path
  else base ++ "/" ++ path

def pieces : List Char → List (List Char)
  | [] => [[]]
  | c :: cs =>
    match pieces cs with
    | [] => [[c]]
    | p :: ps => if c = '/' then [] :: p :: ps else (c :: p) :: ps

def isIdle (piece : List Char) : Bool := piece = [] ∨ piece = ['.']

/-- What a path starts from, the root or the folder itself, and the pieces after it. -/
def anchor : List Char → List Char × List (List Char)
  | '/' :: cs => (['/'], pieces cs)
  | ['.'] => (['.'], [])
  | '.' :: '/' :: cs => (['.'], [] :: pieces cs)
  | cs => ([], pieces cs)

def dropIdleEnd (ps : List (List Char)) : List (List Char) :=
  (ps.reverse.dropWhile isIdle).reverse

def fileName? (path : String) : Option String :=
  (dropIdleEnd (anchor path.toList).2).getLast?.bind fun name =>
    if name = ['.', '.'] then none else some (String.ofList name)

/-- A path without its last piece that leads somewhere. The root and the empty path have none. -/
def parent? (path : String) : Option String :=
  let (start, ps) := anchor path.toList
  match dropIdleEnd ps with
  | [] => if start = ['.'] then some "" else none
  | p :: rest =>
    some (String.ofList (start ++ ['/'].intercalate (dropIdleEnd (p :: rest).dropLast)))

theorem isAbsolute_join (base path : String) :
    isAbsolute (join base path) = (isAbsolute path || isAbsolute base) := by
  unfold join
  split
  · next h => simp [h]
  · next h =>
    cases hb : base.toList with
    | nil =>
      have : base = "" := by rw [← String.toList_inj]; simpa using hb
      subst this
      simp_all [isAbsolute]
    | cons c cs => split <;> simp_all [isAbsolute]

theorem toList_join {base path : String} (h : isAbsolute path = false) :
    (join base path).toList =
      base.toList ++ (if base.toList.getLast?.all (· = '/') then [] else ['/']) ++ path.toList := by
  unfold join
  rw [if_neg (by simp [h])]
  split <;> simp_all

theorem join_assoc (a b c : String) : join (join a b) c = join a (join b c) := by
  by_cases hc : isAbsolute c = true
  · simp [join, hc]
  have habc := isAbsolute_join b c
  by_cases hb : isAbsolute b = true
  · have hj : join a b = b := by simp [join, hb]
    have hbc : isAbsolute (join b c) = true := by simp [habc, hb]
    rw [hj, join.eq_1 a, if_pos hbc]
  have hbc : isAbsolute (join b c) = false := by simp_all
  simp only [Bool.not_eq_true] at hb hc
  apply String.toList_inj.1
  rw [toList_join hc, toList_join hbc, toList_join hb, toList_join hc]
  cases hl : b.toList with
  | nil => simp; split <;> simp_all
  | cons d ds => simp [List.getLast?_cons]

end XmlPipeline.Files
