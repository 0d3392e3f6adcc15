import Mathlib.Data.List.Pairwise
import XmlPipeline.Files.Disk
import XmlPipeline.Proofs.PathOrder
set_option autoImplicit false

namespace XmlPipeline.Files

/-- A listing of a folder: entries with names that entries can have, each name once, and the same in
all folders below. -/
inductive IsTree : Listing → Prop where
  | nil : IsTree []
  | file {rest : Listing} (name : String) (content : List UInt8) (isName : IsName name)
      (fresh : ∀ entry ∈ rest, entry.1 ≠ name) (tree : IsTree rest) :
      IsTree ((name, .file content) :: rest)
  | folder {inner rest : Listing} (name : String) (isName : IsName name)
      (fresh : ∀ entry ∈ rest, entry.1 ≠ name) (below : IsTree inner) (tree : IsTree rest) :
      IsTree ((name, .folder inner) :: rest)

/-- Listings of one tree, which differ in the order of the entries of any of its folders. -/
inductive Rearranged : Listing → Listing → Prop where
  | nil : Rearranged [] []
  | keep {rest rest' : Listing} (entry : String × Entry) (later : Rearranged rest rest') :
      Rearranged (entry :: rest) (entry :: rest')
  | inside {inner inner' rest rest' : Listing} (name : String) (below : Rearranged inner inner')
      (later : Rearranged rest rest') :
      Rearranged ((name, .folder inner) :: rest) ((name, .folder inner') :: rest')
  | swap (a b : String × Entry) (rest : Listing) : Rearranged (a :: b :: rest) (b :: a :: rest)
  | trans {a b c : Listing} (first : Rearranged a b) (second : Rearranged b c) : Rearranged a c

theorem Rearranged.refl (entries : Listing) : Rearranged entries entries := by
  induction entries with
  | nil => exact .nil
  | cons entry rest ih => exact .keep entry ih

theorem Rearranged.of_perm {entries others : Listing} (h : entries.Perm others) :
    Rearranged entries others := by
  induction h with
  | nil => exact .nil
  | cons entry _ ih => exact .keep entry ih
  | swap a b rest => exact .swap b a rest
  | trans _ _ ih ih' => exact .trans ih ih'

/-- An entry at any depth below a folder, by the folders that lead to it and its name. Only those
folders are entered whose paths `opens` holds of. -/
inductive Below (opens : String → Bool) : String → Listing → List String → String → Entry → Prop
    where
  | here {folder : String} {entries : Listing} {name : String} {entry : Entry}
      (mem : (name, entry) ∈ entries) : Below opens folder entries [] name entry
  | inside {folder : String} {entries inner : Listing} {step : String} {steps : List String}
      {name : String} {entry : Entry} (mem : (step, .folder inner) ∈ entries)
      (opened : opens (join folder step) = true)
      (below : Below opens (join folder step) inner steps name entry) :
      Below opens folder entries (step :: steps) name entry

/-- A folder that is not entered is taken for a file. -/
def Entry.TakenForFile (opens : String → Bool) (path : String) : Entry → Prop
  | .file _ => True
  | .folder _ => opens path = false

namespace IsTree

variable {entries inner : Listing} {name : String} {entry other : Entry}

theorem of_mem (tree : IsTree entries) (mem : (name, entry) ∈ entries) :
    IsName name ∧ ∀ inner, entry = .folder inner → IsTree inner := by
  induction tree with
  | nil => cases mem
  | file first content isName _ _ ih =>
    rcases List.mem_cons.1 mem with he | hm
    · cases he
      exact ⟨isName, fun inner h => by cases h⟩
    · exact ih hm
  | folder first isName _ below _ _ ih =>
    rcases List.mem_cons.1 mem with he | hm
    · cases he
      refine ⟨isName, fun inner h => ?_⟩
      cases h
      exact below
    · exact ih hm

theorem isName_of_mem (tree : IsTree entries) (mem : (name, entry) ∈ entries) : IsName name :=
  (tree.of_mem mem).1

theorem inner_of_mem (tree : IsTree entries) (mem : (name, .folder inner) ∈ entries) :
    IsTree inner :=
  (tree.of_mem mem).2 inner rfl

theorem pairwise_ne (tree : IsTree entries) : entries.Pairwise fun a b => a.1 ≠ b.1 := by
  induction tree with
  | nil => exact .nil
  | file first content _ fresh _ ih => exact .cons (fun e he => (fresh e he).symm) ih
  | folder first _ fresh _ _ _ ih => exact .cons (fun e he => (fresh e he).symm) ih

theorem eq_of_mem (tree : IsTree entries) (mem : (name, entry) ∈ entries)
    (mem' : (name, other) ∈ entries) : entry = other := by
  have hsymm : Std.Symm fun a b : String × Entry => a.1 ≠ b.1 := ⟨fun _ _ h => h.symm⟩
  by_cases h : (name, entry) = (name, other)
  · cases h
    rfl
  · have hne : (name, entry).1 ≠ (name, other).1 := tree.pairwise_ne.forall mem mem' h
    exact absurd rfl hne

end IsTree

namespace Below

variable {opens : String → Bool} {folder name : String} {entries : Listing} {steps : List String}
  {entry other : Entry}

theorem isName (h : Below opens folder entries steps name entry) (tree : IsTree entries) :
    ∀ step ∈ steps ++ [name], IsName step := by
  induction h with
  | here mem => simpa using tree.isName_of_mem mem
  | inside mem _ _ ih =>
    rw [List.cons_append, List.forall_mem_cons]
    exact ⟨tree.isName_of_mem mem, ih (tree.inner_of_mem mem)⟩

theorem unique (tree : IsTree entries) (h : Below opens folder entries steps name entry)
    (h' : Below opens folder entries steps name other) : entry = other := by
  induction h with
  | here mem =>
    cases h' with
    | here mem' => exact tree.eq_of_mem mem mem'
  | inside mem _ _ ih =>
    cases h' with
    | inside mem' _ below' =>
      cases tree.eq_of_mem mem mem'
      exact ih (tree.inner_of_mem mem) below'

theorem exists_mem_head (h : Below opens folder entries steps name entry) :
    ∃ first ∈ entries, (steps ++ [name]).head? = some first.1 := by
  cases h with
  | here mem => exact ⟨_, mem, rfl⟩
  | inside mem => exact ⟨_, mem, rfl⟩

theorem mono {others : Listing} (h : Below opens folder entries steps name entry)
    (subset : entries ⊆ others) : Below opens folder others steps name entry := by
  cases h with
  | here mem => exact .here (subset mem)
  | inside mem opened below => exact .inside (subset mem) opened below

theorem of_imp {opens' : String → Bool} (h : Below opens folder entries steps name entry)
    (imp : ∀ path, opens path = true → opens' path = true) :
    Below opens' folder entries steps name entry := by
  induction h with
  | here mem => exact .here mem
  | inside mem opened _ ih => exact .inside mem (imp _ opened) ih

theorem of_all (h : Below (fun _ => true) folder entries steps name entry)
    (all : ∀ steps name inner, Below (fun _ => true) folder entries steps name (.folder inner) →
      opens (joinAll folder (steps ++ [name])) = true) :
    Below opens folder entries steps name entry := by
  induction h with
  | here mem => exact .here mem
  | inside mem _ _ ih =>
    refine .inside mem (all [] _ _ (.here mem)) (ih fun steps name inner below => ?_)
    exact all (_ :: steps) name inner (.inside mem rfl below)

theorem cons_iff {first : String × Entry} {rest : Listing} :
    Below opens folder (first :: rest) steps name entry ↔
      Below opens folder [first] steps name entry ∨ Below opens folder rest steps name entry := by
  constructor
  · intro h
    cases h with
    | here mem =>
      rcases List.mem_cons.1 mem with he | hm
      · exact .inl (.here (by rw [he]; exact List.mem_cons_self))
      · exact .inr (.here hm)
    | inside mem opened below =>
      rcases List.mem_cons.1 mem with he | hm
      · exact .inl (.inside (by rw [he]; exact List.mem_cons_self) opened below)
      · exact .inr (.inside hm opened below)
  · rintro (h | h)
    · exact h.mono (by simp)
    · exact h.mono (by simp)

theorem folder_iff {step : String} {inner : Listing} :
    Below opens folder [(step, .folder inner)] steps name entry ↔
      (steps = [] ∧ name = step ∧ entry = .folder inner) ∨
      ∃ later, steps = step :: later ∧ opens (join folder step) = true ∧
        Below opens (join folder step) inner later name entry := by
  constructor
  · intro h
    cases h with
    | here mem =>
      cases List.mem_singleton.1 mem
      exact .inl ⟨rfl, rfl, rfl⟩
    | inside mem opened below =>
      cases List.mem_singleton.1 mem
      exact .inr ⟨_, rfl, opened, below⟩
  · rintro (⟨rfl, rfl, rfl⟩ | ⟨later, rfl, opened, below⟩)
    · exact .here List.mem_cons_self
    · exact .inside List.mem_cons_self opened below

theorem file_iff {step : String} {content : List UInt8} :
    Below opens folder [(step, .file content)] steps name entry ↔
      steps = [] ∧ name = step ∧ entry = .file content := by
  constructor
  · intro h
    cases h with
    | here mem =>
      cases List.mem_singleton.1 mem
      exact ⟨rfl, rfl, rfl⟩
    | inside mem => simp at mem
  · rintro ⟨rfl, rfl, rfl⟩
    exact .here List.mem_cons_self

end Below

end XmlPipeline.Files
