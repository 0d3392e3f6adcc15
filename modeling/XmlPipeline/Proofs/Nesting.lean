import XmlPipeline.Proofs.Building
import XmlPipeline.Proofs.Places
set_option autoImplicit false

namespace XmlPipeline.Markup

def Event.openNames (names : List String) : Event → List String
  | .start name => name :: names
  | .finish _ => names.tail
  | _ => names

def openNames (names : List String) (events : List (Located Event)) : List String :=
  events.foldl (fun names e => e.value.openNames names) names

/-- In no place is an element closed that was not open. -/
def Nested : List String → List (Located Event) → Prop
  | _, [] => True
  | names, e :: later =>
    (∀ name, e.value = .finish name → names ≠ []) ∧ Nested (e.value.openNames names) later

theorem Item.Means.openNames_eq {names names' : List String} {item : Item} {event : Event}
    (h : Means names item event names') : names' = event.openNames names := by
  cases h <;> rfl

theorem Item.Means.ne_nil {names names' : List String} {item : Item} {name : String}
    (h : Means names item (.finish name) names') : names ≠ [] := by
  cases h
  simp

theorem nested_from (names : List String) (offset : Nat) (cs : List Char) :
    Nested names (Reading.from names offset cs).events := by
  fun_induction Reading.from names offset cs with
  | case1 => trivial
  | case2 => trivial
  | case3 => trivial
  | case4 names offset c cs item rest hn event names' he _ stop later ih =>
    have hm := Item.means_of_event he
    refine ⟨?_, ?_⟩
    · rintro name rfl
      exact hm.ne_nil
    · rw [← hm.openNames_eq]
      exact ih

theorem Nested.of_append {names : List String} {events later : List (Located Event)}
    (h : Nested names (events ++ later)) : Nested (openNames names events) later := by
  induction events generalizing names with
  | nil => exact h
  | cons e events ih => exact ih h.2

namespace Builder

def names (b : Builder) : List String := b.openElements.map Element.name

theorem names_attach {b b' : Builder} {e : Element} (h : b.attach e = .ok b') :
    b'.names = b.names := by
  unfold attach at h
  split at h
  · cases h
    cases ho : b.openElements <;> simp [names, append, ho]
  · split at h
    · cases h
    · cases h
      rfl

theorem names_text {b b' : Builder} {content : String} {span : Span}
    (h : b.text content span = .ok b') : b'.names = b.names := by
  unfold text at h
  split at h
  · cases h
    cases ho : b.openElements <;> simp [names, append, ho]
  · split at h
    · cases h
      rfl
    · cases h

theorem names_step {b b' : Builder} {e : Located Event} (h : b.step e = .ok b') :
    b'.names = e.value.openNames b.names := by
  obtain ⟨event, span⟩ := e
  cases event with
  | start name =>
    cases h
    rfl
  | empty name => exact names_attach h
  | finish name =>
    cases ho : b.openElements with
    | nil => simp [step, ho] at h
    | cons inner outer =>
      simp only [step, ho] at h
      rw [names_attach h]
      simp [names, ho, Event.openNames]
  | text run =>
    cases hr : resolve run with
    | error fault => simp [step, hr] at h
    | ok content =>
      simp only [step, hr] at h
      exact names_text h
  | verbatim content => exact names_text h
  | aside =>
    cases h
    rfl

theorem names_run {b b' : Builder} {events : List (Located Event)}
    (h : b.run events = (b', none)) : b'.names = openNames b.names events := by
  induction events generalizing b with
  | nil =>
    simp only [run, Prod.mk.injEq, and_true] at h
    rw [h]
    rfl
  | cons e later ih =>
    obtain ⟨b₁, hs, hr⟩ := run_cons_eq_ok.1 h
    rw [ih hr, names_step hs]
    rfl

end Builder

end XmlPipeline.Markup
