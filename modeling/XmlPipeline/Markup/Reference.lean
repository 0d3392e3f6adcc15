import XmlPipeline.Text.Utf8
set_option autoImplicit false

namespace XmlPipeline.Markup

inductive NumberFault where
  | sign
  | empty
  | badDigit
  | tooLarge
  | null
  | notACharacter (code : Nat)
  deriving DecidableEq, Repr

def NumberFault.message : NumberFault → String
  | .sign => "unexpected number sign"
  | .empty => "cannot parse integer from empty string"
  | .badDigit => "invalid digit found in string"
  | .tooLarge => "number too large to fit in target type"
  | .null => "0x0 character is not permitted in XML"
  | .notACharacter code => "\x60" ++ toString code ++ "\x60 is not a valid codepoint"

/-- Why a reference cannot be read. Offsets are in bytes from the start of the text it is in. -/
inductive ReferenceFault where
  | unterminated (start stop : Nat)
  | unrecognized (start stop : Nat) (name : String)
  | badNumber (fault : NumberFault)
  deriving DecidableEq, Repr

def ReferenceFault.message : ReferenceFault → String
  | .unterminated start stop =>
    "Error while escaping character at range " ++ toString start ++ ".." ++ toString stop ++
      ": Cannot find ';' after '&'"
  | .unrecognized start stop name =>
    "at " ++ toString start ++ ".." ++ toString stop ++ ": unrecognized entity \x60" ++ name ++
      "\x60"
  | .badNumber fault => "invalid character reference: " ++ fault.message

def digitValue? (radix : Nat) (c : Char) : Option Nat :=
  let value? :=
    if '0' ≤ c ∧ c ≤ '9' then some (c.toNat - '0'.toNat)
    else if 'a' ≤ c ∧ c ≤ 'f' then some (c.toNat - 'a'.toNat + 10)
    else if 'A' ≤ c ∧ c ≤ 'F' then some (c.toNat - 'A'.toNat + 10)
    else none
  value?.filter (· < radix)

def readDigits (radix : Nat) : Nat → List Char → Except NumberFault Nat
  | value, [] => .ok value
  | value, c :: rest =>
    match digitValue? radix c with
    | none => .error .badDigit
    | some d =>
      if value * radix + d < 0x100000000 then readDigits radix (value * radix + d) rest
      else .error .tooLarge

def readNumber (radix : Nat) (digits : List Char) : Except NumberFault Nat :=
  if digits.head? = some '+' ∨ digits.head? = some '-' then .error .sign
  else if digits = [] then .error .empty
  else readDigits radix 0 digits

def readCode : List Char → Except NumberFault Nat
  | 'x' :: digits => readNumber 16 digits
  | digits => readNumber 10 digits

def characterOf (code : Nat) : Except NumberFault Char :=
  if code = 0 then .error .null
  else if code.isValidChar then .ok (Char.ofNat code)
  else .error (.notACharacter code)

def namedCharacter? (name : List Char) : Option Char :=
  if name = "lt".toList then some '<'
  else if name = "gt".toList then some '>'
  else if name = "amp".toList then some '&'
  else if name = "apos".toList then some '\''
  else if name = "quot".toList then some '"'
  else none

def referent (offset : Nat) : List Char → Except ReferenceFault Char
  | '#' :: number => ((readCode number).bind characterOf).mapError .badNumber
  | body =>
    match namedCharacter? body with
    | some c => .ok c
    | none => .error (.unrecognized (offset + 1) (offset + 1 + Text.size body) (String.ofList body))

/-- What stands between an `&` and the `;` that ends it, and what follows. No other `&` may come
first. -/
def cutReference : List Char → Option (List Char × List Char)
  | [] => none
  | c :: rest =>
    if c = ';' then some ([], rest)
    else if c = '&' then none
    else (cutReference rest).map fun (body, tail) => (c :: body, tail)

theorem eq_of_cutReference {cs body tail : List Char} (h : cutReference cs = some (body, tail)) :
    body ++ ';' :: tail = cs := by
  induction cs generalizing body with
  | nil => simp [cutReference] at h
  | cons c cs ih =>
    rw [cutReference] at h
    split at h
    · simp_all
    · split at h
      · simp at h
      · obtain ⟨⟨b, t⟩, hb, he⟩ := Option.map_eq_some_iff.1 h
        simp only [Prod.mk.injEq] at he
        obtain ⟨rfl, rfl⟩ := he
        simp [← ih hb]

def resolveFrom (offset : Nat) : List Char → Except ReferenceFault (List Char)
  | [] => .ok []
  | c :: rest =>
    if c = '&' then
      match h : cutReference rest with
      | none => .error (.unterminated offset (offset + 1 + Text.size rest))
      | some (body, tail) =>
        have : tail.length < rest.length + 1 := by
          have := congrArg List.length (eq_of_cutReference h)
          simp only [List.length_append, List.length_cons] at this
          omega
        (referent offset body).bind fun c =>
          (resolveFrom (offset + Text.size body + 2) tail).map (c :: ·)
    else (resolveFrom (offset + c.utf8Size) rest).map (c :: ·)
termination_by cs => cs.length

def resolve (run : String) : Except ReferenceFault String :=
  (resolveFrom 0 run.toList).map String.ofList

end XmlPipeline.Markup
