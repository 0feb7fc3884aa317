/-!
# Options on a command line

An option has a long name and may have a short one of a single letter; it either stands alone or
takes a value. Short options can be joined in one word, and a value can be attached to its option
or be the next word, whatever that looks like. Two dashes end the options. Long names are never
abbreviated.
-/

namespace WordMachine.Command

/-- An option, known to the command by a key. -/
structure Switch (κ : Type) where
  key : κ
  long : String
  short : Option Char := none
  takesValue : Bool := false

/-- Options found in a word, and the one, if any, whose value has to be the next word. -/
structure Found (κ : Type) where
  given : List (κ × String) := []
  open? : Option κ := none

variable {κ : Type}

/-- Short options joined in a word. Once one of them takes a value, the rest of the word is it. -/
def readShort (switches : List (Switch κ)) : List Char → Option (Found κ)
  | [] => some {}
  | c :: rest =>
    match switches.find? (·.short == some c) with
    | none => none
    | some s =>
      if s.takesValue then
        if rest.isEmpty then some { open? := some s.key }
        else some { given := [(s.key, String.ofList rest)] }
      else (readShort switches rest).map fun f => { f with given := (s.key, "") :: f.given }

/-- A long option, with the value after its equals sign if it has one. -/
def readLong (s : Switch κ) (value : Option String) : Option (Found κ) :=
  match s.takesValue, value with
  | true, some v => some { given := [(s.key, v)] }
  | true, none => some { open? := some s.key }
  | false, none => some { given := [(s.key, "")] }
  | false, some _ => none

/-- A word that begins with a dash. -/
def readOption (switches : List (Switch κ)) (word : List Char) : Option (Found κ) :=
  let name := String.ofList (word.takeWhile (· ≠ '='))
  let value := match word.dropWhile (· ≠ '=') with
    | [] => none
    | _ :: v => some (String.ofList v)
  match switches.find? (·.long == name) with
  | some s => readLong s value
  | none =>
    match word with
    | '-' :: '-' :: _ => none
    | _ => readShort switches word.tail

/-- Whether a word is read as options: a dash alone is not. -/
def isOption : List Char → Bool
  | '-' :: _ :: _ => true
  | _ => false

/-- Options and other words of a command line. Where options may not come after other words, the
first other word ends them. -/
def readWords (switches : List (Switch κ)) (mixed : Bool) (given : List (κ × String))
    (words : List String) : List String → Option (List (κ × String) × List String)
  | [] => some (given, words)
  | word :: rest =>
    if word = "--" then some (given, words ++ rest)
    else if isOption word.toList then
      match readOption switches word.toList with
      | none => none
      | some ⟨new, none⟩ => readWords switches mixed (given ++ new) words rest
      | some ⟨new, some key⟩ =>
        match rest with
        | [] => none
        | value :: rest => readWords switches mixed (given ++ new ++ [(key, value)]) words rest
    else if mixed then readWords switches mixed given (words ++ [word]) rest
    else some (given, words ++ word :: rest)

end WordMachine.Command
