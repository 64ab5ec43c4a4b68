import Tenancy.Json.Lexer

/-!
# Reading a JSON text

A reader takes the number of nested arrays and objects that may still be opened, and the input, and
gives a value with the rest of the input.  This module has the parts that all readers share: the
punctuation of arrays and objects, the reader of any value as a tree (`Reader.any`) and the reader
that passes over a value (`Reader.skip`).

Arrays and objects are read by steps that each take at least one byte, so the length of the input
bounds their number; the readers count down from it.
-/

namespace Tenancy.Json

/-- A reader of values: nesting left and input to value and rest. -/
abbrev Reader (α : Type) := Nat → Bytes → Except Fault (α × Bytes)

/-- How many arrays and objects may be nested in one another, and one more. -/
def nestingLimit : Nat := 128

/-- The nesting left inside an array or object that is being opened. -/
def descend (depth : Nat) : Except Fault Nat :=
  if depth ≤ 1 then .error .tooDeep else .ok (depth - 1)

/-- The input after the closing bracket of an array whose items have been read. -/
def closeArray (input : Bytes) : Except Fault Bytes :=
  match skipSpace input with
  | [] => .error .endInList
  | b :: rest =>
    if b = 93 then .ok rest
    else if b = 44 then
      match skipSpace rest with
      | 93 :: _ => .error .trailingComma
      | _ => .error .trailingCharacters
    else .error .trailingCharacters

/-- The input after the closing brace of an object whose members have been read. -/
def closeObject (input : Bytes) : Except Fault Bytes :=
  match skipSpace input with
  | [] => .error .endInObject
  | b :: rest =>
    if b = 125 then .ok rest
    else if b = 44 then .error .trailingComma
    else .error .trailingCharacters

/-- Where the next item of an array begins, or nothing before the closing bracket. -/
def nextItem (first : Bool) (input : Bytes) : Except Fault (Option Bytes) :=
  match skipSpace input with
  | [] => .error .endInList
  | b :: rest =>
    if b = 93 then .ok none
    else if first then .ok (some (b :: rest))
    else if b = 44 then
      match skipSpace rest with
      | [] => .error .endInValue
      | c :: rest => if c = 93 then .error .trailingComma else .ok (some (c :: rest))
    else .error .expectedItemOrEnd

/-- The next key of an object and where its colon is due, or nothing before the closing brace. -/
def nextKey (first : Bool) (input : Bytes) : Except Fault (Option (String × Bytes)) :=
  match skipSpace input with
  | [] => .error .endInObject
  | b :: rest =>
    if b = 125 then .ok none
    else if first then
      if b = 34 then (readString rest).map some else .error .keyNotString
    else if b = 44 then
      match skipSpace rest with
      | [] => .error .endInValue
      | c :: rest =>
        if c = 34 then (readString rest).map some
        else if c = 125 then .error .trailingComma
        else .error .keyNotString
    else .error .expectedMemberOrEnd

/-- The input after the colon between a key and its value. -/
def readColon (input : Bytes) : Except Fault Bytes :=
  match skipSpace input with
  | [] => .error .endInObject
  | b :: rest => if b = 58 then .ok rest else .error .expectedColon

namespace Reader

/-- The items of an array, each read by `item`; `fuel` bounds their number. -/
def items {α : Type} (item : Bytes → Except Fault (α × Bytes)) :
    Nat → Bool → Bytes → Except Fault (List α × Bytes)
  | 0, _, _ => .error .endInList
  | fuel + 1, first, input => do
    match ← nextItem first input with
    | none => .ok ([], input)
    | some input => do
      let (x, input) ← item input
      let (xs, input) ← items item fuel false input
      .ok (x :: xs, input)

/-- The members of an object, each value read by `value`; `fuel` bounds their number. -/
def members {α : Type} (value : Bytes → Except Fault (α × Bytes)) :
    Nat → Bool → Bytes → Except Fault (List (String × α) × Bytes)
  | 0, _, _ => .error .endInObject
  | fuel + 1, first, input => do
    match ← nextKey first input with
    | none => .ok ([], input)
    | some (key, input) => do
      let input ← readColon input
      let (x, input) ← value input
      let (xs, input) ← members value fuel false input
      .ok ((key, x) :: xs, input)

/-- Any value as a tree.  The first argument bounds the steps of one array or object, the nesting
left bounds the depth. -/
def tree (steps : Nat) : Reader Json
  | depth, input =>
    match skipSpace input with
    | [] => .error .endInValue
    | b :: rest =>
      if b = 110 then (readLetters (ascii "ull") rest).map (.null, ·)
      else if b = 116 then (readLetters (ascii "rue") rest).map (.bool true, ·)
      else if b = 102 then (readLetters (ascii "alse") rest).map (.bool false, ·)
      else if b = 45 then (readNumber true rest).map fun (n, rest) => (n.toJson, rest)
      else if isDigit b then (readNumber false (b :: rest)).map fun (n, rest) => (n.toJson, rest)
      else if b = 34 then (readString rest).map fun (s, rest) => (.string s, rest)
      else if b = 91 then
        match depth with
        | 0 => .error .tooDeep
        | 1 => .error .tooDeep
        | depth + 1 => do
          let (xs, rest) ← items (tree steps depth) steps true rest
          let rest ← closeArray rest
          .ok (.array xs, rest)
      else if b = 123 then
        match depth with
        | 0 => .error .tooDeep
        | 1 => .error .tooDeep
        | depth + 1 => do
          let (xs, rest) ← members (tree steps depth) steps true rest
          let rest ← closeObject rest
          .ok (.object xs, rest)
      else .error .expectedValue

/-- Any value as a tree, members in the order of the text and repeated keys kept. -/
def any : Reader Json := fun depth input => tree (input.length + 1) depth input

mutual

/-- The input after the next value. -/
def skipValue : Nat → Bytes → Except Fault Bytes
  | 0, _ => .error .endInValue
  | fuel + 1, input =>
    match skipSpace input with
    | [] => .error .endInValue
    | b :: rest =>
      if b = 110 then readLetters (ascii "ull") rest
      else if b = 116 then readLetters (ascii "rue") rest
      else if b = 102 then readLetters (ascii "alse") rest
      else if b = 45 then skipNumber rest
      else if isDigit b then skipNumber (b :: rest)
      else if b = 34 then skipString rest
      else if b = 91 then
        match skipSpace rest with
        | [] => .error .endInList
        | c :: after => if c = 93 then .ok after else skipItems fuel (c :: after)
      else if b = 123 then
        match skipSpace rest with
        | [] => .error .endInObject
        | c :: after => if c = 125 then .ok after else skipMembers fuel (c :: after)
      else .error .expectedValue

/-- The input after the items of an array, of which at least one is to come, and its bracket. -/
def skipItems : Nat → Bytes → Except Fault Bytes
  | 0, _ => .error .endInList
  | fuel + 1, input => do
    let rest ← skipValue fuel input
    match skipSpace rest with
    | [] => .error .endInList
    | b :: rest =>
      if b = 93 then .ok rest
      else if b = 44 then skipItems fuel rest
      else .error .expectedItemOrEnd

/-- The input after the members of an object, of which at least one is to come, and its brace. -/
def skipMembers : Nat → Bytes → Except Fault Bytes
  | 0, _ => .error .endInObject
  | fuel + 1, input =>
    match skipSpace input with
    | [] => .error .endInObject
    | 34 :: rest => do
      let rest ← skipString rest
      let rest ← readColon rest
      let rest ← skipValue fuel rest
      match skipSpace rest with
      | [] => .error .endInObject
      | b :: rest =>
        if b = 125 then .ok rest
        else if b = 44 then skipMembers fuel rest
        else .error .expectedMemberOrEnd
    | _ => .error .keyNotString

end

/-- Passes over a value of any depth, checking no more than its syntax. -/
def skip (input : Bytes) : Except Fault Bytes := skipValue (2 * input.length + 2) input

/-- The fault of a value that is not of the expected kind.  A scalar is read whole first, so a fault
of its own syntax comes before. -/
def unexpected {α : Type} (expected : String) (input : Bytes) : Except Fault (α × Bytes) :=
  match input with
  | [] => .error .endInValue
  | b :: rest =>
    let wrong (found : Found) : Except Fault (α × Bytes) := .error (.wrongType found expected)
    if b = 110 then do let _ ← readLetters (ascii "ull") rest; wrong .null
    else if b = 116 then do let _ ← readLetters (ascii "rue") rest; wrong (.bool true)
    else if b = 102 then do let _ ← readLetters (ascii "alse") rest; wrong (.bool false)
    else if b = 45 then do let (n, _) ← readNumber true rest; wrong n.found
    else if isDigit b then do let (n, _) ← readNumber false input; wrong n.found
    else if b = 34 then do let (s, _) ← readString rest; wrong (.text s)
    else if b = 91 then wrong .sequence
    else if b = 123 then wrong .map
    else .error .expectedValue

end Reader

/-- The value of a text that holds nothing else. -/
def readAll {α : Type} (read : Reader α) (input : Bytes) : Except Fault α := do
  let (x, rest) ← read nestingLimit input
  if (skipSpace rest).isEmpty then .ok x else .error .trailingCharacters

/-- What a tree holds, for messages. -/
def found : Json → Found
  | .null => .null
  | .bool b => .bool b
  | .int n => .int n
  | .float x => .float x
  | .string s => .text s
  | .array _ => .sequence
  | .object _ => .map

end Tenancy.Json
