import Tenancy.Json.Reader

/-!
# JSON formats

A format says how the values of one type are written as JSON and read back: from a text, byte by
byte, and from a tree that has been read before.  Formats are put together from the formats of
scalars by lists, options, records and unions, and what a reader accepts and which fault it reports
first follow from the parts.

* A record is read from an object, fields in any order and unknown ones passed over, or from an
  array of the fields in order.  A field that is missing has its default or, for an option, is
  absent.
* A union is read from the bare name of a variant, or from an object with the name as its only key.
* In a union with its tag beside its content the two members may come in either order; a content
  that comes first is kept as a tree until its tag is known.
-/

namespace Tenancy.Json

/-- How the values of a type are written as JSON and read back. -/
structure Format (α : Type) where
  read : Reader α
  ofTree : Json → Except Fault α
  toJson : α → Json
  /-- What a missing field of this type stands for, if it may be missing. -/
  absent : Option α := none

namespace Format

variable {α β : Type}

/-- The format of `β` that is the format of `α` seen through a pair of inverse maps. -/
def imap (f : Format α) (forth : α → β) (back : β → α) : Format β where
  read depth input := (f.read depth input).map fun (x, rest) => (forth x, rest)
  ofTree j := (f.ofTree j).map forth
  toJson y := f.toJson (back y)
  absent := f.absent.map forth

section Scalars

def text : Format String where
  read _ input :=
    match skipSpace input with
    | 34 :: rest => readString rest
    | input => Reader.unexpected "a string" input
  ofTree
    | .string s => .ok s
    | j => .error (.wrongType (found j) "a string")
  toJson := .string

def bool : Format Bool where
  read _ input :=
    match skipSpace input with
    | 116 :: rest => (readLetters (ascii "rue") rest).map (true, ·)
    | 102 :: rest => (readLetters (ascii "alse") rest).map (false, ·)
    | input => Reader.unexpected "a boolean" input
  ofTree
    | .bool b => .ok b
    | j => .error (.wrongType (found j) "a boolean")
  toJson := .bool

/-- The format whose only value is `null`. -/
def unit : Format Unit where
  read _ input :=
    match skipSpace input with
    | 110 :: rest => (readLetters (ascii "ull") rest).map ((), ·)
    | input => Reader.unexpected "unit" input
  ofTree
    | .null => .ok ()
    | j => .error (.wrongType (found j) "unit")
  toJson _ := .null

/-- The number as an integer from `low` to `high`. -/
def bounded (expected : String) (low high : Int) : Number → Except Fault Int
  | .int n => if low ≤ n ∧ n ≤ high then .ok n else .error (.wrongValue (.int n) expected)
  | .float x => .error (.wrongType (.float x) expected)

/-- Integers from `low` to `high`, which messages call `expected`. -/
def integer (expected : String) (low high : Int) : Format Int where
  read _ input :=
    match skipSpace input with
    | [] => .error .endInValue
    | b :: rest =>
      if b = 45 then do
        let (n, rest) ← readNumber true rest
        .ok (← bounded expected low high n, rest)
      else if isDigit b then do
        let (n, rest) ← readNumber false (b :: rest)
        .ok (← bounded expected low high n, rest)
      else Reader.unexpected expected (b :: rest)
  ofTree
    | .int n => bounded expected low high (.int n)
    | j => .error (.wrongType (found j) expected)
  toJson := .int

/-- Natural numbers up to `high`, which messages call `expected`. -/
def natural (expected : String) (high : Nat) : Format Nat :=
  (integer expected 0 high).imap Int.toNat Int.ofNat

/-- Texts in a notation of their own; `expected` names it in messages. -/
def spelled (expected : String) (parse : String → Except String α) (print : α → String) :
    Format α :=
  let check (s : String) : Except Fault α :=
    match parse s with
    | .ok x => .ok x
    | .error reason => .error (.malformed reason)
  { read := fun _ input =>
      match skipSpace input with
      | 34 :: rest => do
        let (s, rest) ← readString rest
        .ok (← check s, rest)
      | input => Reader.unexpected expected input
    ofTree
      | .string s => check s
      | j => .error (.wrongType (found j) expected)
    toJson := fun x => .string (print x) }

end Scalars

section Containers

mutual

/-- The tree with the members of every object sorted by key, of equal keys the last. -/
def normal : Json → Json
  | .array items => .array (normalItems items)
  | .object members => .object (sortMembers (normalMembers members))
  | j => j

def normalItems : List Json → List Json
  | [] => []
  | item :: items => normal item :: normalItems items

def normalMembers : List (String × Json) → List (String × Json)
  | [] => []
  | member :: members => (member.1, normal member.2) :: normalMembers members

end

/-- Any value; keys are sorted, of equal keys the last counts. -/
def any : Format Json where
  read depth input := (Reader.any depth input).map fun (j, rest) => (normal j, rest)
  ofTree j := .ok (normal j)
  toJson := id

/-- Lists of any length. -/
def list (f : Format α) : Format (List α) where
  read depth input :=
    match skipSpace input with
    | 91 :: rest => do
      let depth ← descend depth
      let (xs, rest) ← Reader.items (f.read depth) (rest.length + 1) true rest
      .ok (xs, ← closeArray rest)
    | input => Reader.unexpected "a sequence" input
  ofTree
    | .array items => items.mapM f.ofTree
    | j => .error (.wrongType (found j) "a sequence")
  toJson xs := .array (xs.map f.toJson)

/-- Members with any keys; they are sorted by key, of equal keys the last counts. -/
def members : Format (List (String × Json)) where
  read depth input :=
    match skipSpace input with
    | 123 :: rest => do
      let depth ← descend depth
      let (xs, rest) ← Reader.members (any.read depth) (rest.length + 1) true rest
      .ok (sortMembers xs, ← closeObject rest)
    | input => Reader.unexpected "a map" input
  ofTree
    | .object xs => .ok (sortMembers (normalMembers xs))
    | j => .error (.wrongType (found j) "a map")
  toJson xs := .object xs

/-- A value or `null`. -/
def optional (f : Format α) : Format (Option α) where
  read depth input :=
    match skipSpace input with
    | 110 :: rest => (readLetters (ascii "ull") rest).map (none, ·)
    | input => (f.read depth input).map fun (x, rest) => (some x, rest)
  ofTree
    | .null => .ok none
    | j => (f.ofTree j).map some
  toJson
    | none => .null
    | some x => f.toJson x
  absent := some none

end Containers

section Records

/-- A field of a record.  A field with a default may be missing; a hidden value is not written. -/
structure Field (α : Type) where
  key : String
  format : Format α
  default? : Option α := none
  hidden : α → Bool := fun _ => false

/-- A field that must be there, unless its type has a value that stands for its absence. -/
def Field.required (key : String) (format : Format α) : Field α := { key, format }

/-- A field with a default, which is written all the same. -/
def Field.defaulted (key : String) (format : Format α) (value : α) : Field α :=
  { key, format, default? := some value }

/-- An optional field that is written only if it has a value. -/
def Field.omittable (key : String) (format : Format α) : Field (Option α) :=
  { key, format := format.optional, default? := some none, hidden := Option.isNone }

/-- The fields of a record in order, with the type of its rows and the type of rows of which some
fields are still to come. -/
inductive Row : Type → Type → Type 1 where
  | nil : Row Unit Unit
  | cons {α β π : Type} (field : Field α) (rest : Row β π) : Row (α × β) (Option α × π)

namespace Row

variable {π : Type}

def length : {β π : Type} → Row β π → Nat
  | _, _, .nil => 0
  | _, _, .cons _ rest => rest.length + 1

/-- The row of which every field is still to come. -/
def blank : {β π : Type} → Row β π → π
  | _, _, .nil => ()
  | _, _, .cons _ rest => (none, rest.blank)

/-- The row of the fields that have come, with defaults for those that have not. -/
def complete : {β π : Type} → Row β π → π → Except Fault β
  | _, _, .nil, _ => .ok ()
  | _, _, .cons field rest, (slot, slots) => do
    let x ← match slot with
      | some x => .ok x
      | none =>
        match field.default? with
        | some x => .ok x
        | none =>
          match field.format.absent with
          | some x => .ok x
          | none => .error (.missingField field.key)
    .ok (x, ← rest.complete slots)

/-- The row with the field of `key` taken by `take`, or nothing if no field has this key. -/
def fill {σ : Type} (take : {α : Type} → Format α → Except Fault (α × σ)) :
    {β π : Type} → Row β π → String → π → Except Fault (Option (π × σ))
  | _, _, .nil, _, _ => .ok none
  | _, _, .cons field rest, key, (slot, slots) =>
    if key = field.key then
      if slot.isSome then .error (.duplicateField key)
      else do
        let (x, s) ← take field.format
        .ok (some ((some x, slots), s))
    else do
      match ← rest.fill take key slots with
      | none => .ok none
      | some (slots, s) => .ok (some ((slot, slots), s))

/-- The fields as the items of an array.  Items may be missing at the end for fields with a default;
`expected` names the record in messages. -/
def readItems (expected : String) (depth : Nat) :
    {β π : Type} → Row β π → Nat → Bytes → Except Fault (β × Bytes)
  | _, _, .nil, _, input => .ok ((), input)
  | _, _, .cons field rest, index, input => do
    match ← nextItem (index = 0) input with
    | some input => do
      let (x, input) ← field.format.read depth input
      let (xs, input) ← rest.readItems expected depth (index + 1) input
      .ok ((x, xs), input)
    | none =>
      match field.default? with
      | some x => do
        let (xs, input) ← rest.readItems expected depth (index + 1) input
        .ok ((x, xs), input)
      | none => .error (.wrongLength index expected)

/-- The fields as the members of an object, added to those that have come. -/
def readMembers {β : Type} (row : Row β π) (depth : Nat) :
    Nat → Bool → π → Bytes → Except Fault (β × Bytes)
  | 0, _, _, _ => .error .endInObject
  | fuel + 1, first, slots, input => do
    match ← nextKey first input with
    | none => .ok (← row.complete slots, input)
    | some (key, input) => do
      let take {α : Type} (f : Format α) : Except Fault (α × Bytes) := do
        f.read depth (← readColon input)
      match ← row.fill take key slots with
      | some (slots, input) => row.readMembers depth fuel false slots input
      | none => do
        let input ← Reader.skip (← readColon input)
        row.readMembers depth fuel false slots input

/-- The fields as the items of a tree. -/
def ofItems (expected : String) :
    {β π : Type} → Row β π → Nat → List Json → Except Fault β
  | _, _, .nil, index, items =>
    if items.isEmpty then .ok ()
    else
      let elements := if index = 1 then "1 element" else toString index ++ " elements"
      .error (.wrongLength (index + items.length) (elements ++ " in sequence"))
  | _, _, .cons field rest, index, item :: items => do
    let x ← field.format.ofTree item
    .ok (x, ← rest.ofItems expected (index + 1) items)
  | _, _, .cons field rest, index, [] =>
    match field.default? with
    | some x => do .ok (x, ← rest.ofItems expected (index + 1) [])
    | none => .error (.wrongLength index expected)

/-- The fields as the members of a tree, added to those that have come. -/
def ofMembers {β : Type} (row : Row β π) : π → List (String × Json) → Except Fault β
  | slots, [] => row.complete slots
  | slots, member :: members => do
    let take {α : Type} (f : Format α) : Except Fault (α × Unit) := do
      .ok (← f.ofTree member.2, ())
    match ← row.fill take member.1 slots with
    | some (slots, _) => row.ofMembers slots members
    | none => row.ofMembers slots members

/-- The members that a row is written as. -/
def toMembers : {β π : Type} → Row β π → β → List (String × Json)
  | _, _, .nil, _ => []
  | _, _, .cons field rest, (x, xs) =>
    if field.hidden x then rest.toMembers xs
    else (field.key, field.format.toJson x) :: rest.toMembers xs

end Row

/-- How messages describe a record as an array. -/
def elements (expected : String) (count : Nat) : String :=
  expected ++ " with " ++ if count = 1 then "1 element" else toString count ++ " elements"

/-- Records of the given fields, which messages call by `name`. -/
def record {π : Type} (name : String) (row : Row β π) : Format β :=
  let expected := "struct " ++ name
  { read := fun depth input =>
      match skipSpace input with
      | 91 :: rest => do
        let depth ← descend depth
        let (xs, rest) ← row.readItems (elements expected row.length) depth 0 rest
        .ok (xs, ← closeArray rest)
      | 123 :: rest => do
        let depth ← descend depth
        let (xs, rest) ← row.readMembers depth (rest.length + 1) true row.blank rest
        .ok (xs, ← closeObject rest)
      | input => Reader.unexpected expected input
    ofTree
      | .array items => row.ofItems (elements expected row.length) 0 items
      | .object members => row.ofMembers row.blank members
      | j => .error (.wrongType (found j) expected)
    toJson := fun xs => .object (row.toMembers xs) }

/-- Records that are only read from objects, such as the contents of a variant; messages call them
by `expected`. -/
def objectOnly {π : Type} (expected : String) (row : Row β π) : Format β where
  read depth input :=
    match skipSpace input with
    | 91 :: rest => do
      let _ ← descend depth
      Reader.unexpected expected (91 :: rest)
    | 123 :: rest => do
      let depth ← descend depth
      let (xs, rest) ← row.readMembers depth (rest.length + 1) true row.blank rest
      .ok (xs, ← closeObject rest)
    | input => Reader.unexpected expected input
  ofTree
    | .object members => row.ofMembers row.blank members
    | j => .error (.wrongType (found j) expected)
  toJson xs := .object (row.toMembers xs)

end Records

section Unions

/-- A variant of a union: a bare name, or a name with a content. -/
inductive Variant (α : Type) : Type 1 where
  | bare (name : String) (value : α)
  | carrying (name : String) {β : Type} (content : Format β) (wrap : β → α)

def Variant.name : Variant α → String
  | .bare name _ => name
  | .carrying name _ _ => name

/-- What `use` makes of the variant of the given name. -/
def withVariant {γ : Type} (variants : List (Variant α)) (name : String)
    (use : Variant α → Except Fault γ) : Except Fault γ :=
  match variants.find? fun v => v.name = name with
  | some v => use v
  | none => .error (.unknownVariant name (variants.map Variant.name))

/-- The value of a variant of which no more than the name is given. -/
def Variant.alone : Variant α → Except Fault α
  | .bare _ value => .ok value
  | .carrying _ _ _ => .error (.wrongType .bareVariant "newtype variant")

/-- The value of a variant whose content comes next. -/
def Variant.readContent : Variant α → Reader α
  | .bare _ value, depth, input => (unit.read depth input).map fun (_, rest) => (value, rest)
  | .carrying _ content wrap, depth, input =>
    (content.read depth input).map fun (x, rest) => (wrap x, rest)

/-- The value of a variant whose content is a tree. -/
def Variant.ofContent : Variant α → Json → Except Fault α
  | .bare _ value, j => (unit.ofTree j).map fun _ => value
  | .carrying _ content wrap, j => (content.ofTree j).map wrap

/-- The name of a variant as the only key of an object, from the key to after its colon. -/
def readVariantKey (input : Bytes) : Except Fault (String × Bytes) :=
  match skipSpace input with
  | [] => .error .endInValue
  | 34 :: rest => readString rest
  | input => Reader.unexpected "variant identifier" input

/-- The union of the given variants. -/
def union (variants : List (Variant α)) (toJson : α → Json) : Format α where
  read depth input :=
    match skipSpace input with
    | [] => .error .endInValue
    | 34 :: rest => do
      let (name, rest) ← readString rest
      .ok (← withVariant variants name Variant.alone, rest)
    | 123 :: rest => do
      let depth ← descend depth
      let (name, rest) ← readVariantKey rest
      let (x, rest) ← withVariant variants name fun v => do
        v.readContent depth (← readColon rest)
      match skipSpace rest with
      | [] => .error .endInObject
      | b :: rest => if b = 125 then .ok (x, rest) else .error .expectedValue
    | _ => .error .expectedValue
  ofTree
    | .string name => withVariant variants name Variant.alone
    | .object [(name, content)] => withVariant variants name fun v => v.ofContent content
    | .object _ => .error (.wrongValue .map "map with a single key")
    | j => .error (.wrongType (found j) "string or map")
  toJson := toJson

/-- The type whose values are all bare names. -/
def choice (values : List α) (name : α → String) : Format α :=
  union (values.map fun x => .bare (name x) x) fun x => .string (name x)

/-- The next member with one of two keys, others passed over: whether it is the first of the two,
and where its colon is due. -/
def nextOfTwo (tag content : String) :
    Nat → Bool → Bytes → Except Fault (Option (Bool × Bytes))
  | 0, _, _ => .error .endInObject
  | fuel + 1, first, input => do
    match ← nextKey first input with
    | none => .ok none
    | some (key, input) =>
      if key = tag then .ok (some (true, input))
      else if key = content then .ok (some (false, input))
      else do nextOfTwo tag content fuel false (← Reader.skip (← readColon input))

/-- The input after the members that remain and the closing brace; neither of the two keys may come
again. -/
def finishTwo (tag content : String) : Nat → Bool → Bytes → Except Fault Bytes
  | 0, _, _ => .error .endInObject
  | fuel + 1, first, input => do
    match ← nextKey first input with
    | none => closeObject input
    | some (key, input) =>
      if key = tag then .error (.duplicateField tag)
      else if key = content then .error (.duplicateField content)
      else do finishTwo tag content fuel false (← Reader.skip (← readColon input))

/-- The union of the given variants, named by the member `tag` and with its content in the member
`content`; messages call it by `name`. -/
def adjacent (name tag content : String) (variants : List (Variant α)) (toJson : α → Json) :
    Format α :=
  let expected := "adjacently tagged enum " ++ name
  let tags : Format (Fin variants.length) :=
    choice (List.finRange variants.length) fun i => variants[i].name
  { read := fun depth input =>
      match skipSpace input with
      | 91 :: rest => do
        let depth ← descend depth
        match ← nextItem true rest with
        | none => .error (.wrongLength 0 expected)
        | some rest => do
          let (i, rest) ← tags.read depth rest
          match ← nextItem false rest with
          | none => .error (.wrongLength 1 expected)
          | some rest => do
            let (x, rest) ← variants[i].readContent depth rest
            .ok (x, ← closeArray rest)
      | 123 :: rest => do
        let depth ← descend depth
        let fuel := rest.length + 1
        match ← nextOfTwo tag content fuel true rest with
        | none => .error (.missingField tag)
        | some (true, rest) => do
          let (i, rest) ← tags.read depth (← readColon rest)
          match ← nextOfTwo tag content fuel false rest with
          | none => .error (.missingField content)
          | some (true, _) => .error (.duplicateField tag)
          | some (false, rest) => do
            let (x, rest) ← variants[i].readContent depth (← readColon rest)
            .ok (x, ← finishTwo tag content fuel false rest)
        | some (false, rest) => do
          let (tree, rest) ← Reader.any depth (← readColon rest)
          match ← nextOfTwo tag content fuel false rest with
          | none => .error (.missingField tag)
          | some (false, _) => .error (.duplicateField content)
          | some (true, rest) => do
            let (i, rest) ← tags.read depth (← readColon rest)
            let x ← variants[i].ofContent tree
            .ok (x, ← finishTwo tag content fuel false rest)
      | input => Reader.unexpected expected input
    ofTree
      | .object members =>
        match members.lookup tag, members.lookup content with
        | none, _ => .error (.missingField tag)
        | some t, some c => do variants[← tags.ofTree t].ofContent c
        | some t, none => do
          let _ ← tags.ofTree t
          .error (.missingField content)
      | .array [t, c] => do variants[← tags.ofTree t].ofContent c
      | .array items => .error (.wrongLength (min items.length 1) expected)
      | j => .error (.wrongType (found j) expected)
    toJson := toJson }

end Unions

/-- The value that a text writes. -/
def decode (f : Format α) (bytes : Bytes) : Except Fault α := readAll f.read bytes

/-- The text that writes a value. -/
def encode (f : Format α) (x : α) : Bytes := compact (f.toJson x)

end Format

end Tenancy.Json
