import Tenancy.Json.Query
import Tenancy.Store.Name
import Tenancy.Time.Reader

/-!
# Labels

A transcript should not depend on what is drawn at random or read from a clock, so labels stand for
it: identifiers and markers are numbered in the order in which they appear, the drawn part of a
generated name by the order in which the names were stored, and the time of the bench is `now`.
-/

namespace Tenancy

structure Labels where
  /-- The number of readings of the clock. -/
  ticks : Nat := 0
  /-- The number of calls that have been made. -/
  calls : Nat := 0
  /-- The identifiers that have been shown, in order. -/
  uids : List String := []
  /-- The drawn parts of stored names, in order. -/
  draws : List String := []
  /-- The markers that have been drawn. -/
  markers : List String := []
  /-- The markers that have been shown, in order. -/
  shownMarkers : List String := []

/-- What is written down on a bench, with labels. -/
abbrev Transcript := StateM Labels

/-- The second in which the clock of a bench stands: 6:07:08 on 5 April 2061. -/
def benchSecond : Int := 2879906828

/-- The text is the time of a bench. -/
def isBenchTime (s : String) : Bool :=
  match Time.read s with
  | .ok t => t.seconds = benchSecond
  | .error _ => false

namespace Labels

/-- The number of an element of a list, counted from one, as a text. -/
def number? (l : List String) (s : String) : Option String :=
  (l.findIdx? (· = s)).map fun i => toString (i + 1)

/-- Reads the clock, which moves a little each time. -/
def now : Transcript Time := fun l =>
  (⟨benchSecond, (l.ticks + 1) * 1000⟩, { l with ticks := l.ticks + 1 })

/-- The number of a new call. -/
def nextCall : Transcript Nat := fun l => (l.calls + 1, { l with calls := l.calls + 1 })

/-- `n` in decimal with zeros in front, `width` characters in all. -/
def padded (width n : Nat) : String :=
  let digits := (toString n).toList
  String.ofList (List.replicate (width - digits.length) '0' ++ digits)

/-- The characters drawn for the call of a number. -/
def draw (n : Nat) : String := "q" ++ padded (drawLength - 1) n

/-- The label of an identifier, and whether it is shown for the first time. -/
def uid (s : String) : Transcript (String × Bool) := fun l =>
  match number? l.uids s with
  | some n => (("uid-" ++ n, false), l)
  | none => (("uid-" ++ toString (l.uids.length + 1), true), { l with uids := l.uids ++ [s] })

/-- A name with these drawn characters has been stored. -/
def addDraw (s : String) : Transcript Unit := modify fun l => { l with draws := l.draws ++ [s] }

/-- Draws a marker of the given length. -/
def drawMarker (length : Nat) : Transcript String := fun l =>
  let marker := "mK" ++ padded (length - 2) (l.markers.length + 1)
  (marker, { l with markers := l.markers ++ [marker] })

/-- The label of a marker that was drawn; other markers stand for themselves. -/
def marker (s : String) : Transcript String := fun l =>
  if !l.markers.contains s then (s, l)
  else
    match number? l.shownMarkers s with
    | some n => ("m#" ++ n, l)
    | none =>
      ("m#" ++ toString (l.shownMarkers.length + 1),
        { l with shownMarkers := l.shownMarkers ++ [s] })

/-- The marker for which a text stands. -/
def markerOf (l : Labels) (s : String) : String :=
  (l.shownMarkers.find? fun m => (number? l.shownMarkers m).map ("m#" ++ ·) = some s).getD s

/-- The text with labels. -/
def labelled (l : Labels) (s : String) : String :=
  if isBenchTime s then "now"
  else l.draws.zipIdx.foldl (fun s d => s.replace d.1 ("$" ++ toString (d.2 + 1))) s

/-- The name for which a text with labels stands. -/
def resolve (s : String) : Transcript String := fun l =>
  (l.draws.zipIdx.reverse.foldl (fun s d => s.replace ("$" ++ toString (d.2 + 1)) d.1) s, l)

/-- What of `cs` follows the first place where `word` stands, and what ends there. -/
def cutAfter (word : List Char) : List Char → Option (List Char × List Char)
  | [] => if word.isEmpty then some ([], []) else none
  | c :: cs =>
    if word.isPrefixOf (c :: cs) then some (word, (c :: cs).drop word.length)
    else (cutAfter word cs).map fun (before, after) => (c :: before, after)

/-- The message with the drawn part of a name that was not stored made unreadable: the characters
after the first place where the stem stands behind a quotation mark. -/
def masked (stem message : String) : String :=
  match cutAfter ('"' :: (keptStem stem).toList) message.toList with
  | none => message
  | some (before, after) =>
    String.ofList (before ++ List.replicate drawLength '?' ++ after.drop drawLength)

end Labels

end Tenancy
