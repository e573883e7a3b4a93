import SqlTemplate.Pattern.Atom
import SqlTemplate.Pattern.Dialect

/-!
# Matching

A matcher for the common dialect.

* `Regex.ends`: the places at which a match that starts at a given place can end;
* `Regex.isMatch`: whether some part of a text matches.
-/

namespace SqlTemplate.Pattern

/-- The places of both lists, each once. -/
def joinPlaces (as bs : List Nat) : List Nat :=
  bs.foldl (fun acc b => if acc.contains b then acc else acc ++ [b]) as

/-- The places that one step leads to from any of the given places. -/
def stepPlaces (step : Nat → List Nat) (places : List Nat) : List Nat :=
  places.foldl (fun acc i => joinPlaces acc (step i)) []

/-- The places after exactly `count` steps. -/
def exactSteps (step : Nat → List Nat) : Nat → List Nat → List Nat
  | 0, places => places
  | count + 1, places =>
    if places.isEmpty then [] else exactSteps step count (stepPlaces step places)

/-- The places after at most `count` steps. -/
def upToSteps (step : Nat → List Nat) : Nat → List Nat → List Nat
  | 0, places => places
  | count + 1, places =>
    let more := joinPlaces places (stepPlaces step places)
    if more.length = places.length then places else upToSteps step count more

namespace Regex

/-- The places at which a match from place `i` can end. -/
def ends (text : List Char) : Regex Common.Atom → Nat → List Nat
  | .empty, i => [i]
  | .atom a, i => a.ends text i
  | .both first second, i => stepPlaces (ends text second) (ends text first i)
  | .either left right, i => joinPlaces (ends text left i) (ends text right i)
  | .repeated least most r, i =>
    let required := exactSteps (ends text r) least [i]
    match most with
    | some most => upToSteps (ends text r) (most - least) required
    | none => upToSteps (ends text r) (text.length + 1) required

/-- Whether some part of the text matches. -/
def isMatch (r : Regex Common.Atom) (text : List Char) : Bool :=
  (List.range (text.length + 1)).any fun i => !(ends text r i).isEmpty

end Regex

end SqlTemplate.Pattern
