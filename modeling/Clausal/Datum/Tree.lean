import Clausal.Datum
import Clausal.Position
import Clausal.Text.Integer

/-!
Data trees as trees of settings: keys that lead to a node, looking a node up, merging one tree over
another, and setting the node at a key.
-/

set_option autoImplicit false

namespace Clausal.Datum

/-- The steps after the first ones of a key: each begins with a dot or stands between brackets. What is
neither is skipped. -/
def laterSteps : List Char → List String
  | [] => []
  | '.' :: rest =>
      String.ofList (rest.takeWhile fun c => c ≠ '.' ∧ c ≠ '[')
        :: laterSteps (rest.dropWhile fun c => c ≠ '.' ∧ c ≠ '[')
  | '[' :: rest =>
      let inside := rest.takeWhile fun c => c ≠ ']' ∧ c ≠ '\n'
      if (rest.drop inside.length).head? = some ']' then
        String.ofList inside :: laterSteps (rest.drop (inside.length + 1))
      else laterSteps rest
  | _ :: rest => laterSteps rest
termination_by key => key.length
decreasing_by
  all_goals simp only [List.length_cons, List.length_drop]
  · exact Nat.lt_succ_of_le (List.dropWhile_sublist _).length_le
  all_goals omega

/-- The steps of a key. Steps are joined by dots or set in brackets; every dot in front of the first
step stands for an empty one. -/
def steps (key : String) : List String :=
  let text := key.toList
  let dots := text.takeWhile (· = '.')
  let first := (text.drop dots.length).takeWhile fun c => c ≠ '.' ∧ c ≠ '['
  let rest := text.drop (dots.length + first.length)
  let front := dots.map (fun _ => "")
  if first.isEmpty && !rest.isEmpty then front ++ laterSteps rest
  else front ++ String.ofList first :: laterSteps rest

/-- The element of a list that a step names by its decimal index. -/
def element? (items : List Datum) (step : String) : Option Datum := do
  let index ← Text.readInteger? step.toList
  if 0 ≤ index then items[index.toNat]? else none

/-- The node at some steps. A scalar has nothing below it. -/
def node? : List String → Datum → Option Datum
  | [], value => some value
  | step :: rest, .map entries => (Assoc.get? step entries).bind (node? rest)
  | step :: rest, .list items => (element? items step).bind (node? rest)
  | _ :: _, _ => none

/-- The node that the steps of a key lead to. A key without steps leads nowhere. -/
def nodeAlong? (key : String) (tree : Datum) : Option Datum :=
  match steps key with
  | [] => none
  | path => node? path tree

/-- The node at a key. The empty key and a single dot lead to the root, and one dot in front of a key
changes nothing; with more dots the key leads nowhere. -/
def lookup (tree : Datum) (key : String) : Option Datum :=
  match key.toList with
  | [] => some tree
  | '.' :: rest =>
      match rest with
      | [] => some tree
      | '.' :: _ => none
      | _ => nodeAlong? (String.ofList rest) tree
  | _ => nodeAlong? key tree

/-- A tree that was changed, and whether the change could be made to its end. -/
structure Merged (α : Type) where
  result : α
  complete : Bool

mutual

/-- Merges a value over an old one. Two maps are merged entry by entry; otherwise the value takes the
place of the old one, except that a list does not take the place of a map, nor a map that of a list. -/
def merge (old : Option Datum) : Datum → Merged Datum
  | .map entries =>
      match old with
      | some (.map oldEntries) =>
          let merged := mergeEntries oldEntries entries
          ⟨.map merged.result, merged.complete⟩
      | some (.list items) => ⟨.list items, false⟩
      | _ => ⟨.map entries, true⟩
  | .list items =>
      match old with
      | some (.map oldEntries) => ⟨.map oldEntries, false⟩
      | _ => ⟨.list items, true⟩
  | .null => ⟨.null, true⟩
  | .bool value => ⟨.bool value, true⟩
  | .int value => ⟨.int value, true⟩
  | .real value => ⟨.real value, true⟩
  | .text value => ⟨.text value, true⟩
  | .foreign typeName => ⟨.foreign typeName, true⟩

/-- Merges entries one after another up to the first that cannot be merged. -/
def mergeEntries (old : List (String × Datum)) :
    List (String × Datum) → Merged (List (String × Datum))
  | [] => ⟨old, true⟩
  | (key, value) :: rest =>
      let merged := merge (Assoc.get? key old) value
      let inserted := Assoc.insert key merged.result old
      if merged.complete then mergeEntries inserted rest else ⟨inserted, false⟩

end

inductive SetFault where
  /-- The key has no steps. -/
  | noStep
  /-- A list and a map cannot be merged. -/
  | incompatible
  /-- A list has no such element. -/
  | outOfRange
  /-- A step into a list is no index. -/
  | notAnIndex (step : String)
  /-- The last step into a list is no index. -/
  | badIndex (fault : Text.IntegerFault)
  deriving DecidableEq

/-- A tree after an attempt to set a node, and what stopped the attempt. -/
structure Change where
  tree : Datum
  fault : Option SetFault

/-- Replaces the element at an index, as far as the attempt on it got. -/
def Change.intoList (items : List Datum) (index : Nat) (change : Change) : Change :=
  { change with tree := .list (items.set index change.tree) }

def Change.intoMap (entries : List (String × Datum)) (step : String) (change : Change) : Change :=
  { change with tree := .map (Assoc.insert step change.tree entries) }

def Merged.toChange (merged : Merged Datum) : Change :=
  ⟨merged.result, if merged.complete then none else some .incompatible⟩

/-- A node that can have nodes below it; anything else counts as an empty map. -/
def container : Option Datum → Datum
  | some (.map entries) => .map entries
  | some (.list items) => .list items
  | _ => .map []

/-- Sets the node at some steps below a container. Maps are made where the steps lead through nothing or
through scalars. Without steps there is nothing to set. -/
def setAt (value : Datum) : List String → Datum → Change
  | [], tree => ⟨tree, some .noStep⟩
  | [step], .list items =>
      match Text.readInteger step.toList with
      | .error fault => ⟨.list items, some (.badIndex fault)⟩
      | .ok position =>
          match Position.resolve items.length position with
          | none => ⟨.list items, some .outOfRange⟩
          | some index => (merge items[index]? value).toChange.intoList items index
  | step :: rest, .list items =>
      match Text.readInteger? step.toList with
      | none => ⟨.list items, some (.notAnIndex step)⟩
      | some position =>
          match Position.resolve items.length position with
          | none => ⟨.list items, some .outOfRange⟩
          | some index =>
              (setAt value rest (container (element? items step))).intoList items index
  | [step], tree =>
      (merge (Assoc.get? step tree.entries) value).toChange.intoMap tree.entries step
  | step :: rest, tree =>
      (setAt value rest (container (Assoc.get? step tree.entries))).intoMap tree.entries step

def set (tree : Datum) (key : String) (value : Datum) : Change := setAt value (steps key) tree

example : steps "a.b" = ["a", "b"] ∧ steps "a[b].c" = ["a", "b", "c"] ∧ steps "[a].b" = ["a", "b"] := by
  decide +kernel

end Clausal.Datum
