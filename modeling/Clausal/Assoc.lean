/-!
Association lists in insertion order: a key that is already present keeps its place and takes the new
value, a new key goes to the end.
-/

set_option autoImplicit false

namespace Clausal.Assoc

variable {α β : Type} [DecidableEq α]

def keys (entries : List (α × β)) : List α := entries.map Prod.fst

def get? (key : α) : List (α × β) → Option β
  | [] => none
  | (candidate, value) :: rest => if candidate = key then some value else get? key rest

def contains (key : α) (entries : List (α × β)) : Bool := (get? key entries).isSome

/-- Puts a value under a key: in place if the key is present, at the end otherwise. -/
def insert (key : α) (value : β) : List (α × β) → List (α × β)
  | [] => [(key, value)]
  | (candidate, old) :: rest =>
      if candidate = key then (candidate, value) :: rest
      else (candidate, old) :: insert key value rest

/-- Inserts the entries one after another; a repeated key keeps its first place and last value. -/
def ofList (entries : List (α × β)) : List (α × β) :=
  entries.foldl (fun collected entry => insert entry.1 entry.2 collected) []

theorem mem_keys_insert {key other : α} {value : β} {entries : List (α × β)} :
    other ∈ keys (insert key value entries) ↔ other = key ∨ other ∈ keys entries := by
  induction entries with
  | nil => simp [insert, keys]
  | cons entry rest ih =>
      obtain ⟨candidate, old⟩ := entry
      simp only [keys] at ih
      unfold insert
      split
      · subst key
        simp [keys]
      · simp only [keys, List.map_cons, List.mem_cons, ih]
        grind

theorem nodup_keys_insert {key : α} {value : β} {entries : List (α × β)}
    (distinct : (keys entries).Nodup) : (keys (insert key value entries)).Nodup := by
  induction entries with
  | nil => simp [insert, keys]
  | cons entry rest ih =>
      obtain ⟨candidate, old⟩ := entry
      simp only [keys, List.map_cons, List.nodup_cons] at distinct
      unfold insert
      split
      · simpa [keys] using distinct
      · next different =>
          simp only [keys, List.map_cons, List.nodup_cons]
          refine ⟨fun member => ?_, ih distinct.2⟩
          rcases mem_keys_insert.mp member with same | member
          · exact different same
          · exact distinct.1 member

theorem get?_insert {key other : α} {value : β} {entries : List (α × β)} :
    get? other (insert key value entries) = if key = other then some value else get? other entries := by
  induction entries with
  | nil => simp [insert, get?]
  | cons entry rest ih =>
      obtain ⟨candidate, old⟩ := entry
      unfold insert
      split
      · subst key
        simp only [get?]
        split <;> rfl
      · simp only [get?, ih]
        grind

theorem get?_eq_none_iff {key : α} {entries : List (α × β)} :
    get? key entries = none ↔ key ∉ keys entries := by
  induction entries with
  | nil => simp [get?, keys]
  | cons entry rest ih =>
      obtain ⟨candidate, value⟩ := entry
      simp only [keys] at ih
      simp only [get?, keys, List.map_cons, List.mem_cons]
      split <;> grind

end Clausal.Assoc
