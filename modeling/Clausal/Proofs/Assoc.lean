import Clausal.Assoc
import Mathlib.Data.List.Induction

/-!
Association lists as logs of what was put into them. Keys stand in the order in which they first came, and
each has the value that it was given last.
-/

set_option autoImplicit false

namespace Clausal

theorem eraseDups_concat {α : Type} [DecidableEq α] (items : List α) (item : α) :
    (items ++ [item]).eraseDups =
      if item ∈ items then items.eraseDups else items.eraseDups ++ [item] := by
  rw [List.eraseDups_append]
  split
  · next known => simp [List.cons_removeAll, known]
  · next fresh => simp [List.cons_removeAll, List.eraseDups_cons, fresh]

theorem eraseDups_append_of_subset {α : Type} [DecidableEq α] {items others : List α}
    (known : others ⊆ items) : (items ++ others).eraseDups = items.eraseDups := by
  have nothing : others.removeAll items = [] :=
    List.filter_eq_nil_iff.mpr fun item member => by simp [known member]
  rw [List.eraseDups_append, nothing, List.eraseDups_nil, List.append_nil]

namespace Assoc

variable {α β : Type} [DecidableEq α]

theorem insert_of_not_mem {key : α} {value : β} {entries : List (α × β)}
    (fresh : key ∉ keys entries) : insert key value entries = entries ++ [(key, value)] := by
  induction entries with
  | nil => rfl
  | cons entry rest ih =>
      obtain ⟨candidate, old⟩ := entry
      simp only [keys, List.map_cons, List.mem_cons, not_or] at fresh
      rw [insert, if_neg (Ne.symm fresh.1), ih fresh.2]
      rfl

theorem get?_of_mem {key : α} {value : β} {entries : List (α × β)} (distinct : (keys entries).Nodup)
    (member : (key, value) ∈ entries) : get? key entries = some value := by
  induction entries with
  | nil => cases member
  | cons entry rest ih =>
      obtain ⟨candidate, old⟩ := entry
      simp only [keys, List.map_cons, List.nodup_cons] at distinct
      rw [get?]
      rcases List.mem_cons.mp member with same | member
      · cases same
        rw [if_pos rfl]
      · rw [if_neg, ih distinct.2 member]
        rintro rfl
        exact distinct.1 (List.mem_map_of_mem member)

theorem mem_of_get?_eq_some {key : α} {value : β} {entries : List (α × β)}
    (found : get? key entries = some value) : (key, value) ∈ entries := by
  induction entries with
  | nil => cases found
  | cons entry rest ih =>
      obtain ⟨candidate, first⟩ := entry
      rw [get?] at found
      split at found
      · next same =>
          cases found
          exact same ▸ List.mem_cons_self
      · exact List.mem_cons_of_mem _ (ih found)

theorem contains_iff {key : α} {entries : List (α × β)} :
    contains key entries = true ↔ key ∈ keys entries := by
  rw [contains, Option.isSome_iff_ne_none, Ne, get?_eq_none_iff, Classical.not_not]

theorem eq_or_mem_of_mem_insert {key : α} {value : β} {entries : List (α × β)} {entry : α × β}
    (member : entry ∈ insert key value entries) : entry = (key, value) ∨ entry ∈ entries := by
  induction entries with
  | nil => exact .inl (List.mem_singleton.mp member)
  | cons first rest ih =>
      obtain ⟨candidate, old⟩ := first
      rw [insert] at member
      split at member
      · next same =>
          rcases List.mem_cons.mp member with rfl | later
          · exact .inl (by rw [same])
          · exact .inr (List.mem_cons_of_mem _ later)
      · rcases List.mem_cons.mp member with rfl | later
        · exact .inr List.mem_cons_self
        · exact (ih later).imp_right (List.mem_cons_of_mem _)

theorem keys_insert_of_mem {key : α} {entries : List (α × β)} (known : key ∈ keys entries) (value : β) :
    keys (insert key value entries) = keys entries := by
  induction entries with
  | nil => cases known
  | cons entry rest ih =>
      obtain ⟨candidate, old⟩ := entry
      rw [insert]
      split
      · rfl
      · next different =>
          have later : key ∈ keys rest := (List.mem_cons.mp known).resolve_left (Ne.symm different)
          exact congrArg (candidate :: ·) (ih later)

theorem get?_mapEntries {γ δ : Type} [DecidableEq γ] {change : α → γ} (injective : Function.Injective change)
    (convert : β → δ) (key : α) (entries : List (α × β)) :
    get? (change key) (entries.map (Prod.map change convert)) = (get? key entries).map convert := by
  induction entries with
  | nil => rfl
  | cons entry rest ih =>
      simp only [List.map_cons, get?, Prod.map, injective.eq_iff, ih]
      split <;> rfl

/-! What is put in entry by entry. -/

theorem ofList_concat (entries : List (α × β)) (key : α) (value : β) :
    ofList (entries ++ [(key, value)]) = insert key value (ofList entries) := by
  rw [ofList, List.foldl_append]
  rfl

/-- The value that a key was given last. -/
def lastValue? (key : α) (entries : List (α × β)) : Option β :=
  (entries.reverse.find? fun entry => entry.1 = key).map Prod.snd

theorem lastValue?_concat (entries : List (α × β)) (key other : α) (value : β) :
    lastValue? other (entries ++ [(key, value)]) =
      if key = other then some value else lastValue? other entries := by
  rw [lastValue?, List.reverse_append, List.reverse_singleton, List.singleton_append, List.find?_cons]
  by_cases same : key = other
  · simp [same]
  · simp [same, lastValue?]

theorem mem_of_lastValue?_eq_some {key : α} {value : β} {entries : List (α × β)}
    (last : lastValue? key entries = some value) : (key, value) ∈ entries := by
  obtain ⟨⟨found, _⟩, search, rfl⟩ := Option.map_eq_some_iff.mp last
  have matched := List.find?_some search
  have same : found = key := of_decide_eq_true matched
  exact same ▸ List.mem_reverse.mp (List.mem_of_find?_eq_some search)

theorem exists_lastValue?_of_mem {key : α} {value : β} {entries : List (α × β)}
    (member : (key, value) ∈ entries) : ∃ last, lastValue? key entries = some last := by
  have found : (entries.reverse.find? fun entry => entry.1 = key).isSome = true :=
    List.find?_isSome.mpr ⟨_, List.mem_reverse.mpr member, decide_eq_true rfl⟩
  obtain ⟨entry, search⟩ := Option.isSome_iff_exists.mp found
  exact ⟨entry.2, congrArg _ search⟩

theorem get?_ofList (key : α) (entries : List (α × β)) :
    get? key (ofList entries) = lastValue? key entries := by
  induction entries using List.reverseRecOn with
  | nil => rfl
  | append_singleton entries entry ih =>
      obtain ⟨given, value⟩ := entry
      rw [ofList_concat, get?_insert, ih, lastValue?_concat]

theorem keys_ofList (entries : List (α × β)) :
    keys (ofList entries) = (entries.map Prod.fst).eraseDups := by
  induction entries using List.reverseRecOn with
  | nil => rfl
  | append_singleton entries entry ih =>
      obtain ⟨given, value⟩ := entry
      have sameKeys : given ∈ keys (ofList entries) ↔ given ∈ entries.map Prod.fst := by
        rw [ih, List.mem_eraseDups]
      rw [ofList_concat, List.map_append, List.map_singleton, eraseDups_concat, ← ih]
      by_cases known : given ∈ entries.map Prod.fst
      · rw [if_pos known, keys_insert_of_mem (sameKeys.mpr known)]
      · rw [if_neg known, insert_of_not_mem (mt sameKeys.mp known), keys, List.map_append]
        rfl

end Assoc

end Clausal
