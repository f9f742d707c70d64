import Clausal.Proofs.Renaming.Formula

/-!
Environments under new names. Each binding stays where it is and keeps its truth value.
-/

set_option autoImplicit false

namespace Clausal

namespace Assoc

variable {α β γ : Type} {change : α → γ}

theorem keys_mapKeys (entries : List (α × β)) :
    keys (entries.map (Prod.map change id)) = (keys entries).map change := by
  simp [keys, Function.comp_def]

variable [DecidableEq α] [DecidableEq γ]

theorem get?_mapKeys (injective : Function.Injective change) (key : α) (entries : List (α × β)) :
    get? (change key) (entries.map (Prod.map change id)) = get? key entries := by
  rw [get?_mapEntries injective, Option.map_id]
  rfl

theorem insert_mapKeys (injective : Function.Injective change) (key : α) (value : β)
    (entries : List (α × β)) :
    insert (change key) value (entries.map (Prod.map change id)) =
      (insert key value entries).map (Prod.map change id) := by
  induction entries with
  | nil => rfl
  | cons entry rest ih =>
      simp only [List.map_cons, insert, Prod.map, injective.eq_iff, ih, id]
      split <;> rfl

end Assoc

namespace Environment

variable (names : Renaming)

def rename (environment : Environment) : Environment where
  bindings := environment.bindings.map (Prod.map names id)
  distinct := by
    rw [Assoc.keys_mapKeys]
    exact environment.distinct.map names.injective

@[simp] theorem rename_empty : empty.rename names = empty := rfl

variable (environment : Environment)

@[simp] theorem get_rename (atom : Variable) :
    (environment.rename names).get (names atom) = environment.get atom := by
  simp only [get, rename, Assoc.get?_mapKeys names.injective]

@[simp] theorem binds_rename (atom : Variable) :
    (environment.rename names).binds (names atom) = environment.binds atom := by
  simp only [binds, Assoc.contains, rename, Assoc.get?_mapKeys names.injective]

@[simp] theorem eval_rename (literal : Literal) :
    (environment.rename names).eval (literal.rename names) = environment.eval literal := by
  simp [eval]

theorem put_rename (atom : Variable) (value : Truth) :
    (environment.rename names).put (names atom) value = (environment.put atom value).rename names := by
  simp only [put, rename, Assoc.insert_mapKeys names.injective]

theorem assert_rename (literal : Literal) :
    (environment.rename names).assert (literal.rename names) =
      (environment.assert literal).rename names :=
  put_rename names environment literal.atom _

theorem ofList_rename (bindings : List (Variable × Truth)) :
    ofList (bindings.map (Prod.map names id)) = (ofList bindings).rename names := by
  rw [ofList, ofList, List.foldl_map, ← rename_empty names]
  exact List.foldl_hom (rename names) fun environment binding =>
    put_rename names environment binding.1 binding.2

theorem completeWith_rename (atoms : List Variable) :
    (environment.rename names).completeWith (atoms.map names) =
      (environment.completeWith atoms).rename names := by
  rw [completeWith, completeWith, List.foldl_map]
  apply List.foldl_hom
  intro completed atom
  rw [binds_rename, put_rename]
  split <;> rfl

end Environment

end Clausal
